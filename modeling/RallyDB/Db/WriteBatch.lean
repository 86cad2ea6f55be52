import RallyDB.Db.History
import RallyDB.Db.KeyEncoding
import RallyDB.Table.Format

/-!
# Write batches (`db/write_batch.cc`)
-/

namespace RallyDB.Db

open Util Table

structure WriteBatch where
  rep : Slice
  deriving DecidableEq

namespace WriteBatch

def kHeader : Nat := 12

def clear : WriteBatch := ⟨List.replicate kHeader 0⟩

variable (b : WriteBatch)

def byteSize : Nat := b.rep.length

def count : Nat := decodeFixed32 (b.rep.drop 8)

def setCount (n : Nat) : WriteBatch := ⟨b.rep.take 8 ++ encodeFixed32 n ++ b.rep.drop kHeader⟩

def sequence : Nat := decodeFixed64 b.rep

def setSequence (seq : Nat) : WriteBatch := ⟨encodeFixed64 seq ++ b.rep.drop 8⟩

def put (key value : Slice) : WriteBatch :=
  ⟨(b.setCount (b.count + 1)).rep ++ UInt8.ofNat (ValueType.code .value) ::
    (putLengthPrefixedSlice key ++ putLengthPrefixedSlice value)⟩

def delete (key : Slice) : WriteBatch :=
  ⟨(b.setCount (b.count + 1)).rep ++ UInt8.ofNat (ValueType.code .deletion) :: putLengthPrefixedSlice key⟩

def append (dst src : WriteBatch) : WriteBatch :=
  ⟨(dst.setCount (dst.count + src.count)).rep ++ src.rep.drop kHeader⟩

def getRecord (tag : UInt8) (input : Slice) : Except String (BatchOp Slice × Slice) :=
  if tag.toNat = ValueType.code .value then
    match getLengthPrefixedSlice input with
    | none => .error "bad WriteBatch Put"
    | some (key, input) =>
      match getLengthPrefixedSlice input with
      | none => .error "bad WriteBatch Put"
      | some (value, input) => .ok (.put key value, input)
  else if tag.toNat = ValueType.code .deletion then
    match getLengthPrefixedSlice input with
    | none => .error "bad WriteBatch Delete"
    | some (key, input) => .ok (.delete key, input)
  else .error "unknown WriteBatch tag"

lemma length_getRecord {tag : UInt8} {input rest : Slice} {op : BatchOp Slice}
    (h : getRecord tag input = .ok (op, rest)) : rest.length < input.length := by
  unfold getRecord at h
  split_ifs at h
  · split at h
    · cases h
    · rename_i hkey
      split at h
      · cases h
      · rename_i hvalue
        cases h
        exact (length_getLengthPrefixedSlice hvalue).trans (length_getLengthPrefixedSlice hkey)
  · split at h
    · cases h
    · rename_i hkey
      cases h
      exact length_getLengthPrefixedSlice hkey

def iterateLoop (input : Slice) : List (BatchOp Slice) × Status :=
  match input with
  | [] => ([], .ok ())
  | tag :: input =>
    match _ : getRecord tag input with
    | .error msg => ([], .error (.corruption msg))
    | .ok (op, rest) =>
      let r := iterateLoop rest
      (op :: r.1, r.2)
termination_by input.length
decreasing_by
  rename_i h
  exact Nat.lt_succ_of_lt (length_getRecord h)

def iterate : List (BatchOp Slice) × Status :=
  if b.rep.length < kHeader then ([], .error (.corruption "malformed WriteBatch (too small)"))
  else
    match iterateLoop (b.rep.drop kHeader) with
    | (ops, .error e) => (ops, .error e)
    | (ops, .ok _) =>
      (ops, if ops.length = b.count then .ok () else .error (.corruption "WriteBatch has wrong count"))

/-- `WriteBatchInternal::InsertInto`: what the handler was called with is in the memtable also when an error is found
later. -/
def insertInto (b : WriteBatch) (mem : MemTable Slice) : MemTable Slice × Status :=
  let r := b.iterate
  (Db.insertInto mem b.sequence r.1, r.2)

end WriteBatch

def BatchOp.value : BatchOp Slice → Slice
  | .put _ value => value
  | .delete _ => []

def BatchOp.Storable (op : BatchOp Slice) : Prop := op.key.length + 8 < 2 ^ 32 ∧ op.value.length < 2 ^ 32

instance (op : BatchOp Slice) : Decidable op.Storable := inferInstanceAs (Decidable (_ ∧ _))

/-! ## The entries of a memtable as bytes (`db/memtable.cc`) -/

/-- The sizes of the internal key and of the value have 32 bits, the sequence number has 56. -/
def StorableEntry (e : Entry Slice) : Prop :=
  e.1.userKey.length + 8 < 2 ^ 32 ∧ e.1.sequence ≤ kMaxSequenceNumber ∧ e.2.length < 2 ^ 32

/-- What `MemTable::Add` writes; sizes and sequence numbers that are too large wrap around. -/
def MemTable.encodeEntry (e : Entry Slice) : Slice := putLengthPrefixedSlice e.1.encode ++ putLengthPrefixedSlice e.2

/-- What `MemTableIterator` reads. -/
def MemTable.getEntry (input : Slice) : Option (Entry Slice × Slice) := do
  let (key, input) ← getLengthPrefixedSlice input
  let key ← parseInternalKey key
  let (value, input) ← getLengthPrefixedSlice input
  return ((key, value), input)

lemma MemTable.getEntry_encode {e : Entry Slice} (h : StorableEntry e) (rest : Slice) :
    getEntry (encodeEntry e ++ rest) = some (e, rest) := by
  have hkey : e.1.encode.length < 2 ^ 32 := by rw [InternalKey.encode_length]; exact h.1
  have hstorable : e.1.Storable := h.2.1
  unfold getEntry encodeEntry
  rw [List.append_assoc, getLengthPrefixedSlice_put hkey]
  simp only [Option.bind_eq_bind, Option.bind_some, parseInternalKey_encode hstorable, getLengthPrefixedSlice_put h.2.2]
  rfl

structure Batch where
  ops : List (BatchOp Slice)
  storable : ∀ op ∈ ops, op.Storable
  count_lt : ops.length < 2 ^ 31

def Batch.writeBatch (b : Batch) : WriteBatch :=
  b.ops.foldl (fun b op => match op with
    | .put key value => b.put key value
    | .delete key => b.delete key) .clear

end RallyDB.Db
