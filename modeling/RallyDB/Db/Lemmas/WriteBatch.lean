import RallyDB.Db.WriteBatch

/-!
# What a write batch holds
-/

namespace RallyDB.Db

open Util Table List

def BatchOp.encode : BatchOp Slice → Slice
  | .put key value =>
    UInt8.ofNat (ValueType.code .value) :: (putLengthPrefixedSlice key ++ putLengthPrefixedSlice value)
  | .delete key => UInt8.ofNat (ValueType.code .deletion) :: putLengthPrefixedSlice key

def BatchOp.Fits (op : BatchOp Slice) : Prop := op.key.length < 2 ^ 32 ∧ op.value.length < 2 ^ 32

lemma BatchOp.Storable.fits {op : BatchOp Slice} (h : op.Storable) : op.Fits := ⟨(Nat.le_add_right _ _).trans_lt h.1, h.2⟩

namespace WriteBatch

def Holds (b : WriteBatch) (seq : Nat) (ops : List (BatchOp Slice)) : Prop :=
  b.rep = encodeFixed64 seq ++ (encodeFixed32 ops.length ++ ops.flatMap BatchOp.encode)

variable {b : WriteBatch} {seq : Nat} {ops : List (BatchOp Slice)}

lemma holds_clear : clear.Holds 0 [] := rfl

section

variable (h : b.Holds seq ops)
include h

lemma Holds.count (hlt : ops.length < 2 ^ 32) : b.count = ops.length := by
  unfold WriteBatch.count
  rw [h, drop_left' (encodeFixed64_length seq)]
  exact decodeFixed32_encodeFixed32 hlt _

lemma Holds.sequence (hlt : seq < 2 ^ 64) : b.sequence = seq := by
  unfold WriteBatch.sequence
  rw [h]
  exact decodeFixed64_encodeFixed64 hlt _

lemma Holds.drop_header : b.rep.drop kHeader = ops.flatMap BatchOp.encode := by
  rw [h, ← append_assoc]
  exact drop_left' (by simp [kHeader])

lemma Holds.byteSize : b.byteSize = kHeader + (ops.flatMap BatchOp.encode).length := by
  unfold WriteBatch.byteSize
  rw [h]
  simp [kHeader]
  omega

lemma Holds.setSequence (seq' : Nat) : (b.setSequence seq').Holds seq' ops := by
  unfold WriteBatch.setSequence Holds
  rw [h, drop_left' (encodeFixed64_length seq)]

lemma Holds.setCount (n : Nat) :
    (b.setCount n).rep = encodeFixed64 seq ++ (encodeFixed32 n ++ ops.flatMap BatchOp.encode) := by
  unfold WriteBatch.setCount
  rw [h.drop_header, h, take_left' (encodeFixed64_length seq), append_assoc]

end

lemma Holds.append {src : WriteBatch} {seq' : Nat} {ops' : List (BatchOp Slice)} (h : b.Holds seq ops)
    (h' : src.Holds seq' ops') (hlt : ops.length + ops'.length < 2 ^ 32) : (b.append src).Holds seq (ops ++ ops') := by
  unfold WriteBatch.append Holds
  rw [h.count (by omega), h'.count (by omega), h.setCount, h'.drop_header, length_append, flatMap_append]
  simp only [append_assoc]

lemma Holds.put (h : b.Holds seq ops) (hlt : ops.length < 2 ^ 32) (key value : Slice) :
    (b.put key value).Holds seq (ops ++ [.put key value]) := by
  unfold WriteBatch.put Holds
  rw [h.count hlt, h.setCount]
  simp [BatchOp.encode]

lemma Holds.delete (h : b.Holds seq ops) (hlt : ops.length < 2 ^ 32) (key : Slice) :
    (b.delete key).Holds seq (ops ++ [.delete key]) := by
  unfold WriteBatch.delete Holds
  rw [h.count hlt, h.setCount]
  simp [BatchOp.encode]

lemma getRecord_encode {op : BatchOp Slice} (h : op.Fits) (rest : Slice) :
    ∃ tag body, op.encode = tag :: body ∧ getRecord tag (body ++ rest) = .ok (op, rest) := by
  cases op with
  | put key value =>
    have hkey : key.length < 2 ^ 32 := h.1
    have hvalue : value.length < 2 ^ 32 := h.2
    refine ⟨_, _, rfl, ?_⟩
    unfold getRecord
    rw [if_pos (by decide), append_assoc, getLengthPrefixedSlice_put hkey]
    dsimp only
    rw [getLengthPrefixedSlice_put hvalue]
  | delete key =>
    have hkey : key.length < 2 ^ 32 := h.1
    refine ⟨_, _, rfl, ?_⟩
    unfold getRecord
    rw [if_neg (by decide), if_pos (by decide), getLengthPrefixedSlice_put hkey]

lemma iterateLoop_encode (h : ∀ op ∈ ops, op.Fits) : iterateLoop (ops.flatMap BatchOp.encode) = (ops, .ok ()) := by
  induction ops with
  | nil =>
    rw [flatMap_nil, iterateLoop]
  | cons op ops ih =>
    obtain ⟨hop, hops⟩ := forall_mem_cons.1 h
    obtain ⟨tag, body, hencode, hget⟩ := getRecord_encode hop (ops.flatMap BatchOp.encode)
    rw [flatMap_cons, hencode, cons_append, iterateLoop]
    split
    · rename_i he
      rw [hget] at he
      cases he
    · rename_i he
      rw [hget] at he
      cases he
      rw [ih hops]

lemma Holds.iterate (h : b.Holds seq ops) (hops : ∀ op ∈ ops, op.Fits) (hlt : ops.length < 2 ^ 32) :
    b.iterate = (ops, .ok ()) := by
  have hlength : ¬ b.rep.length < kHeader := by
    have := h.byteSize
    unfold WriteBatch.byteSize at this
    omega
  unfold WriteBatch.iterate
  rw [if_neg hlength, h.drop_header, iterateLoop_encode hops]
  dsimp only
  rw [h.count hlt, if_pos rfl]

end WriteBatch

lemma holds_foldl {ops : List (BatchOp Slice)} {b : WriteBatch} {seq : Nat} {ops0 : List (BatchOp Slice)}
    (h : b.Holds seq ops0) (hlt : ops0.length + ops.length < 2 ^ 32) :
    (ops.foldl (fun b op => match op with
      | .put key value => b.put key value
      | .delete key => b.delete key) b).Holds seq (ops0 ++ ops) := by
  induction ops generalizing b ops0 with
  | nil =>
    rw [append_nil]
    exact h
  | cons op ops ih =>
    rw [length_cons] at hlt
    have happ : ∀ b' : WriteBatch, b'.Holds seq (ops0 ++ [op]) → (ops.foldl (fun b op => match op with
        | .put key value => b.put key value
        | .delete key => b.delete key) b').Holds seq (ops0 ++ op :: ops) := fun b' hb' => by
      have := ih hb' (by rw [length_append, length_singleton]; omega)
      rwa [append_assoc] at this
    cases op with
    | put key value => exact happ _ (h.put (by omega) key value)
    | delete key => exact happ _ (h.delete (by omega) key)

lemma Batch.holds (b : Batch) : b.writeBatch.Holds 0 b.ops :=
  holds_foldl WriteBatch.holds_clear (by have := b.count_lt; rw [length_nil]; omega)

end RallyDB.Db
