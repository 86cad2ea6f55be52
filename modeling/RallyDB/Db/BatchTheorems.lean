import RallyDB.Db.Lemmas.WriteBatch
import RallyDB.Util.Lemmas.Coding

/-!
# Main results about write batches
-/

namespace RallyDB.Db

open Util List WriteBatch
open Prod (fst snd)

/-- The batches that calls of `Put`, `Delete` and `Append` make, with the operations that they stand for. -/
inductive Built : WriteBatch → List (BatchOp Slice) → Prop where
  | new : Built .clear []
  | put {b ops} (h : Built b ops) (key value : Slice) : Built (b.put key value) (ops ++ [.put key value])
  | delete {b ops} (h : Built b ops) (key : Slice) : Built (b.delete key) (ops ++ [.delete key])
  | append {b src ops ops'} (h : Built b ops) (h' : Built src ops') : Built (b.append src) (ops ++ ops')

variable {b : WriteBatch} {ops : List (BatchOp Slice)}

lemma Built.holds (h : Built b ops) (hlt : ops.length < 2 ^ 32) : b.Holds 0 ops := by
  induction h with
  | new => exact holds_clear
  | put h key value ih =>
    rw [length_append, length_singleton] at hlt
    exact (ih (by omega)).put (by omega) key value
  | delete h key ih =>
    rw [length_append, length_singleton] at hlt
    exact (ih (by omega)).delete (by omega) key
  | append h h' ih ih' =>
    rw [length_append] at hlt
    exact (ih (by omega)).append (ih' (by omega)) hlt

def BatchOp.addTo (mem : MemTable Slice) (sequence : Nat) : BatchOp Slice → MemTable Slice
  | .put key value => mem.add sequence .value key value
  | .delete key => mem.add sequence .deletion key []

/-- The batch stands for the operations: each of them is replayed and counted, and with the base sequence `s` the memtable
gets each of them under its own number and reads it back. -/
structure Replays (b : WriteBatch) (ops : List (BatchOp Slice)) (s : Nat) : Prop where
  count : b.count = ops.length
  iterate : b.iterate = (ops, .ok ())
  insertInto : ∀ mem, (b.setSequence s).insertInto mem = ((ops.zipIdx s).foldl (fun mem p => p.1.addTo mem p.2) mem, .ok ())
  kept : ∀ e ∈ batchEntries s ops, MemTable.getEntry (MemTable.encodeEntry e) = some (e, [])

/-- The strings of a record are stored with their lengths, which need not be the shortest varints. -/
inductive IsRecord : Slice → BatchOp Slice → Prop where
  | put {k v key value : Slice} (hk : IsLengthPrefixed k key) (hv : IsLengthPrefixed v value) :
    IsRecord (UInt8.ofNat (ValueType.code .value) :: (k ++ v)) (.put key value)
  | delete {k key : Slice} (hk : IsLengthPrefixed k key) :
    IsRecord (UInt8.ofNat (ValueType.code .deletion) :: k) (.delete key)

variable {input rest contents : Slice}

lemma isRecord_of_getRecord {tag : UInt8} {op : BatchOp Slice} (h : getRecord tag input = .ok (op, rest)) :
    ∃ used, tag :: input = used ++ rest ∧ IsRecord used op := by
  unfold getRecord at h
  split_ifs at h with hput hdelete
  · split at h
    · cases h
    · rename_i key mid hkey
      split at h
      · cases h
      · rename_i value hvalue
        cases h
        obtain ⟨k, rfl, hk⟩ := isLengthPrefixed_of_get hkey
        obtain ⟨v, rfl, hv⟩ := isLengthPrefixed_of_get hvalue
        refine ⟨_, ?_, .put hk hv⟩
        rw [← hput, UInt8.ofNat_toNat, cons_append, append_assoc]
  · split at h
    · cases h
    · rename_i key hkey
      cases h
      obtain ⟨k, rfl, hk⟩ := isLengthPrefixed_of_get hkey
      refine ⟨_, ?_, .delete hk⟩
      rw [← hdelete, UInt8.ofNat_toNat, cons_append]

lemma isRecord_of_iterateLoop (h : (iterateLoop input).2 = .ok ()) : ∃ records : List (Slice × BatchOp Slice),
    input = records.flatMap fst ∧ (iterateLoop input).1 = records.map snd ∧ ∀ r ∈ records, IsRecord r.1 r.2 := by
  fun_induction iterateLoop input with
  | case1 => exact ⟨[], rfl, rfl, by simp⟩
  | case2 tag input msg hget => cases h
  | case3 tag input op rest hget r ih =>
    obtain ⟨records, hrest, hops, hrecords⟩ := ih h
    obtain ⟨used, hused, hop⟩ := isRecord_of_getRecord hget
    refine ⟨(used, op) :: records, ?_, by rw [map_cons, ← hops], forall_mem_cons.2 ⟨hop, hrecords⟩⟩
    rw [flatMap_cons, ← hrest]
    exact hused

lemma isRecord_of_iterate (h : (WriteBatch.mk contents).iterate.2 = .ok ()) :
    ∃ header, ∃ records : List (Slice × BatchOp Slice), contents = header ++ records.flatMap fst ∧
    header.length = WriteBatch.kHeader ∧ records.length = (WriteBatch.mk contents).count ∧
    (WriteBatch.mk contents).iterate.1 = records.map snd ∧ ∀ r ∈ records, IsRecord r.1 r.2 := by
  unfold WriteBatch.iterate at h ⊢
  split_ifs at h ⊢ with hshort
  dsimp only at h hshort ⊢
  cases hloop : WriteBatch.iterateLoop (contents.drop WriteBatch.kHeader) with
  | mk ops status =>
    rw [hloop] at h
    cases status with
    | error e => cases h
    | ok u =>
      dsimp only at h ⊢
      split_ifs at h with hcount
      obtain ⟨records, hdrop, hops, hrecords⟩ := isRecord_of_iterateLoop (congrArg snd hloop)
      rw [hloop] at hops
      refine ⟨contents.take WriteBatch.kHeader, records, ?_, ?_, ?_, hops, hrecords⟩
      · rw [← hdrop, take_append_drop]
      · exact length_take_of_le (not_lt.1 hshort)
      · rw [← hcount, show ops = _ from hops, length_map]

lemma IsRecord.fits {s : Slice} {op : BatchOp Slice} (h : IsRecord s op) : op.Fits := by
  cases h with
  | put hk hv => exact ⟨hk.length_lt, hv.length_lt⟩
  | delete hk => exact ⟨hk.length_lt, by simp [BatchOp.value]⟩

lemma Replays.fits {s : Nat} (h : Replays b ops s) : ∀ op ∈ ops, op.Fits := by
  obtain ⟨-, records, -, -, -, hops, hrecords⟩ := isRecord_of_iterate (congrArg snd h.iterate)
  rw [h.iterate] at hops
  intro op hop
  rw [show ops = _ from hops, mem_map] at hop
  obtain ⟨r, hr, rfl⟩ := hop
  exact (hrecords r hr).fits

/-! ## What is read back -/

end RallyDB.Db
