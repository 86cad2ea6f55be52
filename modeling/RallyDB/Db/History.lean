import RallyDB.Db.DbImpl
import RallyDB.Db.Lemmas.Lookup

/-!
# What reads of the database should return
-/

namespace RallyDB.Db

open RallyDB.Lib List

variable {κ : Type*}

/-! ## The entries of the history -/

def BatchOp.key : BatchOp κ → κ
  | .put key _ => key
  | .delete key => key

def BatchOp.entry (sequence : Nat) : BatchOp κ → Entry κ
  | .put key value => (⟨key, sequence, .value⟩, value)
  | .delete key => (⟨key, sequence, .deletion⟩, [])

def batchEntries (sequence : Nat) : List (BatchOp κ) → List (Entry κ)
  | [] => []
  | op :: ops => op.entry sequence :: batchEntries (sequence + 1) ops

def written (ops : List (BatchOp κ)) : Set (Entry κ) := {e | e ∈ batchEntries 1 ops}

def entryValue : Option (Entry κ) → Option Slice
  | some (k, value) => match k.type with
    | .value => some value
    | .deletion => none
  | none => none

@[simp] lemma BatchOp.entry_sequence (s : Nat) (op : BatchOp κ) : (op.entry s).1.sequence = s := by
  cases op <;> rfl

@[simp] lemma BatchOp.entry_userKey (s : Nat) (op : BatchOp κ) : (op.entry s).1.userKey = op.key := by
  cases op <;> rfl

lemma batchEntries_append (s : Nat) (l m : List (BatchOp κ)) :
    batchEntries s (l ++ m) = batchEntries s l ++ batchEntries (s + l.length) m := by
  induction l generalizing s with
  | nil => simp [batchEntries]
  | cons op l ih => simp [batchEntries, ih, add_assoc, add_comm 1]

variable {ops : List (BatchOp κ)}

lemma batchEntries_sequence {s : Nat} {e : Entry κ} (h : e ∈ batchEntries s ops) :
    s ≤ e.1.sequence ∧ e.1.sequence < s + ops.length := by
  induction ops generalizing s with
  | nil => cases h
  | cons op ops ih =>
    rcases mem_cons.1 h with rfl | h
    · simp
    · have := ih h
      simp only [length_cons]
      omega

lemma batchEntries_increasing (s : Nat) (ops : List (BatchOp κ)) :
    (batchEntries s ops).Pairwise fun a b => a.1.sequence < b.1.sequence := by
  induction ops generalizing s with
  | nil => exact .nil
  | cons op ops ih =>
    refine List.Pairwise.cons (fun e he => ?_) (ih _)
    have := (batchEntries_sequence he).1
    simp only [BatchOp.entry_sequence]
    omega

lemma history_newestFirst (ops : List (BatchOp κ)) : NewestFirst entryUser entrySeq (batchEntries 1 ops).reverse := by
  refine pairwise_reverse.2 ((batchEntries_increasing 1 ops).imp ?_)
  exact fun h _ => h

lemma written_sequence {e : Entry κ} (he : e ∈ written ops) : e.1.sequence ≤ ops.length := by
  have := (batchEntries_sequence he).2
  omega

lemma written_append (l m : List (BatchOp κ)) : written (l ++ m) = {e | e ∈ batchEntries (l.length + 1) m} ∪ written l := by
  ext e
  simp only [written, batchEntries_append, Set.mem_union, Set.mem_ofPred_eq, mem_append, add_comm 1]
  exact or_comm

variable [LinearOrder κ]

def history (actions : List (Action κ)) : List (BatchOp κ) :=
  actions.flatMap fun
    | .write batch => batch
    | _ => []

def DB.Readable (db : DB κ) (s : Nat) : Prop := s = db.lastSequence ∨ s ∈ db.snapshots

variable (ops)

/-- What a read of `u` at sequence `s` should return: the value of the last of the first `s` operations on `u`,
if it is a put. -/
def latestValue (u : κ) (s : Nat) : Option Slice :=
  match (ops.take s).reverse.find? (·.key = u) with
  | some (.put _ value) => some value
  | _ => none

lemma latestValue_eq (u : κ) (s : Nat) : latestValue ops u s = entryValue (entryRead u s (batchEntries 1 ops).reverse) := by
  -- Induction on the last operation, which is the first one that a read looks at.
  induction ops using List.reverseRecOn with
  | nil => simp [latestValue, batchEntries, entryValue]
  | append_singleton ops op ih =>
    have hentries : (batchEntries 1 (ops ++ [op])).reverse = op.entry (ops.length + 1) :: (batchEntries 1 ops).reverse := by
      rw [batchEntries_append, reverse_append, add_comm 1]
      rfl
    rw [hentries]
    by_cases hs : ops.length + 1 ≤ s
    · have htake : (ops ++ [op]).take s = ops ++ [op] := take_of_length_le (by simpa using hs)
      have htake' : ops.take s = ops := take_of_length_le (by omega)
      rw [latestValue, htake] at *
      rw [htake'] at ih
      by_cases hu : op.key = u
      · have hread : entryRead u s (op.entry (ops.length + 1) :: (batchEntries 1 ops).reverse) =
            some (op.entry (ops.length + 1)) := by
          simp [entryRead, readAt, entryUser, entrySeq, hu, hs]
        rw [hread]
        cases op <;> simp [BatchOp.entry, entryValue, hu]
      · have hread : entryRead u s (op.entry (ops.length + 1) :: (batchEntries 1 ops).reverse) =
            entryRead u s (batchEntries 1 ops).reverse := by
          simp [entryRead, readAt, entryUser, hu]
        rw [hread, ← ih]
        simp [hu]
    · have htake : (ops ++ [op]).take s = ops.take s := take_append_of_le_length (by omega)
      have hread : entryRead u s (op.entry (ops.length + 1) :: (batchEntries 1 ops).reverse) =
          entryRead u s (batchEntries 1 ops).reverse := by
        simp [entryRead, readAt, entrySeq, hs]
      rw [latestValue, htake, hread]
      exact ih

end RallyDB.Db
