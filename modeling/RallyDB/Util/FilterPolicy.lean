import RallyDB.Util.Coding

/-!
# Filter policies (`include/leveldb/filter_policy.h`)
-/

namespace RallyDB.Util

structure FilterPolicy where
  name : Slice
  createFilter : List Slice → Nat → Slice × List Slice
  keyMayMatch : Slice → Slice → Nat → Bool

def FilterPolicy.createUnits (policy : FilterPolicy) : Nat → Nat → List Slice → List Slice
  | 0, _, _ => []
  | n + 1, index, keys =>
    let (filter, keys) := policy.createFilter keys index
    filter :: policy.createUnits n (index + 1) keys

structure FilterPolicy.Sound (policy : FilterPolicy) : Prop where
  keeps : ∀ keys index, (policy.createFilter keys index).2 = keys
  matches_of_mem : ∀ keys index, ∀ k ∈ keys, policy.keyMayMatch k (policy.createFilter keys index).1 index = true
  length_eq : ∀ keys i j, (policy.createFilter keys i).1.length = (policy.createFilter keys j).1.length

structure FilterPolicy.SoundFor (policy : FilterPolicy) (same : Slice → Slice → Prop) : Prop where
  matches_of_mem : ∀ n keys, ∀ k ∈ keys, ∀ k', same k k' →
    ∀ i f, (policy.createUnits n 0 keys)[i]? = some f → policy.keyMayMatch k' f i = true
  length_eq : ∀ n keys, ∀ f ∈ policy.createUnits n 0 keys, ∀ g ∈ policy.createUnits n 0 keys, f.length = g.length

variable {policy : FilterPolicy}

@[simp] lemma FilterPolicy.createUnits_length (n index : Nat) (keys : List Slice) :
    (policy.createUnits n index keys).length = n := by
  induction n generalizing index keys with
  | zero => rfl
  | succ n ih => simp [createUnits, ih]

lemma FilterPolicy.createUnits_get (h : ∀ keys index, (policy.createFilter keys index).2 = keys)
    {n index i : Nat} {keys : List Slice} {f : Slice} (hf : (policy.createUnits n index keys)[i]? = some f) :
    f = (policy.createFilter keys (index + i)).1 := by
  induction n generalizing index i with
  | zero => simp [createUnits] at hf
  | succ n ih =>
    simp only [createUnits, h] at hf
    cases i with
    | zero => simpa using hf.symm
    | succ i =>
      rw [List.getElem?_cons_succ] at hf
      rw [ih hf, add_assoc, add_comm 1 i]

lemma FilterPolicy.Sound.soundFor (h : policy.Sound) : policy.SoundFor Eq where
  matches_of_mem := by
    rintro n keys k hk _ rfl i f hf
    rw [createUnits_get h.keeps hf, zero_add]
    exact h.matches_of_mem keys i k hk
  length_eq := by
    intro n keys f hf g hg
    obtain ⟨i, hi⟩ := List.getElem?_of_mem hf
    obtain ⟨j, hj⟩ := List.getElem?_of_mem hg
    rw [createUnits_get h.keeps hi, createUnits_get h.keeps hj]
    exact h.length_eq keys _ _

end RallyDB.Util
