import Mathlib.Data.List.Nodup

/-!
# Intrusive linked lists
-/

namespace RallyDB.Lib

open List

variable {ι α : Type*} [DecidableEq ι] [DecidableEq α]

variable (ls : ι → List α)

def unlink (h : α) : ι → List α := fun i => (ls i).erase h

def push (i : ι) (h : α) : ι → List α := fun j => if j = i then h :: ls j else ls j

def LinkedAt (h : α) (i : ι) : Prop := ∀ j, (ls j).count h = if j = i then 1 else 0

def Unlinked (h : α) : Prop := ∀ j, (ls j).count h = 0

def AtMostOnce (h : α) : Prop := Unlinked ls h ∨ ∃ i, LinkedAt ls h i

variable {ls : ι → List α} {h k : α} {i j : ι}

lemma LinkedAt.mem_iff (hl : LinkedAt ls h i) : h ∈ ls j ↔ j = i := by
  rw [← count_pos_iff, hl j]
  split_ifs with hj <;> simp [hj]

lemma LinkedAt.unique (hi : LinkedAt ls h i) (hj : LinkedAt ls h j) : i = j := hj.mem_iff.1 (hi.mem_iff.2 rfl)

lemma AtMostOnce.count_le (hl : AtMostOnce ls h) (j : ι) : (ls j).count h ≤ 1 := by
  rcases hl with hl | ⟨i, hl⟩
  · rw [hl j]
    exact Nat.zero_le _
  · rw [hl j]
    split_ifs <;> omega

lemma LinkedAt.atMostOnce (hl : LinkedAt ls h i) : AtMostOnce ls h := .inr ⟨i, hl⟩

lemma Unlinked.atMostOnce (hl : Unlinked ls h) : AtMostOnce ls h := .inl hl

omit [DecidableEq ι] in
lemma count_unlink_ne (hne : k ≠ h) (j : ι) : (unlink ls h j).count k = (ls j).count k :=
  count_erase_of_ne hne

lemma count_push_ne (hne : k ≠ h) (j : ι) : (push ls i h j).count k = (ls j).count k := by
  unfold push
  split_ifs
  · exact count_cons_of_ne hne.symm
  · rfl

lemma AtMostOnce.unlink (hl : AtMostOnce ls h) : Unlinked (unlink ls h) h := by
  intro j
  have := hl.count_le j
  rw [Lib.unlink, count_erase_self]
  omega

lemma Unlinked.push (hl : Unlinked ls h) (i : ι) : LinkedAt (push ls i h) h i := by
  intro j
  unfold Lib.push
  split_ifs
  · rw [count_cons_self, hl j]
  · exact hl j

lemma AtMostOnce.relink (hl : AtMostOnce ls h) (i : ι) : LinkedAt (Lib.push (Lib.unlink ls h) i h) h i :=
  hl.unlink.push i

lemma count_relink_ne (hne : k ≠ h) (j : ι) : (push (unlink ls h) i h j).count k = (ls j).count k := by
  rw [count_push_ne hne, count_unlink_ne hne]

/-! ## Moving several nodes -/

def relinkAll (ls : ι → List α) (f : α → ι) (hs : List α) : ι → List α :=
  hs.foldl (fun ls h => push ls (f h) h) (hs.foldl unlink ls)

variable {hs : List α}

omit [DecidableEq ι] in
lemma count_foldl_unlink_of_not_mem (hk : k ∉ hs) (j : ι) : (hs.foldl unlink ls j).count k = (ls j).count k := by
  induction hs generalizing ls with
  | nil => rfl
  | cons h hs ih =>
    rw [mem_cons, not_or] at hk
    rw [foldl_cons, ih hk.2, count_unlink_ne hk.1]

lemma unlinked_foldl_unlink (hk : k ∈ hs) (hl : AtMostOnce ls k) : Unlinked (hs.foldl unlink ls) k := by
  induction hs generalizing ls with
  | nil => cases hk
  | cons h hs ih =>
    rw [foldl_cons]
    by_cases hkh : k = h
    · subst hkh
      by_cases hmem : k ∈ hs
      · exact ih hmem hl.unlink.atMostOnce
      · intro j
        rw [count_foldl_unlink_of_not_mem hmem]
        exact hl.unlink j
    · have hmem := (mem_cons.1 hk).resolve_left hkh
      refine ih hmem ?_
      unfold AtMostOnce Unlinked LinkedAt at hl ⊢
      simpa only [count_unlink_ne hkh] using hl

variable {f : α → ι}

lemma count_foldl_push_of_not_mem (hk : k ∉ hs) (j : ι) :
    (hs.foldl (fun ls h => push ls (f h) h) ls j).count k = (ls j).count k := by
  induction hs generalizing ls with
  | nil => rfl
  | cons h hs ih =>
    rw [mem_cons, not_or] at hk
    rw [foldl_cons, ih hk.2, count_push_ne hk.1]

lemma linkedAt_foldl_push (hs' : hs.Nodup) (hk : k ∈ hs) (hl : Unlinked ls k) :
    LinkedAt (hs.foldl (fun ls h => push ls (f h) h) ls) k (f k) := by
  induction hs generalizing ls with
  | nil => cases hk
  | cons h hs ih =>
    rw [nodup_cons] at hs'
    rw [foldl_cons]
    by_cases hkh : k = h
    · subst hkh
      intro j
      rw [count_foldl_push_of_not_mem hs'.1]
      exact hl.push (f k) j
    · refine ih hs'.2 ((mem_cons.1 hk).resolve_left hkh) fun j => ?_
      rw [count_push_ne hkh]
      exact hl j

lemma count_relinkAll_of_not_mem (hk : k ∉ hs) (j : ι) : (relinkAll ls f hs j).count k = (ls j).count k := by
  rw [relinkAll, count_foldl_push_of_not_mem hk, count_foldl_unlink_of_not_mem hk]

lemma linkedAt_relinkAll (hs' : hs.Nodup) (hk : k ∈ hs) (hl : AtMostOnce ls k) :
    LinkedAt (relinkAll ls f hs) k (f k) := linkedAt_foldl_push hs' hk (unlinked_foldl_unlink hk hl)

lemma nodup_flatMap_reverse (hl : ∀ a, AtMostOnce ls a) {is : List ι} (his : is.Nodup) :
    (is.flatMap fun i => (ls i).reverse).Nodup := by
  rw [nodup_flatMap]
  refine ⟨fun i _ => ?_, his.imp fun {i j} hij => ?_⟩
  · rw [nodup_reverse, nodup_iff_count_le_one]
    exact fun a => (hl a).count_le i
  · intro a hi hj
    rw [mem_reverse] at hi hj
    rcases hl a with ha | ⟨m, ha⟩
    · have hpos := count_pos_iff.2 hi
      rw [ha i] at hpos
      cases hpos
    · exact hij ((ha.mem_iff.1 hi).trans (ha.mem_iff.1 hj).symm)

end RallyDB.Lib
