import RallyDB.Lib.Lists

/-!
# The least element of a list that meets a condition
-/

namespace RallyDB.Lib

open List

variable {α β : Type*} [LinearOrder β]

def leastBy (rank : α → β) (p : α → Bool) : List α → Option α
  | [] => none
  | a :: l =>
    if p a then
      match leastBy rank p l with
      | none => some a
      | some b => if rank a ≤ rank b then some a else some b
    else leastBy rank p l

variable {rank : α → β} {p : α → Bool} {l m : List α} {a : α}

lemma leastBy_cons_of_neg (h : p a = false) : leastBy rank p (a :: l) = leastBy rank p l := by
  simp [leastBy, h]

lemma leastBy_eq_none : leastBy rank p l = none ↔ ∀ a ∈ l, p a = false := by
  induction l with
  | nil => simp [leastBy]
  | cons b l ih =>
    cases hb : p b with
    | false => simp [leastBy_cons_of_neg hb, hb, ih]
    | true =>
      have hsome : leastBy rank p (b :: l) ≠ none := by
        simp only [leastBy, hb, if_true]
        split
        · simp
        · split_ifs <;> simp
      simp [hsome, hb]

lemma leastBy_spec (h : leastBy rank p l = some a) : a ∈ l ∧ p a = true ∧ ∀ b ∈ l, p b = true → rank a ≤ rank b := by
  induction l generalizing a with
  | nil => cases h
  | cons c l ih =>
    cases hc : p c with
    | false =>
      rw [leastBy_cons_of_neg hc] at h
      obtain ⟨hmem, hp, hle⟩ := ih h
      refine ⟨mem_cons_of_mem c hmem, hp, fun b hb hpb => ?_⟩
      rcases mem_cons.1 hb with rfl | hb
      · rw [hc] at hpb
        cases hpb
      · exact hle b hb hpb
    | true =>
      simp only [leastBy, hc, if_true] at h
      cases hl : leastBy rank p l with
      | none =>
        rw [hl] at h
        cases h
        refine ⟨mem_cons_self, hc, fun b hb hpb => ?_⟩
        rcases mem_cons.1 hb with rfl | hb
        · exact le_refl _
        · rw [leastBy_eq_none.1 hl b hb] at hpb
          cases hpb
      | some d =>
        obtain ⟨hmem, hp, hle⟩ := ih hl
        simp only [hl] at h
        split_ifs at h with hcd
        · cases h
          refine ⟨mem_cons_self, hc, fun b hb hpb => ?_⟩
          rcases mem_cons.1 hb with rfl | hb
          · exact le_refl _
          · exact hcd.trans (hle b hb hpb)
        · cases h
          refine ⟨mem_cons_of_mem c hmem, hp, fun b hb hpb => ?_⟩
          rcases mem_cons.1 hb with rfl | hb
          · exact (not_le.1 hcd).le
          · exact hle b hb hpb

lemma leastBy_append_of_neg (h : ∀ a ∈ l, p a = false) : leastBy rank p (l ++ m) = leastBy rank p m := by
  induction l with
  | nil => rfl
  | cons a l ih =>
    rw [cons_append, leastBy_cons_of_neg (h a mem_cons_self)]
    exact ih fun b hb => h b (mem_cons_of_mem a hb)

lemma leastBy_eq_some (hmem : a ∈ l) (hp : p a = true) (hlt : ∀ b ∈ l, p b = true → b ≠ a → rank a < rank b) :
    leastBy rank p l = some a := by
  cases hl : leastBy rank p l with
  | none =>
    rw [leastBy_eq_none.1 hl a hmem] at hp
    cases hp
  | some b =>
    obtain ⟨hb, hpb, hle⟩ := leastBy_spec hl
    by_cases hne : b = a
    · rw [hne]
    · exact absurd (hle a hmem hp) (not_le.2 (hlt b hb hpb hne))

lemma leastBy_eq_find? (h : l.Pairwise fun a b => p a = true → p b = true → rank a < rank b) :
    leastBy rank p l = l.find? p := by
  cases hf : l.find? p with
  | none => exact leastBy_eq_none.2 fun a ha => by simpa using find?_eq_none.1 hf a ha
  | some a =>
    obtain ⟨hp, front, back, rfl, hfront⟩ := find?_eq_some_iff_append.1 hf
    refine leastBy_eq_some (by simp) hp fun b hb hpb hne => ?_
    rcases mem_append.1 hb with hb | hb
    · have hno := hfront b hb
      simp [hpb] at hno
    · rcases mem_cons.1 hb with rfl | hb
      · exact absurd rfl hne
      · exact rel_of_pairwise_cons (pairwise_append.1 h).2.1 hb hp hpb

lemma leastBy_perm (hperm : l.Perm m) (h : l.Pairwise fun a b => p a = true → p b = true → rank a < rank b) :
    leastBy rank p m = leastBy rank p l := by
  cases hl : leastBy rank p l with
  | none => exact leastBy_eq_none.2 fun a ha => leastBy_eq_none.1 hl a (hperm.mem_iff.2 ha)
  | some a =>
    obtain ⟨hmem, hp, hle⟩ := leastBy_spec hl
    refine leastBy_eq_some (hperm.mem_iff.1 hmem) hp fun b hb hpb hne => ?_
    have hb := hperm.mem_iff.2 hb
    refine lt_of_le_of_ne (hle b hb hpb) fun he => ?_
    rcases rel_or_rel_of_pairwise h hmem hb (Ne.symm hne) with hlt | hlt
    · exact absurd he (hlt hp hpb).ne
    · exact absurd he (hlt hpb hp).ne'

end RallyDB.Lib
