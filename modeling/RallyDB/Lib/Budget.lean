import Mathlib.Tactic

/-!
# Spending a budget with wrap-around
-/

namespace RallyDB.Lib

open List
open UInt64 (ofNat toNat_inj toNat_ofNat')

variable {α : Type*} (unit : α → Nat)

def takeBudget : List α → UInt64 → UInt64 × List α
  | [], budget => (budget, [])
  | a :: l, budget =>
    if budget = 0 then (0, [])
    else
      let (budget, taken) := takeBudget l (budget - UInt64.ofNat (unit a))
      (budget, a :: taken)

def pickBudget (l : List α) (budget : UInt64) : List α :=
  if 0 < (takeBudget unit l budget).1 then [] else (takeBudget unit l budget).2

def ReachesBudget (l : List α) (budget : Nat) (result : List α) : Prop :=
  if budget ≤ (l.map unit).sum then
    result ≠ [] ∧ result.Sublist l ∧ budget ≤ (result.map unit).sum ∧ (result.dropLast.map unit).sum < budget
  else result = []

instance [DecidableEq α] (l : List α) (budget : Nat) (result : List α) : Decidable (ReachesBudget unit l budget result) :=
  inferInstanceAs (Decidable (if budget ≤ (l.map unit).sum then
    result ≠ [] ∧ result.Sublist l ∧ budget ≤ (result.map unit).sum ∧ (result.dropLast.map unit).sum < budget
    else result = []))

variable {unit} {l m p q : List α} {budget : UInt64}

lemma takeBudget_zero (l : List α) : takeBudget unit l 0 = (0, []) := by
  cases l with
  | nil => rfl
  | cons a l => simp [takeBudget]

lemma takeBudget_cons {a : α} (h : budget ≠ 0) : takeBudget unit (a :: l) budget =
    ((takeBudget unit l (budget - ofNat (unit a))).1, a :: (takeBudget unit l (budget - ofNat (unit a))).2) := by
  simp [takeBudget, h]

lemma takeBudget_append (l m : List α) (budget : UInt64) : takeBudget unit (l ++ m) budget =
    ((takeBudget unit m (takeBudget unit l budget).1).1,
    (takeBudget unit l budget).2 ++ (takeBudget unit m (takeBudget unit l budget).1).2) := by
  induction l generalizing budget with
  | nil => rfl
  | cons a l ih =>
    by_cases h : budget = 0
    · subst h
      simp [takeBudget_zero]
    · rw [cons_append, takeBudget_cons h, takeBudget_cons h, ih]
      rfl

structure Taken (unit : α → Nat) (l : List α) (budget left : UInt64) (taken : List α) : Prop where
  front : taken <+: l
  left_eq : left = budget - UInt64.ofNat (taken.map unit).sum
  all : left ≠ 0 → taken = l
  before : ∀ p, p <+: taken → p ≠ taken → budget - UInt64.ofNat (p.map unit).sum ≠ 0

lemma takeBudget_taken (unit : α → Nat) (l : List α) (budget : UInt64) :
    Taken unit l budget (takeBudget unit l budget).1 (takeBudget unit l budget).2 := by
  induction l generalizing budget with
  | nil =>
    refine ⟨prefix_rfl, (UInt64.sub_zero budget).symm, fun _ => rfl, fun p hp hne => ?_⟩
    exact absurd (prefix_nil.1 hp) hne
  | cons a l ih =>
    by_cases h : budget = 0
    · subst h
      rw [takeBudget_zero]
      exact ⟨ nil_prefix, by simp, fun hne => absurd rfl hne, fun p hp hne => absurd (prefix_nil.1 hp) hne⟩
    · have ht := ih (budget - ofNat (unit a))
      have hsub : ∀ n, budget - ofNat (unit a) - ofNat n = budget - ofNat (unit a + n) := fun n => by
        rw [UInt64.ofNat_add]
        grind
      rw [takeBudget_cons h]
      refine ⟨(prefix_cons_inj a).2 ht.front, ?_, fun hne => ?_, fun p hp hne => ?_⟩
      · rw [map_cons, sum_cons, ← hsub]
        exact ht.left_eq
      · rw [ht.all hne]
      · cases p with
        | nil =>
          simpa using h
        | cons b p =>
          obtain ⟨rfl, hp⟩ := cons_prefix_cons.1 hp
          rw [map_cons, sum_cons, ← hsub]
          exact ht.before p hp fun he => hne (by rw [he])

/-! ## Sums -/

lemma sum_map_le_of_prefix (unit : α → Nat) (h : p <+: q) : (p.map unit).sum ≤ (q.map unit).sum := by
  obtain ⟨t, rfl⟩ := h
  rw [map_append, sum_append]
  exact Nat.le_add_right _ _

lemma sub_ofNat_eq_zero {n : Nat} : budget - ofNat n = 0 ↔ n % 2 ^ 64 = budget.toNat := by
  have hsub : budget - ofNat n = 0 ↔ budget = ofNat n := by grind
  rw [hsub, ← toNat_inj, toNat_ofNat']
  exact eq_comm

lemma Taken.pick_eq {left : UInt64} {taken : List α} (h : Taken unit l budget left taken) (hleft : ¬ 0 < left) :
    (taken.map unit).sum % 2 ^ 64 = budget.toNat := by
  have hzero : left = 0 := by
    rw [← toNat_inj]
    rw [UInt64.lt_iff_toNat_lt] at hleft
    simpa using hleft
  exact sub_ofNat_eq_zero.1 (h.left_eq ▸ hzero)

lemma pickBudget_of_ne_nil (hne : pickBudget unit l budget ≠ []) :
    pickBudget unit l budget <+: l ∧ ofNat ((pickBudget unit l budget).map unit).sum = budget := by
  have ht := takeBudget_taken unit l budget
  unfold pickBudget at hne ⊢
  by_cases hleft : 0 < (takeBudget unit l budget).1
  · exact absurd (if_pos hleft) hne
  · rw [if_neg hleft]
    refine ⟨ht.front, ?_⟩
    rw [← toNat_inj, toNat_ofNat']
    exact ht.pick_eq hleft

lemma isPrefix_of_not_longer (hp : p <+: l) (hq : q <+: l) (h : ¬ (p <+: q ∧ p ≠ q)) : q <+: p := by
  rcases prefix_or_prefix_of_prefix hp hq with hpq | hqp
  · by_cases he : p = q
    · exact he ▸ prefix_rfl
    · exact absurd ⟨hpq, he⟩ h
  · exact hqp

lemma sum_dropLast_add (unit : α → Nat) (h : l ≠ []) : (l.dropLast.map unit).sum + unit (l.getLast h) = (l.map unit).sum := by
  conv_rhs => rw [← dropLast_append_getLast h]
  rw [map_append, sum_append, map_singleton, sum_singleton]

lemma Taken.of_exact {left : UInt64} {taken : List α} (h : Taken unit l budget left taken) (hp : p <+: l)
    (hsum : (p.map unit).sum = budget.toNat) : ¬ 0 < left ∧ (taken.map unit).sum = budget.toNat := by
  have hlt := budget.toNat_lt
  have hexact : budget - ofNat (p.map unit).sum = 0 :=
    sub_ofNat_eq_zero.2 (by rw [hsum]; exact Nat.mod_eq_of_lt hlt)
  have hback : taken <+: p := isPrefix_of_not_longer hp h.front fun hlong => h.before p hlong.1 hlong.2 hexact
  have hleft : ¬ 0 < left := fun hpos => by
    have hne : left ≠ 0 := fun he => by simp [he] at hpos
    have he : taken = p := by
      rw [h.all hne] at hback ⊢
      exact hback.eq_of_length (Nat.le_antisymm hback.length_le hp.length_le)
    exact hne (h.left_eq.trans (he ▸ hexact))
  refine ⟨hleft, ?_⟩
  have hmod := h.pick_eq hleft
  have hle := sum_map_le_of_prefix unit hback
  rwa [Nat.mod_eq_of_lt (by omega)] at hmod

lemma pickBudget_reaches_iff (hunit : ∀ a ∈ l, unit a < 2 ^ 64) (hpos : 0 < budget) :
    ReachesBudget unit l budget.toNat (pickBudget unit l budget) ↔
    (l.map unit).sum < budget.toNat ∨ ∃ p, p <+: l ∧ (p.map unit).sum = budget.toNat := by
  have ht := takeBudget_taken unit l budget
  have hpos : 0 < budget.toNat := UInt64.lt_iff_toNat_lt.1 hpos
  unfold ReachesBudget pickBudget
  generalize (takeBudget unit l budget).1 = left at ht ⊢
  generalize (takeBudget unit l budget).2 = taken at ht ⊢
  constructor
  · intro h
    by_cases hfew : (l.map unit).sum < budget.toNat
    · exact .inl hfew
    · rw [if_pos (Nat.not_lt.1 hfew)] at h
      obtain ⟨hne, -, henough, hless⟩ := h
      by_cases hleft : 0 < left
      · exact absurd (if_pos hleft) hne
      · rw [if_neg hleft] at hne henough hless
        -- the last element cannot take the sum around
        have hmod := ht.pick_eq hleft
        have hlast := sum_dropLast_add unit hne
        have hbound := hunit _ (ht.front.mem (getLast_mem hne))
        exact .inr ⟨taken, ht.front, by omega⟩
  · rintro (hfew | ⟨p, hp, hsum⟩)
    · rw [if_neg (Nat.not_le.2 hfew)]
      have hle := sum_map_le_of_prefix unit ht.front
      by_cases hleft : 0 < left
      · exact if_pos hleft
      · have hmod := ht.pick_eq hleft
        have hlt := budget.toNat_lt
        rw [Nat.mod_eq_of_lt (by omega)] at hmod
        omega
    · have hle := sum_map_le_of_prefix unit hp
      obtain ⟨hleft, hexact⟩ := ht.of_exact hp hsum
      rw [if_pos (hsum ▸ hle), if_neg hleft]
      have hne : taken ≠ [] := fun he => by simp [he] at hexact; omega
      refine ⟨hne, ht.front.sublist, Nat.le_of_eq hexact.symm, ?_⟩
      -- a shorter front would have been taken
      have hpart := sum_map_le_of_prefix unit ( dropLast_prefix taken)
      have hshort : taken.dropLast ≠ taken := fun he => by
        have := congrArg List.length he
        have := length_pos_iff.2 hne
        simp at *
        omega
      refine Nat.lt_of_le_of_ne (hexact ▸ hpart) fun he => ?_
      refine ht.before _ ( dropLast_prefix taken) hshort (sub_ofNat_eq_zero.2 ?_)
      rw [he]
      exact Nat.mod_eq_of_lt budget.toNat_lt

end RallyDB.Lib
