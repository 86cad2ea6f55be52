import RallyDB.Lib.Lists

/-!
# The first least element of a list, by index
-/

namespace RallyDB.Lib

open List

variable {α β ι : Type*} [LinearOrder β]

def IsFirstLeast (key : α → β) (l : List α) (n : Nat) : Prop :=
  ∃ a, l[n]? = some a ∧ (∀ (m : Nat) b, l[m]? = some b → key a ≤ key b) ∧
    ∀ (m : Nat) b, m < n → l[m]? = some b → key a < key b

def scanLeast (key : α → β) (index : Nat → ι) : List α → Nat → ι × β → ι × β
  | [], _, best => best
  | a :: l, j, best => scanLeast key index l (j + 1) (if key a < best.2 then (index j, key a) else best)

variable {key : α → β} {index : Nat → ι} {l : List α} {n m : Nat}

section

variable (key index)

lemma scanLeast_cases (l : List α) (j : Nat) (best : ι × β) :
    (scanLeast key index l j best = best ∧ ∀ a ∈ l, best.2 ≤ key a) ∨
    ∃ (n : Nat) (a : α), l[n]? = some a ∧ scanLeast key index l j best = (index (j + n), key a) ∧ key a < best.2 ∧
    (∀ (m : Nat) b, l[m]? = some b → key a ≤ key b) ∧ ∀ (m : Nat) b, m < n → l[m]? = some b → key a < key b := by
  induction l generalizing j best with
  | nil => exact .inl ⟨rfl, by simp⟩
  | cons a l ih =>
    rw [scanLeast]
    by_cases hlt : key a < best.2
    · rw [if_pos hlt]
      right
      rcases ih (j + 1) (index j, key a) with ⟨hr, hall⟩ | ⟨n, b, hb, hr, hlt', hmin, hfirst⟩
      · refine ⟨0, a, rfl, hr, hlt, ?_, by omega⟩
        rintro (_ | m) b hb
        · cases hb
          exact le_rfl
        · exact hall b (mem_of_getElem? hb)
      · refine ⟨n + 1, b, hb, by rw [hr, add_right_comm, add_assoc], hlt'.trans hlt, ?_, ?_⟩
        · rintro (_ | m) c hc
          · cases hc
            exact hlt'.le
          · exact hmin m c hc
        · rintro (_ | m) c hm hc
          · cases hc
            exact hlt'
          · exact hfirst m c (by omega) hc
    · rw [if_neg hlt]
      rcases ih (j + 1) best with ⟨hr, hall⟩ | ⟨n, b, hb, hr, hlt', hmin, hfirst⟩
      · left
        refine ⟨hr, fun b hb => ?_⟩
        rcases mem_cons.1 hb with rfl | hb
        · exact not_lt.1 hlt
        · exact hall b hb
      · right
        have hlt'' : key b < key a := hlt'.trans_le (not_lt.1 hlt)
        refine ⟨n + 1, b, hb, by rw [hr, add_right_comm, add_assoc], hlt', ?_, ?_⟩
        · rintro (_ | m) c hc
          · cases hc
            exact hlt''.le
          · exact hmin m c hc
        · rintro (_ | m) c hm hc
          · cases hc
            exact hlt''
          · exact hfirst m c (by omega) hc

end

lemma IsFirstLeast.le (hn : IsFirstLeast key l n) (hm : IsFirstLeast key l m) : n ≤ m := by
  obtain ⟨a, ha, -, hfirst⟩ := hn
  obtain ⟨b, hb, hmin, -⟩ := hm
  by_contra hlt
  exact absurd (hfirst m b (not_le.1 hlt) hb) (not_lt.2 (hmin n a ha))

lemma IsFirstLeast.unique (hn : IsFirstLeast key l n) (hm : IsFirstLeast key l m) : n = m :=
  le_antisymm (hn.le hm) (hm.le hn)

end RallyDB.Lib
