import Mathlib.Tactic

/-!
# Averages of counts
-/

namespace RallyDB.Lib

def average (counts : List Nat) : Nat := counts.sum / counts.length

variable {counts : List Nat} {n : Nat}

lemma le_average (hne : counts ≠ []) (h : ∀ c ∈ counts, n ≤ c) : n ≤ average counts := by
  rw [average, Nat.le_div_iff_mul_le (List.length_pos_of_ne_nil hne), mul_comm]
  exact List.card_nsmul_le_sum counts n h

lemma average_le (h : ∀ c ∈ counts, c ≤ n) : average counts ≤ n := by
  refine Nat.div_le_of_le_mul ?_
  exact List.sum_le_card_nsmul counts n h

end RallyDB.Lib
