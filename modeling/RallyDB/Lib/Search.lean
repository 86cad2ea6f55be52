import Mathlib.Order.Basic

/-!
# Binary search for the first index at which a predicate fails
-/

namespace RallyDB.Lib

def lowerBound (p : Nat → Bool) (left right : Nat) : Nat :=
  if left < right then
    let mid := (left + right) / 2
    if p mid then lowerBound p (mid + 1) right else lowerBound p left mid
  else right
termination_by right - left

variable {p : Nat → Bool} {left right : Nat}

lemma lowerBound_le : lowerBound p left right ≤ right := by
  fun_induction lowerBound p left right with
  | case1 left right h mid hp ih => exact ih
  | case2 left right h mid hp ih => omega
  | case3 left right h => exact Nat.le_refl _

lemma lowerBound_before (hmono : ∀ i j, i ≤ j → j < right → p j = true → p i = true)
    {i : Nat} (hi : left ≤ i) (hlt : i < lowerBound p left right) : p i = true := by
  fun_induction lowerBound p left right with
  | case1 left right hlr mid hp ih =>
    by_cases him : i ≤ mid
    · exact hmono i mid him (by omega) hp
    · exact ih hmono (by omega) hlt
  | case2 left right hlr mid hp ih =>
    exact ih (fun i j hij hj => hmono i j hij (by omega)) hi hlt
  | case3 left right hlr => omega

lemma lowerBound_at (h : lowerBound p left right < right) : p (lowerBound p left right) = false := by
  fun_induction lowerBound p left right with
  | case1 left right hlr mid hp ih => exact ih h
  | case2 left right hlr mid hp ih =>
    by_cases hm : lowerBound p left mid < mid
    · exact ih hm
    · have hle : lowerBound p left mid ≤ mid := lowerBound_le
      have he : lowerBound p left mid = mid := by omega
      rw [he]
      simpa using hp
  | case3 left right hlr => omega

end RallyDB.Lib
