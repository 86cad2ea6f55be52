import Mathlib.Tactic

/-!
# Lines of least squares
-/

namespace RallyDB.Lib

open List

variable {K : Type*} [Field K] [LinearOrder K] [IsStrictOrderedRing K]

variable (points : List (K × K))

def residual (a b : K) : K := (points.map fun p => (p.2 - (a * p.1 + b)) ^ 2).sum

def IsLeastSquares (a b : K) : Prop := ∀ a' b', residual points a b ≤ residual points a' b'

lemma residual_eq (a b : K) :
    residual points a b = (points.map fun p => p.2 * p.2).sum - 2 * a * (points.map fun p => p.1 * p.2).sum -
    2 * b * (points.map Prod.snd).sum + a ^ 2 * (points.map fun p => p.1 * p.1).sum +
    2 * a * b * (points.map Prod.fst).sum + b ^ 2 * points.length := by
  induction points with
  | nil => simp [residual]
  | cons p points ih =>
    simp only [residual, map_cons, sum_cons, length_cons, Nat.cast_succ] at ih ⊢
    linear_combination ih

lemma sum_sq_eq (u v : K) : (points.map fun p => (u * p.1 + v) ^ 2).sum =
    u ^ 2 * (points.map fun p => p.1 * p.1).sum + 2 * u * v * (points.map Prod.fst).sum + v ^ 2 * points.length := by
  induction points with
  | nil => simp
  | cons p points ih =>
    simp only [map_cons, sum_cons, length_cons, Nat.cast_succ] at ih ⊢
    linear_combination ih

lemma sum_sq_nonneg (u v : K) : 0 ≤ (points.map fun p => (u * p.1 + v) ^ 2).sum := by
  refine sum_nonneg fun s hs => ?_
  obtain ⟨p, -, rfl⟩ := mem_map.1 hs
  exact sq_nonneg _

variable {points : List (K × K)}

lemma eq_zero_of_sum_sq_le {p q : K × K} {u v : K} (hp : p ∈ points) (hq : q ∈ points)
    (hne : p.1 ≠ q.1) (h : (points.map fun p => (u * p.1 + v) ^ 2).sum ≤ 0) : u = 0 ∧ v = 0 := by
  have hzero : ∀ r ∈ points, u * r.1 + v = 0 := by
    intro r hr
    have hle : (u * r.1 + v) ^ 2 ≤ (points.map fun p => (u * p.1 + v) ^ 2).sum := by
      refine single_le_sum (fun s hs => ?_) _ (mem_map_of_mem hr)
      obtain ⟨p, -, rfl⟩ := mem_map.1 hs
      exact sq_nonneg _
    exact pow_eq_zero_iff two_ne_zero |>.1 (le_antisymm (hle.trans h) (sq_nonneg _))
  have hmul : u * (p.1 - q.1) = 0 := by linear_combination hzero p hp - hzero q hq
  have hu : u = 0 := (mul_eq_zero.1 hmul).resolve_right (sub_ne_zero.2 hne)
  refine ⟨hu, ?_⟩
  simpa [hu] using hzero p hp

lemma det_pos {p q : K × K} (hp : p ∈ points) (hq : q ∈ points) (hne : p.1 ≠ q.1) :
    0 < (points.map fun p => p.1 * p.1).sum * points.length - (points.map Prod.fst).sum * (points.map Prod.fst).sum := by
  have hlen : (0 : K) < points.length := Nat.cast_pos.2 (length_pos_of_mem hp)
  have hpos : 0 < (points.map fun p => ((points.length : K) * p.1 + -(points.map Prod.fst).sum) ^ 2).sum := by
    by_contra hle
    exact hlen.ne' (eq_zero_of_sum_sq_le hp hq hne (not_lt.1 hle)).1
  rw [sum_sq_eq] at hpos
  refine pos_of_mul_pos_right (a := (points.length : K)) ?_ hlen.le
  linarith

variable {points : List (K × K)} {a b : K}
  (h1 : a * (points.map fun p => p.1 * p.1).sum + b * (points.map Prod.fst).sum = (points.map fun p => p.1 * p.2).sum)
  (h2 : a * (points.map Prod.fst).sum + b * points.length = (points.map Prod.snd).sum)
include h1 h2

lemma residual_of_normal (a' b' : K) :
    residual points a' b' = residual points a b + (points.map fun p => ((a' - a) * p.1 + (b' - b)) ^ 2).sum := by
  rw [sum_sq_eq, residual_eq, residual_eq]
  linear_combination (2 * (a' - a)) * h1 + (2 * (b' - b)) * h2

lemma isLeastSquares_of_normal : IsLeastSquares points a b := by
  intro a' b'
  rw [residual_of_normal h1 h2 a' b']
  exact le_add_of_nonneg_right (sum_sq_nonneg points _ _)

lemma IsLeastSquares.eq_of_normal {p q : K × K} (hp : p ∈ points) (hq : q ∈ points) (hne : p.1 ≠ q.1) {a' b' : K}
    (h : IsLeastSquares points a' b') : a' = a ∧ b' = b := by
  have hle := h a b
  rw [residual_of_normal h1 h2 a' b'] at hle
  obtain ⟨ha, hb⟩ := eq_zero_of_sum_sq_le hp hq hne (u := a' - a) (v := b' - b) (by linarith)
  exact ⟨sub_eq_zero.1 ha, sub_eq_zero.1 hb⟩

end RallyDB.Lib
