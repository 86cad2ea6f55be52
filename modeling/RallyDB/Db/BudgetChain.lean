import Mathlib.Tactic

/-!
# The budget on its way to the multi container (`TableCache`, `ShardedLRUCache`)
-/

namespace RallyDB.Db

/-! ## The memory that a change of the access count is worth (`Version::AdjustBloomFilter`) -/

section

open Real

inductive FilterCall where
  | load (currentTime nextPeriodTime : Nat) (memory : ℤ)
  | evict (currentTime : Nat) (memory : ℤ)
  deriving DecidableEq

def toInt32 (n : ℤ) : ℤ := n.bmod (2 ^ 32)

noncomputable def truncate (x : ℝ) : ℤ := if 0 ≤ x then ⌊x⌋ else ⌈x⌉

variable (anything : ℝ → ℤ)

/-- The conversion to `int64_t`, which may give anything when the number is out of range. -/
noncomputable def toInt64 (x : ℝ) : ℤ :=
  if -2 ^ 63 ≤ truncate x ∧ truncate x < 2 ^ 63 then truncate x else anything x

/-- `get_log`; there is no result when the source throws. -/
noncomputable def getLog (e up : ℝ) : Option ℝ := if e ≤ 0 ∨ up ≤ 0 then none else some (Real.log e / Real.log up)

noncomputable def getAdjustMemory (oldAccess newAccess number : Nat) : Option ℤ :=
  if oldAccess ≤ 0 then some 0
  -- the inverse of `k` is infinite, and so is the amount, whose conversion may give anything
  else if newAccess = 0 then some (anything 0)
  else
    let k : ℝ := newAccess / oldAccess
    (getLog (1 / k) 0.6185).map fun y =>
      let res := toInt64 anything (y * number / 8)
      if k > 1 then (-1) * res
      else if k < 1 then res
      else 0

noncomputable def adjustBloomFilter (currentTime oldTime accessTime number : Nat) : Option (Option FilterCall) :=
  (getAdjustMemory anything oldTime accessTime number).map fun memorySize =>
    if memorySize = 0 then none
    else if memorySize < 0 then some (.evict currentTime (toInt32 (memorySize * -1)))
    else some (.load currentTime accessTime (toInt32 memorySize))

noncomputable def adjustmentSize (oldTime accessTime number : Nat) : ℝ :=
  |number * (Real.log (oldTime / accessTime) / Real.log 0.6185) / 8|

noncomputable def intendedCall (currentTime oldTime accessTime number : Nat) : Option FilterCall :=
  if adjustmentSize oldTime accessTime number < 1 then none
  else if oldTime < accessTime then some (.load currentTime accessTime ⌊adjustmentSize oldTime accessTime number⌋)
  else some (.evict currentTime ⌊adjustmentSize oldTime accessTime number⌋)

/-! ## The amount -/

variable {anything : ℝ → ℤ} {oldTime accessTime : Nat}

lemma log_base_neg : log 0.6185 < 0 := log_neg (by norm_num) (by norm_num)

lemma toInt32_lt (n : ℤ) : toInt32 n < 2 ^ 31 := by
  have := Int.bmod_lt (x := n) (m := 2 ^ 32) (by norm_num)
  simpa [toInt32] using this

lemma toInt32_of_lt {n : ℤ} (h0 : 0 ≤ n) (h : n < 2 ^ 31) : toInt32 n = n :=
  Int.bmod_eq_of_le (by norm_num; omega) (by norm_num; omega)

noncomputable def amount (oldTime accessTime number : Nat) : ℝ :=
  Real.log (1 / (accessTime / oldTime : ℝ)) / Real.log 0.6185 * number / 8

lemma abs_amount (number : Nat) : |amount oldTime accessTime number| = adjustmentSize oldTime accessTime number := by
  rw [amount, adjustmentSize, one_div_div]
  congr 2
  ring

lemma amount_nonneg (hold : 0 < oldTime) (h : oldTime ≤ accessTime) (number : Nat) :
    0 ≤ amount oldTime accessTime number := by
  have hle : (oldTime : ℝ) / accessTime ≤ 1 := div_le_one_of_le₀ (by exact_mod_cast h) (by positivity)
  have hlog : log (oldTime / accessTime) ≤ 0 := log_nonpos (by positivity) hle
  rw [amount, one_div_div]
  have hquot := div_nonneg_of_nonpos hlog log_base_neg.le
  positivity

lemma amount_nonpos (hnew : 0 < accessTime) (h : accessTime ≤ oldTime) (number : Nat) :
    amount oldTime accessTime number ≤ 0 := by
  have hpos : (0 : ℝ) < accessTime := by exact_mod_cast hnew
  have hge : 1 ≤ (oldTime : ℝ) / accessTime := (one_le_div hpos).2 (by exact_mod_cast h)
  have hlog : 0 ≤ log (oldTime / accessTime) := log_nonneg hge
  rw [amount, one_div_div]
  have hquot := div_nonpos_of_nonneg_of_nonpos hlog log_base_neg.le
  have hmul := mul_nonpos_of_nonpos_of_nonneg hquot (Nat.cast_nonneg number)
  linarith

lemma truncate_of_nonneg {x : ℝ} (h : 0 ≤ x) : truncate x = ⌊|x|⌋ := by
  rw [truncate, if_pos h, abs_of_nonneg h]

lemma truncate_of_nonpos {x : ℝ} (h : x ≤ 0) : truncate x = -⌊|x|⌋ := by
  rcases h.lt_or_eq with h | rfl
  · rw [truncate, if_neg (not_le.2 h), abs_of_neg h, ← Int.ceil_neg, neg_neg]
  · simp [truncate]

lemma getAdjustMemory_eq (hold : 0 < oldTime) (hnew : 0 < accessTime) (number : Nat) :
    getAdjustMemory anything oldTime accessTime number =
      some (if oldTime < accessTime then -toInt64 anything (amount oldTime accessTime number)
        else if accessTime < oldTime then toInt64 anything (amount oldTime accessTime number) else 0) := by
  have hold' : (0 : ℝ) < oldTime := by exact_mod_cast hold
  have hnew' : (0 : ℝ) < accessTime := by exact_mod_cast hnew
  have hgt : (accessTime : ℝ) / oldTime > 1 ↔ oldTime < accessTime := by
    rw [gt_iff_lt, one_lt_div hold']
    exact Nat.cast_lt
  have hlt : (accessTime : ℝ) / oldTime < 1 ↔ accessTime < oldTime := by
    rw [div_lt_one hold']
    exact Nat.cast_lt
  have hpos : ¬ (1 / ((accessTime : ℝ) / oldTime) ≤ 0 ∨ (0.6185 : ℝ) ≤ 0) := by
    rw [not_or, not_le, not_le]
    exact ⟨by positivity, by norm_num⟩
  rw [getAdjustMemory, if_neg (by omega), if_neg hnew.ne']
  simp only [getLog, if_neg hpos, Option.map_some, hgt, hlt, amount, neg_one_mul]

lemma toInt64_of_lt {x : ℝ} (h : |truncate x| < 2 ^ 63) : toInt64 anything x = truncate x :=
  if_pos ⟨(abs_lt.1 h).1.le, (abs_lt.1 h).2⟩

lemma toInt64_amount {number : Nat} (h : ⌊adjustmentSize oldTime accessTime number⌋ < 2 ^ 63) :
    toInt64 anything (amount oldTime accessTime number) = truncate (amount oldTime accessTime number) := by
  have hfloor : 0 ≤ ⌊adjustmentSize oldTime accessTime number⌋ := Int.floor_nonneg.2 (abs_nonneg _)
  refine toInt64_of_lt ?_
  rcases le_total 0 (amount oldTime accessTime number) with hx | hx
  · rwa [truncate_of_nonneg hx, abs_amount, abs_of_nonneg hfloor]
  · rwa [truncate_of_nonpos hx, abs_amount, abs_neg, abs_of_nonneg hfloor]

/-- The intended call is made just when the amount is less than a byte, or the count declines and the amount fits in an
`int`. -/
theorem adjustBloomFilter_iff (anything : ℝ → ℤ) (currentTime oldTime accessTime number : Nat) (hold : 0 < oldTime)
    (hnew : 0 < accessTime) : adjustBloomFilter anything currentTime oldTime accessTime number =
    some (intendedCall currentTime oldTime accessTime number) ↔ adjustmentSize oldTime accessTime number < 1 ∨
    accessTime < oldTime ∧ adjustmentSize oldTime accessTime number < 2 ^ 31 := by
  rw [adjustBloomFilter, getAdjustMemory_eq hold hnew, Option.map_some, Option.some_inj, intendedCall]
  set m := adjustmentSize oldTime accessTime number with hm
  have hm0 : 0 ≤ m := abs_nonneg _
  by_cases hsmall : m < 1
  · have hfloor : ⌊m⌋ = 0 := Int.floor_eq_zero_iff.2 ⟨hm0, hsmall⟩
    have hzero : toInt64 anything (amount oldTime accessTime number) = 0 := by
      rw [toInt64_amount (by rw [← hm, hfloor]; norm_num)]
      rcases le_total 0 (amount oldTime accessTime number) with hx | hx
      · rw [truncate_of_nonneg hx, abs_amount, ← hm, hfloor]
      · rw [truncate_of_nonpos hx, abs_amount, ← hm, hfloor, neg_zero]
    simp [hzero, hsmall]
  · have hfloor : 1 ≤ ⌊m⌋ := Int.le_floor.2 (by exact_mod_cast not_lt.1 hsmall)
    rw [if_neg hsmall]
    simp only [hsmall, false_or]
    rcases lt_trichotomy oldTime accessTime with hlt | rfl | hgt
    · -- the count grows: a load with this budget would be one with the opposite sign
      rw [if_pos hlt, if_pos hlt]
      refine iff_of_false ?_ fun h => absurd h.1 hlt.not_gt
      intro hcall
      split_ifs at hcall with h0 hneg
      · cases hcall
      · have hbudget : toInt32 (-toInt64 anything (amount oldTime accessTime number)) = ⌊m⌋ := by injections
        have hlt31 : ⌊m⌋ < 2 ^ 31 := hbudget ▸ toInt32_lt _
        rw [toInt64_amount (by rw [← hm]; omega), truncate_of_nonneg (amount_nonneg hold hlt.le number), abs_amount, ← hm]
          at hneg
        omega
    · have hzero : m = 0 := by
        rw [hm, adjustmentSize, div_self (by exact_mod_cast hold.ne')]
        simp
      rw [hzero] at hsmall
      exact absurd zero_lt_one hsmall
    · rw [if_neg hgt.not_gt, if_pos hgt, if_neg hgt.not_gt]
      constructor
      · intro hcall
        split_ifs at hcall with h0 hneg
        · have hbudget : toInt32 (toInt64 anything (amount oldTime accessTime number) * -1) = ⌊m⌋ := by injections
          have hlt31 : ⌊m⌋ < 2 ^ 31 := hbudget ▸ toInt32_lt _
          exact ⟨hgt, by exact_mod_cast Int.floor_lt.1 hlt31⟩
        · cases hcall
      · rintro ⟨-, hlt31⟩
        have hfloor31 : ⌊m⌋ < 2 ^ 31 := Int.floor_lt.2 (by exact_mod_cast hlt31)
        have hres : toInt64 anything (amount oldTime accessTime number) = -⌊m⌋ := by
          rw [toInt64_amount (by rw [← hm]; omega), truncate_of_nonpos (amount_nonpos hnew hgt.le number), abs_amount]
        rw [hres, if_neg (by omega), if_pos (by omega), neg_mul_neg, mul_one, toInt32_of_lt (by omega) hfloor31]

lemma adjustmentSize_double : 1 ≤ adjustmentSize 1 2 8 ∧ adjustmentSize 1 2 8 < 2 := by
  have hbase := log_base_neg
  have hquot : 0 ≤ log (1 / 2) / log 0.6185 :=
    div_nonneg_of_nonpos (log_nonpos (by norm_num) (by norm_num)) hbase.le
  have hsize : adjustmentSize 1 2 8 = log (1 / 2) / log 0.6185 := by
    rw [adjustmentSize]
    push_cast
    rw [mul_div_cancel_left₀ _ (by norm_num : (8 : ℝ) ≠ 0), abs_of_nonneg hquot]
  have hle : log (1 / 2) ≤ log 0.6185 := log_le_log (by norm_num) (by norm_num)
  have hlt : log (0.6185 ^ 2) < log (1 / 2) := log_lt_log (by norm_num) (by norm_num)
  rw [log_pow] at hlt
  push_cast at hlt
  rw [hsize]
  exact ⟨(le_div_iff_of_neg hbase).2 (by linarith), (div_lt_iff_of_neg hbase).2 (by linarith)⟩

/-- The count doubles, and memory is taken away. -/
theorem adjustBloomFilter_grows :
    adjustBloomFilter (fun _ => 0) 0 1 2 8 = some (some (.evict 0 1)) ∧ intendedCall 0 1 2 8 = some (.load 0 2 1) := by
  obtain ⟨hge, hlt⟩ := adjustmentSize_double
  have hfloor : ⌊adjustmentSize 1 2 8⌋ = 1 := Int.floor_eq_iff.2 ⟨by exact_mod_cast hge, by norm_num; exact hlt⟩
  have hres : toInt64 (fun _ => 0) (amount 1 2 8) = 1 := by
    rw [toInt64_amount (by rw [hfloor]; norm_num), truncate_of_nonneg (amount_nonneg (by norm_num) (by norm_num) 8), abs_amount,
      hfloor]
  refine ⟨?_, ?_⟩
  · rw [adjustBloomFilter, getAdjustMemory_eq (by norm_num) (by norm_num), if_pos (by norm_num), hres]
    decide
  · rw [intendedCall, if_neg (not_lt.2 hge), if_pos (by norm_num), hfloor]

lemma adjustmentSize_swap (number : Nat) :
    adjustmentSize oldTime accessTime number = adjustmentSize accessTime oldTime number := by
  rw [adjustmentSize, adjustmentSize, ← inv_div (accessTime : ℝ), log_inv, neg_div, mul_neg, neg_div, abs_neg]

theorem adjustBloomFilter_iff_sample :
    0 < 2 ∧ 0 < 1 ∧ adjustBloomFilter (fun _ => 0) 0 2 1 8 = some (intendedCall 0 2 1 8) := by
  refine ⟨by norm_num, by norm_num, (adjustBloomFilter_iff _ 0 2 1 8 (by norm_num) (by norm_num)).2 (.inr ⟨by norm_num, ?_⟩)⟩
  rw [adjustmentSize_swap]
  exact adjustmentSize_double.2.trans (by norm_num)

end

open FilterCall

def toSize (n : ℤ) : ℤ := n % 2 ^ 64

def ofSize (n : ℤ) : ℤ := n.bmod (2 ^ 64)

namespace FilterCall

def memory : FilterCall → ℤ
  | load _ _ memory => memory
  | evict _ memory => memory

def tableCache : FilterCall → FilterCall
  | load currentTime nextPeriodTime memory => load currentTime nextPeriodTime (toSize memory)
  | evict currentTime memory => evict currentTime (toSize memory)

def shardedCache : FilterCall → FilterCall
  | load currentTime nextPeriodTime memory => load currentTime nextPeriodTime (ofSize memory)
  | evict currentTime memory => evict currentTime (ofSize memory)

end FilterCall

/-- The call on the multi container that `Version::AdjustBloomFilter` leads to. -/
noncomputable def containerCall (anything : ℝ → ℤ) (currentTime oldTime accessTime number : Nat) :
    Option (Option FilterCall) :=
  (adjustBloomFilter anything currentTime oldTime accessTime number).map fun call =>
    call.map fun c => c.tableCache.shardedCache

/-! ## What is left of the amount -/

lemma neg_le_toInt32 (n : ℤ) : -2 ^ 31 ≤ toInt32 n := by
  have := Int.le_bmod (x := n) (m := 2 ^ 32) (by norm_num)
  simpa [toInt32] using this

lemma ofSize_toSize {n : ℤ} (hlo : -2 ^ 63 ≤ n) (hhi : n < 2 ^ 63) : ofSize (toSize n) = n := by
  have hmod : ofSize (toSize n) = n.bmod (2 ^ 64) := by
    rw [ofSize, toSize]
    exact Int.emod_bmod n (2 ^ 64)
  rw [hmod]
  exact Int.bmod_eq_of_le (by norm_num; omega) (by norm_num; omega)

lemma ofSize_toSize_toInt32 (n : ℤ) : ofSize (toSize (toInt32 n)) = toInt32 n := by
  have hlo := neg_le_toInt32 n
  have hhi := toInt32_lt n
  exact ofSize_toSize (by omega) (by omega)

lemma toInt32_eq_iff {n : ℤ} (h : 0 ≤ n) : toInt32 n = n ↔ n < 2 ^ 31 :=
  ⟨fun he => he ▸ toInt32_lt n, toInt32_of_lt h⟩

lemma containerCall_memory {anything : ℝ → ℤ} {oldTime accessTime number : Nat} {m : ℤ} (currentTime : Nat)
    (hm : getAdjustMemory anything oldTime accessTime number = some m) (h0 : m ≠ 0) :
    ∃ c, containerCall anything currentTime oldTime accessTime number = some (some c) ∧ c.memory = toInt32 |m| := by
  rw [containerCall, adjustBloomFilter, hm]
  simp only [Option.map_some, if_neg h0]
  by_cases hneg : m < 0
  · refine ⟨_, by rw [if_pos hneg, Option.map_some], ?_⟩
    simp only [tableCache, shardedCache, memory]
    rw [ofSize_toSize_toInt32, abs_of_neg hneg, mul_neg_one]
  · refine ⟨_, by rw [if_neg hneg, Option.map_some], ?_⟩
    simp only [tableCache, shardedCache, memory]
    rw [ofSize_toSize_toInt32, abs_of_nonneg (not_lt.1 hneg)]

/-- The multi container receives the absolute value of the amount just when it fits in an `int`. -/
theorem containerCall_budget_iff (anything : ℝ → ℤ) (currentTime oldTime accessTime number : Nat) (m : ℤ)
    (hm : getAdjustMemory anything oldTime accessTime number = some m) (h0 : m ≠ 0) :
    (∃ c, containerCall anything currentTime oldTime accessTime number = some (some c) ∧ c.memory = |m|) ↔
      |m| < 2 ^ 31 := by
  obtain ⟨c, hc, hmem⟩ := containerCall_memory currentTime hm h0
  rw [← toInt32_eq_iff (abs_nonneg m), ← hmem]
  constructor
  · rintro ⟨c', hc', hmem'⟩
    rw [hc] at hc'
    cases hc'
    exact hmem'
  · exact fun h => ⟨c, hc, h⟩

lemma getAdjustMemory_double (anything : ℝ → ℤ) (number : Nat) (hlt : ⌊adjustmentSize 1 2 number⌋ < 2 ^ 63) :
    getAdjustMemory anything 1 2 number = some (-⌊adjustmentSize 1 2 number⌋) := by
  rw [getAdjustMemory_eq (by norm_num) (by norm_num), if_pos (by norm_num), toInt64_amount hlt,
    truncate_of_nonneg (amount_nonneg (by norm_num) (by norm_num) number), abs_amount]

lemma floor_adjustmentSize_double : ⌊adjustmentSize 1 2 8⌋ = 1 := by
  obtain ⟨hge, hlt⟩ := adjustmentSize_double
  exact Int.floor_eq_iff.2 ⟨by exact_mod_cast hge, by norm_num; exact hlt⟩

theorem containerCall_budget_iff_sample :
    ∃ c, containerCall (fun _ => 0) 0 1 2 8 = some (some c) ∧ c.memory = |(-1 : ℤ)| := by
  have hm : getAdjustMemory (fun _ => 0) 1 2 8 = some (-1) := by
    rw [getAdjustMemory_double _ 8 (by rw [floor_adjustmentSize_double]; norm_num), floor_adjustmentSize_double]
  exact (containerCall_budget_iff _ 0 1 2 8 (-1) hm (by norm_num)).2 (by norm_num)

lemma adjustmentSize_scale (n : Nat) : adjustmentSize 1 2 (8 * n) = n * adjustmentSize 1 2 8 := by
  have hn : (0 : ℝ) ≤ n := Nat.cast_nonneg n
  rw [adjustmentSize, adjustmentSize, ← abs_of_nonneg hn, ← abs_mul]
  congr 1
  push_cast
  ring

/-- With 2³⁴ entries the amount passes 2³¹, and the container receives a negative number. -/
theorem containerCall_negative : ∃ m c, getAdjustMemory (fun _ => 0) 1 2 (8 * 2 ^ 31) = some m ∧ m ≠ 0 ∧
    -2 ^ 63 < m ∧ m < 2 ^ 63 ∧ containerCall (fun _ => 0) 0 1 2 (8 * 2 ^ 31) = some (some c) ∧ c.memory < 0 ∧ 0 < |m| := by
  obtain ⟨hge, hlt⟩ := adjustmentSize_double
  have hsize : adjustmentSize 1 2 (8 * 2 ^ 31) = 2 ^ 31 * adjustmentSize 1 2 8 := by
    rw [adjustmentSize_scale]
    norm_num
  have hlow : 2 ^ 31 ≤ ⌊adjustmentSize 1 2 (8 * 2 ^ 31)⌋ := by
    rw [Int.le_floor, hsize]
    push_cast
    linarith
  have hhigh : ⌊adjustmentSize 1 2 (8 * 2 ^ 31)⌋ < 2 ^ 32 := by
    rw [Int.floor_lt, hsize]
    push_cast
    linarith
  have hm := getAdjustMemory_double (fun _ => 0) (8 * 2 ^ 31) (by omega)
  obtain ⟨c, hc, hmem⟩ := containerCall_memory 0 hm (by omega)
  refine ⟨_, c, hm, by omega, by omega, by omega, hc, ?_, by rw [abs_pos]; omega⟩
  rw [hmem, abs_neg, abs_of_nonneg (by omega), toInt32]
  set x := ⌊adjustmentSize 1 2 (8 * 2 ^ 31)⌋
  have hx : x.bmod (2 ^ 32) = x - 2 ^ 32 := by
    rw [← Int.sub_bmod_right x]
    exact Int.bmod_eq_of_le (by norm_num; omega) (by norm_num; omega)
  rw [hx]
  omega

end RallyDB.Db
