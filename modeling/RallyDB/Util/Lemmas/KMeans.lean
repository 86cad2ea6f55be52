import RallyDB.Lib.FirstLeast
import RallyDB.Util.KMeans

/-!
# What a round of the clustering does
-/

namespace RallyDB.Util

open List Nat

variable {d : Nat} {dataSet centroids : List (Point d)} {row : Point d}

lemma addAll_toNat {α : Type*} (f : α → UInt64) (l : List α) :
    (addAll f l).toNat = (l.map fun a => (f a).toNat).sum % 2 ^ 64 := by
  have hfold : ∀ sum : UInt64, (l.foldl (fun sum a => sum + f a) sum).toNat =
      (sum.toNat + (l.map fun a => (f a).toNat).sum) % 2 ^ 64 := by
    induction l with
    | nil =>
      intro sum
      simp [mod_eq_of_lt sum.toNat_lt]
    | cons a l ih =>
      intro sum
      rw [foldl_cons, ih, UInt64.toNat_add, mod_add_mod, map_cons, sum_cons, add_assoc]
  simpa [addAll] using hfold 0

def gap (a b : UInt64) : Nat := ((a.toNat : ℤ) - b.toNat).natAbs

def sqDist (v1 v2 : Point d) : Nat := ((List.finRange d).map fun i => gap (v1 i) (v2 i) ^ 2).sum

lemma sub_mul_sub_toNat (a b : UInt64) : ((a - b) * (a - b)).toNat = gap a b ^ 2 % 2 ^ 64 := by
  have ha := a.toNat_lt
  have hb := b.toNat_lt
  rw [UInt64.toNat_mul, UInt64.toNat_sub]
  rcases le_total b.toNat a.toNat with hle | hle
  · have hgap : gap a b = a.toNat - b.toNat := by
      rw [gap]
      omega
    have hsub : (2 ^ 64 - b.toNat + a.toNat) % 2 ^ 64 = a.toNat - b.toNat := by omega
    rw [hsub, hgap, pow_two]
  · have hgap : gap a b = b.toNat - a.toNat := by
      rw [gap]
      omega
    have hsub : ((2 ^ 64 - b.toNat + a.toNat : ℕ) : ℤ) = 2 ^ 64 - gap a b := by omega
    -- the difference is negative, and so is its other factor
    have hmod : (2 ^ 64 - b.toNat + a.toNat) * (2 ^ 64 - b.toNat + a.toNat) ≡ gap a b ^ 2 [MOD 2 ^ 64] := by
      rw [← Int.natCast_modEq_iff, cast_mul, hsub]
      exact Int.modEq_iff_dvd.2 ⟨2 * gap a b - 2 ^ 64, by push_cast; ring⟩
    rw [← mul_mod]
    exact hmod

lemma distEclud_toNat (v1 v2 : Point d) : (distEclud v1 v2).toNat = sqDist v1 v2 % 2 ^ 64 := by
  rw [distEclud, addAll_toNat, sqDist]
  simp only [sub_mul_sub_toNat]
  induction List.finRange d with
  | nil => rfl
  | cons i l ih => rw [map_cons, sum_cons, map_cons, sum_cons, add_mod, ih, mod_mod, ← add_mod]

variable {v1 v2 : Point d}

lemma distEclud_of_lt (h : sqDist v1 v2 < kMaxDist) : (distEclud v1 v2).toNat = sqDist v1 v2 := by
  rw [distEclud_toNat, mod_eq_of_lt]
  unfold kMaxDist at h
  omega

lemma gap_sq_le_sqDist (v1 v2 : Point d) (i : Fin d) : gap (v1 i) (v2 i) ^ 2 ≤ sqDist v1 v2 :=
  single_le_sum (fun _ _ => zero_le _) _ (mem_map_of_mem (mem_finRange i))

lemma nearestLoop_eq (row : Point d) (cs : List (Point d)) (j : Nat) (best : ℤ × Nat) :
    nearestLoop row cs j best = Lib.scanLeast (fun c => (distEclud c row).toNat) (fun n => (n : ℤ)) cs j best := by
  induction cs generalizing j best with
  | nil => rfl
  | cons c cs ih => exact ih (j + 1) _

lemma nearestLoop_cases (row : Point d) (cs : List (Point d)) (j : Nat) (i0 : ℤ) (d0 : Nat) :
    (nearestLoop row cs j (i0, d0) = (i0, d0) ∧ ∀ c ∈ cs, d0 ≤ (distEclud c row).toNat) ∨
    ∃ (n : Nat) (c : Point d), cs[n]? = some c ∧ nearestLoop row cs j (i0, d0) = (((j + n : Nat) : ℤ), (distEclud c row).toNat) ∧
    (distEclud c row).toNat < d0 ∧
    (∀ (m : Nat) c', cs[m]? = some c' → (distEclud c row).toNat ≤ (distEclud c' row).toNat) ∧
    ∀ (m : Nat) c', m < n → cs[m]? = some c' → (distEclud c row).toNat < (distEclud c' row).toNat := by
  rw [nearestLoop_eq]
  exact Lib.scanLeast_cases (fun c => (distEclud c row).toNat) (fun n => (n : ℤ)) cs j (i0, d0)

lemma nearest_range_iff : (0 ≤ nearest centroids row ∧ nearest centroids row < centroids.length) ↔
    ∃ c ∈ centroids, (distEclud c row).toNat < kMaxDist := by
  rcases nearestLoop_cases row centroids 0 (-1) kMaxDist with ⟨hr, hall⟩ | ⟨n, c, hc, hr, hlt, -, -⟩
  · rw [nearest, hr]
    refine iff_of_false (by simp) ?_
    rintro ⟨c, hc, hlt⟩
    exact absurd hlt (not_lt.2 (hall c hc))
  · rw [nearest, hr]
    obtain ⟨hn, -⟩ := List.getElem?_eq_some_iff.1 hc
    exact iff_of_true ⟨by simp, by simpa using hn⟩ ⟨c, mem_of_getElem? hc, hlt⟩

def IsNearest (centroids : List (Point d)) (row : Point d) (i : ℤ) : Prop :=
  ∃ (n : Nat) (c : Point d), i = n ∧ centroids[n]? = some c ∧
    (∀ (m : Nat) c', centroids[m]? = some c' → sqDist c row ≤ sqDist c' row) ∧
    ∀ (m : Nat) c', m < n → centroids[m]? = some c' → sqDist c row < sqDist c' row

def SmallDistances (dataSet centroids : List (Point d)) : Prop :=
  ∀ c ∈ centroids, ∀ row ∈ dataSet, sqDist c row < kMaxDist

lemma nearest_isNearest (hsmall : SmallDistances dataSet centroids) (hk : centroids ≠ []) (hrow : row ∈ dataSet) :
    IsNearest centroids row (nearest centroids row) := by
  have hdist : ∀ {m : Nat} {c}, centroids[m]? = some c → (distEclud c row).toNat = sqDist c row :=
    fun hc => distEclud_of_lt (hsmall _ (mem_of_getElem? hc) row hrow)
  rcases nearestLoop_cases row centroids 0 (-1) kMaxDist with ⟨-, hall⟩ | ⟨n, c, hc, hr, -, hmin, hfirst⟩
  · obtain ⟨c, hc⟩ := exists_mem_of_ne_nil _ hk
    have hlt := hsmall c hc row hrow
    rw [← distEclud_of_lt hlt] at hlt
    exact absurd hlt (not_lt.2 (hall c hc))
  · refine ⟨n, c, by rw [nearest, hr, zero_add], hc, ?_, ?_⟩
    · intro m c' hc'
      rw [← hdist hc, ← hdist hc']
      exact hmin m c' hc'
    · intro m c' hm hc'
      rw [← hdist hc, ← hdist hc']
      exact hfirst m c' hm hc'

lemma IsNearest.nonneg {i : ℤ} (h : IsNearest centroids row i) : 0 ≤ i := by
  obtain ⟨n, -, rfl, -⟩ := h
  exact Int.natCast_nonneg n

def IsMean (members : List (Point d)) (c : Point d) : Prop :=
  if members = [] then c = fun _ => 0
  else ∀ i, (c i).toNat = (members.map fun row => (row i).toNat).sum / members.length

variable {members : List (Point d)}

lemma meanOf_toNat (hne : members ≠ []) (hlen : members.length < 2 ^ 31) (i : Fin d) :
    (meanOf members i).toNat = (members.map fun row => (row i).toNat).sum % 2 ^ 64 / members.length := by
  have hpos := length_pos_iff.2 hne
  rw [meanOf, if_pos hpos.ne', UInt64.toNat_div, addAll_toNat, UInt64.toNat_ofNat_of_lt' (hlen.trans (by norm_num))]

lemma meanOf_isMean (hlen : members.length < 2 ^ 31)
    (hclose : ∀ row ∈ members, ∀ i, gap (meanOf members i) (row i) < 2 ^ 16) : IsMean members (meanOf members) := by
  by_cases hne : members = []
  · subst hne
    rfl
  · rw [IsMean, if_neg hne]
    intro i
    have hmean := meanOf_toNat hne hlen i
    set S := (members.map fun row => (row i).toNat).sum with hS
    have hle : ∀ row ∈ members, (row i).toNat ≤ (meanOf members i).toNat + 2 ^ 16 := by
      intro row hrow
      have := hclose row hrow i
      rw [gap] at this
      omega
    have hsum : S ≤ members.length * ((meanOf members i).toNat + 2 ^ 16) := by
      have := sum_le_card_nsmul (members.map fun row => (row i).toNat) ((meanOf members i).toNat + 2 ^ 16)
        (by simpa using hle)
      simpa using this
    have hdiv : members.length * (meanOf members i).toNat ≤ S % 2 ^ 64 := by
      rw [hmean]
      exact mul_div_le _ _
    have hlt : S < S % 2 ^ 64 + 2 ^ 64 := by
      rw [mul_add] at hsum
      omega
    have hmod : S % 2 ^ 64 = S := by omega
    rw [hmean, hmod]

lemma meanOf_between {i : Fin d} (lo hi : Nat) (hne : members ≠ [])
    (hlen : members.length < 2 ^ 31) (hsum : (members.map fun row => (row i).toNat).sum < 2 ^ 64)
    (hrows : ∀ row ∈ members, lo ≤ (row i).toNat ∧ (row i).toNat ≤ hi) :
    lo ≤ (meanOf members i).toNat ∧ (meanOf members i).toNat ≤ hi := by
  have hpos := length_pos_iff.2 hne
  have hlow : members.length * lo ≤ (members.map fun row => (row i).toNat).sum := by
    have := card_nsmul_le_sum (members.map fun row => (row i).toNat) lo (by simpa using fun row hrow => (hrows row hrow).1)
    simpa using this
  have hhigh : (members.map fun row => (row i).toNat).sum ≤ members.length * hi := by
    have := sum_le_card_nsmul (members.map fun row => (row i).toNat) hi (by simpa using fun row hrow => (hrows row hrow).2)
    simpa using this
  rw [meanOf_toNat hne hlen, Nat.mod_eq_of_lt hsum]
  exact ⟨(Nat.le_div_iff_mul_le hpos).2 (by rwa [mul_comm]), Nat.div_le_of_le_mul hhigh⟩

lemma sqDist_le_of_gap {b : Fin d → Nat} (h : ∀ i, gap (v1 i) (v2 i) ≤ b i) :
    sqDist v1 v2 ≤ ((List.finRange d).map fun i => b i ^ 2).sum :=
  sum_le_sum fun i _ => Nat.pow_le_pow_left (h i) 2

lemma gap_lt_of_sqDist (h : sqDist v1 v2 < kMaxDist) (i : Fin d) : gap (v1 i) (v2 i) < 2 ^ 16 := by
  have hle := gap_sq_le_sqDist v1 v2 i
  by_contra hge
  have hsq : (2 ^ 16) ^ 2 ≤ gap (v1 i) (v2 i) ^ 2 := Nat.pow_le_pow_left (not_lt.1 hge) 2
  unfold kMaxDist at h
  omega

/-! ## Rounds -/

lemma membersOf_map (f : Point d → ℤ) (cent : Nat) :
    membersOf dataSet (dataSet.map f) cent = dataSet.filter fun row => f row = cent := by
  induction dataSet with
  | nil => rfl
  | cons row rows ih =>
    simp only [membersOf, map_cons, zip_cons_cons, filter_cons] at ih ⊢
    by_cases h : f row = cent
    · simp only [h, decide_true, if_true, map_cons, ih]
    · simp only [h, decide_false, Bool.false_eq_true, if_false, ih]

@[simp] lemma updateCentroids_length (minIndex : List ℤ) (k : Nat) :
    (updateCentroids dataSet minIndex k).length = k := by simp [updateCentroids]

lemma updateCentroids_getElem? {minIndex : List ℤ} {k cent : Nat} {c : Point d}
    (h : (updateCentroids dataSet minIndex k)[cent]? = some c) : c = meanOf (membersOf dataSet minIndex cent) := by
  rw [updateCentroids, getElem?_map] at h
  obtain ⟨j, hj, rfl⟩ := Option.map_eq_some_iff.1 h
  obtain ⟨hlt, rfl⟩ := List.getElem?_eq_some_iff.1 hj
  rw [getElem_range]

namespace KMeans

variable (dataSet centroids)

lemma after_succ (n : Nat) : after dataSet centroids (n + 1) = round dataSet (after dataSet centroids n) :=
  Function.iterate_succ_apply' _ _ _

@[simp] lemma after_centroids_length (n : Nat) : (after dataSet centroids n).centroids.length = centroids.length := by
  induction n with
  | zero => rfl
  | succ n ih => simp [after_succ, round, ih]

lemma after_succ_minIndex (n : Nat) :
    (after dataSet centroids (n + 1)).minIndex = dataSet.map (nearest (after dataSet centroids n).centroids) := by
  rw [after_succ, round]

lemma after_succ_centroids (n : Nat) : (after dataSet centroids (n + 1)).centroids =
    updateCentroids dataSet (after dataSet centroids (n + 1)).minIndex centroids.length := by
  rw [after_succ]
  simp only [round, after_centroids_length]

lemma after_centroids_ne_nil (hk : centroids ≠ []) (n : Nat) : (after dataSet centroids n).centroids ≠ [] := by
  rw [← length_pos_iff, after_centroids_length]
  exact length_pos_iff.2 hk

variable {dataSet centroids}

lemma kmeans_some {rounds : Nat} {t : KMeans d} (h : kmeans dataSet centroids rounds = some t) :
    ∃ n, t = after dataSet centroids (n + 1) ∧
    (after dataSet centroids n).minIndex = (after dataSet centroids (n + 1)).minIndex := by
  obtain ⟨n, hn, ht⟩ := Lib.repeatUntil_some h
  exact ⟨n, ht, of_decide_eq_true hn⟩

lemma smallDistances_of_bounded {M : Nat} (hrows : dataSet.length < 2 ^ 31) (hM : dataSet.length * M < 2 ^ 64)
    (hd : d * M ^ 2 < kMaxDist) (hdata : ∀ row ∈ dataSet, ∀ i, (row i).toNat ≤ M)
    (hcent : ∀ c ∈ centroids, ∀ i, (c i).toNat ≤ M) (n : Nat) :
    SmallDistances dataSet (after dataSet centroids n).centroids := by
  have hbound : ∀ c ∈ (after dataSet centroids n).centroids, ∀ i, (c i).toNat ≤ M := by
    cases n with
    | zero => exact hcent
    | succ n =>
      intro c hc i
      obtain ⟨cent, hcent⟩ := getElem?_of_mem hc
      rw [after_succ_centroids] at hcent
      obtain rfl := updateCentroids_getElem? hcent
      rw [after_succ_minIndex, membersOf_map]
      set members := dataSet.filter fun row => nearest (after dataSet centroids n).centroids row = cent
      by_cases hne : members = []
      · rw [hne]
        exact zero_le M
      · have hmem : ∀ row ∈ members, (row i).toNat ≤ M := fun row hrow => hdata row (mem_of_mem_filter hrow) i
        have hlen : members.length ≤ dataSet.length := length_filter_le _ _
        have hsum := sum_le_card_nsmul (members.map fun row => (row i).toNat) M (by simpa using hmem)
        simp only [length_map, nsmul_eq_mul, cast_id] at hsum
        exact (meanOf_between 0 M hne (hlen.trans_lt hrows)
          (hsum.trans_lt ((mul_le_mul_right M hlen).trans_lt hM)) fun row hrow => ⟨zero_le _, hmem row hrow⟩).2
  intro c hc row hrow
  have hgap : ∀ i, gap (c i) (row i) ≤ M := by
    intro i
    have h1 := hbound c hc i
    have h2 := hdata row hrow i
    rw [gap]
    omega
  have hle := sqDist_le_of_gap (b := fun _ => M) hgap
  simp only [map_const', length_finRange, sum_replicate, nsmul_eq_mul, cast_id] at hle
  exact hle.trans_lt hd

lemma eq_nil_of_first_unchanged (hk : centroids ≠ []) (hsmall : SmallDistances dataSet centroids)
    (h : (after dataSet centroids 0).minIndex = (after dataSet centroids 1).minIndex) : dataSet = [] := by
  rw [after_succ_minIndex] at h
  cases hdata : dataSet with
  | nil => rfl
  | cons row rows =>
    rw [hdata] at h hsmall
    have hfirst : -1 = nearest centroids row := (List.cons.inj h).1
    have hnonneg := (nearest_isNearest hsmall hk mem_cons_self).nonneg
    omega

end KMeans

end RallyDB.Util
