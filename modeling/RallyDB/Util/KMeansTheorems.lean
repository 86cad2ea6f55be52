import RallyDB.Util.Lemmas.KMeans

/-!
# What the clustering returns, and when it ends
-/

namespace RallyDB.Util.KMeans

open List

variable {d : Nat} {dataSet centroids : List (Point d)}

lemma kmeans_centroids {rounds : Nat} {t : KMeans d} (hk : centroids ≠ [])
    (hsmall : ∀ n, SmallDistances dataSet (after dataSet centroids n).centroids)
    (h : kmeans dataSet centroids rounds = some t) :
    dataSet = [] ∨ SmallDistances dataSet t.centroids ∧ t.minIndex = dataSet.map (nearest t.centroids) := by
  obtain ⟨n, rfl, hsame⟩ := kmeans_some h
  cases n with
  | zero => exact .inl (eq_nil_of_first_unchanged hk (hsmall 0) hsame)
  | succ n =>
    right
    have hcent : (after dataSet centroids (n + 2)).centroids = (after dataSet centroids (n + 1)).centroids := by
      rw [after_succ_centroids, after_succ_centroids, hsame]
    rw [hcent, after_succ_minIndex]
    exact ⟨hsmall (n + 1), rfl⟩

/-- What is returned is a fixed point, if all squared distances that the rounds meet are below `INT_MAX`. -/
theorem kmeans_fixed_point (dataSet centroids : List (Point d)) (rounds : Nat) (t : KMeans d)
    (hrows : dataSet.length < 2 ^ 31) (hk : centroids ≠ [])
    (hsmall : ∀ n, SmallDistances dataSet (after dataSet centroids n).centroids)
    (h : kmeans dataSet centroids rounds = some t) :
    t.centroids.length = centroids.length ∧ t.minIndex.length = dataSet.length ∧
    (∀ p ∈ dataSet.zip t.minIndex, IsNearest t.centroids p.1 p.2) ∧
    ∀ (cent : Nat) c, t.centroids[cent]? = some c → IsMean (membersOf dataSet t.minIndex cent) c := by
  have hcases := kmeans_centroids hk hsmall h
  obtain ⟨n, rfl, -⟩ := kmeans_some h
  refine ⟨after_centroids_length _ _ _, by rw [after_succ_minIndex, length_map], ?_, ?_⟩
  · rintro ⟨row, i⟩ hp
    rcases hcases with rfl | ⟨hsm, hidx⟩
    · simp at hp
    · have hmem := (of_mem_zip hp).1
      rw [hidx, zip_map_right, mem_map] at hp
      obtain ⟨⟨row', row''⟩, hzip, heq⟩ := hp
      obtain ⟨rfl, rfl⟩ := Prod.mk.inj heq
      obtain rfl : row' = row'' := by
        rw [zip_eq_zipWith, zipWith_self] at hzip
        obtain ⟨r, -, hr⟩ := mem_map.1 hzip
        obtain ⟨rfl, rfl⟩ := Prod.mk.inj hr
        rfl
      exact nearest_isNearest hsm (after_centroids_ne_nil _ _ hk _) hmem
  · intro cent c hc
    have hmean := hc
    rw [after_succ_centroids] at hmean
    obtain rfl := updateCentroids_getElem? hmean
    have hsub : membersOf dataSet (after dataSet centroids (n + 1)).minIndex cent ⊆ dataSet := by
      rw [after_succ_minIndex, membersOf_map]
      exact filter_subset_self _
    have hlen : (membersOf dataSet (after dataSet centroids (n + 1)).minIndex cent).length ≤ dataSet.length := by
      rw [after_succ_minIndex, membersOf_map]
      exact length_filter_le _ _
    refine meanOf_isMean (hlen.trans_lt hrows) fun row hrow i => ?_
    rcases hcases with rfl | ⟨hsm, -⟩
    · exact absurd (hsub hrow) not_mem_nil
    · exact gap_lt_of_sqDist (hsm _ (mem_of_getElem? hc) row (hsub hrow)) i

def sampleRows : List (Point 2) := [![1, 4], ![2, 6], ![6, 1]]

def sampleCentroids : List (Point 2) := [![1, 5], ![6, 2]]

lemma sample_smallDistances : ∀ n, SmallDistances sampleRows (after sampleRows sampleCentroids n).centroids :=
  fun n => smallDistances_of_bounded (M := 6) (by decide) (by decide) (by decide) (by simp [sampleRows, Fin.forall_fin_succ])
    (by simp [sampleCentroids, Fin.forall_fin_succ]) n

theorem kmeans_fixed_point_sample : ∃ t, kmeans sampleRows sampleCentroids 3 = some t ∧ t.minIndex = [0, 0, 1] ∧
    ∀ p ∈ sampleRows.zip t.minIndex, IsNearest t.centroids p.1 p.2 := by
  have hrun : (kmeans sampleRows sampleCentroids 3).map minIndex = some [0, 0, 1] := by decide +kernel
  obtain ⟨t, ht, hidx⟩ := Option.map_eq_some_iff.1 hrun
  exact ⟨t, ht, hidx, (kmeans_fixed_point _ _ 3 t (by decide) (by decide) sample_smallDistances ht).2.2.1⟩

/-! ## Which runs end -/

def sqDistTo (centroids : List (Point d)) (i : ℤ) (row : Point d) : Nat :=
  match centroids[i.toNat]? with
  | some c => sqDist c row
  | none => 0

def squaredError (dataSet centroids : List (Point d)) (minIndex : List ℤ) : Nat :=
  ((dataSet.zip minIndex).map fun p => sqDistTo centroids p.2 p.1).sum

/-- Although the means are rounded down, no point set gets a worse centre: the squared error of the new groups does not grow. -/
def RoundsDownSafely (dataSet : List (Point d)) (s : KMeans d) : Prop :=
  squaredError dataSet (round dataSet s).centroids (round dataSet s).minIndex ≤
    squaredError dataSet s.centroids (round dataSet s).minIndex

lemma squaredError_map (f : Point d → ℤ) :
    squaredError dataSet centroids (dataSet.map f) = (dataSet.map fun row => sqDistTo centroids (f row) row).sum := by
  rw [squaredError, zip_map_right, map_map, zip_eq_zipWith, zipWith_self, map_map]
  rfl

lemma isNearest_le {row : Point d} {i j : ℤ} (h : IsNearest centroids row i) (hj : 0 ≤ j ∧ j < centroids.length) :
    sqDistTo centroids i row ≤ sqDistTo centroids j row := by
  obtain ⟨n, c, rfl, hc, hmin, -⟩ := h
  have hlt : j.toNat < centroids.length := by omega
  have hget := getElem?_eq_getElem hlt
  simp only [sqDistTo, Int.toNat_natCast, hc, hget]
  exact hmin _ _ hget

lemma isNearest_index_le {row : Point d} {i j : ℤ} (h : IsNearest centroids row i) (hj : 0 ≤ j ∧ j < centroids.length)
    (heq : sqDistTo centroids i row = sqDistTo centroids j row) : i ≤ j := by
  obtain ⟨n, c, rfl, hc, -, hfirst⟩ := h
  by_contra hlt
  have hjlt : j.toNat < centroids.length := by omega
  have hget := getElem?_eq_getElem hjlt
  simp only [sqDistTo, Int.toNat_natCast, hc, hget] at heq
  have := hfirst j.toNat _ (by omega) hget
  omega

def rank (dataSet : List (Point d)) (s : KMeans d) : ℕ ×ₗ ℕ :=
  toLex ((dataSet.map fun row => sqDistTo s.centroids (nearest s.centroids row) row).sum,
    (dataSet.map fun row => (nearest s.centroids row).toNat).sum)

lemma rank_lt (hk : centroids ≠ []) (hsmall : ∀ n, SmallDistances dataSet (after dataSet centroids n).centroids) {n : Nat}
    (hsafe : RoundsDownSafely dataSet (after dataSet centroids n))
    (hchange : (after dataSet centroids (n + 1)).minIndex ≠ (after dataSet centroids (n + 2)).minIndex) :
    rank dataSet (after dataSet centroids (n + 1)) < rank dataSet (after dataSet centroids n) := by
  set C := (after dataSet centroids n).centroids with hC
  set C' := (after dataSet centroids (n + 1)).centroids with hC'
  have hnear : ∀ row ∈ dataSet, IsNearest C' row (nearest C' row) :=
    fun row hrow => nearest_isNearest (hsmall (n + 1)) (after_centroids_ne_nil _ _ hk _) hrow
  have hrange : ∀ row ∈ dataSet, 0 ≤ nearest C row ∧ nearest C row < C'.length := by
    intro row hrow
    obtain ⟨m, c, hm, hc, -⟩ := nearest_isNearest (hsmall n) (after_centroids_ne_nil _ _ hk _) hrow
    obtain ⟨hlt, -⟩ := List.getElem?_eq_some_iff.1 hc
    rw [after_centroids_length] at hlt
    rw [hC', after_centroids_length, hC, hm]
    omega
  -- the old assignment, seen from the new centroids
  have hmid : (dataSet.map fun row => sqDistTo C' (nearest C row) row).sum ≤
      (dataSet.map fun row => sqDistTo C (nearest C row) row).sum := by
    have := hsafe
    rw [RoundsDownSafely, ← after_succ, after_succ_minIndex, squaredError_map, squaredError_map] at this
    exact this
  have hle : ∀ row ∈ dataSet, sqDistTo C' (nearest C' row) row ≤ sqDistTo C' (nearest C row) row :=
    fun row hrow => isNearest_le (hnear row hrow) (hrange row hrow)
  have hsum := sum_le_sum hle
  rw [rank, rank, Prod.Lex.toLex_lt_toLex]
  rcases (hsum.trans hmid).lt_or_eq with hlt | heq
  · exact .inl hlt
  · right
    refine ⟨heq, ?_⟩
    have hsame : ∀ row ∈ dataSet, sqDistTo C' (nearest C' row) row = sqDistTo C' (nearest C row) row := by
      intro row hrow
      by_contra hne
      have := sum_lt_sum _ _ hle ⟨row, hrow, (hle row hrow).lt_of_ne hne⟩
      omega
    have hidx : ∀ row ∈ dataSet, nearest C' row ≤ nearest C row :=
      fun row hrow => isNearest_index_le (hnear row hrow) (hrange row hrow) (hsame row hrow)
    have hex : ∃ row ∈ dataSet, nearest C' row ≠ nearest C row := by
      by_contra hall
      push Not at hall
      apply hchange
      rw [after_succ_minIndex, after_succ_minIndex]
      exact map_congr_left fun row hrow => (hall row hrow).symm
    obtain ⟨row, hrow, hne⟩ := hex
    refine sum_lt_sum _ _ (fun row hrow => Int.toNat_le_toNat (hidx row hrow)) ⟨row, hrow, ?_⟩
    have h1 := hidx row hrow
    have h2 := (hnear row hrow).nonneg
    have h3 := (hrange row hrow).1
    show (nearest C' row).toNat < (nearest C row).toNat
    omega

/-- The clustering ends in every run in which rounding down the means never makes the assignment worse. -/
theorem kmeans_ends (dataSet centroids : List (Point d)) (hk : centroids ≠ [])
    (hsmall : ∀ n, SmallDistances dataSet (after dataSet centroids n).centroids)
    (hsafe : ∀ n, RoundsDownSafely dataSet (after dataSet centroids n)) :
    ∃ rounds t, kmeans dataSet centroids rounds = some t :=
  Lib.exists_repeatUntil (rank dataSet) fun n hchange =>
    rank_lt hk hsmall (hsafe n) (of_decide_eq_false hchange)

theorem kmeans_ends_sample : ∃ rounds t, kmeans sampleRows sampleCentroids rounds = some t := by
  have hidx : ∀ n, (after sampleRows sampleCentroids (n + 1)).minIndex = [0, 0, 1] := by
    intro n
    induction n with
    | zero => decide +kernel
    | succ n ih =>
      rw [after_succ_minIndex, after_succ_centroids, ih]
      decide +kernel
  refine kmeans_ends sampleRows sampleCentroids (by decide) sample_smallDistances fun n => ?_
  cases n with
  | zero =>
    unfold RoundsDownSafely
    decide +kernel
  | succ n =>
    rw [RoundsDownSafely, ← after_succ, after_succ_centroids, hidx, after_succ_centroids _ _ n, hidx]

def cyclingRows : List (Point 4) := [![1, 1, 0, 1], ![0, 1, 1, 1], ![1, 0, 1, 1], ![1, 0, 0, 0], ![1, 1, 1, 0]]

def cyclingCentroids : List (Point 4) := [![0, 1, 1, 1], ![1, 1, 1, 1]]

/-- Two assignments of these rows follow on each other for ever: the mean of four rows is rounded down to the origin. -/
theorem kmeans_cycles : (∀ n, SmallDistances cyclingRows (after cyclingRows cyclingCentroids n).centroids) ∧
    ∀ rounds, kmeans cyclingRows cyclingCentroids rounds = none := by
  refine ⟨fun n => smallDistances_of_bounded (M := 1) (by decide) (by decide) (by decide)
    (by simp [cyclingRows, Fin.forall_fin_succ]) (by simp [cyclingCentroids, Fin.forall_fin_succ]) n, ?_⟩
  have hnext : ∀ idx ∈ ([[1, 0, 1, 1, 1], [0, 0, 0, 1, 0]] : List (List ℤ)),
      cyclingRows.map (nearest (updateCentroids cyclingRows idx 2)) ∈ ([[1, 0, 1, 1, 1], [0, 0, 0, 1, 0]] : List (List ℤ)) ∧
        idx ≠ cyclingRows.map (nearest (updateCentroids cyclingRows idx 2)) := by
    decide +kernel
  refine Lib.repeatUntil_none (fun s => s = start cyclingRows cyclingCentroids ∨
    ∃ idx ∈ ([[1, 0, 1, 1, 1], [0, 0, 0, 1, 0]] : List (List ℤ)), s = ⟨updateCentroids cyclingRows idx 2, idx⟩) ?_ ?_ (.inl rfl)
  · rintro s (rfl | ⟨idx, hidx, rfl⟩)
    · have hfirst : cyclingRows.map (nearest cyclingCentroids) = [1, 0, 1, 1, 1] := by decide +kernel
      refine .inr ⟨[1, 0, 1, 1, 1], mem_cons_self, ?_⟩
      simp only [round, start, hfirst]
      rfl
    · refine .inr ⟨_, (hnext idx hidx).1, ?_⟩
      simp only [round, updateCentroids_length]
  · rintro s (rfl | ⟨idx, hidx, rfl⟩)
    · decide +kernel
    · exact decide_eq_false (hnext idx hidx).2

end RallyDB.Util.KMeans
