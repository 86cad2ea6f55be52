import RallyDB.Util.Lemmas.KMeans
import RallyDB.Util.SSTableWorth

/-!
# When the clustering of the tables stays in bounds
-/

namespace RallyDB.Util

open List KMeans
open UInt64 (le_iff_toNat_le lt_iff_toNat_lt not_lt ofInt ofNat)

variable {d : Nat} {dataSet centroids : List (Point d)}

lemma widen_bounds (idx : Fin d) {range : UInt64 × UInt64} (h : range.1.toNat ≤ range.2.toNat) (row : Point d) :
    (widen idx range row).1.toNat ≤ range.1.toNat ∧ range.2.toNat ≤ (widen idx range row).2.toNat ∧
    (widen idx range row).1.toNat ≤ (row idx).toNat ∧ (row idx).toNat ≤ (widen idx range row).2.toNat := by
  unfold widen
  split_ifs with hlt hgt
  · have := lt_iff_toNat_lt.1 hlt
    refine ⟨?_, ?_, ?_, ?_⟩ <;> dsimp only <;> omega
  · have := lt_iff_toNat_lt.1 hgt
    have := le_iff_toNat_le.1 (not_lt.1 hlt)
    refine ⟨?_, ?_, ?_, ?_⟩ <;> dsimp only <;> omega
  · have := le_iff_toNat_le.1 (not_lt.1 hlt)
    have := le_iff_toNat_le.1 (not_lt.1 hgt)
    refine ⟨?_, ?_, ?_, ?_⟩ <;> omega

lemma foldl_widen_bounds (idx : Fin d) (rows : List (Point d)) (range : UInt64 × UInt64)
    (h : range.1.toNat ≤ range.2.toNat) :
    (rows.foldl (widen idx) range).1.toNat ≤ range.1.toNat ∧ range.2.toNat ≤ (rows.foldl (widen idx) range).2.toNat ∧
    ∀ row ∈ rows, (rows.foldl (widen idx) range).1.toNat ≤ (row idx).toNat ∧
    (row idx).toNat ≤ (rows.foldl (widen idx) range).2.toNat := by
  induction rows generalizing range with
  | nil => simp
  | cons row rows ih =>
    obtain ⟨hmin, hmax, hlow, hhigh⟩ := widen_bounds idx h row
    obtain ⟨imin, imax, irows⟩ := ih (widen idx range row) (by omega)
    rw [foldl_cons]
    refine ⟨by omega, by omega, fun r hr => ?_⟩
    rcases mem_cons.1 hr with rfl | hmem
    · omega
    · exact irows r hmem

lemma getMinMax_bounds {idx : Fin d} {min max : UInt64} (h : getMinMax dataSet idx = some (min, max)) :
    ∀ row ∈ dataSet, min.toNat ≤ (row idx).toNat ∧ (row idx).toNat ≤ max.toNat := by
  cases dataSet with
  | nil => cases h
  | cons row0 rest =>
    cases rest with
    | nil => cases h
    | cons row1 rows =>
      set range := if row0 idx > row1 idx then (row1 idx, row0 idx) else (row0 idx, row1 idx) with hrange
      have hstart : range.1.toNat ≤ (row0 idx).toNat ∧ (row0 idx).toNat ≤ range.2.toNat ∧
          range.1.toNat ≤ (row1 idx).toNat ∧ (row1 idx).toNat ≤ range.2.toNat := by
        rw [hrange]
        by_cases hgt : row0 idx > row1 idx
        · have := lt_iff_toNat_lt.1 hgt
          rw [if_pos hgt]
          dsimp only
          omega
        · have := le_iff_toNat_le.1 (not_lt.1 hgt)
          rw [if_neg hgt]
          dsimp only
          omega
      obtain ⟨hmin, hmax, hrows⟩ := foldl_widen_bounds idx rows range (by omega)
      have hfold : rows.foldl (widen idx) range = (min, max) := Option.some_inj.1 h
      rw [hfold] at hmin hmax hrows
      dsimp only at hmin hmax hrows
      intro row hrow
      rcases mem_cons.1 hrow with rfl | hrow
      · omega
      · rcases mem_cons.1 hrow with rfl | hrow
        · omega
        · exact hrows row hrow

lemma getMinMax_isSome {idx : Fin d} : (getMinMax dataSet idx).isSome ↔ 2 ≤ dataSet.length := by
  cases dataSet with
  | nil => simp [getMinMax]
  | cons row0 rest =>
    cases rest with
    | nil | cons row1 rows => simp [getMinMax]

section

variable (dataSet)

/-- The squared diagonal of the box that the rows lie in. -/
def spread : Nat :=
  ((List.finRange d).map fun idx => ((getMinMax dataSet idx).elim 0 fun r => r.2.toNat - r.1.toNat) ^ 2).sum

def InBox (c : Point d) : Prop :=
  ∀ idx min max, getMinMax dataSet idx = some (min, max) → min.toNat ≤ (c idx).toNat ∧ (c idx).toNat ≤ max.toNat

end

/-- Every row has a centroid that the search, which starts from `INT_MAX`, takes. -/
def NearCentroid (dataSet centroids : List (Point d)) : Prop :=
  ∀ row ∈ dataSet, ∃ c ∈ centroids, (distEclud c row).toNat < kMaxDist

lemma sqDist_le_spread (h2 : 2 ≤ dataSet.length) {c row : Point d} (hc : InBox dataSet c) (hrow : row ∈ dataSet) :
    sqDist c row ≤ spread dataSet := by
  refine sqDist_le_of_gap fun idx => ?_
  obtain ⟨⟨min, max⟩, hrange⟩ := Option.isSome_iff_exists.1 (getMinMax_isSome.2 h2 : (getMinMax dataSet idx).isSome)
  have h1 := hc idx min max hrange
  have h₂ := getMinMax_bounds hrange row hrow
  rw [hrange, gap]
  simp only [Option.elim_some]
  omega

lemma nearCentroid_of_inBox (h2 : 2 ≤ dataSet.length) (hspread : spread dataSet < kMaxDist)
    (h : ∃ c ∈ centroids, InBox dataSet c) : NearCentroid dataSet centroids := by
  obtain ⟨c, hc, hbox⟩ := h
  intro row hrow
  have hlt := (sqDist_le_spread h2 hbox hrow).trans_lt hspread
  exact ⟨c, hc, by rwa [distEclud_of_lt hlt]⟩

lemma round_inBox (hrows : dataSet.length < 2 ^ 31) (hne : dataSet ≠ [])
    (hsum : ∀ idx, (dataSet.map fun row => (row idx).toNat).sum < 2 ^ 64) {s : KMeans d}
    (hnear : NearCentroid dataSet s.centroids) : ∃ c ∈ (s.round dataSet).centroids, InBox dataSet c := by
  obtain ⟨row, hrow⟩ := exists_mem_of_ne_nil _ hne
  obtain ⟨hnonneg, hlt⟩ := nearest_range_iff.2 (hnear row hrow)
  set cent := (nearest s.centroids row).toNat with hcent
  set members := dataSet.filter fun r => nearest s.centroids r = cent with hmembers
  have hmem : row ∈ members := mem_filter.2 ⟨hrow, by simp only [decide_eq_true_eq]; omega⟩
  refine ⟨meanOf members, ?_, ?_⟩
  · rw [KMeans.round, hmembers, ← membersOf_map]
    exact mem_map.2 ⟨cent, mem_range.2 (by omega), rfl⟩
  · intro idx min max hrange
    have hsub : members.Sublist dataSet := filter_sublist
    have hle : (members.map fun r => (r idx).toNat).sum ≤ (dataSet.map fun r => (r idx).toNat).sum :=
      (hsub.map _).sum_le_sum fun _ _ => Nat.zero_le _
    exact meanOf_between _ _ (ne_nil_of_mem hmem) (hsub.length_le.trans_lt hrows) (hle.trans_lt (hsum idx))
      fun r hr => getMinMax_bounds hrange r (hsub.subset hr)

lemma nearCentroid_after (h2 : 2 ≤ dataSet.length) (hrows : dataSet.length < 2 ^ 31) (hspread : spread dataSet < kMaxDist)
    (hsum : ∀ idx, (dataSet.map fun row => (row idx).toNat).sum < 2 ^ 64) (hk : centroids ≠ [])
    (hbox : ∀ c ∈ centroids, InBox dataSet c) (n : Nat) :
    NearCentroid dataSet (after dataSet centroids n).centroids := by
  refine nearCentroid_of_inBox h2 hspread ?_
  induction n with
  | zero =>
    obtain ⟨c, hc⟩ := exists_mem_of_ne_nil _ hk
    exact ⟨c, hc, hbox c hc⟩
  | succ n ih =>
    rw [after_succ]
    exact round_inBox hrows (ne_nil_of_length_pos (by omega)) hsum (nearCentroid_of_inBox h2 hspread ih)

namespace Clustering.SSTableWorth

variable {files : List (List TableStats)} {w w' : SSTableWorth} {rounds : Nat} {centroids : List (Point 2)}

/-! ## What is stored for a table -/

section

variable (files : List (List TableStats))

@[simp] lemma getFeatures_length : (getFeatures files).length = files.flatten.length := by
  have hfrom : ∀ i, ((files.zipIdx i).flatMap fun p =>
      p.1.map fun f => (![ofNat p.2, f.pointQueryTimeAll] : Point 2)).length = files.flatten.length := by
    induction files with
    | nil => intro i; rfl
    | cons level files ih =>
      intro i
      rw [zipIdx_cons, flatMap_cons, length_append, ih, length_map, flatten_cons, length_append]
  exact hfrom 0

lemma getTableID_eq : getTableID files = files.flatten.map TableStats.number := by
  rw [getTableID, flatMap_def, map_flatten]

lemma getTableID_length (centroids : List (Point 2)) (n : Nat) :
    (getTableID files).length = (getIndex (after (getFeatures files) centroids (n + 1))).length := by
  rw [getTableID_eq, getIndex, length_map, length_map, after_succ_minIndex, length_map, getFeatures_length]

end

variable {m : List (UInt64 × ℤ)}

lemma lookup_storeIndices_of_not_mem {ids : List UInt64} (clusterId : List UInt64)
    {tableId : UInt64} (h : tableId ∉ ids) : (storeIndices m ids clusterId).lookup tableId = m.lookup tableId := by
  induction ids generalizing m clusterId with
  | nil => rfl
  | cons id ids ih =>
    cases clusterId with
    | nil => rfl
    | cons u us =>
      obtain ⟨hne, hnot⟩ := ne_and_not_mem_of_not_mem_cons h
      have := ih (m := (id, toInt u) :: m) us hnot
      rw [lookup_cons, beq_false_of_ne hne] at this
      exact this

lemma lookup_storeIndices {ids clusterId : List UInt64} {tableId : UInt64}
    (hlen : ids.length = clusterId.length) (h : tableId ∈ ids) :
    ∃ u ∈ clusterId, (storeIndices m ids clusterId).lookup tableId = some (toInt u) := by
  induction ids generalizing m clusterId with
  | nil => cases h
  | cons id ids ih =>
    cases clusterId with
    | nil => cases hlen
    | cons u us =>
      by_cases hmem : tableId ∈ ids
      · obtain ⟨v, hv, hlook⟩ := ih (m := (id, toInt u) :: m) (Nat.succ.inj hlen) hmem
        exact ⟨v, mem_cons_of_mem _ hv, hlook⟩
      · obtain rfl : tableId = id := (mem_cons.1 h).resolve_right hmem
        refine ⟨u, mem_cons_self, ?_⟩
        have := lookup_storeIndices_of_not_mem (m := (tableId, toInt u) :: m) us hmem
        rw [lookup_cons_self] at this
        exact this

lemma getFeatures_isEmpty (hne : files.flatten ≠ []) : (getFeatures files).isEmpty = false := by
  rw [isEmpty_eq_false_iff, ← length_pos_iff, getFeatures_length]
  exact length_pos_iff.2 hne

lemma doCluster_ok (hne : files.flatten ≠ []) (h : w.doCluster rounds centroids files = .ok w') :
    ∃ kms, kmeans (getFeatures files) centroids rounds = some kms ∧
    w'.clusters = w.clusters.zipIdx.map (setCenter kms.centroids) ∧
    w'.tableToCluster = storeIndices w.tableToCluster (getTableID files) (getIndex kms) := by
  rw [doCluster, doOneCluster, getFeatures_isEmpty hne, if_neg Bool.false_ne_true] at h
  split_ifs at h
  split at h
  · cases h
  · rename_i kms hkms
    cases h
    exact ⟨kms, hkms, rfl, rfl⟩

lemma doCluster_missingRow_iff (hne : files.flatten ≠ []) :
    w.doCluster rounds centroids files = .error .missingRow ↔ ¬ 2 ≤ files.flatten.length := by
  have hranges : rangesExist (getFeatures files) = true ↔ 2 ≤ files.flatten.length := by
    rw [rangesExist, Bool.and_eq_true, getMinMax_isSome, getMinMax_isSome, and_self_iff, getFeatures_length]
  rw [doCluster, doOneCluster, getFeatures_isEmpty hne, if_neg Bool.false_ne_true, ← hranges]
  by_cases h : rangesExist (getFeatures files) = true
  · rw [if_pos h]
    refine iff_of_false ?_ (not_not.2 h)
    split
    · exact fun h => by cases h
    · exact fun h => by cases h
  · rw [if_neg h]
    exact iff_of_true rfl h

lemma toInt_ofInt {i : ℤ} (h0 : 0 ≤ i) (h : i < 7) : toInt (ofInt i) = i := by
  have hcases : i = 0 ∨ i = 1 ∨ i = 2 ∨ i = 3 ∨ i = 4 ∨ i = 5 ∨ i = 6 := by omega
  rcases hcases with rfl | rfl | rfl | rfl | rfl | rfl | rfl <;> decide

/-- `DoCluster` with these centroids reads rows that exist, and when it has ended `IsWorth` finds the cluster of every
table. -/
structure InBounds (files : List (List TableStats)) (centroids : List (Point 2)) : Prop where
  rows : ∀ rounds (w : SSTableWorth), w.doCluster rounds centroids files ≠ .error .missingRow
  stored : ∀ rounds (w w' : SSTableWorth), w.doCluster rounds centroids files = .ok w' →
    ∀ f ∈ files.flatten, ∃ cluster, w'.clusterOf f.number = some (some cluster)

lemma indices_of_near (hk : centroids.length = kClusters) {n : Nat}
    (h : NearCentroid (getFeatures files) (after (getFeatures files) centroids n).centroids) :
    ∀ i ∈ (after (getFeatures files) centroids (n + 1)).minIndex, 0 ≤ i ∧ i < kClusters := by
  have hlen := after_centroids_length (getFeatures files) centroids n
  rw [hk] at hlen
  rw [after_succ_minIndex, forall_mem_map]
  intro row hrow
  rw [← hlen]
  exact nearest_range_iff.2 (h row hrow)

lemma clusterOf_of_near (hne : files.flatten ≠ []) (hk : centroids.length = kClusters)
    (hnear : ∀ n, NearCentroid (getFeatures files) (after (getFeatures files) centroids n).centroids)
    (h : w.doCluster rounds centroids files = .ok w') {f : TableStats} (hf : f ∈ files.flatten) :
    ∃ cluster, w'.clusterOf f.number = some (some cluster) := by
  obtain ⟨kms, hkms, -, htable⟩ := doCluster_ok hne h
  obtain ⟨n, rfl, -⟩ := kmeans_some hkms
  obtain ⟨u, hu, hlook⟩ := lookup_storeIndices (m := w.tableToCluster) (getTableID_length files centroids n)
    (show f.number ∈ getTableID files by rw [getTableID_eq]; exact mem_map_of_mem hf)
  obtain ⟨i, hi, rfl⟩ := mem_map.1 hu
  obtain ⟨hnonneg, hlt⟩ := indices_of_near hk (hnear n) i hi
  rw [toInt_ofInt hnonneg hlt] at hlook
  have hin : i.toNat < w'.clusters.length := by
    rw [w'.clusters_length]
    omega
  refine ⟨w'.clusters[i.toNat], ?_⟩
  rw [clusterOf, htable, hlook, Option.map_some, if_neg (not_lt.2 hnonneg), getElem?_eq_getElem hin]

/-- Missing rows are read just when there are fewer than two tables. With two tables the clustering stays in bounds where
every round finds a centroid near every table, and so it does for every choice of the first centroids when the tables are
not too far apart. -/
theorem doCluster_inBounds (files : List (List TableStats)) (centroids : List (Point 2)) (hne : files.flatten ≠ [])
    (hk : centroids.length = kClusters) :
    (∀ rounds (w : SSTableWorth), w.doCluster rounds centroids files = .error .missingRow ↔ ¬ 2 ≤ files.flatten.length) ∧
    (2 ≤ files.flatten.length →
    (∀ n, NearCentroid (getFeatures files) (KMeans.after (getFeatures files) centroids n).centroids) →
    InBounds files centroids) ∧
    (2 ≤ files.flatten.length → files.flatten.length < 2 ^ 31 → spread (getFeatures files) < kMaxDist →
    (∀ idx, ((getFeatures files).map fun row => (row idx).toNat).sum < 2 ^ 64) →
    RandCent (getFeatures files) kClusters centroids → InBounds files centroids) := by
  have hbounds (h2 : 2 ≤ files.flatten.length)
      (hnear : ∀ n, NearCentroid (getFeatures files) (after (getFeatures files) centroids n).centroids) :
      InBounds files centroids :=
    ⟨fun rounds w h => (doCluster_missingRow_iff hne).1 h h2, fun rounds w w' h f hf => clusterOf_of_near hne hk hnear h hf⟩
  refine ⟨fun rounds w => doCluster_missingRow_iff hne, hbounds, fun h2 hrows hspread hsum hrand => hbounds h2 ?_⟩
  rw [← getFeatures_length] at h2 hrows
  refine nearCentroid_after h2 hrows hspread hsum (ne_nil_of_length_pos (by rw [hk]; decide)) fun c hc idx min max h => ?_
  obtain ⟨hmin, hmax⟩ := hrand.between c hc idx min max h
  exact ⟨UInt64.le_iff_toNat_le.1 hmin, UInt64.le_iff_toNat_le.1 hmax⟩

def sampleFiles : List (List TableStats) := [[⟨1, 5, []⟩], [⟨2, 9, []⟩]]

theorem doCluster_inBounds_sample : InBounds sampleFiles (List.replicate kClusters ![0, 5]) := by
  have hrange : ∀ idx, getMinMax (getFeatures sampleFiles) idx = some (![0, 5] idx, ![1, 9] idx) := by decide +kernel
  refine (doCluster_inBounds sampleFiles (List.replicate kClusters ![0, 5]) (by decide) rfl).2.2 (by decide) (by decide)
    (by decide +kernel) (by decide +kernel) ⟨rfl, fun c hc idx min max h => ?_⟩
  obtain rfl := eq_of_mem_replicate hc
  rw [hrange] at h
  cases h
  revert idx
  decide

/-- For one table a second row is read; for a table that is 46341 accesses away from all centroids −1 is stored. -/
theorem doCluster_out_of_range :
    (∀ rounds (w : SSTableWorth), w.doCluster rounds (List.replicate kClusters ![0, 5]) [[⟨1, 5, []⟩]] = .error .missingRow) ∧
    ∃ w', new.doCluster 2 (List.replicate kClusters ![0, 0]) [[⟨1, 0, []⟩, ⟨2, 46341, []⟩]] = .ok w' ∧
    w'.tableToCluster.lookup 2 = some (-1) ∧ w'.clusterOf 2 = some none := by
  refine ⟨fun rounds w => (doCluster_missingRow_iff (by decide)).2 (by decide), ?_⟩
  have hrun : (new.doCluster 2 (List.replicate kClusters ![0, 0]) [[⟨1, 0, []⟩, ⟨2, 46341, []⟩]]).toOption.map
      (fun w' => (w'.tableToCluster.lookup 2, w'.clusterOf 2)) = some (some (-1), some none) := by decide +kernel
  cases hres : new.doCluster 2 (List.replicate kClusters ![0, 0]) [[⟨1, 0, []⟩, ⟨2, 46341, []⟩]] with
  | error e =>
    rw [hres] at hrun
    cases hrun
  | ok w' =>
    rw [hres] at hrun
    obtain ⟨h1, h₂⟩ := Prod.mk.inj (Option.some_inj.1 hrun)
    exact ⟨w', rfl, h1, h₂⟩

end Clustering.SSTableWorth

end RallyDB.Util
