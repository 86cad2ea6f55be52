import RallyDB.Lib.LeastSquares
import RallyDB.Util.ClusterBounds

/-!
# The averages of the groups
-/

namespace RallyDB.Util.Clustering.SSTableWorth

section

open List

variable {files : List (List TableStats)} {w w' : SSTableWorth} {rounds : Nat} {centroids : List (Point 2)}

/-! ## What the coefficients should be -/

section

variable (w)

end

section

variable {x y : List ℚ} (hlen : x.length ≤ y.length)
include hlen

lemma map_zip_sq : ((x.zip y).map fun p => p.1 * p.1) = x.map fun v => v * v := by
  rw [show (fun p : ℚ × ℚ => p.1 * p.1) = (fun v => v * v) ∘ Prod.fst from rfl, ← map_map, map_fst_zip hlen]

lemma cast_length_zip : ((x.zip y).length : ℚ) = x.length := by rw [length_zip, min_eq_left hlen]

lemma leastSquare_normal (hdet : (x.map fun v => v * v).sum * x.length - x.sum * x.sum ≠ 0) :
    (leastSquare x y).1 * ((x.zip y).map fun p => p.1 * p.1).sum + (leastSquare x y).2 * ((x.zip y).map Prod.fst).sum =
    ((x.zip y).map fun p => p.1 * p.2).sum ∧
    (leastSquare x y).1 * ((x.zip y).map Prod.fst).sum + (leastSquare x y).2 * (x.zip y).length =
    ((x.zip y).map Prod.snd).sum := by
  have hsnd : (x.zip y).map Prod.snd = y.take x.length := by
    rw [zip_eq_zip_take_min, min_eq_left hlen, map_snd_zip]
    simp [hlen]
  have hxy : ((x.zip y).map fun p => p.1 * p.2) = List.zipWith (· * ·) x y := by
    rw [zip_eq_zipWith, map_zipWith]
  constructor
  · rw [map_zip_sq hlen, map_fst_zip hlen, hxy]
    simp only [leastSquare]
    rw [div_mul_eq_mul_div, div_mul_eq_mul_div, ← add_div, div_eq_iff hdet]
    ring
  · rw [map_fst_zip hlen, hsnd, cast_length_zip hlen]
    simp only [leastSquare]
    rw [div_mul_eq_mul_div, div_mul_eq_mul_div, ← add_div, div_eq_iff hdet]
    ring

end

/-- With two different values of `x` the line of `LeastSquare` is the only one of least squares. -/
theorem leastSquare_unique (x y : List ℚ) (hlen : x.length = y.length) (hne : ∃ u ∈ x, ∃ v ∈ x, u ≠ v) :
    Lib.IsLeastSquares (x.zip y) (leastSquare x y).1 (leastSquare x y).2 ∧
    ∀ a b, Lib.IsLeastSquares (x.zip y) a b → a = (leastSquare x y).1 ∧ b = (leastSquare x y).2 := by
  obtain ⟨u, hu, v, hv, huv⟩ := hne
  have hfst : (x.zip y).map Prod.fst = x := map_fst_zip hlen.le
  obtain ⟨p, hp, rfl⟩ := mem_map.1 (hfst ▸ hu)
  obtain ⟨q, hq, rfl⟩ := mem_map.1 (hfst ▸ hv)
  have hdet := Lib.det_pos hp hq huv
  rw [map_zip_sq hlen.le, hfst, cast_length_zip hlen.le] at hdet
  obtain ⟨h1, h2⟩ := leastSquare_normal hlen.le hdet.ne'
  exact ⟨Lib.isLeastSquares_of_normal h1 h2, fun a b h => h.eq_of_normal h1 h2 hp hq huv⟩

theorem leastSquare_unique_three : leastSquare [1, 2, 3] [1, 3, 5] = (2, -1) ∧
    Lib.IsLeastSquares (List.zip [1, 2, 3] [1, 3, 5]) (leastSquare [1, 2, 3] [1, 3, 5]).1
    (leastSquare [1, 2, 3] [1, 3, 5]).2 ∧ ∀ a b, Lib.IsLeastSquares (List.zip [1, 2, 3] [1, 3, 5]) a b →
    a = (leastSquare [1, 2, 3] [1, 3, 5]).1 ∧ b = (leastSquare [1, 2, 3] [1, 3, 5]).2 :=
  ⟨by norm_num [leastSquare], leastSquare_unique [1, 2, 3] [1, 3, 5] rfl ⟨1, by simp, 2, by simp, by norm_num⟩⟩

/-! ## What the coefficients are -/

lemma foldl_takeFile {tables : List TableStats} (h : ∀ f ∈ tables, (w.tableToCluster.lookup f.number).isSome)
    (groups : List (List TableStats)) : tables.foldl takeFile (w, groups) = (w, groups) := by
  induction tables with
  | nil => rfl
  | cons f tables ih =>
    rw [foldl_cons, takeFile, if_pos (h f mem_cons_self)]
    exact ih fun f hf => h f (mem_cons_of_mem _ hf)

lemma doAverage_eq (h : ∀ f ∈ files.flatten, (w.tableToCluster.lookup f.number).isSome) :
    w.doAverage files = .ok (w, []) := by
  rw [doAverage, takePartOfFiles, foldl_takeFile h]
  rfl

end

open List UInt64

variable {group tables : List TableStats} {w : SSTableWorth} {files : List (List TableStats)} {x y : List ℚ}

/-! ## One group -/

lemma toInt_ofNat_ne (n : Nat) : n ≠ (toInt (ofNat n) + 1).toNat := by
  have hle : -(2 ^ 31) ≤ toInt (ofNat n) :=
    Int.le_bmod (x := ((ofNat n).toNat : ℤ)) (m := 2 ^ 32) (by norm_num)
  have hmod : toInt (ofNat n) % 2 ^ 32 = n % 2 ^ 32 := by
    have hbmod : toInt (ofNat n) % 2 ^ 32 = ((ofNat n).toNat : ℤ) % 2 ^ 32 := Int.bmod_emod
    rw [hbmod, toNat_ofNat']
    omega
  omega

lemma toInt_zero : toInt 0 = 0 := by decide

def Measured (s : ℤ × List (UInt64 × UInt64)) : Prop := s.1 = toInt (UInt64.ofNat s.2.length)

variable {s : ℤ × List (UInt64 × UInt64)}

lemma scanHistory_measured {f : TableStats}
    (h : ¬ ofInt s.1 < ofNat f.historyTime.length → Measured s) : Measured (scanHistory s f) := by
  rw [scanHistory]
  by_cases hlt : ofInt s.1 < ofNat f.historyTime.length
  · rw [if_pos hlt, Measured]
  · rw [if_neg hlt]
    exact h hlt

lemma Measured.foldl (h : Measured s) (tables : List TableStats) : Measured (tables.foldl scanHistory s) := by
  induction tables generalizing s with
  | nil => exact h
  | cons f tables ih => exact ih (scanHistory_measured fun _ => h)

lemma scanHistories_measured (hne : group ≠ []) : Measured (scanHistories group) := by
  cases group with
  | nil => exact absurd rfl hne
  | cons f tables =>
    refine Measured.foldl (scanHistory_measured fun hle => ?_) tables
    -- the first history is taken, unless its size is 0
    have hzero : UInt64.ofNat f.historyTime.length = 0 := UInt64.le_zero_iff.1 (UInt64.not_lt.1 hle)
    simp only [Measured, head?_cons, Option.map_some, Option.getD_some, hzero, toInt_zero]

lemma mapM_ok_length {α β ε : Type*} {f : α → Except ε β} {l : List α} {r : List β} (h : l.mapM f = .ok r) :
    r.length = l.length := by
  induction l generalizing r with
  | nil =>
    cases h
    rfl
  | cons a l ih =>
    rw [mapM_cons] at h
    cases ha : f a with
    | error e =>
      rw [ha] at h
      cases h
    | ok b =>
      cases hl : l.mapM f with
      | error e =>
        rw [ha, hl] at h
        cases h
      | ok bs =>
        rw [ha, hl] at h
        cases h
        rw [length_cons, length_cons, ih hl]

lemma groupData_length_ne (hne : group ≠ []) (h : groupData group = .ok (x, y)) : x.length ≠ y.length := by
  rw [groupData] at h
  cases hy : (List.range ((scanHistories group).1 + 1).toNat).reverse.mapM (averageAt group) with
  | error e =>
    rw [hy] at h
    cases h
  | ok averages =>
    rw [hy] at h
    obtain ⟨hx, rfl⟩ := Prod.mk.inj (Except.ok.inj h)
    have hlen := mapM_ok_length hy
    have hmeasured : (scanHistories group).1 = toInt (ofNat (scanHistories group).2.length) :=
      scanHistories_measured hne
    rw [length_reverse, length_range] at hlen
    rw [← hx, length_map, hlen, hmeasured]
    exact toInt_ofNat_ne _

lemma mem_takeFile_zero {s : SSTableWorth × List (List TableStats)} (f : TableStats)
    (h : ∃ group, s.2[0]? = some group ∧ group ≠ []) : ∃ group, (takeFile s f).2[0]? = some group ∧ group ≠ [] := by
  rw [takeFile]
  split_ifs
  · exact h
  · obtain ⟨group, hgroup, -⟩ := h
    exact ⟨group ++ [f], by simp [hgroup], by simp⟩

lemma foldl_takeFile_ne (groups : List (List TableStats)) (hgroups : groups ≠ [])
    (h : ∃ f ∈ tables, w.tableToCluster.lookup f.number = none) :
    ∃ group, (tables.foldl takeFile (w, groups)).2[0]? = some group ∧ group ≠ [] := by
  have hkeep : ∀ (tables : List TableStats) s, (∃ group, s.2[0]? = some group ∧ group ≠ []) →
      ∃ group, (tables.foldl takeFile s).2[0]? = some group ∧ group ≠ [] := by
    intro tables
    induction tables with
    | nil => exact fun s hs => hs
    | cons f tables ih => exact fun s hs => ih _ (mem_takeFile_zero f hs)
  induction tables with
  | nil => simp at h
  | cons f tables ih =>
    rw [foldl_cons]
    cases hf : w.tableToCluster.lookup f.number with
    | some i =>
      have hskip : takeFile (w, groups) f = (w, groups) := by simp [takeFile, hf]
      rw [hskip]
      refine ih ?_
      obtain ⟨g, hg, hnone⟩ := h
      rcases mem_cons.1 hg with rfl | hg
      · rw [hf] at hnone
        cases hnone
      · exact ⟨g, hg, hnone⟩
    | none =>
      refine hkeep tables _ ?_
      obtain ⟨first, rest, rfl⟩ := exists_cons_of_ne_nil hgroups
      exact ⟨first ++ [f], by simp [takeFile, hf], by simp⟩

/-- `DoAverage` reads records that exist, divides by no zero, and builds for every group that has a table two vectors with
the length of the longest history. -/
structure AveragesSafely (w : SSTableWorth) (files : List (List TableStats)) : Prop where
  returns : ∃ r, w.doAverage files = .ok r
  data : ∀ group ∈ (w.takePartOfFiles files).2, group ≠ [] → ∃ x y, groupData group = .ok (x, y) ∧ x.length = y.length ∧
    y.length = (longestHistory group).length

/-- The averages are safe just when there is nothing to average: when all tables are in the map already. -/
theorem averagesSafely_iff (w : SSTableWorth) (files : List (List TableStats)) :
    w.AveragesSafely files ↔ ∀ f ∈ files.flatten, (w.tableToCluster.lookup f.number).isSome := by
  constructor
  · intro hsafe f hf
    by_contra hnone
    obtain ⟨group, hgroup, hne⟩ := foldl_takeFile_ne (w := w) (List.replicate kClusters []) (by simp [kClusters])
      ⟨f, hf, Option.not_isSome_iff_eq_none.1 hnone⟩
    obtain ⟨x, y, hdata, hlen, -⟩ := hsafe.data group (mem_of_getElem? hgroup) hne
    exact groupData_length_ne hne hdata hlen
  · intro hmapped
    refine ⟨⟨_, doAverage_eq hmapped⟩, fun group hgroup hne => ?_⟩
    rw [takePartOfFiles, foldl_takeFile hmapped] at hgroup
    exact absurd (eq_of_mem_replicate hgroup) hne

/-- A table with no history yet, and one with a history of one period: the first index read is $2^{64} - 2$. -/
theorem averages_missing_record : new.doAverage [[⟨1, 0, []⟩, ⟨2, 0, [(3, 4)]⟩]] = .error .missingRecord ∧
    ¬ new.AveragesSafely [[⟨1, 0, []⟩, ⟨2, 0, [(3, 4)]⟩]] := by
  have hfault : new.doAverage [[⟨1, 0, []⟩, ⟨2, 0, [(3, 4)]⟩]] = .error .missingRecord := by decide +kernel
  refine ⟨hfault, fun hsafe => ?_⟩
  obtain ⟨r, hr⟩ := hsafe.returns
  rw [hfault] at hr
  cases hr

end RallyDB.Util.Clustering.SSTableWorth
