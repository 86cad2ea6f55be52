import RallyDB.Util.Lemmas.Sweeps

/-!
# What the two sweeps do to a table
-/

namespace RallyDB.Util

open Table Db List FilterBlockReader

namespace TableObject

variable {t : TableObject} {crc : Crc32c} {file : RandomAccessFile}

lemma bfChange_eq : t.bfChange = t.bfNumer * t.unitSize := by
  unfold bfChange bfNumer unitSize
  cases t.reader with
  | none => rfl
  | some r => rfl

lemma reader_of_hot {currentTime : Nat} (h : t.isCold currentTime = false) : ∃ r, t.reader = some r := by
  unfold isCold at h
  cases hr : t.reader with
  | none => rw [hr] at h; cases h
  | some r => exact ⟨r, rfl⟩

lemma reader_of_units (h : 0 < t.bfNumer) : ∃ r, t.reader = some r := by
  unfold bfNumer at h
  cases hr : t.reader with
  | none => rw [hr] at h; exact absurd h (lt_irrefl 0)
  | some r => exact ⟨r, rfl⟩

lemma loadBloomFilter_cases (crc : Crc32c) (file : RandomAccessFile) (t : TableObject) :
    t.loadBloomFilter crc file = t ∨ ∃ r data, t.reader = some r ∧ r.filterUnits.length < r.allUnitsNumber ∧
    t.loadBloomFilter crc file = { t with reader := some { r with filterUnits := r.filterUnits ++ [data] } } := by
  obtain ⟨tableId, bitsPerKey, reader⟩ := t
  unfold loadBloomFilter
  cases reader with
  | none => exact .inl rfl
  | some r =>
    simp only [Option.map_some]
    split_ifs with hcan
    · rcases loadFilter_cases crc file r with ⟨e, hr⟩ | ⟨data, hlt, hr⟩
      · exact .inl (by rw [hr])
      · exact .inr ⟨r, data, rfl, hlt, by rw [hr]⟩
    · exact .inl rfl

lemma unitSize_loadBloomFilter : (t.loadBloomFilter crc file).unitSize = t.unitSize := by
  rcases loadBloomFilter_cases crc file t with h | ⟨r, data, hr, -, h⟩
  · rw [h]
  · simp [h, unitSize, hr, oneUnitSize]

lemma Readable.loadBloomFilter (hread : t.Readable crc file) : (t.loadBloomFilter crc file).Readable crc file := by
  rcases loadBloomFilter_cases crc file t with h | ⟨r, data, hr, -, h⟩
  · rw [h]
    exact hread
  · rw [h]
    intro r' hr'
    cases hr'
    exact (hread r hr).of_same ⟨rfl, rfl, rfl, rfl⟩

lemma InRange.loadBloomFilter (ht : t.InRange) : (t.loadBloomFilter crc file).InRange := by
  rcases loadBloomFilter_cases crc file t with h | ⟨r, data, hr, hlt, h⟩
  · rw [h]
    exact ht
  · obtain ⟨-, hall⟩ := ht r hr
    rw [h]
    intro r' hr'
    cases hr'
    refine ⟨?_, hall⟩
    rw [filterUnitsNumber, length_append, length_singleton]
    omega

lemma bfNumer_loadBloomFilter (ht : t.InRange) (hread : t.Readable crc file) (hr : ∃ r, t.reader = some r)
    (hlt : t.bfNumer < kAllFilterUnitsNumber) : (t.loadBloomFilter crc file).bfNumer = t.bfNumer + 1 := by
  obtain ⟨r, hr⟩ := hr
  obtain ⟨-, hall⟩ := ht r hr
  have hn : t.bfNumer = r.filterUnits.length := by
    rw [bfNumer, hr]
    rfl
  rw [hn, ← hall] at hlt
  obtain ⟨data, hd⟩ := loadFilter_readable (hread r hr) hlt
  have hcan : r.canBeLoaded = true := decide_eq_true hlt
  rw [hn]
  unfold bfNumer loadBloomFilter
  rw [hr]
  simp [hcan, hd, filterUnitsNumber]

lemma evictBloomFilter_cases (t : TableObject) : t.evictBloomFilter = t ∨ ∃ r, t.reader = some r ∧
    t.evictBloomFilter = { t with reader := some { r with filterUnits := r.filterUnits.dropLast } } := by
  obtain ⟨tableId, bitsPerKey, reader⟩ := t
  unfold evictBloomFilter
  cases reader with
  | none => exact .inl rfl
  | some r =>
    simp only [Option.map_some]
    split_ifs with hcan
    · refine .inr ⟨r, rfl, ?_⟩
      rw [evictFilter_eq (of_decide_eq_true hcan)]
    · exact .inl rfl

lemma unitSize_evictBloomFilter : t.evictBloomFilter.unitSize = t.unitSize := by
  rcases evictBloomFilter_cases t with h | ⟨r, hr, h⟩
  · rw [h]
  · simp [h, unitSize, hr, oneUnitSize]

lemma InRange.evictBloomFilter (ht : t.InRange) : t.evictBloomFilter.InRange := by
  rcases evictBloomFilter_cases t with h | ⟨r, hr, h⟩
  · rw [h]
    exact ht
  · obtain ⟨hle, hall⟩ := ht r hr
    rw [h]
    intro r' hr'
    cases hr'
    refine ⟨?_, hall⟩
    rw [filterUnitsNumber] at hle ⊢
    rw [length_dropLast]
    omega

lemma bfNumer_evictBloomFilter (hpos : 0 < t.bfNumer) : t.evictBloomFilter.bfNumer = t.bfNumer - 1 := by
  obtain ⟨r, hr⟩ := reader_of_units hpos
  have hn : t.bfNumer = r.filterUnits.length := by
    rw [bfNumer, hr]
    rfl
  rw [hn] at hpos ⊢
  have hcan : r.canBeEvict = true := decide_eq_true hpos
  unfold bfNumer evictBloomFilter
  rw [hr]
  simp [hcan, evictFilter_eq hpos, filterUnitsNumber]

end TableObject

namespace MultiContainer

variable {crc : Crc32c} {io : Nat → RandomAccessFile} {worth : SSTableWorth} {now next : Nat}

lemma loadKind_sound : (loadKind crc io worth now next).Sound where
  order l := List.Perm.refl l
  inRange _ _ ht := ht.loadBloomFilter

lemma evictKind_sound : (evictKind now).Sound where
  order l := reverse_perm l
  inRange _ _ ht := ht.evictBloomFilter

lemma mem_evictNumbers {i : Nat} (hi : i ∈ evictNumbers) : 2 ≤ i ∧ i ≤ kAllFilterUnitsNumber := by
  have := mem_range'_1.1 (mem_reverse.1 hi)
  unfold kAllFilterUnitsNumber at this ⊢
  omega

lemma hot_of_load {c : ContainerHandle} {t : TableObject} (h : (loadKind crc io worth now next).stop c t = none) :
    t.isCold now = false := by
  simp only [loadKind] at h
  cases hc : t.isCold now with
  | false => rfl
  | true => rw [hc, if_pos rfl] at h; cases h

end MultiContainer

end RallyDB.Util
