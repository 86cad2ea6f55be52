import RallyDB.Table.FilterBlock

/-!
# How many units a reader has loaded
-/

namespace RallyDB.Table.FilterBlockReader

open Util List

def ReadsUnit (crc : Crc32c) (file : RandomAccessFile) (r : FilterBlockReader) (i : Nat) : Prop :=
  (readBlock crc file true ⟨(r.diskOffset + (r.diskSize + kBlockTrailerSize) * i) % 2 ^ 64, r.diskSize⟩).isOk = true

def Readable (crc : Crc32c) (file : RandomAccessFile) (r : FilterBlockReader) : Prop :=
  ∀ i < r.allUnitsNumber,
    (readBlock crc file true ⟨(r.diskOffset + (r.diskSize + kBlockTrailerSize) * i) % 2 ^ 64, r.diskSize⟩).isOk = true

instance (crc : Crc32c) (file : RandomAccessFile) (r : FilterBlockReader) : Decidable (r.Readable crc file) :=
  inferInstanceAs (Decidable (∀ i < r.allUnitsNumber, _))

structure Fresh (r : FilterBlockReader) : Prop where
  filterUnits : r.filterUnits = []
  reload : r.reloadUnitsNumber = r.initUnitsNumber
  init_le : r.initUnitsNumber ≤ r.allUnitsNumber
  all_le : r.allUnitsNumber ≤ kAllFilterUnitsNumber
  size_lt : r.diskSize < 2 ^ 32

instance (r : FilterBlockReader) : Decidable r.Fresh :=
  decidable_of_iff (r.filterUnits = [] ∧ r.reloadUnitsNumber = r.initUnitsNumber ∧
      r.initUnitsNumber ≤ r.allUnitsNumber ∧ r.allUnitsNumber ≤ kAllFilterUnitsNumber ∧ r.diskSize < 2 ^ 32)
    ⟨fun ⟨h1, h2, h3, h4, h5⟩ => ⟨h1, h2, h3, h4, h5⟩, fun ⟨h1, h2, h3, h4, h5⟩ => ⟨h1, h2, h3, h4, h5⟩⟩

structure InRange (r : FilterBlockReader) : Prop where
  units_le : r.filterUnitsNumber ≤ r.allUnitsNumber
  reload_le : r.reloadUnitsNumber ≤ r.allUnitsNumber
  init_le : r.initUnitsNumber ≤ r.allUnitsNumber
  all_le : r.allUnitsNumber ≤ kAllFilterUnitsNumber
  size_lt : r.diskSize < 2 ^ 32

lemma Fresh.inRange {r : FilterBlockReader} (h : r.Fresh) : r.InRange where
  units_le := by simp [filterUnitsNumber, h.filterUnits]
  reload_le := h.reload.trans_le h.init_le
  init_le := h.init_le
  all_le := h.all_le
  size_lt := h.size_lt

variable {crc : Crc32c} {file : RandomAccessFile} {r : FilterBlockReader}

section

variable (crc file r)

lemma loadFilter_cases : (∃ e, r.loadFilter crc file = (r, .error e)) ∨ ∃ data, r.filterUnits.length < r.allUnitsNumber ∧
    r.loadFilter crc file = ({ r with filterUnits := r.filterUnits ++ [data] }, .ok ()) := by
  unfold loadFilter
  dsimp only
  split_ifs with hall
  · exact .inl ⟨_, rfl⟩
  · split
    · exact .inl ⟨_, rfl⟩
    · rename_i data _
      exact .inr ⟨data, not_le.1 hall, rfl⟩

end

lemma loadFilter_reads (h : r.ReadsUnit crc file r.filterUnits.length) (hlt : r.filterUnits.length < r.allUnitsNumber) :
    ∃ data, r.loadFilter crc file = ({ r with filterUnits := r.filterUnits ++ [data] }, .ok ()) := by
  unfold ReadsUnit at h
  unfold loadFilter
  dsimp only
  rw [if_neg (by omega)]
  cases he : readBlock crc file true
      ⟨(r.diskOffset + (r.diskSize + kBlockTrailerSize) * r.filterUnits.length) % 2 ^ 64, r.diskSize⟩ with
  | error e => rw [he] at h; cases h
  | ok data => exact ⟨data, rfl⟩

lemma loadFilter_readable (h : r.Readable crc file) (hlt : r.filterUnits.length < r.allUnitsNumber) :
    ∃ data, r.loadFilter crc file = ({ r with filterUnits := r.filterUnits ++ [data] }, .ok ()) :=
  loadFilter_reads (h _ hlt) hlt

lemma evictFilter_eq (hlt : 0 < r.filterUnits.length) :
    r.evictFilter = ({ r with filterUnits := r.filterUnits.dropLast }, .ok ()) :=
  if_neg (ne_nil_of_length_pos hlt)

/-! ## Loading and evicting up to a number -/

lemma loadUpTo_reads {target : Nat} (h : ∀ i, r.filterUnits.length ≤ i → i < target → r.ReadsUnit crc file i)
    (ht : target ≤ r.allUnitsNumber) : ∃ units, r.loadUpTo crc file target = ({ r with filterUnits := units }, .ok ()) ∧
    units.length = max r.filterUnits.length target := by
  fun_induction loadUpTo crc file target r with
  | case1 r hlt r' he ih =>
    obtain ⟨data, rfl, -⟩ := loadFilter_ok he
    obtain ⟨units, hu, hlen⟩ := ih (fun i hi => h i ((prefix_append _ _).length_le.trans hi)) ht
    refine ⟨units, hu, ?_⟩
    rw [hlen, length_append, length_singleton]
    omega
  | case2 r hlt r' e he =>
    obtain ⟨data, hd⟩ := loadFilter_reads (h _ le_rfl hlt) (by omega)
    rw [hd] at he
    cases he
  | case3 r hlt => exact ⟨r.filterUnits, rfl, by omega⟩

lemma evictDownTo_eq (target : Nat) (r : FilterBlockReader) :
    r.evictDownTo target = ({ r with filterUnits := r.filterUnits.take target }, .ok ()) := by
  fun_induction evictDownTo target r with
  | case1 r hlt r' he ih =>
    rw [evictFilter_eq (by omega), Prod.mk.injEq] at he
    obtain ⟨rfl, -⟩ := he
    rw [ih]
    dsimp only
    rw [dropLast_eq_take, take_take, min_eq_left (by omega)]
  | case2 r hlt r' e he =>
    rw [evictFilter_eq (by omega)] at he
    cases he
  | case3 r hlt => rw [take_of_length_le (by omega)]

lemma cleanFilter_eq (r : FilterBlockReader) :
    r.cleanFilter = ({ r with reloadUnitsNumber := r.filterUnits.length, filterUnits := [] }, .ok ()) := by
  rw [cleanFilter, evictDownTo_eq]
  rfl

lemma initLoadFilter_readable (h : r.Readable crc file) (hr : r.Fresh) :
    ∃ units, (r.initLoadFilter crc file).1 = { r with filterUnits := units } ∧ units.length = r.initUnitsNumber := by
  obtain ⟨units, hu, hlen⟩ := loadUpTo_reads (fun i _ hi => h i (hi.trans_le hr.init_le)) hr.init_le
  rw [hr.filterUnits, length_nil, Nat.max_eq_right (Nat.zero_le _)] at hlen
  exact ⟨units, congrArg Prod.fst hu, hlen⟩

lemma goBackToInitFilter_reads (h : ∀ i, r.filterUnits.length ≤ i → i < r.reloadUnitsNumber → r.ReadsUnit crc file i)
    (hreload : r.reloadUnitsNumber ≤ r.allUnitsNumber) (hall : r.allUnitsNumber ≤ kAllFilterUnitsNumber) :
    ∃ units, r.goBackToInitFilter crc file = ({ r with filterUnits := units }, .ok ()) ∧
    units.length = r.reloadUnitsNumber := by
  obtain ⟨units, hu, hlen⟩ := loadUpTo_reads h hreload
  refine ⟨units.take r.reloadUnitsNumber, ?_, ?_⟩
  · rw [goBackToInitFilter, if_neg (by omega), hu]
    dsimp only
    rw [evictDownTo_eq]
  · rw [length_take, hlen]
    omega

lemma goBackToInitFilter_readable (h : r.Readable crc file) (hr : r.InRange) :
    ∃ units, (r.goBackToInitFilter crc file).1 = { r with filterUnits := units } ∧ units.length = r.reloadUnitsNumber := by
  have hreads := goBackToInitFilter_reads (fun i _ hi => h i (hi.trans_le hr.reload_le)) hr.reload_le hr.all_le
  obtain ⟨units, hu, hlen⟩ := hreads
  exact ⟨units, congrArg Prod.fst hu, hlen⟩

/-- What every load and every cut of the units keeps is kept by the loops over them. -/
lemma loadUpTo_induction {P : FilterBlockReader → Prop} (hload : ∀ r, P r → P (r.loadFilter crc file).1) (target : Nat)
    (h : P r) : P (r.loadUpTo crc file target).1 := by
  fun_induction loadUpTo crc file target r with
  | case1 r hlt r' he ih => exact ih (by simpa [he] using hload r h)
  | case2 r hlt r' e he => simpa [he] using hload r h
  | case3 r hlt => exact h

lemma goBackToInitFilter_induction {P : FilterBlockReader → Prop} (hload : ∀ r, P r → P (r.loadFilter crc file).1)
    (htake : ∀ r n, P r → P { r with filterUnits := r.filterUnits.take n }) (h : P r) :
    P (r.goBackToInitFilter crc file).1 := by
  have hloaded := loadUpTo_induction hload r.reloadUnitsNumber h
  unfold goBackToInitFilter
  split_ifs
  · exact h
  · split <;> rename_i hr <;> rw [hr] at hloaded
    · exact hloaded
    · rw [evictDownTo_eq]
      exact htake _ _ hloaded

lemma evictFilter_take (r : FilterBlockReader) : ∃ n, r.evictFilter.1 = { r with filterUnits := r.filterUnits.take n } := by
  unfold evictFilter
  split_ifs
  · exact ⟨r.filterUnits.length, by rw [take_length]⟩
  · exact ⟨_, by rw [← dropLast_eq_take]⟩

structure SameFilter (r r' : FilterBlockReader) : Prop where
  diskOffset : r'.diskOffset = r.diskOffset
  diskSize : r'.diskSize = r.diskSize
  initUnitsNumber : r'.initUnitsNumber = r.initUnitsNumber
  allUnitsNumber : r'.allUnitsNumber = r.allUnitsNumber

lemma Readable.of_same {r' : FilterBlockReader} (h : r.Readable crc file) (hs : SameFilter r r') : r'.Readable crc file := by
  unfold Readable
  rw [hs.diskOffset, hs.diskSize, hs.allUnitsNumber]
  exact h

lemma sameFilter_loadFilter : SameFilter r (r.loadFilter crc file).1 := by
  unfold loadFilter
  dsimp only
  split_ifs
  · constructor <;> rfl
  · split <;> constructor <;> rfl

lemma sameFilter_evictFilter : SameFilter r r.evictFilter.1 := by
  unfold evictFilter
  split_ifs <;> constructor <;> rfl

end RallyDB.Table.FilterBlockReader
