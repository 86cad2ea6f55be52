import RallyDB.Util.Theorems

/-!
# What an adjustment does not do
-/

namespace RallyDB.Util.MultiQueue

/-! ## An adjustment saves I/Os and takes no more memory -/

section

open Table Lib List FilterBlockReader

variable (rate : ℚ)

def iosAt (units : Nat) (r : FilterBlockReader) : ℚ := rate ^ units * r.accessTime

def savesIOs : WorthAdjusting := fun colds hot =>
  (colds.map fun r => iosAt rate (r.filterUnitsNumber - 1) r).sum + iosAt rate (hot.filterUnitsNumber + 1) hot <
    (colds.map fun r => iosAt rate r.filterUnitsNumber r).sum + iosAt rate hot.filterUnitsNumber hot

def totalIOs (mq : MultiQueue) : ℚ := mq.readerTotal fun r => iosAt rate r.filterUnitsNumber r

def unitsOf (mq : MultiQueue) (h : Nat) : Option Nat := (mq.value h).map FilterBlockReader.filterUnitsNumber

structure Placed (mq : MultiQueue) : Prop where
  addresses : (mq.handles.map Prod.fst).Nodup
  all_le : ∀ a r, mq.value a = some r → r.allUnitsNumber ≤ kAllFilterUnitsNumber
  size_lt : ∀ a r, mq.value a = some r → r.diskSize < 2 ^ 32
  tracks : mq.Tracks (· = ·)

variable {mq mq' : MultiQueue} {h k : Nat} {r : FilterBlockReader} {crc : Crc32c} {io : Nat → RandomAccessFile}
  {M : Type*} [AddCommMonoid M]

variable {colds : List Nat}

lemma applyAdjustment_spec {m : MultiQueue} (g : FilterBlockReader → M) (haddresses : (m.handles.map Prod.fst).Nodup)
    (hnodup : colds.Nodup) (hcold : ∀ k ∈ colds, ∃ r, m.value k = some r ∧ 1 ≤ r.filterUnitsNumber)
    (hhot : h ∉ colds) (hv : m.value h = some r) (hread : r.Readable crc (io h)) (hload : r.canBeLoaded = true)
    (hle : r.allUnitsNumber ≤ kAllFilterUnitsNumber) : (∀ a, (m.applyAdjustment crc io colds h).value a =
      if a = h then some (r.loadFilter crc (io h)).1
      else if a ∈ colds then (m.value a).map fun r => r.evictFilter.1 else m.value a) ∧
    (m.applyAdjustment crc io colds h).readerTotal g + ((colds.map (m.ofReader g)).sum + g r) =
      m.readerTotal g + ((colds.map (m.ofReader fun r => g r.evictFilter.1)).sum + g (r.loadFilter crc (io h)).1) := by
  obtain ⟨hevicted, hok, htotal⟩ := evictHandles_evicted g haddresses hnodup hcold
  have hv' : (m.evictHandles colds).1.value h = some r := by rw [hevicted.value, if_neg hhot, hv]
  obtain ⟨mq', hmq', hvalue, htotal'⟩ :=
    loadHandle_loaded g (hevicted.addresses ▸ haddresses) hv' hread hload hle
  have happly : m.applyAdjustment crc io colds h = mq' := by
    unfold applyAdjustment
    rw [← Prod.eta (m.evictHandles colds), hok]
    dsimp only
    rw [hmq']
  rw [happly]
  refine ⟨fun a => ?_, ?_⟩
  · rw [hvalue, hevicted.value]
  · rw [add_comm (List.sum _) (g r), ← add_assoc, htotal', add_right_comm, htotal, add_assoc]

lemma sum_filterMap_value (g : FilterBlockReader → M) (hcold : ∀ k ∈ colds, ∃ r, mq.value k = some r) :
    ((colds.filterMap mq.value).map g).sum = (colds.map (mq.ofReader g)).sum := by
  induction colds with
  | nil => rfl
  | cons k colds ih =>
    obtain ⟨r, hv⟩ := hcold k mem_cons_self
    rw [filterMap_cons_some hv, map_cons, map_cons, sum_cons, sum_cons, ofReader_eq g hv,
      ih fun a ha => hcold a (mem_cons_of_mem _ ha)]

/-! ## I/Os and sizes after an adjustment -/

lemma iosAt_evictFilter (r : FilterBlockReader) :
    iosAt rate r.evictFilter.1.filterUnitsNumber r.evictFilter.1 = iosAt rate (r.filterUnitsNumber - 1) r := by
  by_cases hunits : 1 ≤ r.filterUnitsNumber
  · rw [evictFilter_units hunits, evictFilter_eq hunits]
    rfl
  · have hnil : r.filterUnits = [] := length_eq_zero_iff.1 (Nat.lt_one_iff.1 (not_le.1 hunits))
    rw [evictFilter, if_pos hnil, filterUnitsNumber, hnil]
    rfl

lemma iosAt_loadFilter {file : RandomAccessFile} (hread : r.Readable crc file) (hload : r.canBeLoaded = true) :
    iosAt rate (r.loadFilter crc file).1.filterUnitsNumber (r.loadFilter crc file).1 =
    iosAt rate (r.filterUnitsNumber + 1) r := by
  obtain ⟨data, hd⟩ := loadFilter_readable hread (of_decide_eq_true hload)
  rw [loadFilter_units hread hload, hd]
  rfl

structure Exchanged (rate : ℚ) (sn : Nat) (mq : MultiQueue) (hot : Nat) (colds : List Nat) (mq' : MultiQueue) : Prop where
  nodup : colds.Nodup
  hot_notMem : hot ∉ colds
  cold : ∀ k ∈ colds, ∃ r, mq.value k = some r ∧ r.isCold sn = true
  loaded : ∃ n, mq.unitsOf hot = some n ∧ mq'.unitsOf hot = some (n + 1)
  evicted : ∀ k ∈ colds, ∃ n, mq.unitsOf k = some (n + 1) ∧ mq'.unitsOf k = some n
  others : ∀ k, k ≠ hot → k ∉ colds → mq'.unitsOf k = mq.unitsOf k
  sizes_le : mq'.sizes ≤ mq.sizes
  totalIOs_lt : mq'.totalIOs rate < mq.totalIOs rate

lemma Placed.move (hp : mq.Placed) (hv : mq.value h = some r) : (mq.move h r.filterUnitsNumber).Placed :=
  ⟨hp.addresses, hp.all_le, hp.size_lt, hp.tracks.move hv rfl⟩

lemma Placed.sum_unitOf_lt (hp : mq.Placed) (hlength : mq.handles.length < 2 ^ 31)
    (hnodup : colds.Nodup) (hcold : ∀ k ∈ colds, ∃ r, mq.value k = some r) : (colds.map mq.unitOf).sum < 2 ^ 64 := by
  have hsub : colds ⊆ mq.handles.map Prod.fst := fun k hk => by
    obtain ⟨r, hv⟩ := hcold k hk
    obtain ⟨q, hq, -⟩ := exists_mem_of_value hv
    exact mem_map_of_mem (f := Prod.fst) hq
  have hle : colds.length ≤ mq.handles.length := (hnodup.subperm hsub).length_le.trans_eq (length_map _)
  have hsum : (colds.map mq.unitOf).sum ≤ (colds.map mq.unitOf).length • 2 ^ 32 := by
    refine sum_le_card_nsmul _ _ fun n hn => ?_
    obtain ⟨k, hk, rfl⟩ := mem_map.1 hn
    obtain ⟨r, hv⟩ := hcold k hk
    rw [unitOf, hv]
    exact (hp.size_lt k r hv).le
  rw [length_map, smul_eq_mul] at hsum
  omega

lemma adjustment_exchanged {sn : Nat} (hp : mq.Placed) (hlength : mq.handles.length < 2 ^ 31)
    (hread : mq.ReadableBy crc io) (hv : mq.value h = some r) (hsn : r.sequence = sn) :
    mq.adjustment (savesIOs rate) crc io h sn = mq ∨
    ∃ colds ≠ [], Exchanged rate sn mq h colds (mq.adjustment (savesIOs rate) crc io h sn) := by
  by_cases ha : mq.Attempts (savesIOs rate) h sn r
  · obtain ⟨hnodup, hfound, hmemory⟩ := ha.colds hp.tracks hv
    have hworth := ha.worthAdjusting hv
    rw [adjustment_of_attempts hv ha]
    obtain ⟨hload, hne, -⟩ := ha
    generalize mq.findColdFilter (UInt64.ofNat r.oneUnitSize) sn = colds at *
    have hvalues : ∀ k ∈ colds, ∃ r, mq.value k = some r := fun k hk => (hfound k hk).imp fun _ => And.left
    have hcold : ∀ k ∈ colds, ∃ r, mq.value k = some r ∧ 1 ≤ r.filterUnitsNumber := fun k hk =>
      (hfound k hk).imp fun _ hr => ⟨hr.1, hr.2.2.2⟩
    -- the handle was just used, so it is not cold
    have hhot : h ∉ colds := fun hmem => by
      obtain ⟨rc, hrc, hc, -⟩ := hfound h hmem
      cases hv.symm.trans hrc
      have := of_decide_eq_true hc
      simp only [kLifeTime] at this
      omega
    have hunits : (colds.map mq.unitOf).sum = r.oneUnitSize := by
      have hlt := hp.sum_unitOf_lt hlength hnodup hvalues
      have hone : r.oneUnitSize < 2 ^ 64 := (hp.size_lt h r hv).trans (by decide)
      have := congrArg UInt64.toNat hmemory
      rwa [UInt64.toNat_ofNat_of_lt' hlt, UInt64.toNat_ofNat_of_lt' hone] at this
    have hspec := fun {M : Type} [AddCommMonoid M] (g : FilterBlockReader → M) => applyAdjustment_spec
      (m := { mq with adjustmentTime := mq.adjustmentTime + 1 }) g hp.addresses hnodup hcold hhot hv (hread h r hv) hload
      (hp.all_le h r hv)
    generalize ({ mq with adjustmentTime := mq.adjustmentTime + 1 } : MultiQueue).applyAdjustment crc io colds h = mq'
      at hspec ⊢
    have hvalue := (hspec size).1
    refine .inr ⟨colds, hne, hnodup, hhot, fun k hk => (hfound k hk).imp fun _ hr => ⟨hr.1, hr.2.1⟩,
      ⟨r.filterUnitsNumber, ?_, ?_⟩, fun k hk => ?_, fun k hkh hk => ?_, ?_, ?_⟩
    · rw [unitsOf, hv]
      rfl
    · rw [unitsOf, hvalue, if_pos rfl]
      exact congrArg some (loadFilter_units (hread h r hv) hload)
    · obtain ⟨rc, hrc, hunits⟩ := hcold k hk
      refine ⟨rc.filterUnitsNumber - 1, ?_, ?_⟩
      · rw [unitsOf, hrc, Nat.sub_add_cancel hunits]
        rfl
      · rw [unitsOf, hvalue, if_neg (ne_of_mem_of_not_mem hk hhot), if_pos hk]
        show ((mq.value k).map _).map _ = _
        rw [hrc]
        exact congrArg some (evictFilter_units hunits)
    · rw [unitsOf, hvalue, if_neg hkh, if_neg hk]
      rfl
    · have hsizes := (hspec size).2
      have hcolds := sum_sizes_evict hcold
      rw [size_loadFilter (hread h r hv) hload, ← hunits] at hsizes
      change mq'.sizes + ((colds.map (mq.ofReader size)).sum + r.size) =
        mq.sizes + ((colds.map (mq.ofReader fun r => r.evictFilter.1.size)).sum + _) at hsizes
      omega
    · have hios := (hspec fun r => iosAt rate r.filterUnitsNumber r).2
      have hless := of_decide_eq_true hworth
      rw [sum_filterMap_value _ hvalues, sum_filterMap_value _ hvalues] at hless
      simp only [iosAt_evictFilter, iosAt_loadFilter rate (hread h r hv) hload] at hios
      change mq'.totalIOs rate + ((colds.map (mq.ofReader fun r => iosAt rate r.filterUnitsNumber r)).sum + _) =
        mq.totalIOs rate + ((colds.map (mq.ofReader fun r => iosAt rate (r.filterUnitsNumber - 1) r)).sum + _) at hios
      linarith
  · exact .inl (adjustment_of_not_attempts hv ha)

/-- An adjustment for a handle that was just used changes no units, or it takes one unit of each of some cold handles for one
unit of this handle, with no more bytes than before and fewer I/Os. -/
theorem doAdjustment_exchanged (rate : ℚ) (crc : Crc32c) (io : Nat → RandomAccessFile) (mq : MultiQueue) (hot sn : Nat)
    (r : FilterBlockReader) (hp : mq.Placed) (hlength : mq.handles.length < 2 ^ 31) (hread : mq.ReadableBy crc io)
    (hv : mq.value hot = some r) (hsn : r.sequence = sn) :
    (∀ k, (mq.doAdjustment (savesIOs rate) crc io hot sn).unitsOf k = mq.unitsOf k) ∨
    ∃ colds ≠ [], Exchanged rate sn mq hot colds (mq.doAdjustment (savesIOs rate) crc io hot sn) := by
  rw [doAdjustment_eq hv]
  rcases adjustment_exchanged rate (hp.move hv) hlength hread hv hsn with he | ⟨colds, hne, hx⟩
  · exact .inl fun k => (congrArg (unitsOf · k) he).trans rfl
  · exact .inr ⟨colds, hne, hx.nodup, hx.hot_notMem, hx.cold, hx.loaded, hx.evicted, hx.others, hx.sizes_le, hx.totalIOs_lt⟩

def coldAndHot : MultiQueue where
  nextAddress := 2
  handles := [(0, ⟨[1], { unitsReader with filterUnits := [[1], [2]], sequence := 5, accessTime := 1 }⟩),
    (1, ⟨[2], { unitsReader with filterUnits := [[1], [2]], sequence := 20001, accessTime := 2 }⟩)]
  map := [([1], 0), ([2], 1)]
  queues i := if i = 2 then [1, 0] else []
  usage := 4
  adjustmentTime := 0

lemma placed_pair {q0 q1 : QueueHandle} (h0 : q0.reader.filterUnitsNumber = 2) (h1 : q1.reader.filterUnitsNumber = 2)
    (hreaders : ∀ q ∈ [q0, q1], q.reader.allUnitsNumber ≤ kAllFilterUnitsNumber ∧ q.reader.diskSize < 2 ^ 32) :
    ({ coldAndHot with handles := [(0, q0), (1, q1)] } : MultiQueue).Placed := by
  have hvalue : ∀ a r, ({ coldAndHot with handles := [(0, q0), (1, q1)] } : MultiQueue).value a = some r →
      r.allUnitsNumber ≤ kAllFilterUnitsNumber ∧ r.diskSize < 2 ^ 32 := fun a r hv => by
    obtain ⟨q, hq, rfl⟩ := exists_mem_of_value hv
    refine hreaders q ?_
    simp only [mem_cons, not_mem_nil, or_false, Prod.mk.injEq] at hq ⊢
    exact hq.imp And.right And.right
  refine ⟨by simp, fun a r hv => (hvalue a r hv).1, fun a r hv => (hvalue a r hv).2, fun a => ?_⟩
  match a with
  | 0 => exact ⟨2, h0.symm, fun j => by by_cases hj : j = 2 <;> simp [coldAndHot, hj]⟩
  | 1 => exact ⟨2, h1.symm, fun j => by by_cases hj : j = 2 <;> simp [coldAndHot, hj]⟩
  | a + 2 => exact fun j => by by_cases hj : j = 2 <;> simp [coldAndHot, hj]

lemma coldAndHot_placed : coldAndHot.Placed := placed_pair rfl rfl (by decide)

theorem doAdjustment_exchanged_sample : ∃ colds ≠ [], Exchanged (6185 / 10000) 20001 coldAndHot 1 colds
    (coldAndHot.doAdjustment (savesIOs (6185 / 10000)) .bitwise (fun _ => unitsFile) 1 20001) := by
  have hread : coldAndHot.AllReadable .bitwise (fun _ => unitsFile) := by decide +kernel
  have hmore : (coldAndHot.doAdjustment (savesIOs (6185 / 10000)) .bitwise (fun _ => unitsFile) 1 20001).unitsOf 1 ≠
      coldAndHot.unitsOf 1 := by decide +kernel
  exact (doAdjustment_exchanged _ .bitwise (fun _ => unitsFile) coldAndHot 1 20001 _ coldAndHot_placed (by decide)
    hread.readableBy rfl rfl).resolve_left fun hsame => hmore (hsame 1)

end

open Table Lib Relation FilterBlockReader
open Prod (eta fst snd)

variable {mq mq' m : MultiQueue} {h k sn : Nat} {r c : FilterBlockReader} {worth : WorthAdjusting} {crc : Crc32c}
  {policy : FilterPolicy} {io : Nat → RandomAccessFile} {P : Nat → Nat → Prop}

/-- The search finds what it should, just when all cold units are too few or those of the first cold readers are exactly
the memory. -/
theorem findColdFilter_reaches_iff (mq : MultiQueue) (sn : Nat) (memory : UInt64) (hpos : 0 < memory)
    (hunits : ∀ k r, mq.value k = some r → r.oneUnitSize < 2 ^ 32) :
    ReachesBudget mq.unitOf (mq.metColds sn) memory.toNat (mq.findColdFilter memory sn) ↔
    ((mq.metColds sn).map mq.unitOf).sum < memory.toNat ∨
    ∃ first, first <+: mq.metColds sn ∧ (first.map mq.unitOf).sum = memory.toNat := by
  rw [findColdFilter_eq]
  refine pickBudget_reaches_iff (fun k hk => ?_) hpos
  obtain ⟨r, hv, -⟩ := of_mem_metColds hk
  rw [unitOf_eq hv]
  exact (hunits k r hv).trans (by decide)

theorem findColdFilter_reaches_coldAndHot :
    ReachesBudget coldAndHot.unitOf (coldAndHot.metColds 20001) 1 (coldAndHot.findColdFilter 1 20001) :=
  (findColdFilter_reaches_iff coldAndHot 20001 1 (by decide) coldAndHot_placed.size_lt).2
    (.inr ⟨[0], by decide +kernel, by decide +kernel⟩)

def largeCold : MultiQueue :=
  { coldAndHot with
    handles := [ (0, ⟨[1], { unitsReader with
        diskSize := 3, filterUnits := [[1, 1, 1], [2, 2, 2]], sequence := 5, accessTime := 1 }⟩),
      (1, ⟨[2], { unitsReader with
        diskSize := 2, filterUnits := [[1, 1], [2, 2]], sequence := 20001, accessTime := 2 }⟩)] }

theorem large_unit_not_found :
    largeCold.Placed ∧ largeCold.metColds 20001 = [0] ∧ largeCold.unitOf 0 = 3 ∧ largeCold.findColdFilter 2 20001 = [] ∧
    ¬ ReachesBudget largeCold.unitOf (largeCold.metColds 20001) 2 (largeCold.findColdFilter 2 20001) :=
  ⟨placed_pair rfl rfl (by decide), by decide +kernel⟩

lemma evicted_of_attempts (haddresses : (mq.handles.map fst).Nodup) (ht : mq.Tracks P) (hv : mq.value h = some r)
    (ha : mq.Attempts worth h sn r) :
    let colds := mq.findColdFilter (UInt64.ofNat r.oneUnitSize) sn
    let m : MultiQueue := { mq with adjustmentTime := mq.adjustmentTime + 1 }
    mq.Evicted colds (m.evictHandles colds).1 ∧ (m.evictHandles colds).2 = .ok () ∧
      ∀ k ∈ colds, ∃ c, mq.value k = some c ∧ c.isCold sn = true ∧ c.accessTime ≠ 0 ∧ 1 ≤ c.filterUnitsNumber := by
  intro colds m
  obtain ⟨hnodup, hcold, -⟩ := ha.colds ht hv
  have haddresses : (m.handles.map fst).Nodup := haddresses
  obtain ⟨hevicted, hok, -⟩ := evictHandles_evicted size haddresses hnodup fun k hk =>
    (hcold k hk).imp fun c hc => ⟨hc.1, hc.2.2.2⟩
  exact ⟨⟨hevicted.addresses, hevicted.value⟩, hok, hcold⟩

lemma value_applyAdjustment {colds : List Nat} (hok : (m.evictHandles colds).2 = .ok ()) (a : Nat) :
    (m.applyAdjustment crc io colds h).value a = ((m.evictHandles colds).1.loadHandle crc io h).1.value a := by
  unfold applyAdjustment
  rw [← eta (m.evictHandles colds), hok]
  dsimp only
  generalize (m.evictHandles colds).1.loadHandle crc io h = result
  obtain ⟨mq', status⟩ := result
  cases status with
  | error e => rfl
  | ok u => rfl

lemma value_loadHandle (crc : Crc32c) (io : Nat → RandomAccessFile) (hv : m.value h = some r) (a : Nat) :
    (m.loadHandle crc io h).1.value a = m.value a ∨
    a = h ∧ (m.loadHandle crc io h).1.value a = some (r.loadFilter crc (io h)).1 := by
  unfold loadHandle
  rw [hv]
  dsimp only
  split_ifs
  · rw [value_modifyReader, value_move]
    by_cases ha : a = h
    · rw [if_pos ha, ha, hv]
      exact .inr ⟨rfl, rfl⟩
    · rw [if_neg ha]
      exact .inl rfl
  · exact .inl rfl

lemma units_le_loadFilter (file : RandomAccessFile) : r.filterUnitsNumber ≤ (r.loadFilter crc file).1.filterUnitsNumber := by
  rcases loadFilter_cases crc file r with ⟨e, he⟩ | ⟨data, -, he⟩
  · rw [he]
  · rw [he, filterUnitsNumber, filterUnitsNumber, List.length_append]
    exact Nat.le_add_right _ _

lemma loadHandle_units (crc : Crc32c) (io : Nat → RandomAccessFile) (h : Nat) (hv : m.value k = some c) :
    ∃ c', (m.loadHandle crc io h).1.value k = some c' ∧ c.filterUnitsNumber ≤ c'.filterUnitsNumber := by
  cases hh : m.value h with
  | none =>
    refine ⟨c, ?_, le_rfl⟩
    unfold loadHandle
    rw [hh]
    exact hv
  | some r =>
    rcases value_loadHandle crc io hh k with he | ⟨rfl, he⟩
    · exact ⟨c, he.trans hv, le_rfl⟩
    · cases hh.symm.trans hv
      exact ⟨_, he, units_le_loadFilter _⟩

lemma adjustment_units (haddresses : (mq.handles.map fst).Nodup) (ht : mq.Tracks P) (hv : mq.value k = some c) :
    ∃ c', (mq.adjustment worth crc io h sn).value k = some c' ∧ (c.filterUnitsNumber ≤ c'.filterUnitsNumber ∨
    c.isCold sn = true ∧ c.accessTime ≠ 0 ∧ c.filterUnitsNumber ≤ c'.filterUnitsNumber + 1) := by
  cases hh : mq.value h with
  | none =>
    refine ⟨c, ?_, .inl le_rfl⟩
    unfold adjustment
    rw [hh]
    exact hv
  | some r =>
    by_cases ha : mq.Attempts worth h sn r
    · obtain ⟨hevicted, hok, hcold⟩ := evicted_of_attempts haddresses ht hh ha
      rw [adjustment_of_attempts hh ha, value_applyAdjustment hok]
      have hvalue := hevicted.value k
      by_cases hk : k ∈ mq.findColdFilter (UInt64.ofNat r.oneUnitSize) sn
      · obtain ⟨c1, hc, hcold, haccess, hunits⟩ := hcold k hk
        cases hv.symm.trans hc
        rw [if_pos hk, hv, Option.map_some] at hvalue
        obtain ⟨c', hc', hle⟩ := loadHandle_units crc io h hvalue
        rw [evictFilter_units hunits] at hle
        exact ⟨c', hc', .inr ⟨hcold, haccess, by omega⟩⟩
      · rw [if_neg hk, hv] at hvalue
        obtain ⟨c', hc', hle⟩ := loadHandle_units crc io h hvalue
        exact ⟨c', hc', .inl hle⟩
    · rw [adjustment_of_not_attempts hh ha]
      exact ⟨c, hv, .inl le_rfl⟩

section

variable (worth crc io)

lemma doAdjustment_units (h sn : Nat)
    (haddresses : (mq.handles.map fst).Nodup) (ht : mq.Tracks Anywhere) (hv : mq.value k = some c) :
    ∃ c', (mq.doAdjustment worth crc io h sn).value k = some c' ∧ (c.filterUnitsNumber ≤ c'.filterUnitsNumber ∨
    c.isCold sn = true ∧ c.accessTime ≠ 0 ∧ c.filterUnitsNumber ≤ c'.filterUnitsNumber + 1) := by
  cases hh : mq.value h with
  | none =>
    refine ⟨c, ?_, .inl le_rfl⟩
    unfold doAdjustment
    rw [hh]
    exact hv
  | some r =>
    have haddr : ((mq.move h r.filterUnitsNumber).handles.map fst).Nodup := haddresses
    rw [doAdjustment_eq hh]
    exact adjustment_units haddr (ht.move hh trivial) hv

end

/-! ## The last unit of a reader -/

inductive Call where
  | updateHandle (io : Nat → RandomAccessFile) (h blockOffset : Nat) (key : Slice)
  | doAdjustment (io : Nat → RandomAccessFile) (h sn : Nat)

section

variable (worth crc policy)

def call (mq : MultiQueue) : Call → MultiQueue
  | .updateHandle io h blockOffset key => (mq.updateHandle worth crc policy io h blockOffset key).1
  | .doAdjustment io h sn => mq.doAdjustment worth crc io h sn

def callStep (mq : MultiQueue) (c : Call) : Option MultiQueue := some (mq.call worth crc policy c)

end

def LastUnitCold (r : FilterBlockReader) (sn : Nat) : Prop :=
  r.isCold sn = true ∧ r.accessTime ≠ 0 ∧ r.filterUnitsNumber = 1

instance (r : FilterBlockReader) (sn : Nat) : Decidable (LastUnitCold r sn) :=
  inferInstanceAs (Decidable (_ ∧ _ ∧ _))

/-- No reader that was accessed is cold with only one unit at the time of the call, apart from the one `UpdateHandle` is
called for. -/
def SparesLastUnits (mq : MultiQueue) : Call → Prop
  | .updateHandle _ h _ key => ∀ sn ∈ parseKey key, ∀ p ∈ mq.handles, p.1 ≠ h → ¬ LastUnitCold p.2.reader sn
  | .doAdjustment _ _ sn => ∀ p ∈ mq.handles, ¬ LastUnitCold p.2.reader sn

instance (mq : MultiQueue) (c : Call) : Decidable (mq.SparesLastUnits c) := by
  cases c <;> unfold SparesLastUnits <;> infer_instance

structure LinkedOnce (mq : MultiQueue) : Prop where
  addresses : (mq.handles.map Prod.fst).Nodup
  tracks : mq.Tracks Anywhere

lemma addresses_modifyReader (f : FilterBlockReader → FilterBlockReader) :
    (mq.modifyReader h f).handles.map fst = mq.handles.map fst := by
  rw [modifyReader, Lib.keys_adjust]

lemma LinkedOnce.modifyReader (hl : mq.LinkedOnce) (f : FilterBlockReader → FilterBlockReader) :
    (mq.modifyReader h f).LinkedOnce :=
  ⟨(addresses_modifyReader f).symm ▸ hl.addresses, hl.tracks.modifyReader fun _ _ _ _ => trivial⟩

lemma LinkedOnce.move (hl : mq.LinkedOnce) (hv : mq.value h = some r) (n : Nat) : (mq.move h n).LinkedOnce :=
  ⟨hl.addresses, hl.tracks.move hv trivial⟩

lemma AdjustStep.linkedOnce (hs : AdjustStep crc io mq mq') (hl : mq.LinkedOnce) : mq'.LinkedOnce := by
  cases hs with
  | state h sn => exact hl.modifyReader _
  | touch hr => exact hl.move hr _
  | evict hr hunits | load hr hload => exact (hl.move hr _).modifyReader _
  | time n => exact ⟨hl.addresses, hl.tracks.congr rfl rfl⟩

lemma call_linkedOnce (c : Call) (hl : mq.LinkedOnce) : (mq.call worth crc policy c).LinkedOnce := by
  cases c with
  | updateHandle io h blockOffset key =>
    have hsteps : ReflTransGen (AdjustStep crc io) mq (mq.updateHandle worth crc policy io h blockOffset key).1 :=
      updateHandle_steps
    exact steps_invariant (fun _ _ hs => hs.linkedOnce) hsteps hl
  | doAdjustment io h sn =>
    have hsteps : ReflTransGen (AdjustStep crc io) mq (mq.doAdjustment worth crc io h sn) := doAdjustment_steps sn
    exact steps_invariant (fun _ _ hs => hs.linkedOnce) hsteps hl

lemma unitsOf_eq_some {n : Nat} : mq.unitsOf k = some n ↔ ∃ r, mq.value k = some r ∧ r.filterUnitsNumber = n :=
  Option.map_eq_some_iff

lemma doAdjustment_keeps_unit (hl : mq.LinkedOnce) (hv : mq.value k = some c) (hunits : 1 ≤ c.filterUnitsNumber)
    (hspares : ¬ LastUnitCold c sn) : (mq.doAdjustment worth crc io h sn).unitsOf k ≠ some 0 := by
  obtain ⟨c', hc', hle⟩ := doAdjustment_units worth crc io h sn hl.addresses hl.tracks hv
  intro hzero
  obtain ⟨c1, hc1, hunits'⟩ := unitsOf_eq_some.1 hzero
  cases hc'.symm.trans hc1
  rcases hle with hle | ⟨hcold, haccess, hle⟩
  · omega
  · exact hspares ⟨hcold, haccess, by omega⟩

lemma not_lastUnitCold_updateState (r : FilterBlockReader) (sn : Nat) : ¬ LastUnitCold (r.updateState sn) sn := by
  rintro ⟨hcold, -⟩
  have hle : sn + kLifeTime ≤ sn := of_decide_eq_true hcold
  simp only [kLifeTime] at hle
  omega

lemma call_keeps_unit {c : Call} (hl : mq.LinkedOnce) (hspares : mq.SparesLastUnits c) {n : Nat}
    (hunits : mq.unitsOf k = some (n + 1)) : (mq.call worth crc policy c).unitsOf k ≠ some 0 := by
  obtain ⟨r, hv, hr⟩ := unitsOf_eq_some.1 hunits
  have hmem : ∃ q, (k, q) ∈ mq.handles ∧ q.reader = r := exists_mem_of_value hv
  obtain ⟨q, hq, rfl⟩ := hmem
  cases c with
  | doAdjustment io h sn => exact doAdjustment_keeps_unit hl hv (by omega) (hspares _ hq)
  | updateHandle io h blockOffset key =>
    show (mq.updateHandle worth crc policy io h blockOffset key).1.unitsOf k ≠ some 0
    unfold updateHandle
    split
    · rename_i sn _ hkey _
      have hvalue : (mq.modifyReader h fun r => r.updateState sn).value k = _ := value_modifyReader _
      by_cases hk : k = h
      · rw [if_pos hk, hv, Option.map_some] at hvalue
        refine doAdjustment_keeps_unit (hl.modifyReader _) hvalue ?_ (not_lastUnitCold_updateState _ sn)
        show 1 ≤ q.reader.filterUnitsNumber
        omega
      · rw [if_neg hk, hv] at hvalue
        exact doAdjustment_keeps_unit (hl.modifyReader _) hvalue (by omega) (hspares sn hkey _ hq hk)
    · rw [hunits]
      simp

/-- In a run in which no call meets an accessed cold reader with one unit, no call takes the last unit of a reader. -/
theorem last_unit_kept (worth : WorthAdjusting) (crc : Crc32c) (policy : FilterPolicy) (mq : MultiQueue) (hl : mq.LinkedOnce)
    (calls : List Call) (hspares : StepsMeet (callStep worth crc policy) SparesLastUnits mq calls)
    (before rest : List Call) (c : Call) (hcalls : calls = before ++ c :: rest) (t : MultiQueue)
    (hrun : run (callStep worth crc policy) mq before = some t) (k n : Nat) (hunits : t.unitsOf k = some (n + 1)) :
    (t.call worth crc policy c).unitsOf k ≠ some 0 := by
  subst hcalls
  have hlinked : t.LinkedOnce := run_invariant (C := fun _ _ => True)
    (fun _ a _ h _ hs => Option.some.inj hs ▸ call_linkedOnce a h) hl (stepsMeet_of_forall fun _ _ => trivial) hrun
  exact call_keeps_unit hlinked (hspares.of_append hrun) hunits

lemma Placed.linkedOnce (hp : mq.Placed) : mq.LinkedOnce := ⟨hp.addresses, hp.tracks.mono fun _ _ _ => trivial⟩

def busyHot : MultiQueue :=
  { coldAndHot with
    handles := [(0, ⟨[1], { unitsReader with filterUnits := [[1], [2]], sequence := 5, accessTime := 1 }⟩),
      (1, ⟨[2], { unitsReader with filterUnits := [[1], [2]], sequence := 20001, accessTime := 10 }⟩)] }

lemma busyHot_placed : busyHot.Placed := placed_pair rfl rfl (by decide)

abbrev busyStep : MultiQueue → Call → Option MultiQueue := callStep fewerIOs .bitwise anyPolicy

def adjustBusy : Call := .doAdjustment (fun _ => unitsFile) 1 20001

theorem last_unit_kept_busyHot : (busyHot.call fewerIOs .bitwise anyPolicy adjustBusy).unitsOf 0 ≠ some 0 :=
  last_unit_kept fewerIOs .bitwise anyPolicy busyHot busyHot_placed.linkedOnce [adjustBusy] (by decide +kernel) [] []
    adjustBusy rfl busyHot rfl 0 1 (by decide)

/-- The second adjustment takes the last unit of the cold reader. -/
theorem last_unit_taken : busyHot.Placed ∧ ∃ t, run busyStep busyHot [adjustBusy] = some t ∧ t.unitsOf 0 = some 1 ∧
    (t.call fewerIOs .bitwise anyPolicy adjustBusy).unitsOf 0 = some 0 :=
  ⟨busyHot_placed, exists_run (by decide +kernel)⟩

/-! ## A hot unit that cannot be read -/

def beforeLoad (mq : MultiQueue) (hot sn : Nat) (r : FilterBlockReader) : MultiQueue :=
  let mq := mq.move hot r.filterUnitsNumber
  let colds := mq.findColdFilter (UInt64.ofNat r.oneUnitSize) sn
  (({ mq with adjustmentTime := mq.adjustmentTime + 1 } : MultiQueue).evictHandles colds).1

/-- Every handle is in the queue of its units, the usage is that of the loaded units, and no cold reader has fewer units
than in `mq`. -/
structure ConsistentAfter (mq : MultiQueue) (sn : Nat) (mq' : MultiQueue) : Prop where
  tracks : mq'.Tracks (· = ·)
  usage_eq : mq'.usage = UInt64.ofNat mq'.sizes
  colds : ∀ k c, mq.value k = some c → c.isCold sn = true →
    ∃ c', mq'.value k = some c' ∧ c.filterUnitsNumber ≤ c'.filterUnitsNumber

lemma value_loadHandle_of_failed (hfail : ∀ r, m.value h = some r → (r.loadFilter crc (io h)).2 ≠ .ok ()) (a : Nat) :
    (m.loadHandle crc io h).1.value a = m.value a := by
  cases hv : m.value h with
  | none =>
    unfold loadHandle
    rw [hv]
  | some r =>
    rcases value_loadHandle crc io hv a with he | ⟨rfl, he⟩
    · exact he
    · rcases loadFilter_cases crc (io a) r with ⟨e, hload⟩ | ⟨data, -, hload⟩
      · rw [he, hload, hv]
      · exact absurd (congrArg snd hload) (hfail r hv)

/-- When the hot unit cannot be read, the multi queue is left consistent just when there was nothing to adjust. -/
theorem failed_adjustment_iff (worth : WorthAdjusting) (crc : Crc32c) (io : Nat → RandomAccessFile) (mq : MultiQueue)
    (hot sn : Nat) (r : FilterBlockReader) (haddresses : (mq.handles.map Prod.fst).Nodup) (htracks : mq.Tracks (· = ·))
    (husage : mq.usage = UInt64.ofNat mq.sizes) (hv : mq.value hot = some r)
    (hfail : ∀ r', (mq.beforeLoad hot sn r).value hot = some r' → (r'.loadFilter crc (io hot)).2 ≠ .ok ()) :
    mq.ConsistentAfter sn (mq.doAdjustment worth crc io hot sn) ↔
    ¬ (mq.move hot r.filterUnitsNumber).Attempts worth hot sn r := by
  have haddr : ((mq.move hot r.filterUnitsNumber).handles.map Prod.fst).Nodup := haddresses
  have hv' : (mq.move hot r.filterUnitsNumber).value hot = some r := hv
  have ht' : (mq.move hot r.filterUnitsNumber).Tracks (· = ·) := htracks.move hv rfl
  rw [doAdjustment_eq hv]
  constructor
  · intro hafter ha
    obtain ⟨hevicted, hok, hcold⟩ := evicted_of_attempts haddr ht' hv' ha
    obtain ⟨k, hk⟩ := List.exists_mem_of_ne_nil _ ha.2.1
    obtain ⟨c, hc, hcold, -, hunits⟩ := hcold k hk
    obtain ⟨c', hc', hle⟩ := hafter.colds k c hc hcold
    -- the cold reader is as the evictions left it
    have hvalue := hevicted.value k
    rw [if_pos hk, hc, Option.map_some] at hvalue
    rw [adjustment_of_attempts hv' ha, value_applyAdjustment hok] at hc'
    cases hc'.symm.trans ((value_loadHandle_of_failed hfail k).trans hvalue)
    rw [evictFilter_units hunits] at hle
    omega
  · intro hnot
    rw [adjustment_of_not_attempts hv' hnot]
    exact ⟨ht', husage, fun k c hc _ => ⟨c, hc, le_rfl⟩⟩

def unreadable : RandomAccessFile := ⟨fun _ _ => .error (.ioError "")⟩

lemma loadFilter_unreadable (r : FilterBlockReader) : (r.loadFilter crc unreadable).2 ≠ .ok () := by
  unfold loadFilter readBlock readStoredBlock
  dsimp only
  split_ifs
  · simp
  · simp [unreadable]

theorem failed_adjustment_nothing_cold :
    coldAndHot.ConsistentAfter 6 (coldAndHot.doAdjustment fewerIOs .bitwise (fun _ => unreadable) 1 6) :=
  (failed_adjustment_iff fewerIOs .bitwise (fun _ => unreadable) coldAndHot 1 6 _ coldAndHot_placed.addresses
    coldAndHot_placed.tracks (by decide +kernel) rfl fun r _ => loadFilter_unreadable r).2
    fun ha => ha.2.1 (by decide +kernel)

/-- The hot handle is in the queue of three units with two, the usage is that of four units with three loaded, and the cold
reader has lost a unit. -/
theorem failed_adjustment_inconsistent : coldAndHot.Placed ∧ coldAndHot.usage = UInt64.ofNat coldAndHot.sizes ∧
    ∃ mq', mq' = coldAndHot.doAdjustment fewerIOs .bitwise (fun _ => unreadable) 1 20001 ∧
    mq'.queues 3 = [1] ∧ mq'.unitsOf 1 = some 2 ∧ mq'.usage = 4 ∧ mq'.sizes = 3 ∧
    coldAndHot.unitsOf 0 = some 2 ∧ mq'.unitsOf 0 = some 1 ∧ ¬ coldAndHot.ConsistentAfter 20001 mq' := by
  refine ⟨coldAndHot_placed, by decide +kernel, _, rfl, by decide +kernel, by decide +kernel, by decide +kernel,
    by decide +kernel, by decide +kernel, by decide +kernel, fun h => ?_⟩
  exact absurd h.usage_eq (by decide +kernel)

end RallyDB.Util.MultiQueue
