import RallyDB.Util.Lemmas.SweepKinds
import RallyDB.Util.Theorems

/-!
# Main results about the multi container
-/

namespace RallyDB.Util.MultiContainer

/-! ## Which calls keep the charge of the multi container -/

section

open Table Db List TableObject Lib
open Prod (fst snd)

variable {mc mc' : MultiContainer} {kind : SweepKind} {levels numbers : List Nat} {crc : Crc32c} {worth : SSTableWorth}
  {spare : TableObject → Nat} {a : Action}

def loadedBytes (mc : MultiContainer) : Int := mc.sumOver (fun t => t.bfChange) (mc.hashTable.map Prod.snd)

/-- Each table that the sweep may visit can take the whole budget: the units it can still change add up to it. -/
def SweepAffordable (kind : SweepKind) (spare : TableObject → Nat) (levels numbers : List Nat) (mc : MultiContainer)
    (memory : Int) : Prop :=
  ∀ i ∈ numbers, ∀ j ∈ levels, ∀ h ∈ mc.containers (i, j), ∀ p ∈ mc.table h, kind.stop p.1 p.2 = none →
    p.2.unitSize = 0 ∨ (0 < spare p.2 ∧ memory ≤ spare p.2 * p.2.unitSize)

instance (memory : Int) : Decidable (SweepAffordable kind spare levels numbers mc memory) :=
  inferInstanceAs (Decidable (∀ i ∈ numbers, ∀ j ∈ levels, _))

def loadable (t : TableObject) : Nat := kAllFilterUnitsNumber - t.bfNumer

/-- A call that keeps the charge at the size of the loaded units: it erases only tables without units, and a sweep finds and
reads every unit it changes. -/
def KeepsCharge (crc : Crc32c) (worth : SSTableWorth) (mc : MultiContainer) : Action → Prop
  | .erase key => ∀ h ∈ mc.hashTable.lookup key, ∀ p ∈ mc.table h, p.2.bfChange = 0
  | .loadBloomFilter io currentTime nextPeriodTime memory =>
    (∀ p ∈ mc.objects, p.2.Readable crc (io p.1)) ∧
      SweepAffordable (loadKind crc io worth currentTime nextPeriodTime) loadable loadLevels loadNumbers mc memory
  | .evictBloomFilter currentTime memory =>
    SweepAffordable (evictKind currentTime) TableObject.bfNumer evictLevels evictNumbers mc memory
  | _ => True

instance : (a : Action) → Decidable (KeepsCharge crc worth mc a)
  | .erase _ | .loadBloomFilter .. | .evictBloomFilter .. | .insert .. | .lookup _ => by unfold KeepsCharge; infer_instance

/-! ## Sweeps -/

lemma Ok.nodup_registered (hok : mc.Ok) : (mc.hashTable.map snd).Nodup := by
  rw [hok.registered]
  exact hok.handles

lemma loadedBytes_update (hok : mc.Ok) (hhash : mc'.hashTable = mc.hashTable) {hs : List Nat} (hnodup : hs.Nodup)
    (hin : ∀ h ∈ hs, ∃ c t, mc.table h = some (c, t)) {f : Nat → TableObject → TableObject}
    (htables : ∀ h, mc'.table h = if h ∈ hs then (mc.table h).map fun p => (p.1, f p.1.value p.2) else mc.table h)
    {g : TableObject → Int}
    (hg : ∀ h ∈ hs, ∀ c t, mc.table h = some (c, t) → ((f c.value t).bfChange : Int) = t.bfChange + g t) :
    mc'.loadedBytes = mc.loadedBytes + mc.sumOver g hs := by
  have hsub : ∀ h ∈ hs, h ∈ mc.hashTable.map snd := by
    intro h hh
    obtain ⟨c, t, ht⟩ := hin h hh
    rw [hok.registered]
    exact mem_map_of_mem (mem_handles_of_table ht)
  unfold loadedBytes sumOver
  rw [hhash, ← sum_indicator _ hok.nodup_registered hnodup hsub, ← sum_map_add]
  refine congrArg List.sum (map_congr_left fun h _ => ?_)
  rw [htables]
  split_ifs with hh
  · obtain ⟨c, t, ht⟩ := hin h hh
    rw [ht]
    exact hg h hh c t ht
  · rw [add_zero]

lemma sumOver_nonneg (mc : MultiContainer) (hs : List Nat) : 0 ≤ mc.sumOver (fun t => t.unitSize) hs := by
  refine sum_nonneg fun x hx => ?_
  obtain ⟨h, -, rfl⟩ := mem_map.1 hx
  cases mc.table h with
  | none => exact le_rfl
  | some p => exact Int.natCast_nonneg _

variable {t : TableObject}

lemma unitSize_le_sumOver {hs : List Nat} {h : Nat} {c : ContainerHandle} (hh : h ∈ hs)
    (ht : mc.table h = some (c, t)) : (t.unitSize : Int) ≤ mc.sumOver (fun t => t.unitSize) hs := by
  have hperm := ((perm_cons_erase hh).map fun h => ((mc.table h).map fun p => (p.2.unitSize : Int)).getD 0).sum_eq
  have hsplit : mc.sumOver (fun t => t.unitSize) hs = t.unitSize + mc.sumOver (fun t => t.unitSize) (hs.erase h) := by
    unfold sumOver
    rw [hperm, map_cons, sum_cons, ht]
    rfl
  have := mc.sumOver_nonneg (hs.erase h)
  omega

structure SweepKind.Charges (kind : SweepKind) (spare : TableObject → Nat) (P : Nat → TableObject → Prop) : Prop where
  change : ∀ c t, P c.value t → t.InRange → kind.stop c t = none → 0 < spare t →
    ((kind.update c.value t).bfChange : Int) = t.bfChange + kind.charge t ∧ spare (kind.update c.value t) + 1 = spare t
  unitSize : ∀ v t, (kind.update v t).unitSize = t.unitSize
  charge : ∀ t, t.unitSize = 0 → kind.charge t = 0
  keeps : ∀ v t, P v t → P v (kind.update v t)

structure Spending (kind : SweepKind) (spare : TableObject → Nat) (P : Nat → TableObject → Prop)
    (levels numbers : List Nat) (s : Sweep) : Prop where
  ok : s.container.Ok
  charge : s.container.charger = s.container.loadedBytes
  affordable : SweepAffordable kind spare levels numbers s.container s.memory
  tables : ∀ h c t, s.container.table h = some (c, t) → P c.value t

variable {P : Nat → TableObject → Prop}

lemma SweepKind.Charges.bfChange_of_affordable (hk : kind.Charges spare P) {c : ContainerHandle}
    (hP : P c.value t) (ht : t.InRange) (hstop : kind.stop c t = none) (h : t.unitSize = 0 ∨ 0 < spare t) :
    ((kind.update c.value t).bfChange : Int) = t.bfChange + kind.charge t := by
  rcases h with hzero | hpos
  · rw [bfChange_eq, bfChange_eq, hk.unitSize c.value t, hzero, hk.charge t hzero]
    simp
  · exact (hk.change c t hP ht hstop hpos).1

lemma Spending.visit (hkind : kind.Sound) (hk : kind.Charges spare P) {i j : Nat} (hi : i ∈ numbers)
    (hj : j ∈ levels) (hn : kind.next i ≤ kAllFilterUnitsNumber) {s : Sweep} (hs : Spending kind spare P levels numbers s) :
    (((containerVisit kind).run i j s).sweep.container.Ok ∧ ((containerVisit kind).run i j s).sweep.container.charger =
    ((containerVisit kind).run i j s).sweep.container.loadedBytes) ∧
    (((containerVisit kind).run i j s).returnFlag = false →
    Spending kind spare P levels numbers ((containerVisit kind).run i j s).sweep) := by
  have hv := containerVisit_visited hkind hs.ok j hn
  set r := (containerVisit kind).run i j s with hr
  have hin : ∀ h ∈ r.moved, ∃ c t, s.container.table h = some (c, t) := by
    intro h hh
    obtain ⟨c, t, ht, -⟩ := hv.reached h hh
    exact ⟨c, t, ht⟩
  have hmoved : ∀ h ∈ r.moved, ∀ c t, s.container.table h = some (c, t) → kind.stop c t = none ∧
      (t.unitSize = 0 ∨ (0 < spare t ∧ s.memory ≤ spare t * t.unitSize)) := by
    intro h hh c t ht
    obtain ⟨c', t', ht', hstop⟩ := hv.reached h hh
    cases ht.symm.trans ht'
    exact ⟨hstop, hs.affordable i hi j hj h (hv.listed h hh) (c, t) ht hstop⟩
  have hcharge : r.sweep.container.charger = r.sweep.container.loadedBytes := by
    rw [hv.charger, hs.charge]
    refine (loadedBytes_update hs.ok hv.hashTable hv.nodup hin hv.tables fun h hh c t ht => ?_).symm
    obtain ⟨hstop, hafford⟩ := hmoved h hh c t ht
    exact hk.bfChange_of_affordable (hs.tables h c t ht) (hs.ok.inRange_of_table ht) hstop (hafford.imp_right And.left)
  refine ⟨⟨hv.ok, hcharge⟩, fun hret => ⟨hv.ok, hcharge, ?_, ?_⟩⟩
  · rw [hv.returnFlag, decide_eq_false_iff_not, not_le] at hret
    have hmem := hv.memory
    intro i' hi' j' hj' h hh p hp hstop
    obtain ⟨c, t⟩ := p
    have htable : r.sweep.container.table h = some (c, t) := hp
    rw [hv.tables] at htable
    split_ifs at htable with hm
    · obtain ⟨⟨c0, t0⟩, ht0, he⟩ := Option.map_eq_some_iff.1 htable
      cases he
      obtain ⟨hstop0, hafford⟩ := hmoved h hm c0 t0 ht0
      have hsize := hk.unitSize c0.value t0
      rcases hafford with hzero | ⟨hpos, hbudget⟩
      · exact .inl (hsize.trans hzero)
      · right
        have hspare := (hk.change c0 t0 (hs.tables h c0 t0 ht0) (hs.ok.inRange_of_table ht0) hstop0 hpos).2
        have hle := unitSize_le_sumOver hm ht0
        have hrest : r.sweep.memory ≤ spare (kind.update c0.value t0) * t0.unitSize := by
          have hmul : (spare t0 : Int) * t0.unitSize = spare (kind.update c0.value t0) * t0.unitSize + t0.unitSize := by
            rw [← hspare]
            push_cast
            ring
          omega
        refine ⟨?_, by rw [hsize]; exact hrest⟩
        -- there is memory left, so there is a unit left
        by_contra hno
        rw [Nat.eq_zero_of_not_pos hno] at hrest
        omega
    · have hold : h ∈ s.container.containers (i', j') := by
        rw [← count_pos_iff, ← count_relinkAll_of_not_mem hm, ← hv.containers, count_pos_iff]
        exact hh
      have hnonneg := s.container.sumOver_nonneg r.moved
      refine (hs.affordable i' hi' j' hj' h hold (c, t) htable hstop).imp_right fun ⟨hpos, hbudget⟩ => ⟨hpos, ?_⟩
      omega
  · intro h c t ht
    rw [hv.tables] at ht
    split_ifs at ht with hm
    · obtain ⟨⟨c0, t0⟩, ht0, he⟩ := Option.map_eq_some_iff.1 ht
      cases he
      exact hk.keeps _ _ (hs.tables h c0 t0 ht0)
    · exact hs.tables h c t ht

lemma sweep_charge (hkind : kind.Sound) (hk : kind.Charges spare P)
    (hnext : ∀ i ∈ numbers, kind.next i ≤ kAllFilterUnitsNumber) {memory : Int}
    (hs : Spending kind spare P levels numbers ⟨mc, 0, memory⟩) :
    (sweep (containerVisit kind) levels numbers ⟨mc, 0, memory⟩).container.Ok ∧
    (sweep (containerVisit kind) levels numbers ⟨mc, 0, memory⟩).container.charger =
    (sweep (containerVisit kind) levels numbers ⟨mc, 0, memory⟩).container.loadedBytes :=
  sweep_rule (I := Spending kind spare P levels numbers)
    (E := fun s => s.container.Ok ∧ s.container.charger = s.container.loadedBytes)
    (fun i hi _ hj _ hs => hs.visit hkind hk hi hj (hnext i hi)) (fun _ hs => ⟨hs.ok, hs.charge⟩)
    (fun _ hs => ⟨hs.ok, hs.charge, hs.affordable, hs.tables⟩) hs

lemma loadKind_charges {io : Nat → RandomAccessFile} {now next : Nat} :
    (loadKind crc io worth now next).Charges loadable fun v t => t.Readable crc (io v) where
  change c t hread ht hstop hpos := by
    have hreader := reader_of_hot (hot_of_load hstop)
    have hlt : t.bfNumer < kAllFilterUnitsNumber := by
      unfold loadable at hpos
      omega
    have hn : ((loadKind crc io worth now next).update c.value t).bfNumer = t.bfNumer + 1 :=
      bfNumer_loadBloomFilter ht hread hreader hlt
    have hsize : ((loadKind crc io worth now next).update c.value t).unitSize = t.unitSize :=
      unitSize_loadBloomFilter
    constructor
    · rw [bfChange_eq, bfChange_eq, hn, hsize]
      simp only [loadKind]
      push_cast
      ring
    · unfold loadable
      omega
  unitSize _ _ := unitSize_loadBloomFilter
  charge t ht := by simp [loadKind, ht]
  keeps _ _ hread := hread.loadBloomFilter

lemma evictKind_charges {now : Nat} : (evictKind now).Charges bfNumer fun _ _ => True where
  change c t _ _ _ hpos := by
    have hn : ((evictKind now).update c.value t).bfNumer = t.bfNumer - 1 := bfNumer_evictBloomFilter hpos
    have hsize : ((evictKind now).update c.value t).unitSize = t.unitSize := unitSize_evictBloomFilter
    obtain ⟨n, he⟩ : ∃ n, t.bfNumer = n + 1 := ⟨t.bfNumer - 1, by omega⟩
    constructor
    · rw [bfChange_eq, bfChange_eq, hn, hsize, he]
      simp only [evictKind, Nat.add_sub_cancel]
      push_cast
      ring
    · omega
  unitSize _ _ := unitSize_evictBloomFilter
  charge t ht := by simp [evictKind, ht]
  keeps _ _ _ := trivial

lemma loadedBytes_insert {key : Slice} {level : Nat} (hok : mc.Ok) (hkey : mc.hashTable.lookup key = none) :
    ((mc.newObject t).insert key level mc.nextAddress).loadedBytes = mc.loadedBytes + t.bfChange := by
  rw [insert_eq hok hkey]
  set mc' : MultiContainer :=
    { objects := (mc.nextAddress, t) :: mc.objects
      handles := (mc.nextAddress + 1, ⟨mc.nextAddress, level, t.bfNumer⟩) :: mc.handles
      containers := push mc.containers (t.bfNumer, level) (mc.nextAddress + 1)
      hashTable := (key, mc.nextAddress + 1) :: mc.hashTable
      charger := mc.charger + t.bfChange
      nextAddress := mc.nextAddress + 2 } with hmc'
  have hnew : mc'.table (mc.nextAddress + 1) = some (⟨mc.nextAddress, level, t.bfNumer⟩, t) := by
    rw [table_eq_some, hmc']
    exact ⟨lookup_cons_self, lookup_cons_self⟩
  have hold : ∀ h ∈ mc.hashTable.map snd, mc'.table h = mc.table h := by
    intro h hh
    rw [hok.registered] at hh
    obtain ⟨⟨h, c⟩, hc, rfl⟩ := mem_map.1 hh
    have hlt := hok.unusedHandle _ (mem_map_of_mem hc)
    have hvalue := hok.unusedObject _ (hok.inMemory _ hc)
    dsimp only at hlt hvalue
    unfold table
    rw [hmc']
    dsimp only
    rw [lookup_cons_ne (by omega), lookup_of_mem hok.handles hc, Option.bind_some, Option.bind_some,
      lookup_cons_ne (by omega)]
  have hlist : mc'.hashTable.map snd = (mc.nextAddress + 1) :: mc.hashTable.map snd := rfl
  rw [loadedBytes, hlist, sumOver_cons hnew, sumOver_congr hold, add_comm]
  rfl

lemma loadedBytes_erase {key : Slice} (hok : mc.Ok)
    (hk : ∀ h ∈ mc.hashTable.lookup key, ∀ p ∈ mc.table h, p.2.bfChange = 0) :
    (mc.erase key).loadedBytes = mc.loadedBytes := by
  cases hl : mc.hashTable.lookup key with
  | none => rw [erase_of_none hl]
  | some h =>
    obtain ⟨c, hc⟩ := hok.lookup_some hl
    obtain ⟨t, ht⟩ := hok.table_of_mem hc
    rw [erase_eq hl]
    set mc' : MultiContainer :=
      { mc with
        handles := remove mc.handles h
        containers := unlink mc.containers h
        hashTable := remove mc.hashTable key } with hmc'
    have hlist : mc'.hashTable.map snd = (remove mc.handles h).map fst :=
      map_remove_eq hok.keys hok.nodup_registered hok.registered (mem_of_lookup hl)
    have hold : ∀ k ∈ mc'.hashTable.map snd, mc'.table k = mc.table k := by
      intro k hk
      rw [hlist] at hk
      have hne : k ≠ h := by
        rintro rfl
        simp [remove] at hk
      unfold table
      rw [hmc']
      dsimp only
      rw [lookup_remove, if_neg hne]
    have htotal := total_remove (fun h => ((mc.table h).map fun p => (p.2.bfChange : Int)).getD 0) hok.keys hl
    rw [ht, Option.map_some, Option.getD_some, hk h hl (c, t) ht, Nat.cast_zero, add_zero] at htotal
    rw [loadedBytes, sumOver_congr hold]
    unfold loadedBytes sumOver
    rw [map_map, map_map]
    exact htotal

lemma step_charge (hs : mc.Ok ∧ mc.charger = mc.loadedBytes) (hc : mc.KeepsCharge crc worth a)
    (hstep : mc.step crc worth a = some mc') : mc'.Ok ∧ mc'.charger = mc'.loadedBytes := by
  obtain ⟨hok, he⟩ := hs
  unfold step at hstep
  split_ifs at hstep with hen
  cases hstep
  cases a with
  | insert key level table =>
    refine ⟨hok.insert hen.1 hen.2.2, ?_⟩
    rw [apply, loadedBytes_insert hok hen.1, insert_eq hok hen.1, ← he]
  | lookup key =>
    refine ⟨hok.lookup key, ?_⟩
    cases hl : mc.hashTable.lookup key with
    | none =>
      rw [apply, lookup_of_none hl]
      exact he
    | some h =>
      obtain ⟨c, hc⟩ := hok.lookup_some hl
      rw [apply, lookup_eq hl (lookup_of_mem hok.handles hc)]
      exact he
  | erase key =>
    refine ⟨hok.erase key, ?_⟩
    have hcharger : (mc.erase key).charger = mc.charger := by
      unfold erase
      split <;> rfl
    rw [apply, loadedBytes_erase hok hc, hcharger, he]
  | loadBloomFilter io now next memory =>
    refine sweep_charge loadKind_sound loadKind_charges (fun i hi => mem_range.1 hi) ⟨hok, he, hc.2, ?_⟩
    exact fun h c t ht => hc.1 _ (mem_of_lookup (table_eq_some.1 ht).2)
  | evictBloomFilter now memory =>
    refine sweep_charge evictKind_sound evictKind_charges (fun i hi => ?_) ⟨hok, he, hc, fun _ _ _ _ => trivial⟩
    exact (Nat.sub_le i 1).trans (mem_evictNumbers hi).2

end

/-! ## Which calls keep the handles in the lists of their tables -/

section

open Table Db List Lib

variable {mc mc' : MultiContainer} {kind : SweepKind} {levels numbers : List Nat} {crc : Crc32c} {worth : SSTableWorth}
  {a : Action}

def WellPlaced (mc : MultiContainer) : Prop :=
  ∀ p ∈ mc.hashTable, ∃ c t, mc.table p.2 = some (c, t) ∧ Lib.LinkedAt mc.containers p.2 (t.bfNumer, c.level) ∧
    ∀ h c', (h, c') ∈ mc.handles → c'.value = c.value → h = p.2

def Placed (mc : MultiContainer) : Prop :=
  ∀ h c t, mc.table h = some (c, t) → Lib.LinkedAt mc.containers h (t.bfNumer, c.level)

/-- The evict sweep meets no table without a reader. -/
theorem Placed.reader_isSome (hp : mc.Placed) {c : ContainerHandle} {t : TableObject} {h i j : Nat} (hi : i ∈ evictNumbers)
    (hh : h ∈ mc.containers (i, j)) (ht : mc.table h = some (c, t)) : t.reader.isSome = true := by
  obtain ⟨rfl, -⟩ := Prod.mk.inj ((hp h c t ht).mem_iff.1 hh)
  have hpos := (mem_evictNumbers hi).1
  cases hr : t.reader with
  | none => simp [TableObject.bfNumer, hr] at hpos
  | some r => rfl

def SweepAligned (kind : SweepKind) (levels numbers : List Nat) (mc : MultiContainer) (memory : Int) : Prop :=
  ∀ i ∈ numbers, ∀ j ∈ levels, (kind.order (mc.containers (i, j))).takeWhile (eligible kind mc) = [] ∨
      (j = kind.next i ∧ memory ≤ mc.sumOver (fun t => t.unitSize)
        ((kind.order (mc.containers (i, j))).takeWhile (eligible kind mc)))

instance (memory : Int) : Decidable (SweepAligned kind levels numbers mc memory) :=
  inferInstanceAs (Decidable (∀ i ∈ numbers, ∀ j ∈ levels, _))

def ReadsSucceed (crc : Crc32c) (mc : MultiContainer) : Action → Prop
  | .loadBloomFilter io _ _ _ => ∀ p ∈ mc.objects, p.2.Readable crc (io p.1)
  | _ => True

instance : (a : Action) → Decidable (ReadsSucceed crc mc a)
  | .loadBloomFilter .. | .insert .. | .lookup _ | .erase _ | .evictBloomFilter .. => by unfold ReadsSucceed; infer_instance

/-- A call that leaves every table in the list of its number of units. -/
def KeepsLists (crc : Crc32c) (worth : SSTableWorth) (mc : MultiContainer) : Action → Prop
  | .lookup key => ∀ h ∈ mc.hashTable.lookup key, ∀ p ∈ mc.table h, p.1.bfNumber = p.2.bfNumer
  | .loadBloomFilter io currentTime nextPeriodTime memory =>
    SweepAligned (loadKind crc io worth currentTime nextPeriodTime) loadLevels loadNumbers mc memory
  | .evictBloomFilter currentTime memory => SweepAligned (evictKind currentTime) evictLevels evictNumbers mc memory
  | _ => True

instance : (a : Action) → Decidable (KeepsLists crc worth mc a)
  | .lookup _ | .loadBloomFilter .. | .evictBloomFilter .. | .insert .. | .erase _ => by unfold KeepsLists; infer_instance

lemma Ok.wellPlaced (hok : mc.Ok) (hp : mc.Placed) : mc.WellPlaced := by
  intro p hmem
  obtain ⟨c, hc⟩ := hok.mem_of_registered hmem
  obtain ⟨t, ht⟩ := hok.table_of_mem hc
  exact ⟨c, t, ht, hp _ _ _ ht, fun h c' hc' hv => hok.value_inj hc' hc hv⟩

/-! ## Sweeps -/

lemma Visited.placed_of_idle {i j n : Nat} {s : Sweep} {r : SweepResult} (hv : Visited kind i j n s r)
    (hm : r.moved = []) (hp : s.container.Placed) (ha : SweepAligned kind levels numbers s.container s.memory) :
    r.sweep.container.Placed ∧ SweepAligned kind levels numbers r.sweep.container r.sweep.memory := by
  obtain ⟨hc, hmem, ht⟩ := hv.of_moved_nil hm
  have helig : eligible kind r.sweep.container = eligible kind s.container := by
    funext h
    rw [eligible, ht, eligible]
  unfold Placed SweepAligned
  simp only [hc, hmem, ht, helig, sumOver_congr fun h _ => ht h]
  exact ⟨hp, ha⟩

lemma Visited.placed_of_diagonal {i j : Nat} {s : Sweep} {r : SweepResult} (hv : Visited kind i j (kind.next i) s r)
    (hok : s.container.Ok) (hp : s.container.Placed) (hj : j = kind.next i)
    (hupd : ∀ h ∈ r.moved, ∀ c t, s.container.table h = some (c, t) → t.bfNumer = i → kind.stop c t = none →
    (kind.update c.value t).bfNumer = kind.next i) : r.sweep.container.Placed := by
  intro h c t ht
  rw [hv.tables] at ht
  rw [hv.containers]
  split_ifs at ht with hmoved
  · obtain ⟨⟨c0, t0⟩, ht0, he⟩ := Option.map_eq_some_iff.1 ht
    cases he
    obtain ⟨c', t', ht', hstop⟩ := hv.reached h hmoved
    cases ht0.symm.trans ht'
    -- the list visited is the one of the old number of units
    obtain ⟨hi, hl⟩ := Prod.mk.inj ((hp h c0 t0 ht0).mem_iff.1 (hv.listed h hmoved))
    have hlevel : s.container.levelOf h = c0.level := by
      rw [levelOf, (table_eq_some.1 ht0).1]
      rfl
    have hlinked := linkedAt_relinkAll hv.nodup hmoved (hok.atMostOnce h)
      (f := fun h => (s.container.levelOf h, kind.next i))
    rw [hlevel] at hlinked
    rw [hupd h hmoved c0 t0 ht0 hi.symm hstop]
    have hdiag : (c0.level, kind.next i) = (kind.next i, c0.level) := by rw [← hl, hj]
    rw [← hdiag]
    exact hlinked
  · intro p
    rw [count_relinkAll_of_not_mem hmoved]
    exact hp h c t ht p

variable {memory : Int}

lemma sweep_placed (hkind : kind.Sound) (hnext : ∀ i ∈ numbers, kind.next i ≤ kAllFilterUnitsNumber)
    {P : Nat → TableObject → Prop}
    (hupd : ∀ i ∈ numbers, ∀ c t, P c.value t → t.InRange → t.bfNumer = i → kind.stop c t = none →
    (kind.update c.value t).bfNumer = kind.next i)
    (hok : mc.Ok) (hp : mc.Placed) (hP : ∀ h c t, mc.table h = some (c, t) → P c.value t)
    (ha : SweepAligned kind levels numbers mc memory) :
    (sweep (containerVisit kind) levels numbers ⟨mc, 0, memory⟩).container.Ok ∧
    (sweep (containerVisit kind) levels numbers ⟨mc, 0, memory⟩).container.Placed := by
  refine sweep_rule
    (I := fun s => (s.container.Ok ∧ s.container.Placed) ∧ SweepAligned kind levels numbers s.container s.memory ∧
      ∀ h c t, s.container.table h = some (c, t) → P c.value t)
    (E := fun s => s.container.Ok ∧ s.container.Placed) ?_ (fun s hs => hs.1) (fun s hs => hs) ⟨⟨hok, hp⟩, ha, hP⟩
  rintro i hi j hj s ⟨⟨hok, hp⟩, ha, hP⟩
  have hv := containerVisit_visited hkind hok j (hnext i hi)
  rcases ha i hi j hj with hnil | ⟨hdiag, hbudget⟩
  · have hm : ((containerVisit kind).run i j s).moved = [] := by
      have := hv.initial
      rw [hnil] at this
      exact prefix_nil.1 this
    obtain ⟨hp', ha'⟩ := hv.placed_of_idle hm hp ha
    refine ⟨⟨hv.ok, hp'⟩, fun _ => ⟨⟨hv.ok, hp'⟩, ha', ?_⟩⟩
    intro h c t ht
    rw [(hv.of_moved_nil hm).2.2] at ht
    exact hP h c t ht
  · refine ⟨⟨hv.ok, hv.placed_of_diagonal hok hp hdiag fun h _ c t ht hn hstop =>
      hupd i hi c t (hP h c t ht) (hok.inRange_of_table ht) hn hstop⟩, fun hret => ?_⟩
    -- with memory left all tables of the list were changed, but these use it up
    rw [hv.returnFlag, decide_eq_false_iff_not, not_le] at hret
    have hmem := hv.memory
    rw [hv.all hret] at hmem
    omega

lemma loadBloomFilter_placed {io : Nat → RandomAccessFile} {now next : Nat} (hok : mc.Ok)
    (hp : mc.Placed) (hread : ∀ p ∈ mc.objects, p.2.Readable crc (io p.1))
    (ha : SweepAligned (loadKind crc io worth now next) loadLevels loadNumbers mc memory) :
    (mc.loadBloomFilter crc io worth now next memory).Ok ∧ (mc.loadBloomFilter crc io worth now next memory).Placed := by
  have hlt : ∀ i ∈ loadNumbers, i < kAllFilterUnitsNumber := fun i hi => mem_range.1 hi
  refine sweep_placed (P := fun v t => t.Readable crc (io v)) loadKind_sound hlt ?_ hok hp ?_ ha
  · intro i hi c t hread ht hn hstop
    subst hn
    exact TableObject.bfNumer_loadBloomFilter ht hread (TableObject.reader_of_hot (hot_of_load hstop)) (hlt _ hi)
  · exact fun h c t ht => hread _ (mem_of_lookup (table_eq_some.1 ht).2)

lemma evictBloomFilter_placed {now : Nat} (hok : mc.Ok) (hp : mc.Placed)
    (ha : SweepAligned (evictKind now) evictLevels evictNumbers mc memory) :
    (mc.evictBloomFilter now memory).Ok ∧ (mc.evictBloomFilter now memory).Placed := by
  refine sweep_placed (P := fun _ _ => True) evictKind_sound (fun i hi => ?_) ?_ hok hp (fun _ _ _ _ => trivial) ha
  · exact (Nat.sub_le i 1).trans (mem_evictNumbers hi).2
  · intro i hi c t _ _ hn _
    subst hn
    exact TableObject.bfNumer_evictBloomFilter (by have := mem_evictNumbers hi; omega)

variable {key : Slice}

lemma Placed.insert {level : Nat} {t : TableObject} (hok : mc.Ok) (hp : mc.Placed)
    (hkey : mc.hashTable.lookup key = none) : ((mc.newObject t).insert key level mc.nextAddress).Placed := by
  rw [insert_eq hok hkey]
  intro h c t' ht
  obtain ⟨hc, hobj⟩ := table_eq_some.1 ht
  dsimp only at hc hobj ⊢
  by_cases hh : h = mc.nextAddress + 1
  · subst hh
    rw [lookup_cons_self] at hc
    cases hc
    rw [lookup_cons_self] at hobj
    cases hobj
    refine Lib.Unlinked.push ((hok.linked _).2 fun hmem => ?_) _
    have := hok.unusedHandle _ hmem
    omega
  · rw [lookup_cons_ne hh] at hc
    have hmem := hok.unusedObject _ (hok.inMemory _ (mem_of_lookup hc))
    rw [lookup_cons_ne (ne_of_lt hmem)] at hobj
    intro p
    rw [count_push_ne hh]
    exact hp h c t' (table_eq_some.2 ⟨hc, hobj⟩) p

lemma Placed.lookup (hok : mc.Ok) (hp : mc.Placed)
    (hk : ∀ h ∈ mc.hashTable.lookup key, ∀ p ∈ mc.table h, p.1.bfNumber = p.2.bfNumer) : (mc.lookup key).1.Placed := by
  cases hl : mc.hashTable.lookup key with
  | none =>
    rw [lookup_of_none hl]
    exact hp
  | some h =>
    obtain ⟨c, hc⟩ := hok.lookup_some hl
    obtain ⟨t, ht⟩ := hok.table_of_mem hc
    rw [lookup_eq hl (lookup_of_mem hok.handles hc)]
    intro k c' t' ht'
    have htable : mc.table k = some (c', t') := ht'
    by_cases hkh : k = h
    · subst hkh
      cases ht.symm.trans htable
      rw [← hk k hl (c, t) ht]
      exact (hok.atMostOnce k).relink _
    · intro p
      rw [count_relink_ne hkh]
      exact hp k c' t' htable p

lemma Placed.erase (hp : mc.Placed) : (mc.erase key).Placed := by
  cases hl : mc.hashTable.lookup key with
  | none =>
    rw [erase_of_none hl]
    exact hp
  | some h =>
    rw [erase_eq hl]
    intro k c t ht
    obtain ⟨hc, hobj⟩ := table_eq_some.1 ht
    dsimp only at hc hobj ⊢
    rw [lookup_remove] at hc
    split_ifs at hc with hkh
    intro p
    rw [count_unlink_ne hkh]
    exact hp k c t (table_eq_some.2 ⟨hc, hobj⟩) p

lemma step_placed (hs : mc.Ok ∧ mc.Placed) (hc : mc.ReadsSucceed crc a ∧ mc.KeepsLists crc worth a)
    (hstep : mc.step crc worth a = some mc') : mc'.Ok ∧ mc'.Placed := by
  obtain ⟨hok, hp⟩ := hs
  unfold step at hstep
  split_ifs at hstep with hen
  cases hstep
  cases a with
  | insert key level table => exact ⟨hok.insert hen.1 hen.2.2, hp.insert hok hen.1⟩
  | lookup key => exact ⟨hok.lookup key, hp.lookup hok hc.2⟩
  | erase key => exact ⟨hok.erase key, hp.erase⟩
  | loadBloomFilter io now next memory => exact loadBloomFilter_placed hok hp hc.1 hc.2
  | evictBloomFilter now memory => exact evictBloomFilter_placed hok hp hc.2

end

open Table Lib

def openedTable (sequence : Nat) : TableObject where
  tableId := 0
  bitsPerKey := 4
  reader := some { MultiQueue.unitsReader with sequence := sequence, filterUnits := [[1], [2]] }

def alwaysWorth : SSTableWorth := fun _ _ _ _ => true

abbrev sampleStep : MultiContainer → Action → Option MultiContainer := step .bitwise alwaysWorth

def load (currentTime : Nat) (memory : Int) : Action :=
  .loadBloomFilter (fun _ => MultiQueue.unitsFile) currentTime 0 memory

/-- A table of level 0 that gets a third unit goes to the list of no units and level 3. -/
theorem loaded_handle_misplaced :
    StepsMeet sampleStep (fun mc a => mc.ReadsSucceed .bitwise a) .new [.insert [1] 0 (openedTable 0), load 5 1] ∧
    ∃ mc, run sampleStep .new [.insert [1] 0 (openedTable 0), load 5 1] = some mc ∧ ¬ mc.WellPlaced := by
  refine ⟨by decide +kernel, ?_⟩
  obtain ⟨mc, hrun, hmap, htable, hcount⟩ : ∃ mc,
      run sampleStep .new [.insert [1] 0 (openedTable 0), load 5 1] = some mc ∧ mc.hashTable = [([1], 1)] ∧
        (mc.table 1).map (fun p => (p.2.bfNumer, p.1.level)) = some (3, 0) ∧ (mc.containers (0, 3)).count 1 = 1 :=
    exists_run (by decide +kernel)
  refine ⟨mc, hrun, fun hw => ?_⟩
  obtain ⟨c, t, ht, hl, -⟩ := hw ([1], 1) (by simp [hmap])
  have hplace : (t.bfNumer, c.level) = (3, 0) := by simpa [ht] using htable
  have hthree := hl (0, 3)
  rw [hcount, hplace] at hthree
  cases hthree

/-- In a run whose sweeps change tables of one diagonal list and whose lookups find handles that know their units,
every registered table has one handle, in the one list of its units and level. -/
theorem wellPlaced_of_aligned (crc : Crc32c) (worth : SSTableWorth) (as : List Action) (mc : MultiContainer)
    (hc : StepsMeet (step crc worth) (fun mc a => mc.ReadsSucceed crc a ∧ mc.KeepsLists crc worth a) .new as)
    (hr : run (step crc worth) .new as = some mc) : mc.WellPlaced := by
  have hnew : MultiContainer.new.Placed := fun h c t ht => by cases ht
  obtain ⟨hok, hp⟩ := run_invariant (I := fun mc => mc.Ok ∧ mc.Placed) (fun _ _ _ hs hc hstep => step_placed hs hc hstep)
    ⟨ok_new, hnew⟩ hc hr
  exact hok.wellPlaced hp

def alignedRun : List Action :=
  [.insert [1] 3 (openedTable 1000000), .lookup [1], load 5 1, .insert [2] 1 (openedTable 0),
    .evictBloomFilter 900000 1, .insert [3] 0 (openedTable 7), .erase [3]]

theorem wellPlaced_of_aligned_sample :
    ∃ mc, run sampleStep .new alignedRun = some mc ∧ mc.WellPlaced ∧ mc.containers (3, 3) = [1] ∧
    mc.containers (1, 1) = [3] := by
  obtain ⟨mc, hr, hlists⟩ : ∃ mc, run sampleStep .new alignedRun = some mc ∧
      mc.containers (3, 3) = [1] ∧ mc.containers (1, 1) = [3] := exists_run (by decide +kernel)
  have hmeet : StepsMeet sampleStep
      (fun mc a => mc.ReadsSucceed .bitwise a ∧ mc.KeepsLists .bitwise alwaysWorth a) .new alignedRun := by
    decide +kernel
  exact ⟨mc, hr, wellPlaced_of_aligned .bitwise alwaysWorth alignedRun mc hmeet hr, hlists⟩

/-- A table that is erased stays charged, and so does a load of units that the table does not have. -/
theorem charge_drifts : (∃ mc, run sampleStep .new [.insert [1] 0 (openedTable 0), .erase [1]] = some mc ∧
    mc.totalCharge = 2 ∧ mc.loadedBytes = 0) ∧
    ∃ mc, run sampleStep .new [.insert [1] 0 (openedTable 0), load 5 100] = some mc ∧
    mc.totalCharge = 102 ∧ mc.loadedBytes = 6 :=
  ⟨exists_run (by decide +kernel), exists_run (by decide +kernel)⟩

/-- In a run that erases only tables without loaded units, and in which each table that a sweep may change has units
for the whole budget, the charge is that of the loaded units of the registered tables. -/
theorem totalCharge_eq_loadedBytes (crc : Crc32c) (worth : SSTableWorth) (as : List Action) (mc : MultiContainer)
    (hc : StepsMeet (step crc worth) (fun mc a => mc.KeepsCharge crc worth a) .new as)
    (hr : run (step crc worth) .new as = some mc) : mc.totalCharge = mc.loadedBytes := by
  obtain ⟨-, he⟩ := run_invariant (I := fun mc => mc.Ok ∧ mc.charger = mc.loadedBytes)
    (fun _ _ _ hs hc hstep => step_charge hs hc hstep) ⟨ok_new, rfl⟩ hc hr
  exact he

def affordableRun : List Action :=
  [.insert [1] 3 (openedTable 1000000), .insert [2] 0 (openedTable 1000000), load 5 3, .lookup [1],
    .insert [3] 2 (openedTable 0), .evictBloomFilter 900000 2, .insert [4] 0 ⟨9, 4, none⟩, .erase [4]]

theorem totalCharge_eq_loadedBytes_sample :
    ∃ mc, run sampleStep .new affordableRun = some mc ∧ mc.totalCharge = mc.loadedBytes ∧ mc.totalCharge = 7 := by
  obtain ⟨mc, hr, hcharge⟩ : ∃ mc, run sampleStep .new affordableRun = some mc ∧ mc.totalCharge = 7 :=
    exists_run (by decide +kernel)
  have hmeet : StepsMeet sampleStep (fun mc a => mc.KeepsCharge .bitwise alwaysWorth a) .new affordableRun := by
    decide +kernel
  exact ⟨mc, hr, totalCharge_eq_loadedBytes .bitwise alwaysWorth affordableRun mc hmeet hr, hcharge⟩

end RallyDB.Util.MultiContainer
