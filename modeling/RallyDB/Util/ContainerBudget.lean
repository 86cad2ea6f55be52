import RallyDB.Util.ContainerTheorems

/-!
# The budget of a sweep
-/

namespace RallyDB.Util.MultiContainer

open Table Lib

variable {mc : MultiContainer} {kind : SweepKind} {s : Sweep} {sign : Int} {h bound : Nat} {c : ContainerHandle} {t : TableObject}
  {levels numbers : List Nat}

def sweepPasses (visit : Visit) (levels numbers : List Nat) : Nat → Sweep → Option Sweep
  | 0, _ => none
  | n + 1, s =>
    let r := sweepNumbers visit levels numbers { s with allSize := 0 }
    if r.2 then some r.1
    else if 0 < r.1.memory ∧ r.1.allSize ≠ 0 then sweepPasses visit levels numbers n r.1
    else some r.1

lemma sweepPasses_eq {visit : Visit} {n : Nat} (hn : s.memory.toNat < n) :
    sweepPasses visit levels numbers n s = some (sweep visit levels numbers s) := by
  induction n generalizing s with
  | zero => exact absurd hn (Nat.not_lt_zero _)
  | succ n ih =>
    have hbalanced := sweepNumbers_balanced visit levels numbers { s with allSize := 0 }
    rw [sweep, sweepPasses]
    dsimp only at hbalanced ⊢
    generalize sweepNumbers visit levels numbers { s with allSize := 0 } = r at hbalanced ⊢
    by_cases hret : r.2 = true
    · rw [if_pos hret, if_pos hret]
    · rw [if_neg hret, if_neg hret]
      by_cases hmore : 0 < r.1.memory ∧ r.1.allSize ≠ 0
      · rw [if_pos hmore, if_pos hmore]
        exact ih (by omega)
      · rw [if_neg hmore, if_neg hmore]

/-! ## The invariant of a sweep -/

def unitSizeOf (mc : MultiContainer) (h : Nat) : Nat := ((mc.table h).map fun p => p.2.unitSize).getD 0

def largestUnitSize (mc : MultiContainer) : Nat := (mc.handles.map fun p => mc.unitSizeOf p.1).foldr max 0

def UnitsAtMost (bound : Nat) (mc : MultiContainer) : Prop := ∀ h c t, mc.table h = some (c, t) → t.unitSize ≤ bound

lemma unitsAtMost_largestUnitSize (mc : MultiContainer) : mc.UnitsAtMost mc.largestUnitSize := by
  intro h c t ht
  have hsize : mc.unitSizeOf h = t.unitSize := by
    rw [unitSizeOf, ht]
    rfl
  rw [← hsize]
  exact List.le_max_of_le' 0 (List.mem_map.2 ⟨(h, c), mem_handles_of_table ht, rfl⟩) le_rfl

structure SweepKind.ChargesUnits (kind : SweepKind) (sign : Int) : Prop where
  unitSize : ∀ v t, (kind.update v t).unitSize = t.unitSize
  charge : ∀ t, kind.charge t = sign * t.unitSize

structure Budgeted (sign total : Int) (bound : Nat) (s : Sweep) : Prop where
  units : s.container.UnitsAtMost bound
  charged : s.container.charger + sign * s.memory = total
  overdrawn : -bound < s.memory

lemma UnitsAtMost.touch (hk : kind.ChargesUnits sign) (hu : s.container.UnitsAtMost bound) :
    (s.touch kind c t).container.UnitsAtMost bound := by
  intro h' c' t' ht'
  have hmod : (s.container.modifyObject c.value (kind.update c.value)).table h' = some (c', t') := ht'
  rw [table_modifyObject] at hmod
  obtain ⟨⟨c0, t0⟩, ht0, he⟩ := Option.map_eq_some_iff.1 hmod
  split_ifs at he with hv
  · cases he
    rw [hk.unitSize]
    exact hu h' c0 t0 ht0
  · cases he
    exact hu h' c' t' ht0

variable {total : Int}

lemma Budgeted.touch (hk : kind.ChargesUnits sign) (hs : Budgeted sign total bound s) (hpos : 0 < s.memory)
    (ht : s.container.table h = some (c, t)) : Budgeted sign total bound (s.touch kind c t) where
  units := hs.units.touch hk
  charged := by
    have hcharged := hs.charged
    simp only [Sweep.touch, hk.charge]
    rw [← hcharged]
    ring
  overdrawn := by
    have hle := hs.units h c t ht
    simp only [Sweep.touch]
    omega

lemma sweepContainer_budgeted (hk : kind.ChargesUnits sign) (l : List Nat) (hs : Budgeted sign total bound s)
    (hpos : 0 < s.memory) : Budgeted sign total bound (sweepContainer kind l s).sweep ∧
    ((sweepContainer kind l s).returnFlag = false → 0 < (sweepContainer kind l s).sweep.memory) := by
  induction l generalizing s with
  | nil => exact ⟨hs, fun _ => hpos⟩
  | cons h l ih =>
    unfold sweepContainer
    cases ht : s.container.table h with
    | none => exact ⟨hs, fun _ => hpos⟩
    | some p =>
      obtain ⟨c, t⟩ := p
      dsimp only
      cases kind.stop c t with
      | some breakFlag => exact ⟨hs, fun _ => hpos⟩
      | none =>
        have htouch := hs.touch hk hpos ht
        dsimp only
        by_cases hle : (s.touch kind c t).memory ≤ 0
        · rw [if_pos hle]
          exact ⟨htouch, fun hret => by cases hret⟩
        · rw [if_neg hle]
          exact ih htouch (not_le.1 hle)

lemma addToContainers_containers (mc : MultiContainer) (hs : List Nat) (n : Nat) :
    ∃ ls, mc.addToContainers hs n = { mc with containers := ls } := by
  unfold addToContainers
  split_ifs
  · exact ⟨_, rfl⟩
  · induction hs generalizing mc with
    | nil => exact ⟨_, rfl⟩
    | cons h hs ih =>
      rw [List.foldl_cons]
      cases mc.handles.lookup h with
      | none => exact ih mc
      | some c =>
        obtain ⟨ls, hls⟩ := ih (mc.addToHead c.level n h)
        exact ⟨ls, hls⟩

lemma Budgeted.relink {r : SweepResult} (hr : Budgeted sign total bound r.sweep) (n : Nat) :
    Budgeted sign total bound (r.relink n).sweep := by
  obtain ⟨ls, hls⟩ := addToContainers_containers (r.sweep.container.removeFromContainers r.moved) r.moved n
  rw [removeFromContainers_eq] at hls
  have hcontainer : (r.relink n).sweep.container = { r.sweep.container with containers := ls } := by
    unfold SweepResult.relink
    dsimp only
    rw [removeFromContainers_eq]
    exact hls
  refine ⟨?_, ?_, hr.overdrawn⟩
  · rw [hcontainer]
    exact hr.units
  · rw [hcontainer]
    exact hr.charged

lemma sweep_budgeted (hk : kind.ChargesUnits sign) (levels numbers : List Nat) (mc : MultiContainer) {memory : Int}
    (hpos : 0 < memory) : Budgeted sign (mc.charger + sign * memory) mc.largestUnitSize
    (sweep (containerVisit kind) levels numbers ⟨mc, 0, memory⟩) := by
  refine sweep_rule (I := fun s => Budgeted sign (mc.charger + sign * memory) mc.largestUnitSize s ∧ 0 < s.memory)
    (fun i _ j _ s hs => ?_) (fun _ hs => hs.1) (fun s hs => ⟨⟨hs.1.units, hs.1.charged, hs.1.overdrawn⟩, hs.2⟩) ?_
  · obtain ⟨hr, hmore⟩ := sweepContainer_budgeted hk (kind.order (s.container.containers (i, j))) hs.1 hs.2
    exact ⟨hr.relink _, fun hret => ⟨hr.relink _, hmore hret⟩⟩
  · exact ⟨⟨mc.unitsAtMost_largestUnitSize, rfl, by dsimp only; omega⟩, hpos⟩

lemma loadKind_chargesUnits (crc : Crc32c) (io : Nat → RandomAccessFile) (worth : SSTableWorth) (now next : Nat) :
    (loadKind crc io worth now next).ChargesUnits 1 where
  unitSize _ _ := TableObject.unitSize_loadBloomFilter
  charge _ := (Int.one_mul _).symm

lemma evictKind_chargesUnits (now : Nat) : (evictKind now).ChargesUnits (-1) where
  unitSize _ _ := TableObject.unitSize_evictBloomFilter
  charge _ := (Int.neg_one_mul _).symm

/-- Both sweeps end after at most as many passes as there is memory, and one; what they charge or discharge is less than the
memory and the largest unit. -/
theorem sweeps_respect_budget (crc : Crc32c) (io : Nat → RandomAccessFile) (worth : SSTableWorth) (mc : MultiContainer)
    (currentTime nextPeriodTime : Nat) (memory : Int) (hpos : 0 < memory) :
    (∃ s, sweepPasses (containerVisit (loadKind crc io worth currentTime nextPeriodTime)) loadLevels loadNumbers
    (memory.toNat + 1) ⟨mc, 0, memory⟩ = some s ∧
    mc.loadBloomFilter crc io worth currentTime nextPeriodTime memory = s.container ∧
    s.container.charger - mc.charger < memory + mc.largestUnitSize) ∧
    ∃ s, sweepPasses (containerVisit (evictKind currentTime)) evictLevels evictNumbers
    (memory.toNat + 1) ⟨mc, 0, memory⟩ = some s ∧ mc.evictBloomFilter currentTime memory = s.container ∧
    mc.charger - s.container.charger < memory + mc.largestUnitSize := by
  refine ⟨⟨_, sweepPasses_eq (lt_add_one _), rfl, ?_⟩, ⟨_, sweepPasses_eq (lt_add_one _), rfl, ?_⟩⟩
  · have hs := sweep_budgeted (loadKind_chargesUnits crc io worth currentTime nextPeriodTime) loadLevels loadNumbers mc hpos
    have hcharged := hs.charged
    have hover := hs.overdrawn
    omega
  · have hs := sweep_budgeted (evictKind_chargesUnits currentTime) evictLevels evictNumbers mc hpos
    have hcharged := hs.charged
    have hover := hs.overdrawn
    omega

def hotTable : MultiContainer := (new.newObject (openedTable 1000000)).insert [1] 3 0

theorem sweeps_respect_budget_hotTable :
    ∃ s : Sweep, hotTable.loadBloomFilter .bitwise (fun _ => MultiQueue.unitsFile) alwaysWorth 5 0 3 = s.container ∧
    s.container.charger = 5 ∧ hotTable.charger = 2 ∧ hotTable.largestUnitSize = 1 ∧
    s.container.charger - hotTable.charger < 3 + hotTable.largestUnitSize := by
  obtain ⟨s, -, hs, hlt⟩ := (sweeps_respect_budget .bitwise (fun _ => MultiQueue.unitsFile) alwaysWorth hotTable 5 0 3
    (by decide)).1
  exact ⟨s, hs, hs ▸ by decide +kernel, by decide +kernel, by decide +kernel, hlt⟩

end RallyDB.Util.MultiContainer
