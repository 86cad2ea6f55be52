import RallyDB.Util.Lemmas.Adjustment
import RallyDB.Util.MultiQueueRuns

/-!
# Filter meta data that is not trusted
-/

namespace RallyDB.Table.FilterBlockReader

open List Util

def SoundMeta (contents : Slice) : Prop :=
  let n := contents.length
  25 ≤ n ∧ decodeFixed32 (contents.drop (n - 9)) ≤ decodeFixed32 (contents.drop (n - 5)) ∧
    decodeFixed32 (contents.drop (n - 5)) ≤ kAllFilterUnitsNumber

def ReadsInside (r : FilterBlockReader) : Prop :=
  ∀ index < r.num, index * 4 + 8 ≤ r.contents.length ∧
    let start := decodeFixed32 (r.contents.drop (index * 4))
    let limit := decodeFixed32 (r.contents.drop (index * 4 + 4))
    start ≤ limit ∧ limit ≤ r.diskSize → ∀ unit ∈ r.filterUnits, limit ≤ unit.length

structure MetaSafe (r : FilterBlockReader) : Prop where
  init_le : r.initUnitsNumber ≤ r.allUnitsNumber
  all_le : r.allUnitsNumber ≤ kAllFilterUnitsNumber
  units_le : r.filterUnits.length ≤ r.allUnitsNumber
  reload_le : r.reloadUnitsNumber ≤ r.allUnitsNumber
  offsets : 4 * r.num + 25 ≤ r.contents.length
  units : ∀ unit ∈ r.filterUnits, unit.length = r.diskSize

variable {crc : Crc32c} {file : RandomAccessFile} {r : FilterBlockReader}

/-! ## Operations on a reader -/

lemma metaSafe_new {contents : Slice} (h : SoundMeta contents) (uninit : FilterBlockReader) : (new uninit contents).MetaSafe := by
  obtain ⟨hlen, hinit, hall⟩ := h
  unfold new
  dsimp only
  rw [if_neg (by omega)]
  exact {
    init_le := hinit
    all_le := hall
    units_le := Nat.zero_le _
    reload_le := hinit
    offsets := by
      dsimp only
      omega
    units := by simp }

lemma MetaSafe.readsInside (h : r.MetaSafe) : r.ReadsInside := by
  intro index hindex
  have hlen := h.offsets
  refine ⟨by omega, ?_⟩
  rintro start limit ⟨-, hlimit⟩ unit hunit
  rw [h.units unit hunit]
  exact hlimit

lemma MetaSafe.filterUnitsNumber_le (h : r.MetaSafe) : r.filterUnitsNumber ≤ kAllFilterUnitsNumber := h.units_le.trans h.all_le

lemma MetaSafe.updateState (h : r.MetaSafe) (sn : Nat) : (r.updateState sn).MetaSafe :=
  ⟨h.init_le, h.all_le, h.units_le, h.reload_le, h.offsets, h.units⟩

lemma readBlock_length {verify : Bool} {handle : BlockHandle} {data : Slice} (h : readBlock crc file verify handle = .ok data) :
    data.length = handle.size := by
  unfold readBlock readStoredBlock noCompression at h
  dsimp only at h
  cases hread : file.read handle.offset (handle.size + kBlockTrailerSize) with
  | error e =>
    rw [hread] at h
    cases h
  | ok bytes =>
    rw [hread] at h
    dsimp only at h
    split_ifs at h with hlen
    cases h
    rw [length_take, not_not.1 hlen]
    exact min_eq_left (Nat.le_add_right _ _)

variable (h : r.MetaSafe)
include h

lemma MetaSafe.withUnits {units : List Slice} (hlen : units.length ≤ r.allUnitsNumber)
    (hunits : ∀ unit ∈ units, unit.length = r.diskSize) : { r with filterUnits := units }.MetaSafe :=
  ⟨h.init_le, h.all_le, hlen, h.reload_le, h.offsets, hunits⟩

variable (crc file)

lemma MetaSafe.loadFilter : (r.loadFilter crc file).1.MetaSafe := by
  rcases loadFilter_cases crc file r with ⟨e, he⟩ | ⟨data, hlt, he⟩
  · rw [he]
    exact h
  · obtain ⟨data, hr, hlt, hread⟩ := loadFilter_ok he
    rw [he, hr]
    refine h.withUnits (by rwa [length_append]) fun unit hunit => ?_
    rcases mem_append.1 hunit with hunit | hunit
    · exact h.units unit hunit
    · obtain rfl := mem_singleton.1 hunit
      exact readBlock_length hread

lemma MetaSafe.take (n : Nat) : { r with filterUnits := r.filterUnits.take n }.MetaSafe :=
  h.withUnits ((length_take_le' n r.filterUnits).trans h.units_le) fun unit hunit => h.units unit (mem_of_mem_take hunit)

lemma MetaSafe.evictFilter : r.evictFilter.1.MetaSafe := by
  obtain ⟨n, hn⟩ := r.evictFilter_take
  exact hn ▸ h.take n

lemma MetaSafe.cleanFilter : r.cleanFilter.1.MetaSafe := by
  rw [cleanFilter_eq]
  exact ⟨h.init_le, h.all_le, Nat.zero_le _, h.units_le, h.offsets, by simp⟩

lemma MetaSafe.goBackToInitFilter : (r.goBackToInitFilter crc file).1.MetaSafe :=
  goBackToInitFilter_induction (fun _ h => h.loadFilter crc file) (fun _ n h => h.take n) h

end RallyDB.Table.FilterBlockReader

namespace RallyDB.Util.MultiQueue

open List Table FilterBlockReader

/-! ## The indices of `queues_` that are used -/

section

variable (worth : WorthAdjusting)

variable (mq : MultiQueue)

def findQueueIndices (h : Nat) : List Nat :=
  match mq.value h with
  | none => []
  | some reader => [reader.filterUnitsNumber]

def findColdIndices (mq : MultiQueue) (sn : Nat) : List Nat → UInt64 → List Nat
  | [], _ => []
  | i :: rest, memory =>
    if 0 < memory then i :: mq.findColdIndices sn rest (mq.findColdInQueue sn (mq.queues i).reverse memory []).1 else []

def loadHandleIndices (h : Nat) : List Nat :=
  match mq.value h with
  | none => []
  | some reader =>
    let number := reader.filterUnitsNumber
    if number < kAllFilterUnitsNumber then [number, number + 1] else []

def evictHandleIndices (h : Nat) : List Nat :=
  match mq.value h with
  | none => []
  | some reader =>
    let number := reader.filterUnitsNumber
    if 1 ≤ number then [number, number - 1] else []

def evictHandlesIndices (mq : MultiQueue) : List Nat → List Nat
  | [] => []
  | h :: rest =>
    mq.evictHandleIndices h ++
      match mq.evictHandle h with
      | (mq, .ok ()) => mq.evictHandlesIndices rest
      | (_, .error _) => []

def applyAdjustmentIndices (colds : List Nat) (hot : Nat) : List Nat :=
  mq.evictHandlesIndices colds ++
    match mq.evictHandles colds with
    | (_, .error _) => []
    | (mq, .ok ()) => mq.loadHandleIndices hot

def adjustmentIndices (hot sn : Nat) : List Nat :=
  match mq.value hot with
  | none => []
  | some reader =>
    if reader.canBeLoaded then
      let memory := UInt64.ofNat reader.oneUnitSize
      let colds := mq.findColdFilter memory sn
      mq.findColdIndices sn [6, 5, 4, 3, 2, 1] memory ++
        if colds = [] then []
        else if mq.canBeAdjusted worth colds hot then
          { mq with adjustmentTime := mq.adjustmentTime + 1 }.applyAdjustmentIndices colds hot
        else []
    else []

def doAdjustmentIndices (h sn : Nat) : List Nat :=
  match mq.value h with
  | none => []
  | some reader => mq.findQueueIndices h ++ (mq.move h reader.filterUnitsNumber).adjustmentIndices worth h sn

def indices : Action → List Nat
  | .insert _ reader _ => [reader.initUnitsNumber]
  | .lookup _ => []
  | .updateHandle _ h _ key =>
    match parseKey key, mq.value h with
    | some sn, some _ => (mq.modifyReader h fun r => r.updateState sn).doAdjustmentIndices worth h sn
    | _, _ => []
  | .doAdjustment _ h sn => mq.doAdjustmentIndices worth h sn
  | .release _ => []
  | .goBackToInitFilter _ h =>
    match mq.value h with
    | none => []
    | some reader => [reader.filterUnitsNumber, reader.initUnitsNumber]
  | .erase key =>
    match mq.lookup key with
    | none => []
    | some h => mq.findQueueIndices h

end

/-! ## All readers -/

def AllSafe (mq : MultiQueue) : Prop := ∀ p ∈ mq.handles, p.2.reader.MetaSafe

variable {mq mq' : MultiQueue} {h : Nat} {r : FilterBlockReader} {crc : Crc32c} {io : Nat → RandomAccessFile}
  {worth : WorthAdjusting} {policy : FilterPolicy}

lemma AllSafe.value (hs : mq.AllSafe) (hv : mq.value h = some r) : r.MetaSafe := by
  obtain ⟨q, hq, rfl⟩ := Option.map_eq_some_iff.1 hv
  exact hs _ (Lib.mem_of_lookup hq)

lemma AllSafe.modifyReader (hs : mq.AllSafe) {f : FilterBlockReader → FilterBlockReader}
    (hf : ∀ r : FilterBlockReader, r.MetaSafe → (f r).MetaSafe) (h : Nat) : (mq.modifyReader h f).AllSafe := by
  intro p hp
  obtain ⟨q, hq, rfl⟩ := mem_map.1 hp
  split_ifs
  · exact hf _ (hs q hq)
  · exact hs q hq

lemma AllSafe.move (hs : mq.AllSafe) (h n : Nat) : (mq.move h n).AllSafe := hs

lemma AdjustStep.allSafe (hstep : AdjustStep crc io mq mq') (hs : mq.AllSafe) : mq'.AllSafe := by
  cases hstep with
  | state h sn => exact hs.modifyReader (fun r hr => hr.updateState sn) h
  | touch hr => exact hs
  | evict hr hunits => exact (hs.move _ _).modifyReader (fun r hr => hr.evictFilter) _
  | load hr hload => exact (hs.move _ _).modifyReader (fun r hr => hr.loadFilter crc _) _
  | time n => exact hs

section

variable (hs : mq.AllSafe)
include hs

lemma AllSafe.steps (hsteps : Relation.ReflTransGen (AdjustStep crc io) mq mq') : mq'.AllSafe :=
  steps_invariant (fun _ _ hstep => hstep.allSafe) hsteps hs

lemma AllSafe.evictHandle (h : Nat) : (mq.evictHandle h).1.AllSafe := by
  unfold MultiQueue.evictHandle
  cases mq.value h with
  | none => exact hs
  | some reader =>
    dsimp only
    split_ifs
    · exact (hs.move h _).modifyReader (fun r hr => hr.evictFilter) h
    · exact hs

lemma AllSafe.insert (hr : r.MetaSafe) (key : Slice) (file : RandomAccessFile) : (mq.insert crc file key r).AllSafe := by
  refine AllSafe.modifyReader ?_ (fun r => loadUpTo_induction (fun _ h => h.loadFilter crc file) _) _
  have hhandles : ∀ p ∈ (mq.nextAddress, (⟨key, r⟩ : QueueHandle)) :: mq.handles, p.2.reader.MetaSafe := by
    intro p hp
    rcases mem_cons.1 hp with rfl | hp
    · exact hr
    · exact hs p hp
  intro p hp
  dsimp only at hp
  split_ifs at hp
  · exact hhandles p hp
  · exact hhandles p hp

lemma AllSafe.release (h : Nat) : (mq.release h).AllSafe := by
  unfold MultiQueue.release
  cases mq.value h with
  | none => exact hs
  | some reader => exact AllSafe.modifyReader hs (fun r hr => hr.cleanFilter) h

lemma AllSafe.goBackToInitFilter (file : RandomAccessFile) (h : Nat) : (mq.goBackToInitFilter crc file h).AllSafe := by
  unfold MultiQueue.goBackToInitFilter
  cases mq.value h with
  | none => exact hs
  | some reader => exact AllSafe.modifyReader (hs.move h _) (fun r hr => hr.goBackToInitFilter crc file) h

lemma AllSafe.erase (key : Slice) : (mq.erase key).AllSafe := by
  unfold MultiQueue.erase
  cases mq.lookup key with
  | none => exact hs
  | some h =>
    dsimp only
    cases mq.value h with
    | none => exact hs
    | some reader => exact fun p hp => hs p (mem_of_mem_filter hp)

end

def Trusted : Action → Prop
  | .insert _ reader _ => ∃ uninit contents, SoundMeta contents ∧ reader = .new uninit contents
  | _ => True

lemma AllSafe.apply (hs : mq.AllSafe) {a : Action} (ha : Trusted a) : (mq.apply worth crc policy a).AllSafe := by
  cases a with
  | insert key reader file =>
    obtain ⟨uninit, contents, hsound, rfl⟩ := ha
    exact hs.insert (metaSafe_new hsound uninit) key file
  | lookup key => exact hs
  | updateHandle io h blockOffset key => exact hs.steps updateHandle_steps
  | doAdjustment io h sn => exact hs.steps (doAdjustment_steps sn)
  | release h => exact hs.release h
  | goBackToInitFilter file h => exact hs.goBackToInitFilter file h
  | erase key => exact hs.erase key

/-! ## The indices in a multi queue of safe readers -/

def QueuesExist (indices : List Nat) : Prop := ∀ i ∈ indices, i ≤ kAllFilterUnitsNumber

lemma QueuesExist.append {l l' : List Nat} (hl : QueuesExist l) (hl' : QueuesExist l') : QueuesExist (l ++ l') := by
  intro i hi
  rcases mem_append.1 hi with hi | hi
  · exact hl i hi
  · exact hl' i hi

lemma queuesExist_nil : QueuesExist [] := fun i hi => by cases hi

lemma queuesExist_pair {m n : Nat} (hm : m ≤ kAllFilterUnitsNumber) (hn : n ≤ kAllFilterUnitsNumber) : QueuesExist [m, n] := by
  intro i hi
  rcases mem_cons.1 hi with rfl | hi
  · exact hm
  · obtain rfl := mem_singleton.1 hi
    exact hn

lemma AllSafe.findQueueIndices (hs : mq.AllSafe) (h : Nat) : QueuesExist (mq.findQueueIndices h) := by
  unfold MultiQueue.findQueueIndices
  cases hv : mq.value h with
  | none => exact queuesExist_nil
  | some reader =>
    intro i hi
    obtain rfl := mem_singleton.1 hi
    exact (hs.value hv).filterUnitsNumber_le

lemma queuesExist_findColdIndices (mq : MultiQueue) (sn : Nat) {l : List Nat} (hl : QueuesExist l) (memory : UInt64) :
    QueuesExist (mq.findColdIndices sn l memory) := by
  induction l generalizing memory with
  | nil => exact queuesExist_nil
  | cons i rest ih =>
    unfold MultiQueue.findColdIndices
    split_ifs
    · intro j hj
      rcases mem_cons.1 hj with rfl | hj
      · exact hl j mem_cons_self
      · exact ih (fun j hj => hl j (mem_cons_of_mem _ hj)) _ j hj
    · exact queuesExist_nil

lemma queuesExist_loadHandleIndices (mq : MultiQueue) (h : Nat) : QueuesExist (mq.loadHandleIndices h) := by
  unfold MultiQueue.loadHandleIndices
  cases mq.value h with
  | none => exact queuesExist_nil
  | some reader =>
    dsimp only
    split_ifs with hlt
    · exact queuesExist_pair hlt.le hlt
    · exact queuesExist_nil

section

variable (hs : mq.AllSafe)
include hs

lemma AllSafe.evictHandleIndices (h : Nat) : QueuesExist (mq.evictHandleIndices h) := by
  unfold MultiQueue.evictHandleIndices
  cases hv : mq.value h with
  | none => exact queuesExist_nil
  | some reader =>
    have hle := (hs.value hv).filterUnitsNumber_le
    dsimp only
    split_ifs
    · exact queuesExist_pair hle ((Nat.sub_le _ _).trans hle)
    · exact queuesExist_nil

lemma AllSafe.evictHandlesIndices (colds : List Nat) : QueuesExist (mq.evictHandlesIndices colds) := by
  induction colds generalizing mq with
  | nil => exact queuesExist_nil
  | cons h rest ih =>
    have hstep := hs.evictHandle h
    unfold MultiQueue.evictHandlesIndices
    refine (hs.evictHandleIndices h).append ?_
    generalize mq.evictHandle h = result at hstep
    obtain ⟨mq', status⟩ := result
    cases status with
    | error e => exact queuesExist_nil
    | ok u => exact ih hstep

lemma AllSafe.applyAdjustmentIndices (colds : List Nat) (hot : Nat) : QueuesExist (mq.applyAdjustmentIndices colds hot) := by
  unfold MultiQueue.applyAdjustmentIndices
  refine (hs.evictHandlesIndices colds).append ?_
  cases mq.evictHandles colds with
  | mk mq' status =>
    cases status with
    | error e => exact queuesExist_nil
    | ok u => exact queuesExist_loadHandleIndices mq' hot

variable (worth)

lemma AllSafe.adjustmentIndices (hot sn : Nat) : QueuesExist (mq.adjustmentIndices worth hot sn) := by
  have hcounted : ({ mq with adjustmentTime := mq.adjustmentTime + 1 } : MultiQueue).AllSafe := hs
  unfold MultiQueue.adjustmentIndices
  cases mq.value hot with
  | none => exact queuesExist_nil
  | some reader =>
    dsimp only
    by_cases hload : reader.canBeLoaded = true
    · rw [if_pos hload]
      refine (queuesExist_findColdIndices mq sn (by unfold QueuesExist; decide) _).append ?_
      split_ifs
      · exact queuesExist_nil
      · exact hcounted.applyAdjustmentIndices _ hot
      · exact queuesExist_nil
    · rw [if_neg hload]
      exact queuesExist_nil

lemma AllSafe.doAdjustmentIndices (h sn : Nat) : QueuesExist (mq.doAdjustmentIndices worth h sn) := by
  unfold MultiQueue.doAdjustmentIndices
  cases mq.value h with
  | none => exact queuesExist_nil
  | some reader => exact (hs.findQueueIndices h).append ((hs.move h _).adjustmentIndices worth h sn)

lemma AllSafe.indices {a : Action} (ha : Trusted a) : QueuesExist (mq.indices worth a) := by
  cases a with
  | insert key reader file =>
    obtain ⟨uninit, contents, hsound, rfl⟩ := ha
    have hsafe := metaSafe_new hsound uninit
    intro i hi
    obtain rfl := mem_singleton.1 hi
    exact hsafe.init_le.trans hsafe.all_le
  | lookup key | release h => exact queuesExist_nil
  | updateHandle io h blockOffset key =>
    dsimp only [MultiQueue.indices]
    cases parseKey key with
    | none => exact queuesExist_nil
    | some sn =>
      cases mq.value h with
      | none => exact queuesExist_nil
      | some reader => exact (hs.modifyReader (fun r hr => hr.updateState sn) h).doAdjustmentIndices worth h sn
  | doAdjustment io h sn => exact hs.doAdjustmentIndices worth h sn
  | goBackToInitFilter file h =>
    dsimp only [MultiQueue.indices]
    cases hv : mq.value h with
    | none => exact queuesExist_nil
    | some reader =>
      have hsafe := hs.value hv
      exact queuesExist_pair hsafe.filterUnitsNumber_le (hsafe.init_le.trans hsafe.all_le)
  | erase key =>
    dsimp only [MultiQueue.indices]
    cases mq.lookup key with
    | none => exact queuesExist_nil
    | some h => exact hs.findQueueIndices h

end

/-! ## Runs -/

section

variable (worth : WorthAdjusting) (crc : Crc32c) (policy : FilterPolicy)

def calls (mq : MultiQueue) (as : List Action) : MultiQueue := as.foldl (apply worth crc policy) mq

def callIndices (mq : MultiQueue) : List Action → List Nat
  | [] => []
  | a :: as => mq.indices worth a ++ (mq.apply worth crc policy a).callIndices as

end

lemma AllSafe.calls (hs : mq.AllSafe) {as : List Action} (ha : ∀ a ∈ as, Trusted a) :
    (mq.calls worth crc policy as).AllSafe := by
  induction as generalizing mq with
  | nil => exact hs
  | cons a as ih => exact ih (hs.apply (ha a mem_cons_self)) fun b hb => ha b (mem_cons_of_mem _ hb)

lemma AllSafe.callIndices (hs : mq.AllSafe) {as : List Action} (ha : ∀ a ∈ as, Trusted a) :
    QueuesExist (mq.callIndices worth crc policy as) := by
  induction as generalizing mq with
  | nil => exact queuesExist_nil
  | cons a as ih =>
    have hfirst := ha a mem_cons_self
    exact (hs.indices worth hfirst).append (ih (hs.apply hfirst) fun b hb => ha b (mem_cons_of_mem _ hb))

/-- A reader made from the meta data and inserted does no harm: its counts are in range, and in every later sequence of
calls only queues that exist are used and `KeyMayMatch` reads inside meta data and units. -/
def Contained (worth : WorthAdjusting) (crc : Crc32c) (policy : FilterPolicy) (contents : Slice) : Prop :=
  ∀ (uninit : FilterBlockReader) (key : Slice) (file : RandomAccessFile) (before after : List Action),
    (∀ a ∈ before, Trusted a) → (∀ a ∈ after, Trusted a) →
    let reader := FilterBlockReader.new uninit contents
    let mq := new.calls worth crc policy before
    let use := .insert key reader file :: after
    reader.initUnitsNumber ≤ reader.allUnitsNumber ∧ reader.allUnitsNumber ≤ kAllFilterUnitsNumber ∧
      QueuesExist (mq.callIndices worth crc policy use) ∧
      ∀ p ∈ (mq.calls worth crc policy use).handles, p.2.reader.ReadsInside

def unsetReader : FilterBlockReader := ⟨[], 0, 0, 1, 0, 0, 0, 0, 0, 0, []⟩

/-- Meta data does no harm just when it is long enough and its counts are in range. -/
theorem contained_iff (worth : WorthAdjusting) (crc : Crc32c) (policy : FilterPolicy) (contents : Slice) :
    Contained worth crc policy contents ↔ SoundMeta contents := by
  constructor
  · intro h
    obtain ⟨hinit, hall, -, -⟩ := h unsetReader [] ⟨fun _ _ => .ok []⟩ [] [] (fun a ha => by cases ha) (fun a ha => by cases ha)
    unfold FilterBlockReader.new at hinit hall
    dsimp only at hinit hall
    by_cases hlen : contents.length < 25
    · rw [if_pos hlen] at hinit
      exact absurd hinit (by decide)
    · rw [if_neg hlen] at hinit hall
      exact ⟨not_lt.1 hlen, hinit, hall⟩
  · intro hsound uninit key file before after hbefore hafter reader mq use
    have hreader : reader.MetaSafe := metaSafe_new hsound uninit
    have hmq : mq.AllSafe := AllSafe.calls (fun p hp => by cases hp) hbefore
    have huse : ∀ a ∈ use, Trusted a := by
      intro a ha
      rcases mem_cons.1 ha with rfl | ha
      · exact ⟨uninit, contents, hsound, rfl⟩
      · exact hafter a ha
    exact ⟨hreader.init_le, hreader.all_le, hmq.callIndices huse, fun p hp => (hmq.calls huse p hp).readsInside⟩

/-- Meta data of 25 bytes that asks for seven units: `Insert` uses `queues_[7]`, and there are seven queues. -/
theorem insert_index_out_of_range :
    let contents : Slice := replicate 16 0 ++ [7, 0, 0, 0] ++ [7, 0, 0, 0] ++ [11]
    let reader := FilterBlockReader.new unsetReader contents
    contents.length = 25 ∧ kAllFilterUnitsNumber < reader.initUnitsNumber ∧
      ¬ QueuesExist (new.indices (fun _ _ => true) (.insert [1] reader ⟨fun _ _ => .ok []⟩)) := by
  refine ⟨rfl, by decide, fun h => ?_⟩
  exact absurd (h _ mem_cons_self) (by decide)

end RallyDB.Util.MultiQueue
