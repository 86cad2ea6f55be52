import RallyDB.Util.Lemmas.Adjustment
import RallyDB.Util.MultiQueueRuns

/-!
# Where the handles of the multi queue are linked
-/

namespace RallyDB.Util.MultiQueue

open Table Relation MultiQueue Lib FilterBlockReader List
open UInt64 (ofNat)

variable {mq : MultiQueue} {h k n : Nat} {r : FilterBlockReader} {P : Nat → Nat → Prop}

section

variable (P)

def Linked (mq : MultiQueue) (a : Nat) : Prop :=
  match mq.value a with
  | none => Lib.Unlinked mq.queues a
  | some r => ∃ m, P m r.filterUnitsNumber ∧ Lib.LinkedAt mq.queues a m

def Tracks (mq : MultiQueue) : Prop := ∀ a, mq.Linked P a

end

lemma Linked.none (hl : mq.Linked P k) (hv : mq.value k = none) : Lib.Unlinked mq.queues k := by
  unfold Linked at hl
  rw [hv] at hl
  exact hl

lemma Linked.some (hl : mq.Linked P k) (hv : mq.value k = some r) :
    ∃ m, P m r.filterUnitsNumber ∧ Lib.LinkedAt mq.queues k m := by
  unfold Linked at hl
  rw [hv] at hl
  exact hl

lemma Linked.atMostOnce (hl : mq.Linked P k) : Lib.AtMostOnce mq.queues k := by
  cases hv : mq.value k with
  | none => exact (hl.none hv).atMostOnce
  | some r =>
    obtain ⟨m, -, hm⟩ := hl.some hv
    exact hm.atMostOnce

lemma linked_of_linkedAt (hv : mq.value k = some r) (hP : P n r.filterUnitsNumber)
    (hl : Lib.LinkedAt mq.queues k n) : mq.Linked P k := by
  unfold Linked
  rw [hv]
  exact ⟨n, hP, hl⟩

variable {mq' : MultiQueue}

lemma Linked.congr (hl : mq.Linked P k) (hv : mq'.value k = mq.value k)
    (hc : ∀ n, (mq'.queues n).count k = (mq.queues n).count k) : mq'.Linked P k := by
  unfold Linked Lib.Unlinked Lib.LinkedAt at hl ⊢
  simp only [hv, hc]
  exact hl

variable {f : FilterBlockReader → FilterBlockReader}

lemma Tracks.modifyReader (ht : mq.Tracks P)
    (hf : ∀ m r, mq.value h = some r → P m r.filterUnitsNumber → P m (f r).filterUnitsNumber) : (mq.modifyReader h f).Tracks P := by
  intro a
  by_cases ha : a = h
  · subst ha
    cases hv : mq.value a with
    | none => exact (ht a).congr (by rw [value_modifyReader_self, hv]; rfl) fun _ => rfl
    | some r =>
      obtain ⟨m, hP, hc⟩ := (ht a).some hv
      exact linked_of_linkedAt (by rw [value_modifyReader_self, hv]; rfl) (hf m r hv hP) hc
  · exact (ht a).congr (by rw [value_modifyReader, if_neg ha]) fun _ => rfl

lemma Tracks.move (ht : mq.Tracks P) (hv : mq.value h = some r) (hP : P n r.filterUnitsNumber) : (mq.move h n).Tracks P := by
  intro a
  by_cases ha : a = h
  · subst ha
    exact linked_of_linkedAt hv hP ((ht a).atMostOnce.relink _)
  · exact (ht a).congr rfl (count_relink_ne ha)

lemma Tracks.congr (ht : mq.Tracks P) (hh : mq'.handles = mq.handles) (hq : mq'.queues = mq.queues) : mq'.Tracks P := by
  intro a
  refine (ht a).congr ?_ fun m => by rw [hq]
  rw [value, hh]
  rfl

lemma Tracks.update (ht : mq.Tracks P) (hv : mq.value h = some r)
    (hP : P n (f r).filterUnitsNumber) : ((mq.move h n).modifyReader h f).Tracks P := by
  intro a
  by_cases ha : a = h
  · subst ha
    refine linked_of_linkedAt ?_ hP ((ht a).atMostOnce.relink _)
    rw [value_modifyReader_self, value_move, hv]
    rfl
  · exact (ht a).congr (by rw [value_modifyReader, if_neg ha]; rfl) (count_relink_ne ha)

/-! ## The handles in use -/

structure Ok (P : Nat → Nat → Prop) (mq : MultiQueue) : Prop where
  addresses : (mq.handles.map Prod.fst).Nodup
  unused : ∀ a ∈ mq.handles.map Prod.fst, a < mq.nextAddress
  map_eq : mq.map = mq.handles.map fun p => (p.2.key, p.1)
  keys : (mq.map.map Prod.fst).Nodup
  readers : ∀ a r, mq.value a = some r → r.InRange
  tracks : mq.Tracks P

lemma ok_new : new.Ok P where
  addresses := nodup_nil
  unused := by simp [new]
  map_eq := rfl
  keys := nodup_nil
  readers := by simp [new, value]
  tracks := fun _ _ => rfl

variable {Q : Nat → Nat → Prop}

lemma Tracks.mono (ht : mq.Tracks P) (hPQ : ∀ m n, P m n → Q m n) : mq.Tracks Q := by
  intro a
  have ha := ht a
  unfold Linked at ha ⊢
  split <;> rename_i hv <;> rw [hv] at ha
  · exact ha
  · obtain ⟨m, hP, hc⟩ := ha
    exact ⟨m, hPQ _ _ hP, hc⟩

lemma Ok.withTracks (hok : mq.Ok P) (ht : mq.Tracks Q) : mq.Ok Q := { hok with tracks := ht }

lemma exists_mem_of_value {a : Nat} (hv : mq.value a = some r) : ∃ q, (a, q) ∈ mq.handles ∧ q.reader = r := by
  obtain ⟨q, hq, he⟩ := Option.map_eq_some_iff.1 hv
  exact ⟨q, mem_of_lookup hq, he⟩

variable {q : QueueHandle}

lemma Ok.value_of_mem (hok : mq.Ok P) {a : Nat} (hq : (a, q) ∈ mq.handles) : mq.value a = some q.reader := by
  rw [value, lookup_of_mem hok.addresses hq]
  rfl

lemma Ok.value_nextAddress (hok : mq.Ok P) : mq.nextAddress ∉ mq.handles.map Prod.fst :=
  fun hmem => lt_irrefl _ (hok.unused _ hmem)

lemma keys_modifyReader (f : FilterBlockReader → FilterBlockReader) :
    ((mq.modifyReader h f).handles.map fun p => (p.2.key, p.1)) = mq.handles.map fun p => (p.2.key, p.1) := by
  rw [modifyReader, adjust, List.map_map]
  refine List.map_congr_left fun p _ => ?_
  dsimp only [Function.comp]
  split_ifs <;> rfl

lemma Ok.modifyReader (hok : mq.Ok P)
    (hf : ∀ r, mq.value h = some r → (f r).InRange) (ht : (mq.modifyReader h f).Tracks Q) : (mq.modifyReader h f).Ok Q where
  addresses := by
    rw [MultiQueue.modifyReader, Lib.keys_adjust]
    exact hok.addresses
  unused := by
    rw [MultiQueue.modifyReader, Lib.keys_adjust]
    exact hok.unused
  map_eq := by
    rw [keys_modifyReader]
    exact hok.map_eq
  keys := hok.keys
  readers := by
    intro a r hr
    rw [value_modifyReader] at hr
    split_ifs at hr with ha
    · subst ha
      obtain ⟨r', hr', rfl⟩ := Option.map_eq_some_iff.1 hr
      exact hf r' hr'
    · exact hok.readers a r hr
  tracks := ht

lemma Ok.move (hok : mq.Ok P) (ht : (mq.move h n).Tracks Q) : (mq.move h n).Ok Q :=
  { hok with tracks := ht }

/-! ## Adjustments -/

def ReadableBy (crc : Crc32c) (io : Nat → RandomAccessFile) (mq : MultiQueue) : Prop :=
  ∀ a r, mq.value a = some r → r.Readable crc (io a)

variable {crc : Crc32c} {io : Nat → RandomAccessFile}

lemma AllReadable.readableBy (ha : mq.AllReadable crc io) : mq.ReadableBy crc io := by
  intro a r hr
  obtain ⟨q, hq, rfl⟩ := exists_mem_of_value hr
  exact ha (a, q) hq

lemma ReadableBy.modifyReader (ha : mq.ReadableBy crc io)
    (hf : ∀ r : FilterBlockReader, r.SameFilter (f r)) : (mq.modifyReader h f).ReadableBy crc io := by
  intro a r hr
  rw [value_modifyReader] at hr
  split_ifs at hr with hah
  · obtain ⟨r', hr', rfl⟩ := Option.map_eq_some_iff.1 hr
    exact (ha a r' hr').of_same (hf r')
  · exact ha a r hr

lemma AdjustStep.readableBy (hs : AdjustStep crc io mq mq') (ha : mq.ReadableBy crc io) : mq'.ReadableBy crc io := by
  cases hs with
  | state k sn => exact ha.modifyReader fun r => ⟨rfl, rfl, rfl, rfl⟩
  | touch _ => exact ha
  | @evict k r hr _ =>
    have hmove : (mq.move k (r.filterUnitsNumber - 1)).ReadableBy crc io := ha
    exact hmove.modifyReader fun r => sameFilter_evictFilter
  | @load k r hr _ =>
    have hmove : (mq.move k (r.filterUnitsNumber + 1)).ReadableBy crc io := ha
    exact hmove.modifyReader fun r => sameFilter_loadFilter
  | time _ => exact ha

lemma evictFilter_units (hunits : 1 ≤ r.filterUnitsNumber) :
    r.evictFilter.1.filterUnitsNumber = r.filterUnitsNumber - 1 := by
  rw [evictFilter_eq hunits]
  exact length_dropLast

lemma inRange_evictFilter (hr : r.InRange) (hunits : 1 ≤ r.filterUnitsNumber) : r.evictFilter.1.InRange := by
  have hle := hr.units_le
  have hu := evictFilter_units hunits
  rw [evictFilter_eq hunits] at hu ⊢
  exact { hr with units_le := by rw [hu]; exact (Nat.sub_le _ _).trans hle }

variable {file : RandomAccessFile}

lemma loadFilter_units (hread : r.Readable crc file) (hload : r.canBeLoaded = true) :
    (r.loadFilter crc file).1.filterUnitsNumber = r.filterUnitsNumber + 1 := by
  obtain ⟨data, hd⟩ := loadFilter_readable hread (of_decide_eq_true hload)
  rw [hd]
  exact length_append

lemma inRange_loadFilter (hr : r.InRange) (hread : r.Readable crc file)
    (hload : r.canBeLoaded = true) : (r.loadFilter crc file).1.InRange := by
  have hlt : r.filterUnitsNumber < r.allUnitsNumber := of_decide_eq_true hload
  have hu := loadFilter_units hread hload
  obtain ⟨data, hd⟩ := loadFilter_readable hread hlt
  rw [hd] at hu ⊢
  exact { hr with units_le := by rw [hu]; exact hlt }

lemma AdjustStep.ok (hP : ∀ n, P n n) (hs : AdjustStep crc io mq mq')
    (ha : mq.ReadableBy crc io) (hok : mq.Ok P) : mq'.Ok P := by
  cases hs with
  | state k sn =>
    refine hok.modifyReader (fun r hr => ?_) (hok.tracks.modifyReader fun m r _ hm => hm)
    exact { hok.readers k r hr with }
  | touch hr => exact hok.move (hok.tracks.move hr (hP _))
  | @evict k r hr hunits =>
    have hmove : (mq.move k (r.filterUnitsNumber - 1)).Ok fun _ _ => True :=
      hok.move ((hok.tracks.mono fun _ _ _ => trivial).move hr trivial)
    refine hmove.modifyReader (fun r' hr' => ?_) (hok.tracks.update hr ?_)
    · rw [value_move, hr] at hr'
      cases hr'
      exact inRange_evictFilter (hok.readers k r hr) hunits
    · rw [evictFilter_units hunits]
      exact hP _
  | @load k r hr hload =>
    have hmove : (mq.move k (r.filterUnitsNumber + 1)).Ok fun _ _ => True :=
      hok.move ((hok.tracks.mono fun _ _ _ => trivial).move hr trivial)
    refine hmove.modifyReader (fun r' hr' => ?_) (hok.tracks.update hr ?_)
    · rw [value_move, hr] at hr'
      cases hr'
      exact inRange_loadFilter (hok.readers k r hr) (ha k r hr) hload
    · rw [loadFilter_units (ha k r hr) hload]
      exact hP _
  | time n => exact { hok with tracks := hok.tracks }

lemma steps_ok (hP : ∀ n, P n n) (hs : ReflTransGen (AdjustStep crc io) mq mq')
    (ha : mq.ReadableBy crc io) (hok : mq.Ok P) : mq'.ReadableBy crc io ∧ mq'.Ok P :=
  steps_invariant (I := fun mq => mq.ReadableBy crc io ∧ mq.Ok P)
    (fun _ _ hstep h => ⟨hstep.readableBy h.1, hstep.ok hP h.1 h.2⟩) hs ⟨ha, hok⟩

variable {key : Slice} {reader : FilterBlockReader}

lemma insert_eq (hok : mq.Ok P) (hkey : mq.lookup key = none) : mq.insert crc file key reader =
    { mq.append reader.initUnitsNumber mq.nextAddress with
    handles := (mq.nextAddress, ⟨key, (reader.initLoadFilter crc file).1⟩) :: mq.handles
    map := (key, mq.nextAddress) :: mq.map
    usage := mq.usage + ofNat (reader.initUnitsNumber * reader.oneUnitSize)
    nextAddress := mq.nextAddress + 1 } := by
  have hmap : List.lookup key mq.map = none := hkey
  have hrest := adjust_of_not_mem (f := fun q : QueueHandle =>
    { q with reader := (q.reader.initLoadFilter crc file).1 }) hok.value_nextAddress
  rw [adjust] at hrest
  simp [insert, append, lookup, hmap, modifyReader, adjust, hrest]

lemma value_insert (hmq' : mq'.handles = (k, q) :: mq.handles) (a : Nat) :
    mq'.value a = if a = k then some q.reader else mq.value a := by
  rw [value, hmq']
  split_ifs with ha
  · rw [ha, lookup_cons_self]
    rfl
  · rw [lookup_cons_ne ha]
    rfl

lemma value_eq_none_of_not_mem (hk : k ∉ mq.handles.map Prod.fst) : mq.value k = none := by
  cases hv : mq.value k with
  | none => rfl
  | some r =>
    obtain ⟨q, hq, -⟩ := exists_mem_of_value hv
    exact absurd (mem_map_of_mem hq) hk

lemma Ok.insert (hok : mq.Ok P) (hP : ∀ n, P n n) (hkey : mq.lookup key = none) (hfresh : reader.Fresh)
    (hread : reader.Readable crc file) : (mq.insert crc file key reader).Ok P := by
  obtain ⟨units, hunits, hlen⟩ := initLoadFilter_readable hread hfresh
  have hnot := hok.value_nextAddress
  rw [insert_eq hok hkey, hunits]
  refine ⟨?_, ?_, ?_, ?_, ?_, ?_⟩
  · exact nodup_cons.2 ⟨hnot, hok.addresses⟩
  · intro a ha
    rcases mem_cons.1 ha with rfl | ha
    · exact lt_add_one _
    · exact (hok.unused a ha).trans (lt_add_one _)
  · simp [hok.map_eq]
  · refine nodup_cons.2 ⟨fun hmem => ?_, hok.keys⟩
    obtain ⟨⟨key', a⟩, hp, rfl⟩ := mem_map.1 hmem
    have hfound : mq.lookup key' = some a := lookup_of_mem hok.keys hp
    rw [hkey] at hfound
    cases hfound
  · intro a r hr
    rw [value_insert rfl] at hr
    split_ifs at hr with ha
    · cases hr
      exact { hfresh.inRange with units_le := hlen.trans_le hfresh.init_le }
    · exact hok.readers a r hr
  · intro a
    by_cases ha : a = mq.nextAddress
    · subst ha
      refine linked_of_linkedAt (n := reader.initUnitsNumber)
        (r := { reader with filterUnits := units }) (by rw [value_insert rfl, if_pos rfl]) ?_
        (((hok.tracks mq.nextAddress).none (value_eq_none_of_not_mem hnot)).push _)
      rw [filterUnitsNumber, hlen]
      exact hP _
    · exact (hok.tracks a).congr (by rw [value_insert rfl, if_neg ha]) (count_push_ne ha)

lemma Ok.key_iff (hok : mq.Ok P) (hq : (h, q) ∈ mq.handles) (hkey : q.key = key)
    {p : Nat × QueueHandle} (hp : p ∈ mq.handles) : p.2.key = key ↔ p.1 = h := by
  constructor
  · intro he
    have hkeys := hok.keys
    rw [hok.map_eq, List.map_map] at hkeys
    have := List.inj_on_of_nodup_map hkeys hp hq (by simp [he, hkey])
    rw [this]
  · intro he
    have := List.inj_on_of_nodup_map hok.addresses hp hq he
    rw [this, hkey]

lemma Ok.lookup_some (hok : mq.Ok P) (hl : mq.lookup key = some h) :
    ∃ q, (h, q) ∈ mq.handles ∧ q.key = key ∧ mq.value h = some q.reader := by
  have hmem : (key, h) ∈ mq.map := mem_of_lookup hl
  rw [hok.map_eq] at hmem
  obtain ⟨⟨a, q⟩, hq, he⟩ := mem_map.1 hmem
  cases he
  exact ⟨q, hq, rfl, hok.value_of_mem hq⟩

lemma erase_eq (hl : mq.lookup key = some h) (hv : mq.value h = some r) : mq.erase key = { mq.unlink h with
    handles := remove mq.handles h
    map := remove mq.map key
    usage := mq.usage - ofNat r.size } := by
  unfold erase
  rw [hl]
  dsimp only
  rw [hv]
  rfl

lemma erase_of_none (hl : mq.lookup key = none) : mq.erase key = mq := by
  unfold erase
  rw [hl]

lemma value_remove (hmq' : mq'.handles = remove mq.handles k) (a : Nat) :
    mq'.value a = if a = k then none else mq.value a := by
  rw [value, hmq', lookup_remove]
  split_ifs <;> rfl

lemma Ok.erase (hok : mq.Ok P) (key : Slice) : (mq.erase key).Ok P := by
  cases hl : mq.lookup key with
  | none =>
    rw [erase_of_none hl]
    exact hok
  | some h =>
    obtain ⟨q, hq, hkey, hv⟩ := hok.lookup_some hl
    rw [erase_eq hl hv]
    have hsub : (remove mq.handles h).Sublist mq.handles := filter_sublist
    refine ⟨hok.addresses.sublist (hsub.map _), fun a ha => hok.unused a ((hsub.map _).subset ha), ?_,
      hok.keys.sublist (filter_sublist.map _), ?_, ?_⟩
    · -- the entry of the key and the handle go together
      dsimp only
      rw [remove, remove, hok.map_eq, filter_map]
      congr 1
      refine filter_congr fun p hp => ?_
      simp only [Function.comp, ne_eq, decide_not, hok.key_iff hq hkey hp]
    · intro a r hr
      rw [value_remove rfl] at hr
      split_ifs at hr
      exact hok.readers a r hr
    · intro a
      by_cases ha : a = h
      · subst ha
        unfold Linked
        rw [value_remove rfl, if_pos rfl]
        exact (hok.tracks a).atMostOnce.unlink
      · exact (hok.tracks a).congr (by rw [value_remove rfl, if_neg ha]) (count_unlink_ne ha)

lemma release_eq (hv : mq.value h = some r) : mq.release h =
    ({ mq with usage := mq.usage - ofNat r.size }).modifyReader h fun r => r.cleanFilter.1 := by
  unfold release
  rw [hv]

lemma inRange_cleanFilter (hr : r.InRange) : r.cleanFilter.1.InRange := by
  rw [cleanFilter_eq]
  exact { hr with units_le := Nat.zero_le _, reload_le := hr.units_le }

lemma Ok.release (hok : mq.Ok P) (hv : mq.value h = some r) (ht : (mq.release h).Tracks Q) : (mq.release h).Ok Q := by
  rw [release_eq hv] at ht ⊢
  have hok' : ({ mq with usage := mq.usage - ofNat r.size } : MultiQueue).Ok P :=
    { hok with tracks := hok.tracks }
  exact hok'.modifyReader (fun r' hr' => inRange_cleanFilter (hok.readers h r' hr')) ht

lemma Tracks.release (ht : mq.Tracks P) (hv : mq.value h = some r) (hP : ∀ m, P m r.filterUnitsNumber → P m 0) :
    (mq.release h).Tracks P := by
  have hclean : (mq.modifyReader h fun r => r.cleanFilter.1).Tracks P := by
    refine ht.modifyReader fun m r' hr' hm => ?_
    cases hv.symm.trans hr'
    rw [cleanFilter_eq]
    exact hP m hm
  rw [release_eq hv]
  exact hclean.congr rfl rfl

lemma goBackToInitFilter_eq (hv : mq.value h = some r) : mq.goBackToInitFilter crc file h =
    { (mq.move h r.initUnitsNumber).modifyReader h fun r => (r.goBackToInitFilter crc file).1 with
    usage := mq.usage + (ofNat r.initUnitsNumber - ofNat r.filterUnitsNumber) * ofNat r.oneUnitSize } := by
  unfold goBackToInitFilter
  rw [hv]
  rfl

lemma Tracks.goBackToInitFilter (ht : mq.Tracks P) (hv : mq.value h = some r)
    (hr : r.InRange) (hread : r.Readable crc file) (hP : P r.initUnitsNumber r.reloadUnitsNumber) :
    (mq.goBackToInitFilter crc file h).Tracks P := by
  obtain ⟨units, hu, hlen⟩ := goBackToInitFilter_readable hread hr
  have hback : ((mq.move h r.initUnitsNumber).modifyReader h fun r => (r.goBackToInitFilter crc file).1).Tracks P := by
    refine ht.update hv ?_
    rw [hu, filterUnitsNumber, hlen]
    exact hP
  rw [goBackToInitFilter_eq hv]
  exact hback.congr rfl rfl

lemma Ok.goBackToInitFilter (hok : mq.Ok P) (hv : mq.value h = some r)
    (hread : r.Readable crc file) (ht : (mq.goBackToInitFilter crc file h).Tracks Q) :
    (mq.goBackToInitFilter crc file h).Ok Q := by
  rw [goBackToInitFilter_eq hv] at ht ⊢
  have hmove : (mq.move h r.initUnitsNumber).Ok fun _ _ => True :=
    hok.move ((hok.tracks.mono fun _ _ _ => trivial).move hv trivial)
  have hmod : ((mq.move h r.initUnitsNumber).modifyReader h fun r => (r.goBackToInitFilter crc file).1).Ok Q := by
    refine hmove.modifyReader (fun r' hr' => ?_) ht
    rw [value_move, hv] at hr'
    cases hr'
    have hr := hok.readers h r hv
    obtain ⟨units, hu, hlen⟩ := goBackToInitFilter_readable hread hr
    rw [hu]
    exact { hr with units_le := hlen.trans_le hr.reload_le }
  exact { hmod with tracks := ht }

end RallyDB.Util.MultiQueue
