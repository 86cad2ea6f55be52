import RallyDB.Lib.Budget
import RallyDB.Util.Lemmas.Links

/-!
# The memory in use by the multi queue
-/

namespace RallyDB.Util.MultiQueue

/-! ## Which calls keep the handles in the queues of their units -/

section

open Table

variable {mq mq' : MultiQueue} {h : Nat} {r : FilterBlockReader} {worth : WorthAdjusting} {crc : Crc32c}
  {policy : FilterPolicy} {a : Action}

def WellPlaced (mq : MultiQueue) : Prop :=
  ∀ p ∈ mq.map, ∃ r, mq.value p.2 = some r ∧ Lib.LinkedAt mq.queues p.2 r.filterUnitsNumber

def KeepsPlace (mq : MultiQueue) : Action → Prop
  | .release h => ∀ r ∈ mq.value h, r.filterUnitsNumber = 0
  | .goBackToInitFilter _ h => ∀ r ∈ mq.value h, r.reloadUnitsNumber = r.initUnitsNumber
  | _ => True

instance (mq : MultiQueue) : (a : Action) → Decidable (mq.KeepsPlace a)
  | .release _ | .goBackToInitFilter .. => by unfold KeepsPlace; infer_instance
  | .insert .. | .lookup .. | .updateHandle .. | .doAdjustment .. | .erase .. => .isTrue trivial

abbrev Anywhere : Nat → Nat → Prop := fun _ _ => True

variable {P : Nat → Nat → Prop}

lemma Ok.wellPlaced_iff_tracks (hok : mq.Ok P) : mq.WellPlaced ↔ mq.Tracks (· = ·) := by
  constructor
  · intro hw a
    cases hv : mq.value a with
    | none =>
      unfold Linked
      rw [hv]
      exact (hok.tracks a).none hv
    | some r =>
      obtain ⟨q, hq, -⟩ := exists_mem_of_value hv
      have hmem : (q.key, a) ∈ mq.map := by
        rw [hok.map_eq]
        exact List.mem_map.2 ⟨(a, q), hq, rfl⟩
      obtain ⟨r', hv', hc⟩ := hw _ hmem
      exact linked_of_linkedAt hv' rfl hc
  · intro ht p hp
    rw [hok.map_eq] at hp
    obtain ⟨⟨a, q⟩, hq, rfl⟩ := List.mem_map.1 hp
    have hv := hok.value_of_mem hq
    obtain ⟨m, rfl, hc⟩ := (ht a).some hv
    exact ⟨_, hv, hc⟩

lemma step_ok_of_safe (hP : ∀ n, P n n) (hok : mq.Ok P)
    (hs : mq.step worth crc policy a = some mq') (hsafe : ∀ h, a ≠ .release h ∧ ∀ file, a ≠ .goBackToInitFilter file h) :
    mq'.Ok P := by
  unfold step at hs
  split_ifs at hs with hen
  cases hs
  cases a with
  | insert key reader file => exact hok.insert hP hen.1 hen.2.1 hen.2.2
  | lookup key => exact hok
  | updateHandle io h blockOffset key => exact (steps_ok hP updateHandle_steps hen.2.readableBy hok).2
  | doAdjustment io h sn => exact (steps_ok hP (doAdjustment_steps sn) hen.2.readableBy hok).2
  | release h => exact absurd rfl (hsafe h).1
  | goBackToInitFilter file h => exact absurd rfl ((hsafe h).2 file)
  | erase key => exact hok.erase key

lemma step_release (hs : mq.step worth crc policy (.release h) = some mq') :
    ∃ r, mq.value h = some r ∧ mq' = mq.release h := by
  unfold step at hs
  split_ifs at hs with hen
  cases hs
  obtain ⟨r, hr⟩ := Option.isSome_iff_exists.1 hen
  exact ⟨r, hr, rfl⟩

variable {file : RandomAccessFile}

lemma step_goBack (hs : mq.step worth crc policy (.goBackToInitFilter file h) = some mq') :
    ∃ r, mq.value h = some r ∧ r.Readable crc file ∧ mq' = mq.goBackToInitFilter crc file h := by
  unfold step at hs
  split_ifs at hs with hen
  cases hs
  obtain ⟨r, hr⟩ := Option.isSome_iff_exists.1 hen.1
  exact ⟨r, hr, hen.2 r hr, rfl⟩

lemma release_links (hv : mq.value h = some r) : (mq.release h).queues = mq.queues ∧
    (mq.release h).value h = some { r with reloadUnitsNumber := r.filterUnitsNumber, filterUnits := [] } := by
  rw [release_eq hv]
  refine ⟨rfl, ?_⟩
  rw [value_modifyReader_self]
  show (mq.value h).map _ = _
  rw [hv, Option.map_some, FilterBlockReader.cleanFilter_eq]
  rfl

lemma goBack_links (hok : mq.Ok P) (hv : mq.value h = some r) (hread : r.Readable crc file) :
    Lib.LinkedAt (mq.goBackToInitFilter crc file h).queues h r.initUnitsNumber ∧
    ∃ units, (mq.goBackToInitFilter crc file h).value h = some { r with filterUnits := units } ∧
    units.length = r.reloadUnitsNumber := by
  obtain ⟨units, hu, hlen⟩ := FilterBlockReader.goBackToInitFilter_readable hread (hok.readers h r hv)
  rw [goBackToInitFilter_eq hv]
  refine ⟨(hok.tracks h).atMostOnce.relink _, units, ?_, hlen⟩
  have hback : ((mq.move h r.initUnitsNumber).modifyReader h fun r => (r.goBackToInitFilter crc file).1).value h =
      (mq.value h).map fun r => (r.goBackToInitFilter crc file).1 := value_modifyReader_self _
  rw [hv, Option.map_some, hu] at hback
  exact hback

lemma step_ok (hok : mq.Ok Anywhere) (hs : mq.step worth crc policy a = some mq') : mq'.Ok Anywhere := by
  by_cases hr : ∃ h, a = .release h
  · obtain ⟨h, rfl⟩ := hr
    obtain ⟨r, hv, rfl⟩ := step_release hs
    exact hok.release hv (hok.tracks.release hv fun _ _ => trivial)
  · by_cases hg : ∃ file h, a = .goBackToInitFilter file h
    · obtain ⟨file, h, rfl⟩ := hg
      obtain ⟨r, hv, hread, rfl⟩ := step_goBack hs
      exact hok.goBackToInitFilter hv hread (hok.tracks.goBackToInitFilter hv (hok.readers h r hv) hread trivial)
    · exact step_ok_of_safe (fun _ => trivial) hok hs fun h => ⟨fun he => hr ⟨h, he⟩, fun file he => hg ⟨file, h, he⟩⟩

lemma step_wellPlaced_iff (hok : mq.Ok Anywhere) (hw : mq.WellPlaced)
    (hs : mq.step worth crc policy a = some mq') : mq'.WellPlaced ↔ mq.KeepsPlace a := by
  have hok' := step_ok hok hs
  rw [hok.wellPlaced_iff_tracks] at hw
  rw [hok'.wellPlaced_iff_tracks]
  by_cases hr : ∃ h, a = .release h
  · obtain ⟨h, rfl⟩ := hr
    obtain ⟨r, hv, rfl⟩ := step_release hs
    obtain ⟨hqueues, hvalue⟩ := release_links hv
    obtain ⟨m, rfl, hc⟩ := (hw h).some hv
    constructor
    · intro ht r' hr'
      rw [hv] at hr'
      cases hr'
      obtain ⟨m, rfl, hc'⟩ := (ht h).some hvalue
      rw [hqueues] at hc'
      exact hc.unique hc'
    · intro hk
      exact hw.release hv fun m hm => hm.trans (hk r hv)
  · by_cases hg : ∃ file h, a = .goBackToInitFilter file h
    · obtain ⟨file, h, rfl⟩ := hg
      obtain ⟨r, hv, hread, rfl⟩ := step_goBack hs
      obtain ⟨hc, units, hvalue, hlen⟩ := goBack_links hok hv hread
      constructor
      · intro ht r' hr'
        rw [hv] at hr'
        cases hr'
        obtain ⟨m, rfl, hc'⟩ := (ht h).some hvalue
        rw [← hlen]
        exact hc'.unique hc
      · intro hk
        exact hw.goBackToInitFilter hv (hok.readers h r hv) hread (hk r hv).symm
    · have hsafe := fun h => (⟨fun he => hr ⟨h, he⟩, fun file he => hg ⟨file, h, he⟩⟩ :
        a ≠ .release h ∧ ∀ file, a ≠ .goBackToInitFilter file h)
      refine ⟨fun _ => ?_, fun _ => (step_ok_of_safe (fun _ => rfl) (hok.withTracks hw) hs hsafe).tracks⟩
      cases a with
      | release h => exact absurd rfl (hsafe h).1
      | goBackToInitFilter file h => exact absurd rfl ((hsafe h).2 file)
      | _ => trivial

end

/-! ## Sums over the readers of the multi queue -/

section

/-! ## What the search for cold handles goes through -/

section

open Table Lib List UInt64

variable {mq : MultiQueue} {sn h k : Nat} {r : FilterBlockReader} {P : Nat → Nat → Prop} {memory : UInt64}
  {worth : WorthAdjusting} {crc : Crc32c} {io : Nat → RandomAccessFile}

section

variable (mq)

def unitOf (k : Nat) : Nat := ((mq.value k).map FilterBlockReader.oneUnitSize).getD 0

def coldAt (sn k : Nat) : Bool := (mq.value k).any fun r => r.isCold sn

def accessed (k : Nat) : Bool := (mq.value k).any fun r => r.accessTime ≠ 0

def coldsOf (sn : Nat) (l : List Nat) : List Nat := (l.takeWhile (mq.coldAt sn)).filter mq.accessed

def metColds (sn : Nat) : List Nat :=
  [6, 5, 4, 3, 2, 1].flatMap fun i => mq.coldsOf sn (mq.queues i).reverse

end

lemma unitOf_eq (hv : mq.value k = some r) : mq.unitOf k = r.oneUnitSize := by
  rw [unitOf, hv]
  rfl

lemma coldAt_eq_true : mq.coldAt sn k = true ↔ ∃ r, mq.value k = some r ∧ r.isCold sn = true := Option.any_eq_true _ _

lemma accessed_eq_true : mq.accessed k = true ↔ ∃ r, mq.value k = some r ∧ r.accessTime ≠ 0 := by
  unfold accessed
  rw [Option.any_eq_true]
  simp only [decide_eq_true_eq]

lemma coldsOf_cons (hcold : mq.coldAt sn k = true) (l : List Nat) :
    mq.coldsOf sn (k :: l) = if mq.accessed k then k :: mq.coldsOf sn l else mq.coldsOf sn l := by
  rw [coldsOf, takeWhile_cons_of_pos hcold, filter_cons]
  rfl

lemma coldsOf_cons_of_not (hcold : mq.coldAt sn k = false) (l : List Nat) : mq.coldsOf sn (k :: l) = [] := by
  rw [coldsOf, takeWhile_cons_of_neg (by simp [hcold])]
  rfl

lemma coldsOf_sublist (l : List Nat) : (mq.coldsOf sn l).Sublist l :=
  filter_sublist.trans (takeWhile_sublist _)

lemma metColds_sublist (mq : MultiQueue) (sn : Nat) :
    (mq.metColds sn).Sublist ([6, 5, 4, 3, 2, 1].flatMap fun i => (mq.queues i).reverse) :=
  List.Sublist.flatMap_right _ fun _ _ => coldsOf_sublist _

lemma of_mem_metColds (h : k ∈ mq.metColds sn) : ∃ r, mq.value k = some r ∧ r.isCold sn = true ∧ r.accessTime ≠ 0 := by
  obtain ⟨i, -, hk⟩ := mem_flatMap.1 h
  obtain ⟨hk, haccess⟩ := mem_filter.1 hk
  obtain ⟨r, hv, hcold⟩ := coldAt_eq_true.1 (all_eq_true.1 all_takeWhile k hk)
  obtain ⟨r', hv', htime⟩ := accessed_eq_true.1 haccess
  cases hv.symm.trans hv'
  exact ⟨r, hv, hcold, htime⟩

lemma pos_iff_ne_zero : 0 < memory ↔ memory ≠ 0 := by
  rw [UInt64.lt_iff_toNat_lt, ← UInt64.toNat_inj.ne]
  exact Nat.pos_iff_ne_zero

lemma findColdInQueue_eq (l : List Nat) (memory : UInt64) (filters : List Nat) (hpos : memory ≠ 0) :
    mq.findColdInQueue sn l memory filters =
    ((takeBudget mq.unitOf (mq.coldsOf sn l) memory).1, filters ++ (takeBudget mq.unitOf (mq.coldsOf sn l) memory).2) := by
  induction l generalizing memory filters with
  | nil => simp [findColdInQueue, coldsOf, takeBudget]
  | cons k l ih =>
    unfold findColdInQueue
    cases hv : mq.value k with
    | none =>
      have hcold : mq.coldAt sn k = false := by rw [coldAt, hv]; rfl
      rw [coldsOf_cons_of_not hcold]
      simp [takeBudget]
    | some r =>
      have hcold : mq.coldAt sn k = r.isCold sn := by rw [coldAt, hv]; rfl
      have haccess : mq.accessed k = decide (r.accessTime ≠ 0) := by rw [accessed, hv]; rfl
      dsimp only
      cases hc : r.isCold sn with
      | false =>
        rw [coldsOf_cons_of_not (hcold.trans hc)]
        simp [takeBudget]
      | true =>
        rw [coldsOf_cons (hcold.trans hc), haccess, if_pos rfl]
        by_cases ht : r.accessTime ≠ 0
        · rw [if_pos ht, if_pos (decide_eq_true ht), takeBudget_cons hpos, unitOf_eq hv]
          dsimp only
          by_cases hleft : memory - ofNat r.oneUnitSize = 0
          · rw [hleft, takeBudget_zero, if_neg (by simp)]
          · rw [if_pos (pos_iff_ne_zero.2 hleft), ih _ _ hleft, append_assoc]
            rfl
        · have hnot : ¬ decide (r.accessTime ≠ 0) = true := fun h => ht (of_decide_eq_true h)
          rw [if_neg ht, if_neg hnot]
          dsimp only
          rw [if_pos (pos_iff_ne_zero.2 hpos)]
          exact ih memory filters hpos

lemma findColdInQueues_eq (is : List Nat) (memory : UInt64) (filters : List Nat) : mq.findColdInQueues sn is memory filters =
    ((takeBudget mq.unitOf (is.flatMap fun i => mq.coldsOf sn (mq.queues i).reverse) memory).1,
    filters ++ (takeBudget mq.unitOf (is.flatMap fun i => mq.coldsOf sn (mq.queues i).reverse) memory).2) := by
  induction is generalizing memory filters with
  | nil => simp [findColdInQueues, takeBudget]
  | cons i is ih =>
    unfold findColdInQueues
    by_cases hpos : memory = 0
    · subst hpos
      rw [takeBudget_zero, append_nil]
      rfl
    · rw [if_pos (pos_iff_ne_zero.2 hpos), findColdInQueue_eq _ _ _ hpos]
      dsimp only
      rw [ih, flatMap_cons, takeBudget_append, append_assoc]

lemma findColdFilter_eq (memory : UInt64) (sn : Nat) :
    mq.findColdFilter memory sn = pickBudget mq.unitOf (mq.metColds sn) memory := by
  unfold findColdFilter
  rw [findColdInQueues_eq]
  rfl

lemma findColdFilter_spec (ht : mq.Tracks P) (memory : UInt64) (sn : Nat) (hne : mq.findColdFilter memory sn ≠ []) :
    (mq.findColdFilter memory sn).Nodup ∧
    (∀ k ∈ mq.findColdFilter memory sn, ∃ r, mq.value k = some r ∧ r.isCold sn = true ∧ r.accessTime ≠ 0) ∧
    ofNat ((mq.findColdFilter memory sn).map mq.unitOf).sum = memory := by
  rw [findColdFilter_eq] at hne ⊢
  obtain ⟨hfront, hsum⟩ := pickBudget_of_ne_nil hne
  have hsub := hfront.sublist.trans (mq.metColds_sublist sn)
  refine ⟨(nodup_flatMap_reverse (fun a => (ht a).atMostOnce) (by decide)).sublist hsub, fun k hk => ?_, hsum⟩
  exact of_mem_metColds (hfront.mem hk)

def Attempts (worth : WorthAdjusting) (mq : MultiQueue) (hot sn : Nat) (r : FilterBlockReader) : Prop :=
  r.canBeLoaded = true ∧ mq.findColdFilter (UInt64.ofNat r.oneUnitSize) sn ≠ [] ∧
    mq.canBeAdjusted worth (mq.findColdFilter (UInt64.ofNat r.oneUnitSize) sn) hot = true

lemma adjustment_of_not_attempts (hv : mq.value h = some r) (hnot : ¬ mq.Attempts worth h sn r) :
    mq.adjustment worth crc io h sn = mq := by
  unfold adjustment
  rw [hv]
  dsimp only
  split_ifs with hload hne hcan
  · rfl
  · exact absurd ⟨hload, hne, hcan⟩ hnot
  · rfl
  · rfl

lemma adjustment_of_attempts (hv : mq.value h = some r) (ha : mq.Attempts worth h sn r) :
    mq.adjustment worth crc io h sn = { mq with adjustmentTime := mq.adjustmentTime + 1 }.applyAdjustment crc io
    (mq.findColdFilter (ofNat r.oneUnitSize) sn) h := by
  unfold adjustment
  rw [hv]
  dsimp only
  rw [if_pos ha.1, if_neg ha.2.1, if_pos ha.2.2]

lemma Attempts.colds (ht : mq.Tracks P) (hv : mq.value h = some r) (ha : mq.Attempts worth h sn r) :
    (mq.findColdFilter (ofNat r.oneUnitSize) sn).Nodup ∧
    (∀ k ∈ mq.findColdFilter (ofNat r.oneUnitSize) sn, ∃ c, mq.value k = some c ∧ c.isCold sn = true ∧
    c.accessTime ≠ 0 ∧ 1 ≤ c.filterUnitsNumber) ∧
    ofNat ((mq.findColdFilter (ofNat r.oneUnitSize) sn).map mq.unitOf).sum = ofNat r.oneUnitSize := by
  obtain ⟨-, hne, hcan⟩ := ha
  obtain ⟨hnodup, hfound, hmemory⟩ := findColdFilter_spec ht (ofNat r.oneUnitSize) sn hne
  rw [canBeAdjusted, hv, Bool.and_eq_true, all_eq_true] at hcan
  refine ⟨hnodup, fun k hk => ?_, hmemory⟩
  obtain ⟨c, hc, hcold, haccess⟩ := hfound k hk
  exact ⟨c, hc, hcold, haccess, of_decide_eq_true (hcan.1 c (mem_filterMap.2 ⟨k, hk, hc⟩))⟩

lemma Attempts.worthAdjusting (hv : mq.value h = some r) (ha : mq.Attempts worth h sn r) :
    worth ((mq.findColdFilter (ofNat r.oneUnitSize) sn).filterMap mq.value) r = true := by
  have hcan := ha.2.2
  rw [canBeAdjusted, hv, Bool.and_eq_true] at hcan
  exact hcan.2

end

open Table List FilterBlockReader
open Prod (fst)

def readerTotal {M : Type*} [AddCommMonoid M] (g : FilterBlockReader → M) (mq : MultiQueue) : M :=
  Lib.total (fun q => g q.reader) mq.handles

variable {mq : MultiQueue} {h k : Nat} {r : FilterBlockReader} {crc : Crc32c} {io : Nat → RandomAccessFile}
  {M : Type*} [AddCommMonoid M]

variable (g : FilterBlockReader → M)

lemma readerTotal_modifyReader (haddresses : (mq.handles.map fst).Nodup)
    (hv : mq.value h = some r) (f : FilterBlockReader → FilterBlockReader) :
    (mq.modifyReader h f).readerTotal g + g r = mq.readerTotal g + g (f r) := by
  obtain ⟨q, hq, rfl⟩ := Option.map_eq_some_iff.1 hv
  exact Lib.total_adjust (f := fun q : QueueHandle => { q with reader := f q.reader }) (fun q => g q.reader) haddresses hq

/-! ## Evicting and loading -/

lemma evictHandle_eq (hv : mq.value k = some r) (hunits : 1 ≤ r.filterUnitsNumber) : mq.evictHandle k =
    ((mq.move k (r.filterUnitsNumber - 1)).modifyReader k fun r => r.evictFilter.1, .ok ()) := by
  unfold evictHandle
  rw [hv]
  dsimp only
  rw [if_pos hunits, evictFilter_eq hunits]

structure Evicted (mq : MultiQueue) (colds : List Nat) (mq' : MultiQueue) : Prop where
  addresses : mq'.handles.map Prod.fst = mq.handles.map Prod.fst
  value : ∀ a, mq'.value a = if a ∈ colds then (mq.value a).map fun r => r.evictFilter.1 else mq.value a

def ofReader (mq : MultiQueue) (a : Nat) : M := ((mq.value a).map g).getD 0

lemma ofReader_eq (hv : mq.value k = some r) : mq.ofReader g k = g r := by
  rw [ofReader, hv]
  rfl

lemma evictHandles_evicted (haddresses : (mq.handles.map fst).Nodup) {colds : List Nat}
    (hnodup : colds.Nodup) (hcold : ∀ k ∈ colds, ∃ r, mq.value k = some r ∧ 1 ≤ r.filterUnitsNumber) :
    mq.Evicted colds (mq.evictHandles colds).1 ∧ (mq.evictHandles colds).2 = .ok () ∧
    (mq.evictHandles colds).1.readerTotal g + (colds.map (mq.ofReader g)).sum =
    mq.readerTotal g + (colds.map (mq.ofReader fun r => g r.evictFilter.1)).sum := by
  induction colds generalizing mq with
  | nil => exact ⟨⟨rfl, by simp [evictHandles]⟩, rfl, rfl⟩
  | cons k colds ih =>
    obtain ⟨r, hv, hunits⟩ := hcold k mem_cons_self
    rw [nodup_cons] at hnodup
    rw [evictHandles, evictHandle_eq hv hunits]
    dsimp only
    have hmoved : ((mq.move k (r.filterUnitsNumber - 1)).handles.map fst).Nodup := haddresses
    have htotal := readerTotal_modifyReader g hmoved hv fun r => r.evictFilter.1
    have hkeys : (((mq.move k (r.filterUnitsNumber - 1)).modifyReader k fun r => r.evictFilter.1).handles.map fst) =
        mq.handles.map fst := by
      rw [modifyReader, Lib.keys_adjust]
      rfl
    have hvalue : ∀ a, ((mq.move k (r.filterUnitsNumber - 1)).modifyReader k fun r => r.evictFilter.1).value a =
        if a = k then (mq.value a).map fun r => r.evictFilter.1 else mq.value a := fun a => by
      rw [value_modifyReader, value_move]
    generalize (mq.move k (r.filterUnitsNumber - 1)).modifyReader k (fun r => r.evictFilter.1) = mq1 at htotal hkeys hvalue ⊢
    have hother : ∀ a ∈ colds, mq1.value a = mq.value a := fun a ha => by
      rw [hvalue, if_neg (ne_of_mem_of_not_mem ha hnodup.1)]
    obtain ⟨⟨haddr, hval⟩, hok, hsum⟩ := ih (hkeys ▸ haddresses) hnodup.2 fun a ha => by
      rw [hother a ha]
      exact hcold a (mem_cons_of_mem _ ha)
    refine ⟨⟨haddr.trans hkeys, fun a => ?_⟩, hok, ?_⟩
    · rw [hval, hvalue]
      by_cases hak : a = k
      · simp [hak, hnodup.1]
      · simp [hak]
    · have hmap : ∀ g' : FilterBlockReader → M, colds.map (mq1.ofReader g') = colds.map (mq.ofReader g') := fun g' =>
        map_congr_left fun a ha => by rw [ofReader, ofReader, hother a ha]
      rw [hmap, hmap] at hsum
      have hmove : (mq.move k (r.filterUnitsNumber - 1)).readerTotal g = mq.readerTotal g := rfl
      rw [hmove] at htotal
      rw [map_cons, map_cons, sum_cons, sum_cons, ofReader_eq _ hv, ofReader_eq _ hv, add_left_comm, hsum,
        add_left_comm, ← add_assoc, htotal, add_assoc]

lemma loadHandle_loaded (haddresses : (mq.handles.map fst).Nodup)
    (hv : mq.value h = some r) (hread : r.Readable crc (io h)) (hload : r.canBeLoaded = true)
    (hle : r.allUnitsNumber ≤ kAllFilterUnitsNumber) : ∃ mq', mq.loadHandle crc io h = (mq', .ok ()) ∧
    (∀ a, mq'.value a = if a = h then some (r.loadFilter crc (io h)).1 else mq.value a) ∧
    mq'.readerTotal g + g r = mq.readerTotal g + g (r.loadFilter crc (io h)).1 := by
  have hlt : r.filterUnitsNumber < r.allUnitsNumber := of_decide_eq_true hload
  obtain ⟨data, hd⟩ := loadFilter_readable hread hlt
  refine ⟨(mq.move h (r.filterUnitsNumber + 1)).modifyReader h fun r => (r.loadFilter crc (io h)).1, ?_, fun a => ?_, ?_⟩
  · unfold loadHandle
    rw [hv]
    dsimp only
    rw [if_pos (hlt.trans_le hle), hd]
  · rw [value_modifyReader, value_move]
    split_ifs with ha
    · rw [ha, hv]
      rfl
    · rfl
  · have hmoved : ((mq.move h (r.filterUnitsNumber + 1)).handles.map fst).Nodup := haddresses
    exact readerTotal_modifyReader g hmoved hv _

lemma size_evictFilter (hunits : 1 ≤ r.filterUnitsNumber) : r.evictFilter.1.size + r.oneUnitSize = r.size := by
  have hu := evictFilter_units hunits
  have hd : r.evictFilter.1.diskSize = r.diskSize := sameFilter_evictFilter.diskSize
  obtain ⟨n, hn⟩ := Nat.exists_eq_add_of_le' hunits
  rw [size, size, oneUnitSize, hu, hd, hn, Nat.add_sub_cancel, Nat.succ_mul]

lemma sum_sizes_evict {colds : List Nat} (hcold : ∀ k ∈ colds, ∃ r, mq.value k = some r ∧ 1 ≤ r.filterUnitsNumber) :
    (colds.map (mq.ofReader fun r => r.evictFilter.1.size)).sum + (colds.map mq.unitOf).sum =
    (colds.map (mq.ofReader size)).sum := by
  rw [← sum_map_add]
  refine congrArg List.sum (map_congr_left fun k hk => ?_)
  obtain ⟨r, hv, hunits⟩ := hcold k hk
  rw [ofReader_eq _ hv, ofReader_eq _ hv, ← size_evictFilter hunits, unitOf, hv]
  rfl

end

open Table Relation FilterBlockReader
open UInt64 (ofNat ofNat_add ofNat_mul)

variable {mq mq' : MultiQueue} {h k : Nat} {r : FilterBlockReader} {P : Nat → Nat → Prop}

def sizes (mq : MultiQueue) : Nat := Lib.total (fun q => q.reader.size) mq.handles

lemma sizes_modifyReader (hok : mq.Ok P) (hv : mq.value h = some r) (f : FilterBlockReader → FilterBlockReader) :
    (mq.modifyReader h f).sizes + r.size = mq.sizes + (f r).size :=
  readerTotal_modifyReader size hok.addresses hv f

lemma evictHandles_sizes (haddresses : (mq.handles.map Prod.fst).Nodup) {colds : List Nat} (hnodup : colds.Nodup)
    (hcold : ∀ k ∈ colds, ∃ r, mq.value k = some r ∧ 1 ≤ r.filterUnitsNumber) :
    ∃ mq', mq.evictHandles colds = (mq', .ok ()) ∧ mq'.sizes + (colds.map mq.unitOf).sum = mq.sizes := by
  obtain ⟨-, hok, htotal⟩ := evictHandles_evicted size haddresses hnodup hcold
  have hunits := sum_sizes_evict hcold
  change (mq.evictHandles colds).1.sizes + _ = mq.sizes + _ at htotal
  exact ⟨(mq.evictHandles colds).1, by rw [← hok], by omega⟩

variable {crc : Crc32c} {io : Nat → RandomAccessFile} {worth : WorthAdjusting}

variable {file : RandomAccessFile}

lemma size_loadFilter (hread : r.Readable crc file) (hload : r.canBeLoaded = true) :
    (r.loadFilter crc file).1.size = r.size + r.oneUnitSize := by
  have hd : (r.loadFilter crc file).1.diskSize = r.diskSize := sameFilter_loadFilter.diskSize
  rw [size, size, oneUnitSize, loadFilter_units hread hload, hd, Nat.succ_mul]

section

variable (hok : mq.Ok Anywhere) (ha : mq.ReadableBy crc io)
include hok ha

lemma loadHandle_sizes (hv : mq.value k = some r) (hload : r.canBeLoaded = true) :
    ∃ mq', mq.loadHandle crc io k = (mq', .ok ()) ∧ mq'.sizes = mq.sizes + r.oneUnitSize := by
  obtain ⟨mq', hmq', -, htotal⟩ := loadHandle_loaded size hok.addresses hv (ha k r hv) hload (hok.readers k r hv).all_le
  rw [size_loadFilter (ha k r hv) hload] at htotal
  change mq'.sizes + _ = mq.sizes + _ at htotal
  exact ⟨mq', hmq', by omega⟩

lemma applyAdjustment_sizes {colds : List Nat}
    (hnodup : colds.Nodup) (hcold : ∀ k ∈ colds, ∃ r, mq.value k = some r ∧ 1 ≤ r.filterUnitsNumber)
    (hv : mq.value k = some r) (hload : r.canBeLoaded = true) :
    (mq.applyAdjustment crc io colds k).sizes + (colds.map mq.unitOf).sum = mq.sizes + r.oneUnitSize := by
  obtain ⟨mq', he, hsum⟩ := evictHandles_sizes hok.addresses hnodup hcold
  have hsteps : ReflTransGen (AdjustStep crc io) mq (mq.evictHandles colds).1 := evictHandles_steps colds
  have hhot : mq.Holds (fun x => x.canBeLoaded = true ∧ x.oneUnitSize = r.oneUnitSize) k := ⟨r, hv, hload, rfl⟩
  have hhot' := hhot.evictHandles (fun x hx => ⟨canBeLoaded_evictFilter hx.1,
    sameFilter_evictFilter.diskSize.trans hx.2⟩) colds
  rw [he] at hsteps hhot'
  dsimp only at hsteps hhot'
  obtain ⟨r', hv', hload', hunit⟩ := hhot'
  obtain ⟨ha', hok'⟩ := steps_ok (fun _ => trivial) hsteps ha hok
  obtain ⟨mq'', hl, hsize⟩ := loadHandle_sizes hok' ha' hv' hload'
  unfold applyAdjustment
  rw [he]
  dsimp only
  rw [hl]
  dsimp only
  omega

lemma adjustment_sizes (sn : Nat) : ofNat (mq.adjustment worth crc io k sn).sizes = ofNat mq.sizes := by
  cases hv : mq.value k with
  | none =>
    unfold adjustment
    rw [hv]
  | some r =>
    by_cases hattempts : mq.Attempts worth k sn r
    · obtain ⟨hnodup, hfound, hmemory⟩ := hattempts.colds hok.tracks hv
      have hcold : ∀ c ∈ mq.findColdFilter (ofNat r.oneUnitSize) sn,
          ∃ r, mq.value c = some r ∧ 1 ≤ r.filterUnitsNumber := fun c hc =>
        (hfound c hc).imp fun _ hr => ⟨hr.1, hr.2.2.2⟩
      have hok' : ({ mq with adjustmentTime := mq.adjustmentTime + 1 } : MultiQueue).Ok Anywhere :=
        { hok with tracks := hok.tracks }
      have hsizes : (({ mq with adjustmentTime := mq.adjustmentTime + 1 } : MultiQueue).applyAdjustment crc io
          (mq.findColdFilter (ofNat r.oneUnitSize) sn) k).sizes +
            ((mq.findColdFilter (ofNat r.oneUnitSize) sn).map mq.unitOf).sum = mq.sizes + r.oneUnitSize :=
        applyAdjustment_sizes hok' ha hnodup hcold hv hattempts.1
      have hcast := congrArg ofNat hsizes
      rw [ofNat_add, ofNat_add, hmemory] at hcast
      rw [adjustment_of_attempts hv hattempts]
      exact (UInt64.add_left_inj _).1 hcast
    · rw [adjustment_of_not_attempts hv hattempts]

lemma doAdjustment_sizes (sn : Nat) : ofNat (mq.doAdjustment worth crc io k sn).sizes = ofNat mq.sizes := by
  unfold doAdjustment
  split
  · rfl
  · rename_i r hv
    have htouch : AdjustStep crc io mq (mq.move k r.filterUnitsNumber) := .touch hv
    exact adjustment_sizes (htouch.ok (fun _ => trivial) ha hok) (htouch.readableBy ha) sn

end

lemma AdjustStep.usage_eq (hs : AdjustStep crc io mq mq') : mq'.usage = mq.usage := by
  cases hs <;> rfl

lemma steps_usage (hs : ReflTransGen (AdjustStep crc io) mq mq') : mq'.usage = mq.usage :=
  steps_invariant (I := fun m => m.usage = mq.usage) (fun _ _ hstep h => hstep.usage_eq.trans h) hs rfl

/-! ## Exact usage -/

def realUsage (mq : MultiQueue) : UInt64 :=
  UInt64.ofNat (mq.map.map fun p => ((mq.value p.2).map FilterBlockReader.size).getD 0).sum

lemma Ok.realUsage_eq (hok : mq.Ok P) : mq.realUsage = ofNat mq.sizes := by
  have hmap : (mq.map.map fun p => ((mq.value p.2).map size).getD 0) = mq.handles.map fun p => p.2.reader.size := by
    rw [hok.map_eq, List.map_map]
    refine List.map_congr_left fun p hp => ?_
    dsimp only [Function.comp]
    rw [hok.value_of_mem hp]
    rfl
  rw [realUsage, hmap]
  rfl

lemma updateHandle_sizes {policy : FilterPolicy} {blockOffset : Nat} {key : Slice} (hok : mq.Ok Anywhere)
    (ha : mq.ReadableBy crc io) :
    ofNat (mq.updateHandle worth crc policy io k blockOffset key).1.sizes = ofNat mq.sizes := by
  unfold updateHandle
  split
  · rename_i sn r _ hv
    have hstate : AdjustStep crc io mq (mq.modifyReader k fun r => r.updateState sn) := .state k sn
    have hsize := sizes_modifyReader hok hv fun r => r.updateState sn
    have hsame : (r.updateState sn).size = r.size := rfl
    rw [hsame, Nat.add_right_cancel_iff] at hsize
    rw [← hsize]
    exact doAdjustment_sizes (hstate.ok (fun _ => trivial) ha hok) (hstate.readableBy ha) sn
  · rfl

def KeepsUsage (mq : MultiQueue) : Action → Prop
  | .goBackToInitFilter _ h => ∀ r ∈ mq.value h, r.reloadUnitsNumber = r.initUnitsNumber ∨ r.oneUnitSize = 0
  | _ => True

instance (mq : MultiQueue) : (a : Action) → Decidable (mq.KeepsUsage a)
  | .goBackToInitFilter .. => by unfold KeepsUsage; infer_instance
  | .insert .. | .lookup .. | .updateHandle .. | .doAdjustment .. | .release .. | .erase .. => .isTrue trivial

lemma insert_usage (hok : mq.Ok P) {key : Slice} {reader : FilterBlockReader}
    (hkey : mq.lookup key = none) (hfresh : reader.Fresh) (hread : reader.Readable crc file)
    (hu : mq.usage = ofNat mq.sizes) :
    (mq.insert crc file key reader).usage = ofNat (mq.insert crc file key reader).sizes := by
  obtain ⟨units, hunits, hlen⟩ := initLoadFilter_readable hread hfresh
  have hsize : ({ reader with filterUnits := units } : FilterBlockReader).size =
      reader.initUnitsNumber * reader.oneUnitSize := by
    rw [size, filterUnitsNumber, hlen]
    rfl
  rw [insert_eq hok hkey, hunits]
  dsimp only [sizes]
  rw [Lib.total_cons, hsize, ofNat_add, hu, UInt64.add_comm]
  rfl

lemma erase_usage (hok : mq.Ok P) (key : Slice) (hu : mq.usage = ofNat mq.sizes) :
    (mq.erase key).usage = ofNat (mq.erase key).sizes := by
  cases hl : mq.lookup key with
  | none =>
    rw [erase_of_none hl]
    exact hu
  | some h =>
    obtain ⟨q, hq, -, hv⟩ := hok.lookup_some hl
    have hsum := congrArg ofNat
      (Lib.total_remove (fun q : QueueHandle => q.reader.size) hok.addresses (Lib.lookup_of_mem hok.addresses hq))
    rw [ofNat_add] at hsum
    rw [erase_eq hl hv]
    dsimp only [sizes]
    rw [hu, sizes, ← hsum, UInt64.add_sub_cancel]

lemma release_usage (hok : mq.Ok P) (hv : mq.value h = some r) (hu : mq.usage = ofNat mq.sizes) :
    (mq.release h).usage = ofNat (mq.release h).sizes := by
  have hsize := sizes_modifyReader hok hv fun r => r.cleanFilter.1
  have hzero : r.cleanFilter.1.size = 0 := by
    rw [cleanFilter_eq]
    exact zero_mul _
  rw [hzero, add_zero] at hsize
  have hsum := congrArg ofNat hsize
  rw [ofNat_add] at hsum
  rw [release_eq hv]
  show mq.usage - ofNat r.size = ofNat (mq.modifyReader h fun r => r.cleanFilter.1).sizes
  rw [hu, ← hsum, UInt64.add_sub_cancel]

lemma goBack_usage_iff (hok : mq.Ok P) (hv : mq.value h = some r)
    (hread : r.Readable crc file) (hu : mq.usage = ofNat mq.sizes) :
    (mq.goBackToInitFilter crc file h).usage = ofNat (mq.goBackToInitFilter crc file h).sizes ↔
    r.reloadUnitsNumber = r.initUnitsNumber ∨ r.oneUnitSize = 0 := by
  have hr := hok.readers h r hv
  obtain ⟨units, hunits, hlen⟩ := goBackToInitFilter_readable hread hr
  have hmoved : (mq.move h r.initUnitsNumber).Ok Anywhere :=
    hok.move ((hok.tracks.mono fun _ _ _ => trivial).move hv trivial)
  have hsize : ((mq.move h r.initUnitsNumber).modifyReader h fun r => (r.goBackToInitFilter crc file).1).sizes +
      r.filterUnitsNumber * r.oneUnitSize = mq.sizes + r.reloadUnitsNumber * r.oneUnitSize := by
    have hmod := sizes_modifyReader hmoved hv fun r => (r.goBackToInitFilter crc file).1
    have hafter : (r.goBackToInitFilter crc file).1.size = r.reloadUnitsNumber * r.oneUnitSize := by
      rw [hunits, size, filterUnitsNumber, hlen]
      rfl
    rw [hafter] at hmod
    exact hmod
  have hsum := congrArg ofNat hsize
  rw [ofNat_add, ofNat_add, ← hu, ofNat_mul, ofNat_mul] at hsum
  have hback : (mq.goBackToInitFilter crc file h).usage = ofNat (mq.goBackToInitFilter crc file h).sizes ↔
      ofNat (r.initUnitsNumber * r.oneUnitSize) = ofNat (r.reloadUnitsNumber * r.oneUnitSize) := by
    rw [goBackToInitFilter_eq hv]
    show mq.usage + _ = ofNat ((mq.move h r.initUnitsNumber).modifyReader h fun r =>
      (r.goBackToInitFilter crc file).1).sizes ↔ _
    rw [ofNat_mul, ofNat_mul]
    constructor <;> intro he <;> grind
  have hsix : (6 : Nat) * 2 ^ 32 < 2 ^ 64 := by decide
  have hbound : ∀ n ≤ r.allUnitsNumber, n * r.oneUnitSize < 2 ^ 64 := fun n hn =>
    (Nat.mul_le_mul (hn.trans hr.all_le) hr.size_lt.le).trans_lt hsix
  rw [hback, ← UInt64.toNat_inj, UInt64.toNat_ofNat_of_lt' (hbound _ hr.init_le),
    UInt64.toNat_ofNat_of_lt' (hbound _ hr.reload_le), mul_eq_mul_right_iff, eq_comm (a := r.initUnitsNumber)]

lemma step_usage_iff {policy : FilterPolicy} {a : Action} (hok : mq.Ok Anywhere)
    (hu : mq.totalCharge = mq.realUsage) (hs : mq.step worth crc policy a = some mq') :
    mq'.totalCharge = mq'.realUsage ↔ mq.KeepsUsage a := by
  have hok' := step_ok hok hs
  rw [totalCharge, hok.realUsage_eq] at hu
  rw [totalCharge, hok'.realUsage_eq]
  have hen : mq.Enabled crc a ∧ mq.apply worth crc policy a = mq' := by
    unfold step at hs
    split_ifs at hs with hen
    exact ⟨hen, Option.some.inj hs⟩
  obtain ⟨hen, rfl⟩ := hen
  cases a with
  | insert key reader file => exact iff_of_true (insert_usage hok hen.1 hen.2.1 hen.2.2 hu) trivial
  | lookup key => exact iff_of_true hu trivial
  | updateHandle io h blockOffset key =>
    refine iff_of_true ?_ trivial
    have hsteps : ReflTransGen (AdjustStep crc io) mq (mq.updateHandle worth crc policy io h blockOffset key).1 :=
      updateHandle_steps
    exact (steps_usage hsteps).trans (hu.trans (updateHandle_sizes hok hen.2.readableBy).symm)
  | doAdjustment io h sn =>
    refine iff_of_true ?_ trivial
    have hsteps : ReflTransGen (AdjustStep crc io) mq (mq.doAdjustment worth crc io h sn) := doAdjustment_steps sn
    exact (steps_usage hsteps).trans (hu.trans (doAdjustment_sizes hok hen.2.readableBy sn).symm)
  | release h =>
    obtain ⟨r, hv⟩ := Option.isSome_iff_exists.1 hen
    exact iff_of_true (release_usage hok hv hu) trivial
  | goBackToInitFilter file h =>
    obtain ⟨r, hv⟩ := Option.isSome_iff_exists.1 hen.1
    refine (goBack_usage_iff hok hv (hen.2 r hv) hu).trans ⟨fun hc r' hr' => ?_, fun hc => hc r hv⟩
    cases hv.symm.trans hr'
    exact hc
  | erase key => exact iff_of_true (erase_usage hok key hu) trivial

end RallyDB.Util.MultiQueue
