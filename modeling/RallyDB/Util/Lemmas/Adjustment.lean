import RallyDB.Util.MultiQueue

/-!
# The steps of an adjustment
-/

namespace RallyDB.Util.MultiQueue

/-! ## The readers in the multi queue -/

section

open Table

variable {mq : MultiQueue} {h k : Nat}

@[simp] lemma value_move {n : Nat} : (mq.move k n).value h = mq.value h := rfl

variable (f : FilterBlockReader → FilterBlockReader)

lemma value_modifyReader : (mq.modifyReader k f).value h = if h = k then (mq.value h).map f else mq.value h := by
  rw [value, modifyReader, Lib.lookup_adjust, value]
  split_ifs
  · rw [Option.map_map, Option.map_map]
    rfl
  · rfl

@[simp] lemma value_modifyReader_self :
    (mq.modifyReader h f).value h = (mq.value h).map f := by rw [value_modifyReader, if_pos rfl]

def Holds (P : FilterBlockReader → Prop) (mq : MultiQueue) (h : Nat) : Prop := ∃ r, mq.value h = some r ∧ P r

variable {P : FilterBlockReader → Prop}

lemma Holds.modifyReader (hp : mq.Holds P h) {f : FilterBlockReader → FilterBlockReader}
    (hf : ∀ r, P r → h = k → P (f r)) : (mq.modifyReader k f).Holds P h := by
  obtain ⟨r, hr, hP⟩ := hp
  unfold Holds
  rw [value_modifyReader]
  split_ifs with hk
  · exact ⟨f r, by rw [hr, Option.map_some], hf r hP hk⟩
  · exact ⟨r, hr, hP⟩

lemma Holds.move {n : Nat} (hp : mq.Holds P h) : (mq.move k n).Holds P h := hp

variable (hevict : ∀ r, P r → P r.evictFilter.1)
include hevict

lemma Holds.evictHandle (hp : mq.Holds P h) : (mq.evictHandle k).1.Holds P h := by
  unfold MultiQueue.evictHandle
  split
  · exact hp
  · dsimp only
    split_ifs
    · exact hp.move.modifyReader fun r hr _ => hevict r hr
    · exact hp

lemma Holds.evictHandles (colds : List Nat) (hp : mq.Holds P h) : (mq.evictHandles colds).1.Holds P h := by
  induction colds generalizing mq with
  | nil => exact hp
  | cons k colds ih =>
    have hk := hp.evictHandle hevict (k := k)
    unfold MultiQueue.evictHandles
    split <;> rename_i he <;> rw [he] at hk
    · exact ih hk
    · exact hk

end

open Table Relation

inductive AdjustStep (crc : Crc32c) (io : Nat → RandomAccessFile) : MultiQueue → MultiQueue → Prop
  | state {mq : MultiQueue} (h sn : Nat) : AdjustStep crc io mq (mq.modifyReader h fun r => r.updateState sn)
  | touch {mq : MultiQueue} {h : Nat} {r : FilterBlockReader} (hr : mq.value h = some r) :
      AdjustStep crc io mq (mq.move h r.filterUnitsNumber)
  | evict {mq : MultiQueue} {h : Nat} {r : FilterBlockReader} (hr : mq.value h = some r)
      (hunits : 1 ≤ r.filterUnitsNumber) :
      AdjustStep crc io mq ((mq.move h (r.filterUnitsNumber - 1)).modifyReader h fun r => r.evictFilter.1)
  | load {mq : MultiQueue} {h : Nat} {r : FilterBlockReader} (hr : mq.value h = some r) (hload : r.canBeLoaded = true) :
      AdjustStep crc io mq ((mq.move h (r.filterUnitsNumber + 1)).modifyReader h fun r => (r.loadFilter crc (io h)).1)
  | time {mq : MultiQueue} (n : Nat) : AdjustStep crc io mq { mq with adjustmentTime := n }

variable {mq : MultiQueue} {crc : Crc32c} {io : Nat → RandomAccessFile} {worth : WorthAdjusting} {h k : Nat}

lemma evictHandle_steps : ReflTransGen (AdjustStep crc io) mq (mq.evictHandle k).1 := by
  unfold evictHandle
  split
  · exact .refl
  · rename_i r hr
    dsimp only
    split_ifs with hunits
    · exact .single (.evict hr hunits)
    · exact .refl

lemma evictHandles_steps (colds : List Nat) : ReflTransGen (AdjustStep crc io) mq (mq.evictHandles colds).1 := by
  induction colds generalizing mq with
  | nil => exact .refl
  | cons k colds ih =>
    have hk : ReflTransGen (AdjustStep crc io) mq (mq.evictHandle k).1 := evictHandle_steps
    unfold evictHandles
    split <;> rename_i he <;> rw [he] at hk
    · exact hk.trans ih
    · exact hk

def Loadable (mq : MultiQueue) (h : Nat) : Prop := mq.Holds (fun r => r.canBeLoaded = true) h

lemma canBeLoaded_evictFilter {r : FilterBlockReader} (hr : r.canBeLoaded = true) : r.evictFilter.1.canBeLoaded = true := by
  unfold FilterBlockReader.evictFilter
  split_ifs
  · exact hr
  · rw [FilterBlockReader.canBeLoaded, decide_eq_true_iff] at hr ⊢
    have hle : r.filterUnits.dropLast.length ≤ r.filterUnits.length := by
      rw [List.length_dropLast]
      exact Nat.sub_le _ _
    exact hle.trans_lt hr

lemma loadHandle_steps (hk : mq.Loadable k) : ReflTransGen (AdjustStep crc io) mq (mq.loadHandle crc io k).1 := by
  obtain ⟨r, hr, hload⟩ := hk
  unfold loadHandle
  rw [hr]
  dsimp only
  split_ifs
  · exact .single (.load hr hload)
  · exact .refl

lemma applyAdjustment_steps (colds : List Nat) (hk : mq.Loadable k) :
    ReflTransGen (AdjustStep crc io) mq (mq.applyAdjustment crc io colds k) := by
  have hsteps : ReflTransGen (AdjustStep crc io) mq (mq.evictHandles colds).1 := evictHandles_steps colds
  have hloadable : (mq.evictHandles colds).1.Loadable k :=
    Holds.evictHandles (fun r hr => canBeLoaded_evictFilter hr) colds hk
  unfold applyAdjustment
  split <;> rename_i he <;> rw [he] at hsteps hloadable
  · exact hsteps.tail (.time _)
  · have hload : ReflTransGen (AdjustStep crc io) _ _ := loadHandle_steps hloadable
    split <;> rename_i hl <;> rw [hl] at hload
    · exact (hsteps.trans hload).tail (.time _)
    · exact hsteps.trans hload

lemma adjustment_steps (sn : Nat) : ReflTransGen (AdjustStep crc io) mq (mq.adjustment worth crc io k sn) := by
  unfold adjustment
  split
  · exact .refl
  · rename_i r hr
    dsimp only
    split_ifs with hload
    · exact .refl
    · exact (ReflTransGen.single (.time _)).trans (applyAdjustment_steps _ ⟨r, hr, hload⟩)
    · exact .refl
    · exact .refl

lemma doAdjustment_eq {r : FilterBlockReader} (hr : mq.value h = some r) (sn : Nat) :
    mq.doAdjustment worth crc io h sn = (mq.move h r.filterUnitsNumber).adjustment worth crc io h sn := by
  unfold doAdjustment
  rw [hr]

lemma doAdjustment_steps (sn : Nat) : ReflTransGen (AdjustStep crc io) mq (mq.doAdjustment worth crc io k sn) := by
  unfold doAdjustment
  split
  · exact .refl
  · rename_i r hr
    exact (ReflTransGen.single (.touch hr)).trans (adjustment_steps sn)

lemma updateHandle_steps {policy : FilterPolicy} {blockOffset : Nat} {key : Slice} :
    ReflTransGen (AdjustStep crc io) mq (mq.updateHandle worth crc policy io k blockOffset key).1 := by
  unfold updateHandle
  split
  · rename_i sn _ _ _
    exact (ReflTransGen.single (.state k sn)).trans (doAdjustment_steps sn)
  · exact .refl

lemma steps_invariant {I : MultiQueue → Prop} (hI : ∀ mq mq', AdjustStep crc io mq mq' → I mq → I mq')
    {mq' : MultiQueue} (hs : ReflTransGen (AdjustStep crc io) mq mq') (h : I mq) : I mq' := by
  induction hs with
  | refl => exact h
  | tail _ hstep ih => exact hI _ _ hstep ih

variable {P : FilterBlockReader → Prop}

lemma Holds.steps (hevict : ∀ r, P r → P r.evictFilter.1) (hload : ∀ r, P r → P (r.loadFilter crc (io h)).1)
    (hstate : ∀ r sn, P r → P (r.updateState sn)) {mq' : MultiQueue}
    (hs : ReflTransGen (AdjustStep crc io) mq mq') (hp : mq.Holds P h) : mq'.Holds P h := by
  refine steps_invariant (I := fun mq => mq.Holds P h) (fun mq mq' hstep hp => ?_) hs hp
  cases hstep with
  | state k sn => exact hp.modifyReader fun r hr _ => hstate r sn hr
  | touch _ => exact hp
  | evict _ _ => exact hp.move.modifyReader fun r hr _ => hevict r hr
  | load _ _ => exact hp.move.modifyReader fun r hr hk => hk ▸ hload r hr
  | time n => exact hp

lemma updateHandle_matches {policy : FilterPolicy} {blockOffset : Nat} {key : Slice}
    (hevict : ∀ r, P r → P r.evictFilter.1) (hload : ∀ r, P r → P (r.loadFilter crc (io h)).1)
    (hp : mq.Holds P h) (hstate : ∀ r sn, P r → P (r.updateState sn))
    (hmatch : ∀ r, P r → r.keyMayMatch policy blockOffset key = true) :
    (mq.updateHandle worth crc policy io h blockOffset key).2 = true := by
  have hafter : (mq.updateHandle worth crc policy io h blockOffset key).1.Holds P h :=
    hp.steps hevict hload hstate updateHandle_steps
  unfold updateHandle at hafter ⊢
  split
  · rename_i hkey hvalue
    rw [hkey, hvalue] at hafter
    obtain ⟨r, hr, hP⟩ := hafter
    dsimp only at hr ⊢
    rw [hr]
    exact hmatch r hP
  · rfl

end RallyDB.Util.MultiQueue
