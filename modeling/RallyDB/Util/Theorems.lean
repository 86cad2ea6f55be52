import RallyDB.Db.KeyEncoding
import RallyDB.Util.Lemmas.Usage

/-!
# Main results about the multi queue
-/

namespace RallyDB.Util.MultiQueue

open Table Lib

/-! ## Sample runs -/

def unitsFile : RandomAccessFile :=
  (HonestFile.reliable (writeRawFilters .bitwise [[1], [2], [3], [4], [5], [6]]) (by decide +kernel)).toRandomAccessFile

def unitsReader : FilterBlockReader where
  contents := []
  diskOffset := 0
  diskSize := 1
  initUnitsNumber := 2
  allUnitsNumber := 6
  baseLg := 11
  num := 0
  reloadUnitsNumber := 2
  accessTime := 0
  sequence := 0
  filterUnits := []

def anyPolicy : FilterPolicy where
  name := []
  createFilter keys _ := ([], keys)
  keyMayMatch _ _ _ := true

def ios (units : Nat) (r : FilterBlockReader) : Rat := (6185 / 10000 : Rat) ^ units * r.accessTime

def fewerIOs : WorthAdjusting := fun colds hot =>
  (colds.map fun r => ios (r.filterUnitsNumber - 1) r).sum + ios (hot.filterUnitsNumber + 1) hot <
    (colds.map fun r => ios r.filterUnitsNumber r).sum + ios hot.filterUnitsNumber hot

abbrev sampleStep : MultiQueue → Action → Option MultiQueue := step fewerIOs .bitwise anyPolicy

def access (h sn : Nat) : Action := .updateHandle (fun _ => unitsFile) h 0 (Db.InternalKey.encode ⟨[7], sn, .value⟩)

def adjustingRun : List Action :=
  [.insert [1] unitsReader unitsFile, .insert [2] unitsReader unitsFile, access 0 5, access 1 20000, access 1 20001]

/-- A table that is closed keeps its handle in the queue of the units it had. -/
theorem released_handle_misplaced :
    ∃ mq, run sampleStep .new [.insert [1] unitsReader unitsFile, .release 0] = some mq ∧ ¬ mq.WellPlaced := by
  obtain ⟨mq, hrun, hmap, hvalue, hcount⟩ : ∃ mq,
      run sampleStep .new [.insert [1] unitsReader unitsFile, .release 0] = some mq ∧
        mq.map = [([1], 0)] ∧ (mq.value 0).map FilterBlockReader.filterUnitsNumber = some 0 ∧
          (mq.queues 2).count 0 = 1 := exists_run (by decide +kernel)
  refine ⟨mq, hrun, fun hw => ?_⟩
  obtain ⟨r, hr, hc⟩ := hw ([1], 0) (by simp [hmap])
  have hzero : r.filterUnitsNumber = 0 := by simpa [hr] using hvalue
  have htwo := hc 2
  rw [hcount, hzero] at htwo
  cases htwo

/-- All states of a run have every registered handle in the one queue of its loaded units, just when no call
releases a handle with loaded units or reopens one whose remembered units are not the initial ones. -/
theorem wellPlaced_iff (worth : WorthAdjusting) (crc : Crc32c) (policy : FilterPolicy) (as : List Action)
    (mq : MultiQueue) (hr : run (step worth crc policy) .new as = some mq) :
    StepsMeet (step worth crc policy) KeepsPlace .new as ↔
    ∀ pre rest t, as = pre ++ rest → run (step worth crc policy) .new pre = some t → t.WellPlaced := by
  have hnew : MultiQueue.new.WellPlaced := fun p hp => by cases hp
  exact stepsMeet_iff_reached (I := Ok Anywhere) (fun _ _ _ hok hs => step_ok hok hs)
    (fun _ _ _ hok hw hs => step_wellPlaced_iff hok hw hs) ok_new hnew hr

theorem wellPlaced_iff_sample :
    ∃ mq, run sampleStep .new (adjustingRun ++ [.lookup [1], .erase [1]]) = some mq ∧ mq.WellPlaced := by
  obtain ⟨mq, hr, -⟩ : ∃ mq, run sampleStep .new (adjustingRun ++ [.lookup [1], .erase [1]]) = some mq ∧ True :=
    exists_run (by decide +kernel)
  have hmeet : StepsMeet sampleStep KeepsPlace .new (adjustingRun ++ [.lookup [1], .erase [1]]) := by decide +kernel
  exact ⟨mq, hr, (wellPlaced_iff fewerIOs .bitwise anyPolicy _ mq hr).1 hmeet _ [] mq (List.append_nil _).symm hr⟩

/-- A table that took a third unit, was closed and is opened again: three units are loaded, two are counted. -/
theorem reopened_usage_drifts :
    ∃ mq, run sampleStep .new (adjustingRun ++ [.release 1, .goBackToInitFilter unitsFile 1]) = some mq ∧
    mq.totalCharge = 3 ∧ mq.realUsage = 4 := exists_run (by decide +kernel)

/-- All states of a run have exact usage, just when every reader that is reopened goes back to the initial units. -/
theorem totalCharge_iff (worth : WorthAdjusting) (crc : Crc32c) (policy : FilterPolicy) (as : List Action)
    (mq : MultiQueue) (hr : run (step worth crc policy) .new as = some mq) :
    StepsMeet (step worth crc policy) KeepsUsage .new as ↔
    ∀ pre rest t, as = pre ++ rest → run (step worth crc policy) .new pre = some t → t.totalCharge = t.realUsage :=
  stepsMeet_iff_reached (I := Ok Anywhere) (fun _ _ _ hok hs => step_ok hok hs)
    (fun _ _ _ hok hu hs => step_usage_iff hok hu hs) ok_new rfl hr

theorem totalCharge_iff_sample :
    ∃ mq, run sampleStep .new (adjustingRun ++ [.release 0, .erase [2]]) = some mq ∧ mq.totalCharge = mq.realUsage := by
  obtain ⟨mq, hr, -⟩ : ∃ mq, run sampleStep .new (adjustingRun ++ [.release 0, .erase [2]]) = some mq ∧ True :=
    exists_run (by decide +kernel)
  have hmeet : StepsMeet sampleStep KeepsUsage .new (adjustingRun ++ [.release 0, .erase [2]]) := by decide +kernel
  exact ⟨mq, hr, (totalCharge_iff fewerIOs .bitwise anyPolicy _ mq hr).1 hmeet _ [] mq (List.append_nil _).symm hr⟩

end RallyDB.Util.MultiQueue
