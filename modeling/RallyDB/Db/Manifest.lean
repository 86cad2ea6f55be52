import RallyDB.Db.LogReader
import RallyDB.Db.VersionEdit

/-!
# The manifest (`db/version_set.cc`, `DBImpl::NewDB`)
-/

namespace RallyDB.Db.Descriptor

open Util Table Lib

/-! ## `VersionSet::Builder` -/

abbrev Version := Nat → List FileMetaData

def bySmallestKey (f g : FileMetaData) : Bool :=
  match internalKeyCompare f.smallest g.smallest with
  | .lt => true
  | .gt => false
  | .eq => decide (f.number < g.number)

structure LevelState where
  deletedFiles : List Nat
  addedFiles : List FileMetaData

structure Builder where
  base : Version
  levels : Nat → LevelState

def Builder.new (base : Version) : Builder := ⟨base, fun _ => ⟨[], []⟩⟩

def LevelState.deleteFile (s : LevelState) (number : Nat) : LevelState :=
  { s with deletedFiles := number :: s.deletedFiles }

def LevelState.addFile (s : LevelState) (f : FileMetaData) : LevelState where
  deletedFiles := s.deletedFiles.filter (· ≠ f.number)
  addedFiles := setInsert bySmallestKey f s.addedFiles

def LevelState.apply (s : LevelState) (deleted : List Nat) (new : List FileMetaData) : LevelState :=
  new.foldl addFile (deleted.foldl deleteFile s)

def VersionEdit.deletedAt (edit : VersionEdit) (level : Nat) : List Nat :=
  (edit.deletedFiles.filter (·.1 = level)).map (·.2)

def VersionEdit.newAt (edit : VersionEdit) (level : Nat) : List FileMetaData :=
  (edit.newFiles.filter (·.1 = level)).map (·.2)

def Builder.apply (b : Builder) (edit : VersionEdit) : Builder :=
  { b with levels := fun level => (b.levels level).apply (edit.deletedAt level) (edit.newAt level) }

def Builder.saveTo (b : Builder) : Version := fun level =>
  (setMerge bySmallestKey (b.base level) (b.levels level).addedFiles).filter
    fun f => f.number ∉ (b.levels level).deletedFiles

def applyPointers (pointers : Nat → Slice) (edit : VersionEdit) : Nat → Slice :=
  edit.compactPointers.foldl (fun p q => Function.update p q.1 q.2) pointers

/-! ## `VersionSet` -/

structure VersionSet where
  nextFileNumber : Nat
  manifestFileNumber : Nat
  lastSequence : Nat
  logNumber : Nat
  prevLogNumber : Nat
  descriptorLog : Option Log.Writer
  compactPointer : Nat → Slice
  current : Version

def VersionSet.new : VersionSet where
  nextFileNumber := 2
  manifestFileNumber := 0
  lastSequence := 0
  logNumber := 0
  prevLogNumber := 0
  descriptorLog := none
  compactPointer := fun _ => []
  current := fun _ => []

structure Disk where
  current : Nat
  manifest : Nat → Slice

def VersionSet.snapshotEdit (vs : VersionSet) (name : Slice) : VersionEdit where
  comparator := some name
  compactPointers := ((List.range kNumLevels).filter fun level => vs.compactPointer level ≠ []).map
    fun level => (level, vs.compactPointer level)
  newFiles := (List.range kNumLevels).flatMap fun level => (vs.current level).map fun f => (level, f)

structure Faults where
  newWritableFile : Bool := false
  snapshot : List (Option Nat) := []
  addRecord : List (Option Nat) := []
  sync : Bool := false
  setCurrentFile : Bool := false

variable (crc : Crc32c)

def addRecordWith (w : Log.Writer) (faults : List (Option Nat)) (record : Slice) : Log.Writer × Status :=
  let r := Log.Writer.addRecord crc { w with dest := { w.dest with faults := faults } } record
  ({ r.1 with dest := { r.1.dest with faults := [] } }, r.2)

def VersionSet.complete (vs : VersionSet) (edit : VersionEdit) : VersionEdit :=
  { edit with
    logNumber := some (edit.logNumber.getD vs.logNumber)
    prevLogNumber := some (edit.prevLogNumber.getD vs.prevLogNumber)
    nextFileNumber := some vs.nextFileNumber
    lastSequence := some vs.lastSequence }

def VersionSet.openDescriptor (vs : VersionSet) (name : Slice) (faults : Faults) : Option Log.Writer × Status :=
  match vs.descriptorLog with
  | some w => (some w, .ok ())
  | none =>
    if faults.newWritableFile then (none, .error (.ioError "new manifest"))
    else
      let r := addRecordWith crc (.new ⟨[], []⟩) faults.snapshot (vs.snapshotEdit name).encodeTo
      (some r.1, r.2)

def writeEdit (w : Log.Writer) (faults : Faults) (edit : VersionEdit) : Log.Writer × Status :=
  match addRecordWith crc w faults.addRecord edit.encodeTo with
  | (w, .error e) => (w, .error e)
  | (w, .ok _) => (w, if faults.sync then .error (.ioError "sync") else .ok ())

def VersionSet.logAndApply (name : Slice) (faults : Faults) (vs : VersionSet) (disk : Disk) (edit : VersionEdit) :
    VersionSet × Disk × Status :=
  let edit := vs.complete edit
  let v := ((Builder.new vs.current).apply edit).saveTo
  let pointers := applyPointers vs.compactPointer edit
  let created := vs.descriptorLog.isNone
  let opened := vs.openDescriptor crc name faults
  let written : Option Log.Writer × Status :=
    match opened with
    | (some w, .ok _) => let r := writeEdit crc w faults edit; (some r.1, r.2)
    | r => r
  let status : Status :=
    match written.2 with
    | .ok _ => if created && faults.setCurrentFile then .error (.ioError "CURRENT") else .ok ()
    | .error e => .error e
  let disk : Disk := { disk with manifest := match written.1 with
    | some w => Function.update disk.manifest vs.manifestFileNumber w.dest.contents
    | none => disk.manifest }
  match status with
  | .ok _ =>
    ({ vs with
        descriptorLog := written.1
        compactPointer := pointers
        current := v
        logNumber := edit.logNumber.getD 0
        prevLogNumber := edit.prevLogNumber.getD 0 },
      { disk with current := if created then vs.manifestFileNumber else disk.current }, .ok ())
  | .error e =>
    -- a manifest that was just created is removed again
    ({ vs with descriptorLog := if created then none else written.1, compactPointer := pointers },
      if created then { disk with manifest := Function.update disk.manifest vs.manifestFileNumber [] } else disk, .error e)

/-! ## Recovery -/

structure Recovery where
  builder : Builder
  compactPointer : Nat → Slice
  logNumber : Option Nat
  prevLogNumber : Option Nat
  nextFile : Option Nat
  lastSequence : Option Nat

def Recovery.new : Recovery := ⟨.new fun _ => [], fun _ => [], none, none, none, none⟩

def Recovery.apply (s : Recovery) (edit : VersionEdit) : Recovery where
  builder := s.builder.apply edit
  compactPointer := applyPointers s.compactPointer edit
  logNumber := edit.logNumber.or s.logNumber
  prevLogNumber := edit.prevLogNumber.or s.prevLogNumber
  nextFile := edit.nextFileNumber.or s.nextFile
  lastSequence := edit.lastSequence.or s.lastSequence

def text (s : Slice) : String := String.ofList (s.map fun b => Char.ofNat b.toNat)

def decodeRecord (name record : Slice) : Except Error VersionEdit :=
  match decodeFrom record with
  | (_, .error e) => .error e
  | (edit, .ok _) =>
    match edit.comparator with
    | none => .ok edit
    | some comparator =>
      if comparator = name then .ok edit
      else .error (.invalidArgument (text comparator ++ " does not match existing comparator : " ++ text name))

def reported (r : Log.Reader) : Status :=
  match r.reports.getLast? with
  | some (_, e) => .error e
  | none => .ok ()

def recoverLoop (name : Slice) (r : Log.Reader) (s : Recovery) : Except Error Recovery :=
  match _ : r.readRecord crc with
  | (r', none) => (reported r').map fun _ => s
  | (r', some record) =>
    match reported r' with
    | .error e => .error e
    | .ok _ =>
      match decodeRecord name record with
      | .error e => .error e
      | .ok edit => recoverLoop name r' (s.apply edit)
termination_by r.left
decreasing_by
  rename_i h
  have hsome : (r.readRecord crc).2 = some record := by rw [h]
  have hlt := Log.Reader.left_readRecord crc hsome
  rw [h] at hlt
  exact hlt

def Recovery.install (s : Recovery) (disk : Disk) (reuse : Bool) : Except Error VersionSet :=
  match s.nextFile, s.logNumber, s.lastSequence with
  | none, _, _ => .error (.corruption "no meta-nextfile entry in descriptor")
  | _, none, _ => .error (.corruption "no meta-lognumber entry in descriptor")
  | _, _, none => .error (.corruption "no last-sequence-number entry in descriptor")
  | some nextFile, some logNumber, some lastSequence => .ok {
      -- the numbers of the logs were marked as used before, which is overwritten here
      nextFileNumber := (nextFile + 1) % 2 ^ 64
      manifestFileNumber := if reuse then disk.current else nextFile
      lastSequence := lastSequence
      logNumber := logNumber
      prevLogNumber := s.prevLogNumber.getD 0
      descriptorLog :=
        if reuse then some (.reopen ⟨disk.manifest disk.current, []⟩ (disk.manifest disk.current).length) else none
      compactPointer := s.compactPointer
      current := s.builder.saveTo }

def recover (name : Slice) (disk : Disk) (reuse : Bool) : Except Error VersionSet :=
  match recoverLoop crc name (.new ⟨disk.manifest disk.current, []⟩ true 0) .new with
  | .error e => .error e
  | .ok s => s.install disk reuse

def newDB (name : Slice) : Disk where
  current := 1
  manifest := Function.update (fun _ => []) 1 (Log.Writer.addRecord crc (.new ⟨[], []⟩)
      (VersionEdit.encodeTo { comparator := some name, logNumber := some 0, nextFileNumber := some 2, lastSequence := some 0 })
      ).1.dest.contents

end RallyDB.Db.Descriptor
