import RallyDB.Db.CompactionWork
import RallyDB.Lib.Machine

/-!
# The database (`db/db_impl.cc`)
-/

namespace RallyDB.Db

open RallyDB.Lib

variable {κ : Type*} [LinearOrder κ]

abbrev MemTable (κ : Type*) := List (Entry κ)

/-- The entry itself, not its bytes: `MemTable.getEntry_encode` says which entries the bytes keep. -/
def MemTable.add (m : MemTable κ) (sequence : Nat) (type : ValueType) (key : κ) (value : Slice) : MemTable κ :=
  m.orderedInsert (fun a b => a.1 ≤ b.1) (⟨key, sequence, type⟩, value)

def MemTable.get (m : MemTable κ) (userKey : κ) (sequence : Nat) : SaverState :=
  saveValue userKey (seek m (lookupKey userKey sequence))

inductive BatchOp (κ : Type*) where
  | put (key : κ) (value : Slice)
  | delete (key : κ)
  deriving DecidableEq

def insertInto (m : MemTable κ) (sequence : Nat) : List (BatchOp κ) → MemTable κ
  | [] => m
  | .put key value :: rest => insertInto (MemTable.add m sequence .value key value) (sequence + 1) rest
  | .delete key :: rest => insertInto (MemTable.add m sequence .deletion key []) (sequence + 1) rest

structure RunningCompaction (κ : Type*) [LinearOrder κ] where
  compaction : Compaction κ
  smallestSnapshot : Nat
  outputNumbers : List Nat

structure DB (κ : Type*) [LinearOrder κ] where
  mem : MemTable κ
  imm : Option (MemTable κ)
  current : Version κ
  compactPointer : Nat → Option (InternalKey κ)
  lastSequence : Nat
  snapshots : List Nat
  nextFileNumber : Nat
  running : Option (RunningCompaction κ)

def DB.init : DB κ where
  mem := []
  imm := none
  current := ⟨fun _ => []⟩
  compactPointer := fun _ => none
  lastSequence := 0
  snapshots := []
  nextFileNumber := 2
  running := none

def SaverState.valueOr (rest : Option Slice) : SaverState → Option Slice
  | .notFound => rest
  | .found value => some value
  | .deleted => none

def DB.get (db : DB κ) (key : κ) (sequence : Nat) : Option Slice :=
  let version := (db.current.get key sequence).1.valueOr none
  (db.mem.get key sequence).valueOr <| match db.imm with
    | some imm => (imm.get key sequence).valueOr version
    | none => version

/-! ## Steps -/

def buildTable (o : Options κ) (number : Nat) (entries : List (Entry κ)) : Option (FileMetaData κ) :=
  if h : entries ≠ [] ∧ entries.Pairwise (fun a b => a.1 < b.1) then
    some { number, fileSize := o.tableFileSize entries, entries, nonempty := h.1, sorted := h.2 }
  else none

inductive Action (κ : Type*) [LinearOrder κ] where
  | write (batch : List (BatchOp κ))
  | switchMemTable
  | compactMemTable
  | startCompaction (hint : CompactionHint κ)
  | startManual (level : Nat) (begin limit : Option (InternalKey κ))
  | openOutput
  | installCompaction
  | getSnapshot
  | releaseSnapshot (sequence : Nat)

variable (db : DB κ)

/-- `DBImpl::Write`. `PackSequenceAndType` asserts that sequence numbers fit in 56 bits; a database that has
used them up takes no further writes here. -/
def DB.write (batch : List (BatchOp κ)) : Option (DB κ) :=
  if db.lastSequence + batch.length < kMaxSequenceNumber then
    some { db with
      mem := insertInto db.mem (db.lastSequence + 1) batch
      lastSequence := db.lastSequence + batch.length }
  else none

def DB.switchMemTable : Option (DB κ) :=
  match db.imm with
  | none => some { db with mem := [], imm := some db.mem, nextFileNumber := db.nextFileNumber + 1 }
  | some _ => none

variable (o : Options κ)

def DB.writeLevel0Table (imm : MemTable κ) : VersionEdit κ :=
  match buildTable o db.nextFileNumber imm with
  | none => {}
  | some f =>
    { newFiles := [(db.current.pickLevelForMemTableOutput o f.smallest.userKey f.largest.userKey, f)] }

def DB.compactMemTable : Option (DB κ) :=
  match db.imm with
  | none => none
  | some imm => some { db with
      imm := none
      current := db.current.logAndApply (db.writeLevel0Table o imm)
      nextFileNumber := db.nextFileNumber + 1 }

def DB.smallestSnapshot : Nat := db.snapshots.headD db.lastSequence

variable (c : Compaction κ)

def DB.startRunning : DB κ :=
  { db with running := some { compaction := c, smallestSnapshot := db.smallestSnapshot, outputNumbers := [] } }

def Compaction.moveEdit : VersionEdit κ where
  deletedFiles := c.inputs0.map fun f => (c.level, f.number)
  newFiles := c.inputs0.map fun f => (c.level + 1, f)

def Compaction.installEdit (files : List (FileMetaData κ)) : VersionEdit κ where
  deletedFiles := c.inputDeletions
  newFiles := files.map fun f => (c.level + 1, f)

def DB.startCompaction (hint : CompactionHint κ) : Option (DB κ) :=
  if db.running.isNone ∧ db.imm.isNone ∧ hint.level + 1 < kNumLevels then do
    let (c, pointer) ← db.current.pickCompaction o db.compactPointer hint
    let db := { db with compactPointer := Function.update db.compactPointer c.level (some pointer) }
    if c.isTrivialMove o then return { db with current := db.current.logAndApply c.moveEdit }
    else return db.startRunning c
  else none

def DB.startManual (level : Nat) (begin limit : Option (InternalKey κ)) : Option (DB κ) :=
  if db.running.isNone ∧ db.imm.isNone ∧ level + 1 < kNumLevels then do
    let (c, pointer) ← db.current.compactRange o level begin limit
    let db := { db with compactPointer := Function.update db.compactPointer c.level (some pointer) }
    return db.startRunning c
  else none

def DB.openOutput : Option (DB κ) :=
  match db.running with
  | none => none
  | some r => some { db with
      running := some { r with outputNumbers := r.outputNumbers ++ [db.nextFileNumber] }
      nextFileNumber := db.nextFileNumber + 1 }

def DB.installCompaction : Option (DB κ) :=
  match db.running with
  | none => none
  | some r =>
    let outputs := r.compaction.doCompactionWork o r.smallestSnapshot
    if outputs.length = r.outputNumbers.length then
      let files := (r.outputNumbers.zip outputs).filterMap fun p => buildTable o p.1 p.2
      some { db with current := db.current.logAndApply (r.compaction.installEdit files), running := none }
    else none

def DB.step (db : DB κ) : Action κ → Option (DB κ)
  | .write batch => db.write batch
  | .switchMemTable => db.switchMemTable
  | .compactMemTable => db.compactMemTable o
  | .startCompaction hint => db.startCompaction o hint
  | .startManual level begin limit => db.startManual o level begin limit
  | .openOutput => db.openOutput
  | .installCompaction => db.installCompaction o
  | .getSnapshot => some { db with snapshots := db.snapshots ++ [db.lastSequence] }
  | .releaseSnapshot s => if s ∈ db.snapshots then some { db with snapshots := db.snapshots.erase s } else none

end RallyDB.Db
