import RallyDB.Db.Recovery
import RallyDB.Db.WriteQueue

/-!
# A database that is written, flushed and compacted, and crashes (`db/db_impl.cc`)
-/

namespace RallyDB.Db.System

open Util Table Descriptor

def kL0SlowdownWritesTrigger : Nat := 8

def kL0StopWritesTrigger : Nat := 12

inductive Phase where
  | waiting
  | makeRoom (force allowDelay : Bool)
  | addRecord (g : Group) (lastSequence : Nat)
  | sync (g : Group) (lastSequence : Nat)
  | insert (g : Group) (lastSequence : Nat)
  | finish (g : Group) (lastSequence : Nat) (status : Status) (syncError : Bool)

inductive EditKind where
  | flush
  | compact
  | opening
  deriving DecidableEq

inductive Background where
  | idle
  | building (number : Nat)
  | written (f : Descriptor.FileMetaData)
  | recovered (edit : Descriptor.VersionEdit)
  | ready (kind : EditKind) (edit : Descriptor.VersionEdit)
  | logged (kind : EditKind) (edit : Descriptor.VersionEdit) (vs : VersionSet)

structure Compaction where
  level : Nat
  inputs : List (Nat × Descriptor.FileMetaData)
  outputs : List Descriptor.FileMetaData

structure Process where
  vs : VersionSet
  mem : MemTable Slice
  imm : Option (MemTable Slice)
  logfileNumber : Nat
  blockOffset : Nat
  writers : List Writer
  phase : Phase
  tmpBatch : WriteBatch
  done : List (Writer × Status)
  bgError : Option Error
  background : Background
  compaction : Option Compaction
  opened : Bool

inductive Event where
  | began (w : Writer)
  | switched
  | appended (batch : WriteBatch)
  | inserted (entries : List (Entry Slice))
  | finished (w : Writer) (sequence : Nat) (status : Status)
  | returned (w : Writer) (status : Status)
  | flushed (entries : List (Entry Slice))

structure Sys where
  disk : Disk
  process : Option Process
  calls : Nat
  trace : List Event

/-! ## Writing -/

def withSequences (sequence : Nat) : List Writer → List (Writer × Nat)
  | [] => []
  | w :: ws => (w, sequence) :: withSequences (sequence + w.ops.length) ws

namespace Process

variable (c : Config) (p : Process) (disk : Disk)

def pop (n : Nat) (status : Status) : Process × List Event :=
  ({ p with
      writers := p.writers.drop n
      done := p.done ++ (p.writers.take n).map fun w => (w, status)
      phase := .waiting },
    (withSequences (p.vs.lastSequence + 1) (p.writers.take n)).map fun q => .finished q.1 q.2 status)

def roomMade (w : Writer) (ws : List Writer) : Option (Process × List Event) :=
  match w.batch with
  | none => some (p.pop 1 (.ok ()))
  | some first =>
    let g := buildBatchGroup p.tmpBatch w.sync first.writeBatch ws
    let g := { g with batch := g.batch.setSequence (p.vs.lastSequence + 1) }
    let lastSequence := p.vs.lastSequence + g.batch.count
    -- sequence numbers fit in 56 bits
    if lastSequence ≤ kMaxSequenceNumber then
      some ({ p with
        tmpBatch := if g.usesTmp then g.batch else p.tmpBatch
        phase := .addRecord g lastSequence }, [])
    else none

def switchMemTable (allowDelay closeFails : Bool) : Process × Disk × List Event :=
  let number := p.vs.nextFileNumber
  ({ p with
      vs := { p.vs with nextFileNumber := number + 1 }
      bgError := if closeFails then some (p.bgError.getD (.ioError "close")) else p.bgError
      logfileNumber := number
      blockOffset := 0
      imm := some p.mem
      mem := []
      phase := .makeRoom false allowDelay },
    { disk with logs := disk.logs.create number .empty }, [.switched])

def makeRoom (newFileFails closeFails : Bool) : Option (Process × Disk × List Event) :=
  match p.phase, p.writers with
  | .makeRoom force allowDelay, w :: ws =>
    match p.bgError with
    | some e => let r := p.pop 1 (.error e); some (r.1, disk, r.2)
    | none =>
      let level0 := (p.vs.current 0).length
      if allowDelay && kL0SlowdownWritesTrigger ≤ level0 then
        some ({ p with phase := .makeRoom force false }, disk, [])
      else if !force && c.approximateMemoryUsage p.mem ≤ c.writeBufferSize then
        (p.roomMade w ws).map fun r => (r.1, disk, r.2)
      else if p.imm.isSome then some (p, disk, [])
      else if kL0StopWritesTrigger ≤ level0 then some (p, disk, [])
      else if newFileFails then
        -- the number is given back
        let r := p.pop 1 (.error (.ioError "new log")); some (r.1, disk, r.2)
      else some (p.switchMemTable disk allowDelay closeFails)
  | _, _ => none

def addRecord (faults : List (Option Nat)) : Option (Process × Disk × List Event) :=
  match p.phase, p.writers with
  | .addRecord g lastSequence, w :: _ =>
    let file := disk.logs.file p.logfileNumber
    let r := Log.Writer.addRecord c.crc ⟨⟨file.bytes, faults⟩, p.blockOffset⟩ g.batch.rep
    let disk := { disk with logs := disk.logs.set p.logfileNumber { file with bytes := r.1.dest.contents } }
    let p := { p with blockOffset := r.1.blockOffset }
    match r.2 with
    | .error e => some ({ p with phase := .finish g lastSequence (.error e) false }, disk, [])
    | .ok _ =>
      some ({ p with phase := if w.sync then .sync g lastSequence else .insert g lastSequence }, disk, [.appended g.batch])
  | _, _ => none

def sync (fails : Bool) : Option (Process × Disk × List Event) :=
  match p.phase with
  | .sync g lastSequence =>
    if fails then
      some ({ p with phase := .finish g lastSequence (.error (.ioError "sync")) true }, disk, [])
    else
      some ({ p with phase := .insert g lastSequence },
        { disk with logs := disk.logs.set p.logfileNumber (disk.logs.file p.logfileNumber).sync }, [])
  | _ => none

def insert : Option (Process × List Event) :=
  match p.phase with
  | .insert g lastSequence =>
    let r := g.batch.insertInto p.mem
    some ({ p with mem := r.1, phase := .finish g lastSequence r.2 false },
      [.inserted (batchEntries g.batch.sequence g.batch.iterate.1)])
  | _ => none

def finish : Option (Process × List Event) :=
  match p.phase with
  | .finish g lastSequence status syncError =>
    let r := p.pop g.writers status
    some ({ r.1 with
      vs := { p.vs with lastSequence }
      tmpBatch := if g.usesTmp then .clear else p.tmpBatch
      bgError := match syncError, status with
        | true, .error e => some (p.bgError.getD e)
        | _, _ => p.bgError }, r.2)
  | _ => none

def ret (id : Nat) : Option (Process × List Event) :=
  (p.done.find? fun q => q.1.id = id).map fun q =>
    ({ p with done := p.done.filter fun q => q.1.id ≠ id }, [.returned q.1 q.2])

/-! ## The background thread -/

def Free : Prop := p.opened ∧ p.bgError = none ∧ p.background matches .idle

instance : Decidable p.Free := by
  unfold Free
  cases p.background <;> infer_instance

def flushBegin : Option Process :=
  if p.Free ∧ p.imm.isSome then
    some { p with
      vs := { p.vs with nextFileNumber := p.vs.nextFileNumber + 1 }
      background := .building p.vs.nextFileNumber }
  else none

def flushEdit (newFiles : List (Nat × Descriptor.FileMetaData)) : Descriptor.VersionEdit :=
  { prevLogNumber := some 0, logNumber := some p.logfileNumber, newFiles }

def flushWrite : Option (Process × Disk) :=
  match p.background, p.imm with
  | .building number, some imm =>
    match c.tableMeta number imm with
    | none => some ({ p with background := .ready .flush (p.flushEdit []) }, disk)
    | some f =>
      some ({ p with background := .written f },
        { disk with tables := disk.tables.create number ⟨c.format.encode imm, 0⟩ })
  | _, _ => none

def flushReady (level : Nat) : Option Process :=
  match p.background with
  | .written f =>
    if level ≤ kMaxMemCompactLevel then some { p with background := .ready .flush (p.flushEdit [(level, f)]) } else none
  | _ => none

def compactBegin (level : Nat) (inputs : List (Nat × Descriptor.FileMetaData)) : Option Process :=
  if p.Free ∧ p.imm.isNone ∧ p.compaction.isNone ∧ level + 1 < kNumLevels ∧
      ∀ q ∈ inputs, (q.1 = level ∨ q.1 = level + 1) ∧ q.2 ∈ p.vs.current q.1 then
    some { p with compaction := some ⟨level, inputs, []⟩ }
  else none

def compactOutput (entries : List (Entry Slice)) : Option (Process × Disk) :=
  match p.background, p.compaction, c.tableMeta p.vs.nextFileNumber entries with
  | .idle, some job, some f =>
    if ∀ e ∈ entries, ∃ q ∈ job.inputs, e ∈ c.entries disk.tables q.2.number then
      some ({ p with
          vs := { p.vs with nextFileNumber := p.vs.nextFileNumber + 1 }
          compaction := some { job with outputs := job.outputs ++ [f] } },
        { disk with tables := disk.tables.create p.vs.nextFileNumber ⟨c.format.encode entries, 0⟩ })
    else none
  | _, _, _ => none

def compactReady (pointers : List (Nat × Slice)) : Option Process :=
  match p.background, p.compaction with
  | .idle, some job =>
    let edit : Descriptor.VersionEdit := { compactPointers := pointers, newFiles := job.outputs.map fun f => (job.level + 1, f) }
    some { p with background := .ready .compact (job.inputs.foldl (fun e q => e.removeFile q.1 q.2.number) edit) }
  | _, _ => none

def trivialMove (level : Nat) (f : Descriptor.FileMetaData) (pointers : List (Nat × Slice)) : Option Process :=
  if p.Free ∧ p.imm.isNone ∧ p.compaction.isNone ∧ level + 1 < kNumLevels ∧ f ∈ p.vs.current level then
    let edit : Descriptor.VersionEdit := { compactPointers := pointers, newFiles := [(level + 1, f)] }
    some { p with background := .ready .compact (edit.removeFile level f.number) }
  else none

def TablesSynced (edit : Descriptor.VersionEdit) : Prop :=
  ∀ q ∈ edit.newFiles, (disk.tables.file q.2.number).bytes.length ≤ (disk.tables.file q.2.number).synced

instance (edit : Descriptor.VersionEdit) : Decidable (TablesSynced disk edit) := by
  unfold TablesSynced
  infer_instance

def logEdit : Option (Process × Disk) :=
  match p.background with
  | .ready kind edit =>
    if p.vs.nextFileNumber + 1 < 2 ^ 64 ∧ TablesSynced disk edit then
      let r := p.vs.logAndApply c.crc c.name {} disk.descriptors edit
      let number := p.vs.manifestFileNumber
      let synced := if p.vs.descriptorLog.isNone then 0 else (disk.manifests.file number).synced
      some ({ p with background := .logged kind edit r.1 },
        { disk with manifests := disk.manifests.create number ⟨r.2.1.manifest number, synced⟩ })
    else none
  | _ => none

def install : Option (Process × Disk × List Event) :=
  match p.background with
  | .logged kind _ vs =>
    let number := p.vs.manifestFileNumber
    let p' := { p with
      vs := { vs with nextFileNumber := p.vs.nextFileNumber, lastSequence := p.vs.lastSequence }
      background := .idle }
    let disk := { disk with
      manifests := disk.manifests.set number (disk.manifests.file number).sync
      current := number }
    match kind with
    | .flush => some ({ p' with imm := none }, disk, [.flushed (p.imm.getD [])])
    | .compact => some ({ p' with compaction := none }, disk, [])
    | .opening => some ({ p' with opened := true }, disk, [])
  | _ => none

def backgroundFails (e : Error) : Option Process :=
  match p.background with
  | .building _ | .written _ | .ready _ _ =>
    if p.opened then some { p with background := .idle, compaction := none, bgError := some (p.bgError.getD e) } else none
  | _ => none

def removeLog (n : Nat) : Option Disk :=
  if p.Free ∧ n < p.vs.logNumber ∧ n ≠ p.vs.prevLogNumber then some { disk with logs := disk.logs.remove n } else none

def removeManifest (n : Nat) : Option Disk :=
  if p.Free ∧ n < p.vs.manifestFileNumber then some { disk with manifests := disk.manifests.remove n } else none

def pendingOutputs : List Nat :=
  match p.compaction with
  | none => []
  | some job => job.outputs.map (·.number)

def removeTable (n : Nat) : Option Disk :=
  if p.Free ∧ n ∉ liveFiles p.vs.current ∧ n ∉ p.pendingOutputs then
    some { disk with tables := disk.tables.remove n }
  else none

def ofRecovering (r : Recovering) : Process where
  vs := r.vs
  mem := []
  imm := none
  logfileNumber := 0
  blockOffset := 0
  writers := []
  phase := .waiting
  tmpBatch := .clear
  done := []
  bgError := none
  background := .recovered r.edit
  compaction := none
  opened := false

def openLog : Option (Process × Disk) :=
  match p.background with
  | .recovered edit =>
    let number := p.vs.nextFileNumber
    some ({ p with
        vs := { p.vs with nextFileNumber := number + 1 }
        logfileNumber := number
        background := .ready .opening { edit with prevLogNumber := some 0, logNumber := some number } },
      { disk with logs := disk.logs.create number .empty })
  | _ => none

end Process

inductive Action where
  | write (batch : Option Batch) (sync : Bool)
  | begin
  | makeRoom (newFileFails closeFails : Bool)
  | addRecord (faults : List (Option Nat))
  | sync (fails : Bool)
  | insert
  | finish
  | ret (id : Nat)
  | flushBegin
  | flushWrite
  | flushReady (level : Nat)
  | compactBegin (level : Nat) (inputs : List (Nat × Descriptor.FileMetaData))
  | compactOutput (entries : List (Entry Slice))
  | compactReady (pointers : List (Nat × Slice))
  | trivialMove (level : Nat) (f : Descriptor.FileMetaData) (pointers : List (Nat × Slice))
  | syncTable (n : Nat)
  | logEdit
  | install
  | backgroundFails (e : Error)
  | removeLog (n : Nat)
  | removeManifest (n : Nat)
  | removeTable (n : Nat)
  | openLog
  | crash (logs tables manifests : Nat → Nat)
  | recover

def Process.step (c : Config) (p : Process) (disk : Disk) (calls : Nat) : Action → Option (Process × Disk × List Event)
  | .write batch sync =>
    if p.opened then
      let w : Writer := ⟨calls, batch, sync⟩
      some ({ p with writers := p.writers ++ [w] }, disk, [.began w])
    else none
  | .begin =>
    match p.phase, p.writers with
    | .waiting, w :: _ => some ({ p with phase := .makeRoom w.batch.isNone (!w.batch.isNone) }, disk, [])
    | _, _ => none
  | .makeRoom newFileFails closeFails => p.makeRoom c disk newFileFails closeFails
  | .addRecord faults => p.addRecord c disk faults
  | .sync fails => p.sync disk fails
  | .insert => p.insert.map fun r => (r.1, disk, r.2)
  | .finish => p.finish.map fun r => (r.1, disk, r.2)
  | .ret id => (p.ret id).map fun r => (r.1, disk, r.2)
  | .flushBegin => p.flushBegin.map fun p => (p, disk, [])
  | .flushWrite => (p.flushWrite c disk).map fun r => (r.1, r.2, [])
  | .flushReady level => (p.flushReady level).map fun p => (p, disk, [])
  | .compactBegin level inputs => (p.compactBegin level inputs).map fun p => (p, disk, [])
  | .compactOutput entries => (p.compactOutput c disk entries).map fun r => (r.1, r.2, [])
  | .compactReady pointers => (p.compactReady pointers).map fun p => (p, disk, [])
  | .trivialMove level f pointers => (p.trivialMove level f pointers).map fun p => (p, disk, [])
  | .syncTable n => some (p, { disk with tables := disk.tables.set n (disk.tables.file n).sync }, [])
  | .logEdit => (p.logEdit c disk).map fun r => (r.1, r.2, [])
  | .install => p.install disk
  | .backgroundFails e => (p.backgroundFails e).map fun p => (p, disk, [])
  | .removeLog n => (p.removeLog disk n).map fun disk => (p, disk, [])
  | .removeManifest n => (p.removeManifest disk n).map fun disk => (p, disk, [])
  | .removeTable n => (p.removeTable disk n).map fun disk => (p, disk, [])
  | .openLog => (p.openLog disk).map fun r => (r.1, r.2, [])
  | .crash _ _ _ => none
  | .recover => none

def Sys.step (c : Config) (s : Sys) (a : Action) : Option Sys :=
  match a, s.process with
  | .crash logs tables manifests, _ => some { s with disk := s.disk.cut logs tables manifests, process := none }
  | .recover, none =>
    match c.recover s.disk with
    | .error _ => none
    | .ok r => some { s with disk := { s.disk with tables := r.tables }, process := some (.ofRecovering r) }
  | a, some p =>
    (p.step c s.disk s.calls a).map fun r => {
      disk := r.2.1
      process := some r.1
      calls := match a with
        | .write _ _ => s.calls + 1
        | _ => s.calls
      trace := s.trace ++ r.2.2 }
  | _, none => none

variable (trace : List Event)

def entered : List Writer :=
  trace.filterMap fun
    | .began w => some w
    | _ => none

def appendedEntries : List (Entry Slice) :=
  trace.flatMap fun
    | .appended batch => batchEntries batch.sequence batch.iterate.1
    | _ => []

def insertedEntries : List (Entry Slice) :=
  trace.flatMap fun
    | .inserted entries => entries
    | _ => []

def flushedEntries : List (Entry Slice) :=
  trace.flatMap fun
    | .flushed entries => entries
    | _ => []

def finished (trace : List Event) : List (Writer × Nat × Status) :=
  trace.filterMap fun
    | .finished w sequence status => some (w, sequence, status)
    | _ => none

def returned (trace : List Event) : List (Writer × Status) :=
  trace.filterMap fun
    | .returned w status => some (w, status)
    | _ => none

def Sys.fresh (c : Config) : Sys where
  disk := {
    logs := .empty
    tables := .empty
    manifests := Directory.empty.create 1 (File.sync ⟨(newDB c.crc c.name).manifest 1, 0⟩)
    current := 1 }
  process := none
  calls := 0
  trace := []

end RallyDB.Db.System
