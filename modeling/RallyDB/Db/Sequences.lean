import RallyDB.Db.Durability
import RallyDB.Db.Lemmas.LogFaults
import RallyDB.Db.WriteBatch

/-!
# Sequence numbers over writes, failures, crashes and recoveries
-/

namespace RallyDB.Db.Sequences

open Util Table

/-! ## Disk -/

structure LogContents where
  bytes : Slice
  blockOffset : Nat
  synced : Nat

namespace LogContents

def empty : LogContents := ⟨[], 0, 0⟩

def cut (l : LogContents) (n : Nat) : LogContents := { l with bytes := l.bytes.take (max l.synced n) }

def writer (l : LogContents) (faults : List (Option Nat)) : Log.Writer := ⟨⟨l.bytes, faults⟩, l.blockOffset⟩

end LogContents

def recordEntries (record : Slice) : List (Entry Slice) :=
  if record.length < WriteBatch.kHeader then []
  else
    let b : WriteBatch := ⟨record⟩
    batchEntries b.sequence b.iterate.1

def recordLast (record : Slice) : Nat :=
  if record.length < WriteBatch.kHeader then 0
  else
    let b : WriteBatch := ⟨record⟩
    (b.sequence + b.count + (2 ^ 64 - 1)) % 2 ^ 64

def LogContents.entries (crc : Crc32c) (l : LogContents) : List (Entry Slice) :=
  (Log.recovered crc l.bytes).1.flatMap recordEntries

def LogContents.maxSequence (crc : Crc32c) (l : LogContents) : Nat :=
  ((Log.recovered crc l.bytes).1.map recordLast).foldr max 0

structure VersionEdit where
  newFiles : List Nat
  deletedFiles : List Nat
  logNumber : Option Nat
  lastSequence : Nat

structure Version where
  tables : List Nat
  logNumber : Nat
  lastSequence : Nat

def Version.apply (v : Version) (edit : VersionEdit) : Version where
  tables := edit.newFiles ++ v.tables.filter (· ∉ edit.deletedFiles)
  logNumber := edit.logNumber.getD v.logNumber
  lastSequence := edit.lastSequence

structure Disk where
  logs : List Nat
  log : Nat → LogContents
  table : Nat → List (Entry Slice)
  snapshot : Version
  manifest : Durability.LogFile VersionEdit
  nextFileNumber : Nat

def Disk.version (d : Disk) : Version := d.manifest.read.foldl Version.apply d.snapshot

inductive Phase where
  | waiting
  | sync (b : Batch) (last : Nat)
  | insert (b : Batch) (last : Nat)
  | finish (last : Nat)

def Phase.isWaiting : Phase → Bool
  | .waiting => true
  | _ => false

inductive Job where
  | idle
  | ready (flush : Bool) (edit : VersionEdit)
  | logged (flush : Bool) (edit : VersionEdit)

structure Process where
  version : Version
  lastSequence : Nat
  mem : MemTable Slice
  imm : Option (MemTable Slice)
  logfileNumber : Nat
  phase : Phase
  bgError : Bool
  failed : Bool
  job : Job

structure State where
  disk : Disk
  process : Option Process

inductive Action where
  | write (b : Batch) (sync : Bool) (faults : List (Option Nat))
  | sync (fails : Bool)
  | insert
  | finish
  | switchMemTable
  | flush
  | compact (inputs : List Nat) (outputs : List (List (Entry Slice)))
  | logEdit (bytes : Nat)
  | install
  | crash (logs : Nat → Nat) (manifest : Nat)
  | recover

/-! ## Steps -/

namespace Process

variable (crc : Crc32c) (p : Process) (d : Disk)

variable (b : Batch)

def record : Slice := (b.writeBatch.setSequence (p.lastSequence + 1)).rep

def write (sync : Bool) (faults : List (Option Nat)) : Option (Process × Disk) :=
  let last := p.lastSequence + b.ops.length
  if p.bgError = false ∧ last ≤ kMaxSequenceNumber then
    let l := d.log p.logfileNumber
    let r := (l.writer faults).addRecord crc (p.record b)
    let d := { d with
      log := Function.update d.log p.logfileNumber ⟨r.1.dest.contents, r.1.blockOffset, l.synced⟩ }
    match r.2 with
    | .error _ => some ({ p with phase := .finish last, failed := true }, d)
    | .ok _ => some ({ p with phase := if sync then .sync b last else .insert b last }, d)
  else none

def syncLog (last : Nat) (fails : Bool) : Process × Disk :=
  if fails then ({ p with phase := .finish last, bgError := true }, d)
  else
    let l := d.log p.logfileNumber
    ({ p with phase := .insert b last },
      { d with log := Function.update d.log p.logfileNumber { l with synced := l.bytes.length } })

def insert (last : Nat) : Process :=
  { p with mem := Db.insertInto p.mem (p.lastSequence + 1) b.ops, phase := .finish last }

def switchMemTable : Process × Disk :=
  let n := d.nextFileNumber
  ({ p with mem := [], imm := some p.mem, logfileNumber := n, failed := false },
    { d with logs := n :: d.logs, log := Function.update d.log n .empty, nextFileNumber := n + 1 })

def addTables (tables : List (List (Entry Slice))) : List Nat × Disk :=
  ((List.range tables.length).map (d.nextFileNumber + ·),
    { d with
      table := fun n => if n < d.nextFileNumber then d.table n else (tables[n - d.nextFileNumber]?).getD []
      nextFileNumber := d.nextFileNumber + tables.length })

def flush (imm : MemTable Slice) : Process × Disk :=
  let r := addTables d [imm]
  ({ p with job := .ready true ⟨r.1, [], some p.logfileNumber, 0⟩ }, r.2)

def compact (inputs : List Nat) (outputs : List (List (Entry Slice))) : Option (Process × Disk) :=
  if (∀ n ∈ inputs, n ∈ p.version.tables) ∧ ∀ es ∈ outputs, ∀ e ∈ es, ∃ n ∈ inputs, e ∈ d.table n then
    let r := addTables d outputs
    some ({ p with job := .ready false ⟨r.1, inputs, none, 0⟩ }, r.2)
  else none

def logEdit (flush : Bool) (edit : VersionEdit) (bytes : Nat) : Process × Disk :=
  let edit := { edit with lastSequence := p.lastSequence }
  ({ p with job := .logged flush edit }, { d with manifest := d.manifest.addRecord edit bytes })

def install (flush : Bool) (edit : VersionEdit) : Process × Disk :=
  ({ p with
      version := p.version.apply edit
      imm := if flush then none else p.imm
      job := .idle }, { d with manifest := d.manifest.sync })

end Process

def Disk.crash (d : Disk) (logs : Nat → Nat) (manifest : Nat) : Disk :=
  let n := max d.manifest.synced manifest
  { d with
    log := fun i => (d.log i).cut (logs i)
    manifest := {
      records := d.manifest.records.filter (·.2 ≤ n)
      length := d.manifest.length
      synced := d.manifest.synced
      le_length := fun r hr => d.manifest.le_length r (List.mem_of_mem_filter hr) } }

def Disk.recover (crc : Crc32c) (d : Disk) : Process × Disk :=
  let v := d.version
  let needed := d.logs.filter (v.logNumber ≤ ·)
  let last := max v.lastSequence ((needed.map fun n => (d.log n).maxSequence crc).foldr max 0)
  let r := Process.addTables d (needed.map fun n => (d.log n).entries crc)
  let n := r.2.nextFileNumber
  let v : Version := ⟨r.1 ++ v.tables, n, last⟩
  (⟨v, last, [], none, n, .waiting, false, false, .idle⟩,
    { r.2 with
      logs := n :: d.logs
      log := Function.update d.log n .empty
      snapshot := v
      manifest := .empty
      nextFileNumber := n + 1 })

def Process.step (crc : Crc32c) (p : Process) (d : Disk) : Action → Option (Process × Disk)
  | .write b sync faults =>
    match p.phase with
    | .waiting => p.write crc d b sync faults
    | _ => none
  | .sync fails =>
    match p.phase with
    | .sync b last => some (p.syncLog d b last fails)
    | _ => none
  | .insert =>
    match p.phase with
    | .insert b last => some (p.insert b last, d)
    | _ => none
  | .finish =>
    match p.phase with
    | .finish last => some ({ p with lastSequence := last, phase := .waiting }, d)
    | _ => none
  | .switchMemTable =>
    match p.phase, p.imm with
    | .waiting, none => some (p.switchMemTable d)
    | _, _ => none
  | .flush =>
    match p.job, p.imm with
    | .idle, some imm => some (p.flush d imm)
    | _, _ => none
  | .compact inputs outputs =>
    match p.job with
    | .idle => p.compact d inputs outputs
    | _ => none
  | .logEdit bytes =>
    match p.job with
    | .ready flush edit => some (p.logEdit d flush edit bytes)
    | _ => none
  | .install =>
    match p.job with
    | .logged flush edit => some (p.install d flush edit)
    | _ => none
  | .crash _ _ | .recover => none

def step (crc : Crc32c) (s : State) (a : Action) : Option State :=
  match s.process, a with
  | some _, .crash logs manifest => some ⟨s.disk.crash logs manifest, none⟩
  | some p, a => (p.step crc s.disk a).map fun r => ⟨r.2, some r.1⟩
  | none, .recover =>
    let r := s.disk.recover crc
    some ⟨r.2, some r.1⟩
  | none, _ => none

def State.fresh : State := ⟨⟨[], fun _ => .empty, fun _ => [], ⟨[], 0, 0⟩, .empty, 2⟩, none⟩

def Present (crc : Crc32c) (d : Disk) (p : Process) (e : Entry Slice) : Prop :=
  e ∈ p.mem ∨ e ∈ p.imm.getD [] ∨ (∃ t ∈ p.version.tables, e ∈ d.table t) ∨
    ∃ n ∈ d.logs, p.version.logNumber ≤ n ∧ e ∈ (d.log n).entries crc

def Covered (crc : Crc32c) (s : State) : Prop :=
  ∀ p ∈ s.process, p.phase.isWaiting = true → ∀ e, Present crc s.disk p e → e.1.sequence ≤ p.lastSequence

def AppendsBehindWhole (s : State) : Action → Prop
  | .write _ _ faults =>
    ∀ p ∈ s.process, p.failed = false ∧ ((s.disk.log p.logfileNumber).writer faults).FillsUp
  | _ => True

end RallyDB.Db.Sequences
