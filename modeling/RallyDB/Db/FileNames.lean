import RallyDB.Lib.Machine

/-!
# Which files the database creates and removes
-/

namespace RallyDB.Db.FileNames

inductive FileName where
  | table (number : Nat)
  | log (number : Nat)
  | manifest (number : Nat)
  deriving DecidableEq

/-! ## The manifest -/

structure Edit where
  deleted : List Nat
  added : List Nat
  logNumber : Nat
  nextFile : Nat
  writes : List Nat
  deriving DecidableEq

structure Recorded where
  tables : List Nat
  logNumber : Nat
  nextFile : Nat
  writes : List Nat
  deriving DecidableEq

def Recorded.apply (r : Recorded) (e : Edit) : Recorded where
  tables := r.tables.filter (· ∉ e.deleted) ++ e.added
  logNumber := e.logNumber
  nextFile := e.nextFile
  writes := r.writes ++ e.writes

structure Manifest where
  base : Recorded
  records : List Edit
  synced : Nat
  deriving DecidableEq

variable (m : Manifest)

def Manifest.read : Recorded := m.records.foldl Recorded.apply m.base

def Manifest.addRecord (e : Edit) : Manifest := { m with records := m.records ++ [e] }

def Manifest.sync : Manifest := { m with synced := m.records.length }

def Manifest.cut (n : Nat) : Manifest :=
  Manifest.sync { m with records := m.records.take (max m.synced n) }

structure Disk where
  files : List FileName
  current : Nat
  manifest : Manifest
  logWrites : Nat → List Nat

def Disk.create (d : Disk) (f : FileName) : Disk := { d with files := if f ∈ d.files then d.files else d.files ++ [f] }

def Disk.createLog (d : Disk) (n : Nat) : Disk :=
  { d.create (.log n) with logWrites := Function.update d.logWrites n [] }

def Disk.remove (d : Disk) (f : FileName) : Disk := { d with files := d.files.filter (· ≠ f) }

def Disk.crash (d : Disk) (records : Nat) (logs : Nat → Nat) : Disk :=
  { d with manifest := d.manifest.cut records, logWrites := fun n => (d.logWrites n).take (logs n) }

def Disk.newDB : Disk where
  files := [.manifest 1]
  current := 1
  manifest := ⟨⟨[], 0, 2, []⟩, [], 0⟩
  logWrites := fun _ => []

/-! ## The process -/

structure CompactionState where
  inputs : List Nat
  inputVersion : List Nat
  outputs : List Nat
  deriving DecidableEq

inductive Purpose where
  | flush
  | move
  | compaction
  deriving DecidableEq

inductive Job where
  | idle
  | build (number : Nat) (created : Bool) (base : List Nat)
  | output (number : Nat)
  | record (edit : Edit) (purpose : Purpose) (written : Bool)
  | remove (files : List FileName)
  deriving DecidableEq

structure Process where
  nextFile : Nat
  logNumber : Nat
  manifestNumber : Nat
  current : List Nat
  pinned : List (List Nat)
  pendingOutputs : List Nat
  bgError : Bool
  logfileNumber : Nat
  mem : List Nat
  imm : Option (List Nat)
  writing : Option Nat
  compaction : Option CompactionState
  job : Job
  installed : List Nat
  deriving DecidableEq

variable (p : Process)

def Process.versions : List (List Nat) :=
  p.current :: p.pinned ++ (p.compaction.map (·.inputVersion)).toList ++
    match p.job with
    | .build _ _ base => [base]
    | _ => []

def Process.live : List Nat := p.pendingOutputs ++ p.versions.flatten

def prevLogNumber : Nat := 0

def Process.keep : FileName → Bool
  | .log n => p.logNumber ≤ n ∨ n = prevLogNumber
  | .manifest n => p.manifestNumber ≤ n
  | .table n => n ∈ p.live

def Process.removeObsoleteFiles (files : List FileName) : Process :=
  if p.bgError then p else { p with job := .remove (files.filter fun f => ¬ p.keep f) }

def Process.recordBackgroundError : Process := { p with bgError := true, job := .idle }

def Process.cleanupCompaction : Process :=
  match p.compaction with
  | some c => { p with pendingOutputs := p.pendingOutputs.filter (· ∉ c.outputs), compaction := none }
  | none => p

def Process.install (e : Edit) : Process :=
  { p with
    current := p.current.filter (· ∉ e.deleted) ++ e.added
    logNumber := e.logNumber
    installed := p.installed ++ e.writes
    job := .idle }

def Process.afterInstall (files : List FileName) : Purpose → Process
  | .flush => { p with imm := none }.removeObsoleteFiles files
  | .move => p
  | .compaction => p.cleanupCompaction.removeObsoleteFiles files

def Process.afterError : Purpose → Process
  | .compaction => p.recordBackgroundError.cleanupCompaction
  | _ => p.recordBackgroundError

inductive Action where
  -- Readers
  | ref
  | unref (version : List Nat)
  -- The writer at the head of the queue
  | addRecord (write : Nat) (fails : Bool)
  | insert
  | syncFails
  | switchMemTable (createFails closeFails : Bool)
  -- The background thread
  | startFlush
  | createTable
  | finishTable
  | failTable
  | startMove (number : Nat)
  | startCompaction (inputs : List Nat)
  | openOutput
  | createOutput (fails : Bool)
  | finishCompaction
  | failCompaction
  | writeRecord
  | installRecord
  | failRecord
  | removeFile (fails : Bool)
  | removed
  -- Crashes and `DB::Open`
  | crash (records : Nat) (logs : Nat → Nat)
  | recover
  | recoverTable
  | recoverLog
  | openLog
  | createManifest
  | setCurrent

def Process.step (d : Disk) : Action → Option (Process × Disk)
  | .ref => some ({ p with pinned := p.current :: p.pinned }, d)
  | .unref v => if v ∈ p.pinned then some ({ p with pinned := p.pinned.erase v }, d) else none
  | .addRecord w fails =>
    if p.writing = none then
      if fails then some (p, d)
      else some ({ p with writing := some w },
        { d with logWrites := Function.update d.logWrites p.logfileNumber (d.logWrites p.logfileNumber ++ [w]) })
    else none
  | .insert =>
    match p.writing with
    | some w => some ({ p with mem := p.mem ++ [w], writing := none }, d)
    | none => none
  | .syncFails =>
    match p.writing with
    | some _ => some ({ p with writing := none, bgError := true }, d)
    | none => none
  | .switchMemTable createFails closeFails =>
    if p.writing = none ∧ p.imm = none ∧ p.bgError = false then
      -- The number of a log that could not be created is given back.
      if createFails then some (p, d)
      else some ({ p with nextFile := p.nextFile + 1, logfileNumber := p.nextFile, imm := some p.mem, mem := [],
                          bgError := closeFails }, d.createLog p.nextFile)
    else none
  | .startFlush =>
    if p.job = .idle ∧ p.imm ≠ none ∧ (p.bgError = false ∨ p.compaction ≠ none) then
      some ({ p with nextFile := p.nextFile + 1, pendingOutputs := p.nextFile :: p.pendingOutputs,
                     job := .build p.nextFile false p.current }, d)
    else none
  | .createTable =>
    match p.job with
    | .build n false base => some ({ p with job := .build n true base }, d.create (.table n))
    | _ => none
  | .finishTable =>
    match p.job, p.imm with
    | .build n true _, some imm =>
      let edit : Edit := ⟨[], if imm = [] then [] else [n], p.logfileNumber, p.nextFile, imm⟩
      some ({ p with pendingOutputs := p.pendingOutputs.erase n, job := .record edit .flush false },
        if imm = [] then d.remove (.table n) else d)
    | _, _ => none
  | .failTable =>
    match p.job with
    | .build n _ _ => some ({ p with pendingOutputs := p.pendingOutputs.erase n }.recordBackgroundError, d.remove (.table n))
    | _ => none
  | .startMove n =>
    if p.job = .idle ∧ p.compaction = none ∧ p.imm = none ∧ p.bgError = false ∧ n ∈ p.current then
      some ({ p with job := .record ⟨[n], [n], p.logNumber, p.nextFile, []⟩ .move false }, d)
    else none
  | .startCompaction inputs =>
    if p.job = .idle ∧ p.compaction = none ∧ p.imm = none ∧ p.bgError = false ∧ ∀ n ∈ inputs, n ∈ p.current then
      some ({ p with compaction := some ⟨inputs, p.current, []⟩ }, d)
    else none
  | .openOutput =>
    match p.job, p.compaction with
    | .idle, some c =>
      some ({ p with nextFile := p.nextFile + 1, pendingOutputs := p.nextFile :: p.pendingOutputs,
                     compaction := some { c with outputs := c.outputs ++ [p.nextFile] }, job := .output p.nextFile }, d)
    | _, _ => none
  | .createOutput fails =>
    match p.job with
    | .output n =>
      if fails then some (p.recordBackgroundError.cleanupCompaction, d)
      else some ({ p with job := .idle }, d.create (.table n))
    | _ => none
  | .finishCompaction =>
    match p.job, p.compaction with
    | .idle, some c =>
      some ({ p with job := .record ⟨c.inputs, c.outputs, p.logNumber, p.nextFile, []⟩ .compaction false }, d)
    | _, _ => none
  | .failCompaction =>
    if p.job = .idle ∧ p.compaction ≠ none then some (p.recordBackgroundError.cleanupCompaction, d) else none
  | .writeRecord =>
    match p.job with
    | .record edit purpose false =>
      some ({ p with job := .record edit purpose true }, { d with manifest := d.manifest.addRecord edit })
    | _ => none
  | .installRecord =>
    match p.job with
    | .record edit purpose true =>
      some ((p.install edit).afterInstall d.files purpose, { d with manifest := d.manifest.sync })
    | _ => none
  | .failRecord =>
    match p.job with
    | .record _ purpose _ => some (p.afterError purpose, d)
    | _ => none
  | .removeFile fails =>
    match p.job with
    | .remove (f :: files) => some ({ p with job := .remove files }, if fails then d else d.remove f)
    | _ => none
  | .removed => if p.job = .remove [] then some ({ p with job := .idle }, d) else none
  | .crash _ _ | .recover | .recoverTable | .recoverLog | .openLog | .createManifest | .setCurrent => none

/-! ## Opening -/

structure Opening where
  recorded : Recorded
  nextFile : Nat
  logs : List Nat
  tableWritten : Bool
  added : List Nat
  recovered : List Nat
  logfile : Option Nat
  manifestCreated : Bool

def Disk.logNumbers (d : Disk) : List Nat :=
  d.files.filterMap fun f => match f with
    | .log n => some n
    | _ => none

def Disk.recover (d : Disk) : Option Opening :=
  let r := d.manifest.read
  if .manifest d.current ∈ d.files ∧ ∀ t ∈ r.tables, .table t ∈ d.files then
    some {
      recorded := r
      nextFile := r.nextFile + 1
      logs := (d.logNumbers.filter fun n => r.logNumber ≤ n ∨ n = prevLogNumber).insertionSort (· ≤ ·)
      tableWritten := false
      added := []
      recovered := []
      logfile := none
      manifestCreated := false }
  else none

variable (o : Opening)

def Opening.manifestNumber : Nat := o.recorded.nextFile

def Opening.step (d : Disk) : Action → Option (Opening × Disk)
  | .recoverTable =>
    if o.logs ≠ [] then
      some ({ o with nextFile := o.nextFile + 1, added := o.added ++ [o.nextFile], tableWritten := true },
        d.create (.table o.nextFile))
    else none
  | .recoverLog =>
    match o.logs with
    | l :: logs =>
      if o.tableWritten ∨ d.logWrites l = [] then
        some ({ o with nextFile := max o.nextFile (l + 1), logs, tableWritten := false,
                       recovered := o.recovered ++ d.logWrites l }, d)
      else none
    | [] => none
  | .openLog =>
    if o.logs = [] ∧ o.logfile = none then
      some ({ o with nextFile := o.nextFile + 1, logfile := some o.nextFile }, d.createLog o.nextFile)
    else none
  | .createManifest =>
    if o.logfile ≠ none ∧ o.manifestCreated = false then
      some ({ o with manifestCreated := true }, d.create (.manifest o.manifestNumber))
    else none
  | _ => none

def Opening.setCurrent (d : Disk) : Option (Process × Disk) :=
  match o.logfile with
  | some logfile =>
    if o.manifestCreated then
      let tables := o.recorded.tables ++ o.added
      let writes := o.recorded.writes ++ o.recovered
      let p : Process := {
        nextFile := o.nextFile
        logNumber := logfile
        manifestNumber := o.manifestNumber
        current := tables
        pinned := []
        pendingOutputs := []
        bgError := false
        logfileNumber := logfile
        mem := []
        imm := none
        writing := none
        compaction := none
        job := .idle
        installed := writes }
      some (p.removeObsoleteFiles d.files,
        { d with current := o.manifestNumber, manifest := ⟨⟨tables, logfile, o.nextFile, writes⟩, [], 0⟩ })
    else none
  | none => none

inductive Phase where
  | down
  | opening (o : Opening)
  | up (p : Process)

structure System where
  disk : Disk
  phase : Phase

def System.init : System := ⟨.newDB, .down⟩

def System.step (s : System) (a : Action) : Option System :=
  match a, s.phase with
  | .crash records logs, _ => some ⟨s.disk.crash records logs, .down⟩
  | .recover, .down => s.disk.recover.map fun o => ⟨s.disk, .opening o⟩
  | .setCurrent, .opening o => (o.setCurrent s.disk).map fun r => ⟨r.2, .up r.1⟩
  | a, .opening o => (o.step s.disk a).map fun r => ⟨r.2, .opening r.1⟩
  | a, .up p => (p.step s.disk a).map fun r => ⟨r.2, .up r.1⟩
  | _, .down => none

/-! ## What is in use -/

def Process.beingWritten : List Nat :=
  p.pendingOutputs ++ ((p.compaction.map (·.outputs)).getD []) ++
    match p.job with
    | .build n _ _ => [n]
    | .output n => [n]
    | .record e _ _ => e.added
    | _ => []

def Process.Needs (d : Disk) : FileName → Prop
  | .table n => (∃ v ∈ p.versions, n ∈ v) ∨ n ∈ p.beingWritten
  | .log n => FileName.log n ∈ d.files ∧ ∃ w ∈ d.logWrites n, w ∉ p.installed
  | .manifest n => n = d.current

def Process.creates : Action → Option FileName
  | .switchMemTable createFails _ => if createFails then none else some (.log p.nextFile)
  | .createTable => match p.job with
    | .build n _ _ => some (.table n)
    | _ => none
  | .createOutput fails => match p.job with
    | .output n => if fails then none else some (.table n)
    | _ => none
  | _ => none

def Opening.creates : Action → Option FileName
  | .recoverTable => some (.table o.nextFile)
  | .openLog => some (.log o.nextFile)
  | .createManifest => some (.manifest o.manifestNumber)
  | _ => none

def System.creates (s : System) (a : Action) : Option FileName :=
  match s.phase with
  | .down => none
  | .opening o => o.creates a
  | .up p => p.creates a

def Phase.versions : Phase → List (List Nat)
  | .down => []
  | .opening o => [o.recorded.tables]
  | .up p => p.versions

def Phase.filesToDelete : Phase → List FileName
  | .up p => match p.job with
    | .remove files => files
    | _ => []
  | _ => []

def System.RecoveryReads (s : System) (n : Nat) : Prop :=
  FileName.log n ∈ s.disk.files ∧ ((∃ k, (s.disk.manifest.cut k).read.logNumber ≤ n) ∨
      match s.phase with
      | .opening o => n ∈ o.logs
      | _ => False)

def System.InUse (s : System) (f : FileName) : Prop :=
  (match f with
    | .table n => ∃ v ∈ s.phase.versions, n ∈ v
    | .log n => s.RecoveryReads n
    | .manifest n => n = s.disk.current) ∨
  f ∈ s.phase.filesToDelete

end RallyDB.Db.FileNames
