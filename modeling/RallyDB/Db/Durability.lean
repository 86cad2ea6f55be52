import RallyDB.Lib.Machine

/-!
# What a crash leaves of the writes (`DBImpl::Write`, `DBImpl::CompactMemTable`, `DBImpl::Recover`)
-/

namespace RallyDB.Db.Durability

open List

/-! ## Files -/

structure LogFile (α : Type) where
  records : List (α × Nat)
  length : Nat
  synced : Nat
  le_length : ∀ r ∈ records, r.2 ≤ length

namespace LogFile

variable {α : Type} (f : LogFile α)

def empty : LogFile α := ⟨[], 0, 0, nofun⟩

def addRecord (record : α) (n : Nat) : LogFile α where
  records := f.records ++ [(record, f.length + n)]
  length := f.length + n
  synced := f.synced
  le_length := by
    intro r hr
    rcases mem_append.1 hr with hr | hr
    · exact Nat.le_trans (f.le_length r hr) (Nat.le_add_right _ _)
    · cases mem_singleton.1 hr
      exact Nat.le_refl _

def sync : LogFile α := { f with synced := f.length }

def wholeIn (n : Nat) : List α := (f.records.filter (·.2 ≤ n)).map (·.1)

def read : List α := f.records.map (·.1)

def safe : List α := f.wholeIn f.synced

end LogFile

structure TableFile (ε : Type) where
  entries : List (ε × Nat)
  synced : Bool

structure VersionEdit where
  newFile : Option Nat
  logNumber : Nat
  deriving DecidableEq

structure Version where
  tables : List Nat
  logNumber : Nat
  deriving DecidableEq

def Version.apply (v : Version) (edit : VersionEdit) : Version := ⟨edit.newFile.toList ++ v.tables, edit.logNumber⟩

structure Disk (ε : Type) where
  logs : List Nat
  log : Nat → LogFile (List (ε × Nat))
  tables : List Nat
  table : Nat → TableFile ε
  snapshot : Version
  manifest : LogFile VersionEdit

structure Crash where
  log : Nat → Nat
  table : Nat → Bool
  manifest : Nat

variable {ε : Type}

namespace Disk

variable (d : Disk ε) (c : Crash)

def recoverVersion : Version := (d.manifest.wholeIn (max d.manifest.synced c.manifest)).foldl Version.apply d.snapshot

def tableLeft (n : Nat) : Prop := n ∈ d.tables ∧ ((d.table n).synced ∨ c.table n)

instance (n : Nat) : Decidable (d.tableLeft c n) := inferInstanceAs (Decidable (_ ∧ _))

def recoverLogFile (n : Nat) : List (ε × Nat) := ((d.log n).wholeIn (max (d.log n).synced (c.log n))).flatten

def recover : Option (List (ε × Nat)) :=
  let v := d.recoverVersion c
  if ∀ n ∈ v.tables, d.tableLeft c n then
    some ((v.tables.flatMap fun n => (d.table n).entries) ++ (d.logs.filter (v.logNumber ≤ ·)).flatMap (d.recoverLogFile c))
  else none

end Disk

structure Writer (ε : Type) where
  batch : Option (List ε)
  sync : Bool
  before : List (ε × Nat)

abbrev Numbered (ε : Type) := List (Writer ε × List (ε × Nat))

def Numbered.entries (g : Numbered ε) : List (ε × Nat) := g.flatMap (·.2)

def number (sequence : Nat) : List (Writer ε) → Numbered ε
  | [] => []
  | w :: ws =>
    let batch := w.batch.getD []
    (w, batch.zipIdx sequence) :: number (sequence + batch.length) ws

inductive Phase (ε : Type) where
  | waiting
  | switched
  | logged (g : Numbered ε) (sync : Bool)
  | synced (g : Numbered ε)
  | inserted (g : Numbered ε) (sync : Bool)

inductive Job where
  | idle
  | building (number : Nat)
  | built (number : Nat)
  | ready (newFile : Option Nat)
  | logged (edit : VersionEdit)
  deriving DecidableEq

structure State (ε : Type) where
  disk : Disk ε
  version : Version
  mem : List (ε × Nat)
  imm : Option (List (ε × Nat))
  logfileNumber : Nat
  nextFileNumber : Nat
  lastSequence : Nat
  writers : List (Writer ε)
  phase : Phase ε
  job : Job
  returned : Numbered ε

/-! ## Steps -/

inductive Action (ε : Type) where
  | write (batch : Option (List ε)) (sync : Bool)
  | switchMemTable
  | pass
  | addRecord (n bytes : Nat)
  | sync
  | insert
  | finish
  | flushBegin
  | buildTable
  | syncTable
  | logEdit (bytes : Nat)
  | install
  | removeLog (n : Nat)
  | removeTable (n : Nat)

namespace State

variable (s : State ε)

def switchMemTable : State ε :=
  let n := s.nextFileNumber
  { s with
    disk := { s.disk with logs := n :: s.disk.logs, log := Function.update s.disk.log n .empty }
    mem := []
    imm := some s.mem
    logfileNumber := n
    nextFileNumber := n + 1
    phase := .switched }

def addRecord (n bytes : Nat) : Option (State ε) :=
  match s.writers with
  | [] => none
  | w :: ws =>
    let group := (w :: ws).take n
    if w.batch.isSome ∧ 1 ≤ n ∧ ∀ w' ∈ group, w'.sync → w.sync then
      let g := number (s.lastSequence + 1) group
      some { s with
        disk := { s.disk with
          log := Function.update s.disk.log s.logfileNumber ((s.disk.log s.logfileNumber).addRecord g.entries bytes) }
        phase := .logged g w.sync }
    else none

variable (g : Numbered ε)

def syncLog : State ε :=
  { s with
    disk := { s.disk with log := Function.update s.disk.log s.logfileNumber (s.disk.log s.logfileNumber).sync }
    phase := .synced g }

def insert (sync : Bool) : State ε := { s with mem := s.mem ++ g.entries, phase := .inserted g sync }

def finish : State ε :=
  { s with
    writers := s.writers.drop g.length
    lastSequence := s.lastSequence + g.entries.length
    phase := .waiting
    returned := s.returned ++ g }

def buildTable (n : Nat) (imm : List (ε × Nat)) : State ε :=
  if imm.isEmpty then { s with job := .ready none }
  else
    { s with
      disk := { s.disk with tables := n :: s.disk.tables, table := Function.update s.disk.table n ⟨imm, false⟩ }
      job := .built n }

def syncTable (n : Nat) : State ε :=
  { s with
    disk := { s.disk with table := Function.update s.disk.table n { s.disk.table n with synced := true } }
    job := .ready (some n) }

def logEdit (newFile : Option Nat) (bytes : Nat) : State ε :=
  let edit : VersionEdit := ⟨newFile, s.logfileNumber⟩
  { s with
    disk := { s.disk with manifest := s.disk.manifest.addRecord edit bytes }
    job := .logged edit }

def install (edit : VersionEdit) : State ε :=
  { s with
    disk := { s.disk with manifest := s.disk.manifest.sync }
    version := s.version.apply edit
    imm := none
    job := .idle }

end State

def step (s : State ε) : Action ε → Option (State ε)
  | .write batch sync => some { s with writers := s.writers ++ [⟨batch, sync, s.returned.entries⟩] }
  | .switchMemTable =>
    match s.phase, s.imm, s.writers with
    | .waiting, none, _ :: _ | .switched, none, _ :: _ => some s.switchMemTable
    | _, _, _ => none
  | .pass =>
    match s.phase, s.writers with
    | .switched, ⟨none, sync, before⟩ :: ws =>
      some { s with writers := ws, phase := .waiting, returned := s.returned ++ [(⟨none, sync, before⟩, [])] }
    | _, _ => none
  | .addRecord n bytes =>
    match s.phase with
    | .waiting | .switched => s.addRecord n bytes
    | _ => none
  | .sync =>
    match s.phase with
    | .logged g true => some (s.syncLog g)
    | _ => none
  | .insert =>
    match s.phase with
    | .logged g false => some (s.insert g false)
    | .synced g => some (s.insert g true)
    | _ => none
  | .finish =>
    match s.phase with
    | .inserted g _ => some (s.finish g)
    | _ => none
  | .flushBegin =>
    match s.job, s.imm with
    | .idle, some _ => some { s with job := .building s.nextFileNumber, nextFileNumber := s.nextFileNumber + 1 }
    | _, _ => none
  | .buildTable =>
    match s.job, s.imm with
    | .building n, some imm => some (s.buildTable n imm)
    | _, _ => none
  | .syncTable =>
    match s.job with
    | .built n => some (s.syncTable n)
    | _ => none
  | .logEdit bytes =>
    match s.job with
    | .ready newFile => some (s.logEdit newFile bytes)
    | _ => none
  | .install =>
    match s.job with
    | .logged edit => some (s.install edit)
    | _ => none
  | .removeLog n =>
    if s.job = .idle ∧ n < s.version.logNumber then
      some { s with disk := { s.disk with logs := s.disk.logs.filter (· ≠ n) } }
    else none
  | .removeTable n =>
    if s.job = .idle ∧ n ∉ s.version.tables then
      some { s with disk := { s.disk with tables := s.disk.tables.filter (· ≠ n) } }
    else none

structure Opened (s : State ε) : Prop where
  snapshot : s.disk.snapshot = s.version
  manifest : s.disk.manifest = .empty
  tables : ∀ n ∈ s.version.tables, n ∈ s.disk.tables ∧ (s.disk.table n).synced ∧ n < s.nextFileNumber
  logNumber : s.version.logNumber = s.logfileNumber
  log_mem : s.logfileNumber ∈ s.disk.logs
  logs_le : ∀ n ∈ s.disk.logs, n ≤ s.logfileNumber
  log_lt : s.logfileNumber < s.nextFileNumber
  log : s.disk.log s.logfileNumber = .empty
  mem : s.mem = []
  imm : s.imm = none
  writers : s.writers = []
  phase : s.phase = .waiting
  job : s.job = .idle
  returned : s.returned = []

def State.fresh : State ε where
  disk := ⟨[3], fun _ => .empty, [], fun _ => ⟨[], true⟩, ⟨[], 3⟩, .empty⟩
  version := ⟨[], 3⟩
  mem := []
  imm := none
  logfileNumber := 3
  nextFileNumber := 4
  lastSequence := 0
  writers := []
  phase := .waiting
  job := .idle
  returned := []

lemma opened_fresh : Opened (State.fresh : State ε) where
  snapshot := rfl
  manifest := rfl
  tables := nofun
  logNumber := rfl
  log_mem := mem_singleton_self 3
  logs_le := by
    intro n hn
    exact Nat.le_of_eq (mem_singleton.1 hn)
  log_lt := Nat.lt_succ_self 3
  log := rfl
  mem := rfl
  imm := rfl
  writers := rfl
  phase := rfl
  job := rfl
  returned := rfl

end RallyDB.Db.Durability
