import RallyDB.Db.Manifest
import RallyDB.Db.WriteBatch
import RallyDB.Util.Directory

/-!
# Recovery of a database (`DBImpl::Recover`, `DBImpl::RecoverLogFile`)
-/

namespace RallyDB.Db

open Util Table Descriptor

structure TableFormat where
  encode : List (Entry Slice) → Slice
  decode : Slice → Option (List (Entry Slice))
  decode_encode : ∀ entries, (∀ e ∈ entries, StorableEntry e) → decode (encode entries) = some entries

structure Config where
  crc : Crc32c
  name : Slice
  name_length : name.length < 2 ^ 32
  format : TableFormat
  writeBufferSize : Nat
  approximateMemoryUsage : MemTable Slice → Nat
  paranoidChecks : Bool

structure Disk where
  logs : Directory
  tables : Directory
  manifests : Directory
  current : Nat

def Disk.cut (disk : Disk) (logs tables manifests : Nat → Nat) : Disk where
  logs := disk.logs.cut logs
  tables := disk.tables.cut tables
  manifests := disk.manifests.cut manifests
  current := disk.current

def Disk.descriptors (disk : Disk) : Descriptor.Disk := ⟨disk.current, fun n => (disk.manifests.file n).bytes⟩

namespace Config

variable (c : Config)

def entries (tables : Directory) (n : Nat) : List (Entry Slice) :=
  if n ∈ tables.names then (c.format.decode (tables.file n).bytes).getD [] else []

def tableMeta (number : Nat) : List (Entry Slice) → Option Descriptor.FileMetaData
  | [] => none
  | e :: es => some {
      number
      fileSize := (c.format.encode (e :: es)).length % 2 ^ 64
      smallest := e.1.encode
      largest := ((e :: es).getLast (List.cons_ne_nil e es)).1.encode }

end Config

/-! ## Logs -/

structure Recovering where
  vs : VersionSet
  tables : Directory
  edit : Descriptor.VersionEdit
  maxSequence : Nat
  mem : Option (MemTable Slice)

namespace Recovering

variable (c : Config)

def writeLevel0Table (r : Recovering) : Recovering :=
  match r.mem with
  | none => r
  | some mem =>
    let number := r.vs.nextFileNumber
    let r := { r with mem := none, vs := { r.vs with nextFileNumber := number + 1 } }
    match c.tableMeta number mem with
    | none => r
    | some f => { r with tables := r.tables.create number ⟨c.format.encode mem, 0⟩, edit := r.edit.addFile 0 f }

def insert (r : Recovering) (record : Slice) : Except Error Recovering :=
  let batch : WriteBatch := ⟨record⟩
  let inserted := batch.insertInto (r.mem.getD [])
  let lastSequence := (batch.sequence + batch.count + (2 ^ 64 - 1)) % 2 ^ 64
  let r := { r with mem := some inserted.1, maxSequence := max r.maxSequence lastSequence }
  match inserted.2, c.paranoidChecks with
  | .error e, true => .error e
  | _, _ => .ok (if c.writeBufferSize < c.approximateMemoryUsage inserted.1 then r.writeLevel0Table c else r)

def readStatus (reader : Log.Reader) : Status := if c.paranoidChecks then reported reader else .ok ()

def recoverLogLoop (reader : Log.Reader) (r : Recovering) : Except Error Recovering :=
  match _h : reader.readRecord c.crc with
  | (reader', none) => (readStatus c reader').map fun _ => r
  | (reader', some record) =>
    match readStatus c reader' with
    | .error e => .error e
    | .ok _ =>
      if record.length < WriteBatch.kHeader then
        if c.paranoidChecks then .error (.corruption "log record too small") else recoverLogLoop reader' r
      else
        match insert c r record with
        | .error e => .error e
        | .ok r' => recoverLogLoop reader' r'
termination_by reader.left
decreasing_by
  all_goals
    have hsome : (reader.readRecord c.crc).2 = some record := by rw [_h]
    have hlt := Log.Reader.left_readRecord c.crc hsome
    rw [_h] at hlt
    exact hlt

def markFileNumberUsed (r : Recovering) (number : Nat) : Recovering :=
  if r.vs.nextFileNumber ≤ number then { r with vs := { r.vs with nextFileNumber := number + 1 } } else r

def recoverLogFile (logs : Directory) (r : Recovering) (number : Nat) : Except Error Recovering :=
  match recoverLogLoop c (.new ⟨(logs.file number).bytes, []⟩ true 0) { r with mem := none } with
  | .error e => .error e
  | .ok r => .ok ((r.writeLevel0Table c).markFileNumberUsed number)

def recoverLogFiles (logs : Directory) : List Nat → Recovering → Except Error Recovering
  | [], r => .ok r
  | number :: numbers, r =>
    match recoverLogFile c logs r number with
    | .error e => .error e
    | .ok r => recoverLogFiles logs numbers r

end Recovering

def liveFiles (v : Descriptor.Version) : List Nat :=
  (List.range kNumLevels).flatMap fun level => (v level).map (·.number)

def Disk.Exists (disk : Disk) (n : Nat) : Prop :=
  n ∈ disk.tables.names ∨ n ∈ disk.logs.names ∨ n ∈ disk.manifests.names

instance (disk : Disk) (n : Nat) : Decidable (disk.Exists n) := inferInstanceAs (Decidable (_ ∨ _))

def Disk.logsToRecover (disk : Disk) (vs : VersionSet) : List Nat :=
  (disk.logs.names.filter fun n => vs.logNumber ≤ n ∨ n = vs.prevLogNumber).insertionSort (· ≤ ·)

def Config.recover (c : Config) (disk : Disk) : Except Error Recovering :=
  match Descriptor.recover c.crc c.name disk.descriptors false with
  | .error e => .error e
  | .ok vs =>
    if ∀ n ∈ liveFiles vs.current, disk.Exists n then
      match Recovering.recoverLogFiles c disk.logs (disk.logsToRecover vs)
        { vs, tables := disk.tables, edit := {}, maxSequence := 0, mem := none } with
      | .error e => .error e
      | .ok r => .ok { r with vs := { r.vs with lastSequence := max r.vs.lastSequence r.maxSequence } }
    else .error (.corruption "missing files")

end RallyDB.Db
