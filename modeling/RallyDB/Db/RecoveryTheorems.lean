import RallyDB.Db.FlatTable
import RallyDB.Db.ManifestTheorems
import RallyDB.Db.LogTheorems

/-!
# Recovery from files that a crash cut short
-/

namespace RallyDB.Db

open Util Table List Log Recovering
open Descriptor (recoverLoop reported_of_nil decodeRecord)

/-- A crash leaves `part` of a log, and `whole` is the log of the records that are whole in it. -/
def CutTo (crc : Crc32c) (part whole : Slice) : Prop :=
  ∃ ops, part <+: (writeLog crc (.new ⟨[], []⟩) ops).1.dest.contents ∧ whole = (writeLog crc (.new ⟨[], []⟩)
    ((completeIn (writeLog crc (.new ⟨[], []⟩) ops).2 part.length).map .addRecord)).1.dest.contents

/-- Calls of `ReadRecord` give the records and then the end of the file, and nothing is reported. -/
inductive Yields (crc : Crc32c) : Reader → List Slice → Prop
  | nil {r r'} (read : r.readRecord crc = (r', none)) (quiet : r'.reports = []) : Yields crc r []
  | cons {r r' record records} (read : r.readRecord crc = (r', some record)) (quiet : r'.reports = [])
    (tail : Yields crc r' records) : Yields crc r (record :: records)

variable {crc : Crc32c} {part whole contents : Slice} {records : List Slice} {reader : Reader} {q : Nat}

lemma yields_of_replay (hat : reader.At contents q) (hreports : reader.reports = [])
    (hreplay : replay crc contents q none = records.map some) : Yields crc reader records := by
  have hgives := Reader.readRecord_gives crc hat
  rw [hreplay] at hgives
  induction records generalizing reader q with
  | nil => exact .nil (Prod.ext rfl hgives.nil.1) (hgives.nil.2.trans hreports)
  | cons record records ih =>
    obtain ⟨hsome, hsame, q', hat', hreplay'⟩ := hgives.some_cons
    have hquiet := hsame.trans hreports
    exact .cons (Prod.ext rfl hsome) hquiet (ih hat' hquiet hreplay' (hreplay' ▸ Reader.readRecord_gives crc hat'))

lemma CutTo.yields (h : CutTo crc part whole) :
    ∃ records, Yields crc (.new ⟨part, []⟩ true 0) records ∧ Yields crc (.new ⟨whole, []⟩ true 0) records := by
  obtain ⟨ops, hpart, rfl⟩ := h
  have hwritten : Written crc _ _ _ := written_new.writeLog
    ((completeIn (writeLog crc (.new ⟨[], []⟩) ops).2 part.length).map .addRecord)
  refine ⟨_, yields_of_replay (Reader.at_new _) rfl ((written_new.writeLog ops).replay_eq hpart),
    yields_of_replay (Reader.at_new _) rfl ?_⟩
  rw [hwritten.replay_eq prefix_rfl, hwritten.records.completeIn_of_le le_rfl, nil_append, writeLog_records, nil_append]

lemma Yields.recoverLogLoop {c : Config} (h : Yields c.crc reader records) (r : Recovering) :
    recoverLogLoop c reader r = records.foldlM (fun r record =>
      if record.length < WriteBatch.kHeader then
        if c.paranoidChecks then .error (.corruption "log record too small") else .ok r
      else r.insert c record) r := by
  induction h generalizing r with
  | nil read quiet =>
    rw [Recovering.recoverLogLoop]
    split <;> simp_all [readStatus, reported_of_nil]
    rfl
  | @cons _ _ record _ read quiet tail ih =>
    rw [Recovering.recoverLogLoop, foldlM_cons]
    split
    · simp_all
    · rename_i hread
      rw [hread] at read
      cases read
      rw [readStatus, reported_of_nil quiet, ite_self]
      simp only [ih]
      by_cases hsmall : record.length < WriteBatch.kHeader
      · simp only [if_pos hsmall]
        cases c.paranoidChecks <;> rfl
      · simp only [if_neg hsmall]
        cases r.insert c record <;> rfl

lemma Yields.recoverLoop (h : Yields crc reader records) (name : Slice) (s : Descriptor.Recovery) :
    recoverLoop crc name reader s = records.foldlM (fun s record => (decodeRecord name record).map s.apply) s := by
  induction h generalizing s with
  | nil read quiet =>
    rw [Descriptor.recoverLoop]
    split <;> simp_all [reported_of_nil]
    rfl
  | cons read quiet tail ih =>
    rw [Descriptor.recoverLoop, foldlM_cons]
    split
    · simp_all
    · rename_i hread
      rw [hread] at read
      cases read
      rw [reported_of_nil quiet]
      simp only [ih]
      cases decodeRecord name _ <;> rfl

/-- Recovery of a disk whose logs and manifests a crash cut anywhere is recovery of the disk that holds only their whole
records, with the same tables, edit, sequence number and errors. -/
theorem recover_of_cut (c : Config) (disk : Disk) (logs manifests : Directory) (hlogNames : logs.names = disk.logs.names)
    (hlogs : ∀ n, CutTo c.crc (disk.logs.file n).bytes (logs.file n).bytes) (hnames : manifests.names = disk.manifests.names)
    (hmanifests : ∀ n, CutTo c.crc (disk.manifests.file n).bytes (manifests.file n).bytes) :
    c.recover disk = c.recover { disk with logs, manifests } := by
  have hfiles : ∀ numbers r, recoverLogFiles c disk.logs numbers r = recoverLogFiles c logs numbers r := by
    intro numbers
    induction numbers with
    | nil => exact fun r => rfl
    | cons number numbers ih =>
      intro r
      obtain ⟨records, hpart, hwhole⟩ := (hlogs number).yields
      simp only [recoverLogFiles, recoverLogFile, hpart.recoverLogLoop, hwhole.recoverLogLoop, ih]
  obtain ⟨records, hpart, hwhole⟩ := (hmanifests disk.current).yields
  have hversion : Descriptor.recover c.crc c.name disk.descriptors false =
      Descriptor.recover c.crc c.name ({ disk with logs, manifests } : Disk).descriptors false := by
    unfold Descriptor.recover Disk.descriptors
    dsimp only
    rw [hpart.recoverLoop, hwhole.recoverLoop]
    rfl
  unfold Config.recover Disk.logsToRecover Disk.Exists
  rw [hversion]
  simp only [hfiles, hlogNames, hnames]

/-- The second batch of the log is torn. -/
theorem recover_of_cut_sample :
    let log (keys : List UInt8) := (writeLog .bitwise (.new ⟨[], []⟩)
      (keys.map fun key => .addRecord (WriteBatch.put .clear [key] [2]).rep)).1.dest.contents
    let manifests : Directory := ⟨[1], fun _ => ⟨(Descriptor.newDB .bitwise [98]).manifest 1, 0⟩⟩
    let disk (bytes : Slice) : Disk := ⟨⟨[3], fun _ => ⟨bytes, 0⟩⟩, .empty, manifests, 1⟩
    (Config.sample 0).recover (disk ((log [1, 4]).take 30)) = (Config.sample 0).recover (disk (log [1])) := by
  intro log manifests disk
  have hlog : CutTo .bitwise ((log [1, 4]).take 30) (log [1]) := ⟨_, take_prefix _ _, by decide +kernel⟩
  have hmanifest : CutTo .bitwise (manifests.file 1).bytes (manifests.file 1).bytes :=
    ⟨[.addRecord _], prefix_rfl, by decide +kernel⟩
  exact recover_of_cut (.sample 0) (disk _) (disk (log [1])).logs manifests rfl (fun _ => hlog) rfl fun _ => hmanifest

end RallyDB.Db
