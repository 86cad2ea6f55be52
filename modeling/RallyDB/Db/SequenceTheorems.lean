import RallyDB.Db.Lemmas.Durability
import RallyDB.Db.Lemmas.LogSound
import RallyDB.Db.Lemmas.State
import RallyDB.Db.Lemmas.WriteBatch
import RallyDB.Db.Sequences

/-!
# Sequence numbers are not reused
-/

namespace RallyDB.Db.Sequences

open Util Table List Function Process Nat

variable {crc : Crc32c} {B B' : Nat} {record : Slice} {e : Entry Slice}

/-! ## Records and logs -/

lemma sequence_of_mem_batchEntries {seq : Nat} {ops : List (BatchOp Slice)} (h : e ∈ batchEntries seq ops) :
    e.1.sequence < seq + ops.length := by
  induction ops generalizing seq with
  | nil => cases h
  | cons op ops ih =>
    rw [length_cons]
    rcases mem_cons.1 h with rfl | h
    · cases op <;> simp [BatchOp.entry]
    · have := ih h
      omega

lemma le_foldr_max {l : List Nat} {n : Nat} (h : n ∈ l) : n ≤ l.foldr max 0 := by
  induction l with
  | nil => cases h
  | cons m l ih =>
    rcases mem_cons.1 h with rfl | h
    · exact le_max_left _ _
    · exact (ih h).trans (le_max_right _ _)

def RecordOk (B : Nat) (record : Slice) : Prop :=
  ∃ seq ops, (⟨record⟩ : WriteBatch).Holds seq ops ∧ (∀ op ∈ ops, op.Storable) ∧ 1 ≤ seq ∧ seq + ops.length ≤ B + 1 ∧
    ops.length < 2 ^ 31 ∧ seq + ops.length ≤ 2 ^ 56

lemma RecordOk.mono (h : RecordOk B record) (hle : B ≤ B') : RecordOk B' record := by
  obtain ⟨seq, ops, hholds, hops, hpos, hB, hrest⟩ := h
  exact ⟨seq, ops, hholds, hops, hpos, by omega, hrest⟩

lemma RecordOk.sequence_le (h : RecordOk B record) (he : e ∈ recordEntries record) :
    e.1.sequence ≤ B ∧ e.1.sequence ≤ recordLast record := by
  obtain ⟨seq, ops, hholds, hops, hpos, hB, hlt, hmax⟩ := h
  unfold recordEntries at he
  unfold recordLast
  split_ifs at he ⊢ with hshort
  · cases he
  · dsimp only at he ⊢
    rw [hholds.iterate (fun op hop => (hops op hop).fits) (by omega), hholds.sequence (by omega)] at he
    rw [hholds.sequence (by omega), hholds.count (by omega)]
    have hseq : e.1.sequence < seq + ops.length := sequence_of_mem_batchEntries he
    have hlast : seq + ops.length + (2 ^ 64 - 1) = seq + ops.length - 1 + 2 ^ 64 := by omega
    rw [hlast, add_mod_right, mod_eq_of_lt (by omega)]
    omega

def LogOk (crc : Crc32c) (B : Nat) (bytes : Slice) : Prop :=
  ∃ w rs, Log.Written crc 0 w rs ∧ bytes <+: w.dest.contents ∧ ∀ r ∈ rs, RecordOk B r.1

lemma LogOk.mono {bytes : Slice} (h : LogOk crc B bytes) (hle : B ≤ B') : LogOk crc B' bytes := by
  obtain ⟨w, rs, hw, hp, hrs⟩ := h
  exact ⟨w, rs, hw, hp, fun r hr => (hrs r hr).mono hle⟩

variable {l : LogContents}

lemma LogOk.cut (h : LogOk crc B l.bytes) (n : Nat) : LogOk crc B (l.cut n).bytes := by
  obtain ⟨w, rs, hw, hp, hrs⟩ := h
  exact ⟨w, rs, hw, ( take_prefix _ _).trans hp, hrs⟩

lemma LogOk.recordOk {bytes : Slice} (h : LogOk crc B bytes) (hr : record ∈ (Log.recovered crc bytes).1) :
    RecordOk B record := by
  obtain ⟨w, rs, hw, hp, hrs⟩ := h
  rw [hw.recovered_eq hp] at hr
  obtain ⟨r, hmem, rfl⟩ := mem_map.1 hr
  exact hrs r (mem_of_mem_filter hmem)

lemma LogOk.sequence_le (h : LogOk crc B l.bytes) (he : e ∈ l.entries crc) :
    e.1.sequence ≤ B ∧ e.1.sequence ≤ l.maxSequence crc := by
  obtain ⟨record, hr, he⟩ := mem_flatMap.1 he
  obtain ⟨hB, hlast⟩ := (h.recordOk hr).sequence_le he
  refine ⟨hB, hlast.trans ?_⟩
  exact le_foldr_max (mem_map_of_mem hr)

def LogWhole (crc : Crc32c) (B : Nat) (l : LogContents) : Prop :=
  ∃ rs, Log.Written crc 0 (l.writer []) rs ∧ ∀ r ∈ rs, RecordOk B r.1

lemma LogWhole.ok (h : LogWhole crc B l) : LogOk crc B l.bytes := by
  obtain ⟨rs, hw, hrs⟩ := h
  exact ⟨_, rs, hw, prefix_rfl, hrs⟩

lemma logWhole_empty : LogWhole crc B .empty := ⟨[], Log.written_new, nofun⟩

lemma LogWhole.mono (h : LogWhole crc B l) (hle : B ≤ B') : LogWhole crc B' l := by
  obtain ⟨rs, hw, hrs⟩ := h
  exact ⟨rs, hw, fun r hr => (hrs r hr).mono hle⟩

lemma LogWhole.addRecord (h : LogWhole crc B l) {faults : List (Option Nat)}
    (hfill : (l.writer faults).FillsUp) (hrecord : RecordOk B record) (synced : Nat) :
    let r := (l.writer faults).addRecord crc record
    LogOk crc B r.1.dest.contents ∧ (r.2 = .ok () → LogWhole crc B ⟨r.1.dest.contents, r.1.blockOffset, synced⟩) := by
  intro r
  obtain ⟨rs, hw, hrs⟩ := h
  have hnew := hw.addRecord record
  have hall : ∀ q ∈ rs ++ [(record, ((l.writer []).addRecord crc record).1.size)], RecordOk B q.1 := by
    intro q hq
    rcases mem_append.1 hq with hq | hq
    · exact hrs q hq
    · cases mem_singleton.1 hq
      exact hrecord
  obtain ⟨hpart, hok⟩ :=
    @Log.Writer.addFragments_sound crc (l.writer faults) true record hfill.switchBlock_sound
  refine ⟨⟨_, _, hnew, hpart, hall⟩, ?_⟩
  intro hr
  refine ⟨_, ?_, hall⟩
  have hsound : (⟨r.1.dest.contents, r.1.blockOffset, synced⟩ : LogContents).writer [] = _ := hok hr
  rw [hsound]
  exact hnew

/-! ## The invariant -/

def Process.bound (p : Process) : Nat :=
  match p.phase with
  | .waiting => p.lastSequence
  | .sync _ last | .insert _ last | .finish last => last

def TablesOk (d : Disk) (B : Nat) (tables : List Nat) : Prop :=
  ∀ t ∈ tables, t < d.nextFileNumber ∧ ∀ e ∈ d.table t, e.1.sequence ≤ B

variable {d : Disk}

lemma TablesOk.mono {tables : List Nat} (h : TablesOk d B tables) (hle : B ≤ B') : TablesOk d B' tables :=
  fun t ht => ⟨(h t ht).1, fun e he => ((h t ht).2 e he).trans hle⟩

lemma TablesOk.append {tables tables' : List Nat} (h : TablesOk d B tables) (h' : TablesOk d B tables') :
    TablesOk d B (tables ++ tables') :=
  fun t ht => (mem_append.1 ht).elim (h t) (h' t)

lemma TablesOk.apply {v : Version} {edit : VersionEdit} (h : TablesOk d B v.tables)
    (hnew : TablesOk d B edit.newFiles) : TablesOk d B (v.apply edit).tables :=
  hnew.append fun t ht => h t (mem_of_mem_filter ht)

def Process.JobOk (p : Process) (d : Disk) : Prop :=
  match p.job with
  | .idle => True
  | .ready _ edit | .logged _ edit =>
    TablesOk d p.lastSequence edit.newFiles ∧ ∀ n ∈ edit.logNumber, p.version.logNumber ≤ n ∧ n ≤ p.logfileNumber

def Process.target (p : Process) : Version :=
  match p.job with
  | .logged _ edit => p.version.apply edit
  | _ => p.version

def ReadingOk (d : Disk) (logNumber : Nat) (v : Version) : Prop :=
  TablesOk d v.lastSequence v.tables ∧ logNumber ≤ v.logNumber

structure ProcOk (crc : Crc32c) (d : Disk) (p : Process) : Prop where
  lastSequence_le : p.lastSequence ≤ p.bound
  phase : ∀ b last, p.phase = .sync b last ∨ p.phase = .insert b last → last = p.lastSequence + b.ops.length
  mem : ∀ e ∈ p.mem, e.1.sequence ≤ p.bound
  imm : ∀ e ∈ p.imm.getD [], e.1.sequence ≤ p.lastSequence
  tables : TablesOk d p.lastSequence p.version.tables
  job : p.JobOk d
  logs : ∀ n ∈ d.logs, p.version.logNumber ≤ n → LogOk crc p.bound (d.log n).bytes
  current : p.failed = false → LogWhole crc p.bound (d.log p.logfileNumber)
  logs_lt : ∀ n ∈ d.logs, n < d.nextFileNumber
  logfile_mem : p.logfileNumber ∈ d.logs
  logNumber_le : p.version.logNumber ≤ p.logfileNumber
  whole : d.version.tables = p.target.tables ∧ d.version.logNumber = p.target.logNumber
  readings : ∀ n, d.manifest.synced ≤ n →
    ReadingOk d p.version.logNumber ((d.manifest.wholeIn n).foldl Version.apply d.snapshot)

structure DiskOk (crc : Crc32c) (d : Disk) : Prop where
  tables : TablesOk d d.version.lastSequence d.version.tables
  logs : ∃ B, ∀ n ∈ d.logs, d.version.logNumber ≤ n → LogOk crc B (d.log n).bytes
  logs_lt : ∀ n ∈ d.logs, n < d.nextFileNumber

def Inv (crc : Crc32c) (s : State) : Prop :=
  match s.process with
  | none => DiskOk crc s.disk
  | some p => ProcOk crc s.disk p

variable {p : Process}

lemma ProcOk.covered (h : ProcOk crc d p) (hphase : p.phase = .waiting)
    (he : Present crc d p e) : e.1.sequence ≤ p.lastSequence := by
  have hbound : p.bound = p.lastSequence := by rw [bound, hphase]
  rcases he with he | he | ⟨t, ht, he⟩ | ⟨n, hn, hle, he⟩
  · exact hbound ▸ h.mem e he
  · exact h.imm e he
  · exact (h.tables t ht).2 e he
  · exact hbound ▸ ((h.logs n hn hle).sequence_le he).1

lemma Inv.covered {s : State} (h : Inv crc s) : Covered crc s := by
  intro p hp hphase e he
  unfold Inv at h
  rw [Option.mem_def.1 hp] at h
  cases hw : p.phase with
  | waiting => exact h.covered hw he
  | _ =>
    rw [hw] at hphase
    cases hphase

/-! ## Steps of the writer -/

section Writer

variable {d : Disk} {p : Process}

variable {b : Batch}

lemma recordOk_record (hle : p.lastSequence + b.ops.length ≤ kMaxSequenceNumber) :
    RecordOk (p.lastSequence + b.ops.length) (p.record b) := by
  have hmax : kMaxSequenceNumber = 2 ^ 56 - 1 := rfl
  exact ⟨p.lastSequence + 1, b.ops, b.holds.setSequence _, b.storable, by omega, by omega, b.count_lt, by omega⟩

variable {last : Nat}

section

variable (h : ProcOk crc d p)
include h

lemma ProcOk.addRecord (hphase : p.phase = .waiting) {l : LogContents} {phase : Phase} {failed : Bool}
    (hlast : p.lastSequence ≤ last) (hbound : ({ p with phase := phase } : Process).bound = last)
    (hnext : ∀ b n, phase = .sync b n ∨ phase = .insert b n → n = p.lastSequence + b.ops.length)
    (hl : LogOk crc last l.bytes) (hwhole : failed = false → LogWhole crc last l) :
    ProcOk crc { d with log := update d.log p.logfileNumber l }
    { p with
    phase := phase
    failed := failed } := by
  have hold : p.bound = p.lastSequence := by rw [bound, hphase]
  have hbound' : ({ p with
    phase := phase
    failed := failed } : Process).bound = last := hbound
  exact { h with
    lastSequence_le := by
      rw [hbound']
      exact hlast
    phase := hnext
    mem := by
      intro e he
      rw [hbound']
      exact (hold ▸ h.mem e he).trans hlast
    logs := by
      intro n hn hle
      rw [hbound']
      dsimp only
      by_cases hcur : n = p.logfileNumber
      · rw [hcur, update_self]
        exact hl
      · rw [update_of_ne hcur]
        exact (h.logs n hn hle).mono (hold ▸ hlast)
    current := by
      intro hf
      rw [hbound']
      dsimp only
      rw [update_self]
      exact hwhole hf }

lemma ProcOk.write (hphase : p.phase = .waiting) {sync : Bool} {faults : List (Option Nat)} (hfailed : p.failed = false)
    (hfill : ((d.log p.logfileNumber).writer faults).FillsUp) {r : Process × Disk}
    (hs : p.write crc d b sync faults = some r) : ProcOk crc r.2 r.1 := by
  unfold Process.write at hs
  dsimp only at hs
  by_cases hc : p.bgError = false ∧ p.lastSequence + b.ops.length ≤ kMaxSequenceNumber
  rotate_left
  · rw [if_neg hc] at hs
    cases hs
  rw [if_pos hc] at hs
  have hold : p.bound = p.lastSequence := by rw [Process.bound, hphase]
  have hle : p.lastSequence ≤ p.lastSequence + b.ops.length := Nat.le_add_right _ _
  have hcur : LogWhole crc (p.lastSequence + b.ops.length) (d.log p.logfileNumber) :=
    (h.current hfailed).mono (by rw [hold]; exact hle)
  obtain ⟨hok, hwhole⟩ := hcur.addRecord hfill (recordOk_record hc.2) (d.log p.logfileNumber).synced
  split at hs
  · cases hs
    refine h.addRecord hphase hle rfl ?_ hok fun hf => by cases hf
    intro b' n hn
    rcases hn with hn | hn <;> cases hn
  · rename_i hres
    cases hs
    cases sync with
    | true =>
      refine h.addRecord hphase hle rfl ?_ hok fun _ => hwhole hres
      intro b' n hn
      rcases hn with hn | hn
      · cases hn
        rfl
      · cases hn
    | false =>
      refine h.addRecord hphase hle rfl ?_ hok fun _ => hwhole hres
      intro b' n hn
      rcases hn with hn | hn
      · cases hn
      · cases hn
        rfl

lemma ProcOk.syncLog (hphase : p.phase = .sync b last) (fails : Bool) :
    ProcOk crc (p.syncLog d b last fails).2 (p.syncLog d b last fails).1 := by
  have hold : p.bound = last := by rw [Process.bound, hphase]
  have hlast := h.phase b last (.inl hphase)
  have hle := hold ▸ h.lastSequence_le
  have hmem := hold ▸ h.mem
  have hlogs := hold ▸ h.logs
  have hcurrent := hold ▸ h.current
  unfold Process.syncLog
  split_ifs
  · exact { h with
      lastSequence_le := hle
      phase := nofun
      mem := hmem
      logs := hlogs
      current := hcurrent }
  · exact { h with
      lastSequence_le := hle
      phase := by
        intro b' n hn
        rcases hn with hn | hn
        · cases hn
        · cases hn
          exact hlast
      mem := hmem
      logs := by
        intro n hn hn'
        dsimp only
        by_cases hcur : n = p.logfileNumber
        · rw [hcur, Function.update_self]
          exact hlogs _ (hcur ▸ hn) (hcur ▸ hn')
        · rw [Function.update_of_ne hcur]
          exact hlogs n hn hn'
      current := by
        intro hf
        dsimp only
        rw [Function.update_self]
        exact hcurrent hf }

lemma ProcOk.insert (hphase : p.phase = .insert b last) : ProcOk crc d (p.insert b last) := by
  have hold : p.bound = last := by rw [bound, hphase]
  have hlast := h.phase b last (.inr hphase)
  exact { h with
    lastSequence_le := hold ▸ h.lastSequence_le
    phase := nofun
    mem := by
      intro e he
      change e.1.sequence ≤ last
      rcases mem_insertInto.1 he with he | he
      · have := sequence_of_mem_batchEntries he
        omega
      · exact hold ▸ h.mem e he
    logs := hold ▸ h.logs
    current := hold ▸ h.current }

end

lemma Process.JobOk.mono (h : p.JobOk d) (hle : p.lastSequence ≤ last) {phase : Phase} : ({ p with
    lastSequence := last
    phase := phase } : Process).JobOk d := by
  unfold Process.JobOk at h ⊢
  dsimp only
  cases hj : p.job with
  | idle => trivial
  | ready flush edit | logged flush edit =>
    rw [hj] at h
    exact ⟨h.1.mono hle, h.2⟩

lemma ProcOk.finish (h : ProcOk crc d p) (hphase : p.phase = .finish last) : ProcOk crc d { p with
    lastSequence := last
    phase := .waiting } := by
  have hold : p.bound = last := by rw [bound, hphase]
  have hle : p.lastSequence ≤ last := hold ▸ h.lastSequence_le
  exact { h with
    lastSequence_le := le_refl _
    phase := nofun
    mem := hold ▸ h.mem
    imm := fun e he => (h.imm e he).trans hle
    tables := h.tables.mono hle
    job := h.job.mono hle
    logs := hold ▸ h.logs
    current := hold ▸ h.current }

lemma ProcOk.switchMemTable (h : ProcOk crc d p) (hphase : p.phase = .waiting) :
    ProcOk crc (p.switchMemTable d).2 (p.switchMemTable d).1 := by
  have hold : p.bound = p.lastSequence := by rw [bound, hphase]
  have hlt := h.logs_lt _ h.logfile_mem
  have hnew : ∀ n, n < d.nextFileNumber → n < d.nextFileNumber + 1 := fun n hn => lt_succ_of_lt hn
  have htables : ∀ {B tables}, TablesOk d B tables → TablesOk (p.switchMemTable d).2 B tables :=
    fun ht t hmem => ⟨hnew t (ht t hmem).1, (ht t hmem).2⟩
  exact { h with
    mem := nofun
    imm := hold ▸ h.mem
    tables := htables h.tables
    job := by
      have hjob := h.job
      unfold Process.JobOk at hjob ⊢
      change match p.job with
        | .idle => True
        | .ready _ edit | .logged _ edit => _
      cases hj : p.job with
      | idle => trivial
      | ready flush edit | logged flush edit =>
        rw [hj] at hjob
        exact ⟨htables hjob.1, fun n hn => ⟨(hjob.2 n hn).1, ((hjob.2 n hn).2.trans hlt.le)⟩⟩
    logs := by
      intro n hn hle
      change LogOk crc p.bound (update d.log d.nextFileNumber .empty n).bytes
      rcases mem_cons.1 hn with rfl | hn
      · rw [update_self]
        exact logWhole_empty.ok
      · rw [update_of_ne (h.logs_lt n hn).ne]
        exact h.logs n hn hle
    current := by
      intro _
      change LogWhole crc p.bound (update d.log d.nextFileNumber .empty d.nextFileNumber)
      rw [update_self]
      exact logWhole_empty
    logs_lt := by
      intro n hn
      rcases mem_cons.1 hn with rfl | hn
      · exact lt_succ_self _
      · exact hnew n (h.logs_lt n hn)
    logfile_mem := mem_cons_self
    logNumber_le := h.logNumber_le.trans hlt.le
    readings := fun n hn => ⟨htables (h.readings n hn).1, (h.readings n hn).2⟩ }

end Writer

/-! ## Steps of the background thread -/

section Background

variable {d : Disk} {p : Process} {B : Nat}

lemma table_addTables (outputs : List (List (Entry Slice))) {t : Nat} (ht : t < d.nextFileNumber) :
    (addTables d outputs).2.table t = d.table t := if_pos ht

lemma TablesOk.addTables {tables : List Nat} (h : TablesOk d B tables) (outputs : List (List (Entry Slice))) :
    TablesOk (addTables d outputs).2 B tables := by
  intro t ht
  obtain ⟨hlt, hentries⟩ := h t ht
  refine ⟨hlt.trans_le (le_add_right _ _), ?_⟩
  rw [table_addTables outputs hlt]
  exact hentries

variable {outputs : List (List (Entry Slice))}

lemma tablesOk_addTables (h : ∀ es ∈ outputs, ∀ e ∈ es, e.1.sequence ≤ B) :
    TablesOk (addTables d outputs).2 B (addTables d outputs).1 := by
  intro t ht
  obtain ⟨i, hi, rfl⟩ := mem_map.1 ht
  rw [mem_range] at hi
  refine ⟨Nat.add_lt_add_left hi _, ?_⟩
  intro e he
  have htable : (addTables d outputs).2.table (d.nextFileNumber + i) = outputs[i] := by
    unfold addTables
    dsimp only
    rw [if_neg (not_lt.2 (Nat.le_add_right _ _)), Nat.add_sub_cancel_left, getElem?_eq_getElem hi]
    rfl
  rw [htable] at he
  exact h _ (getElem_mem hi) e he

variable {flush : Bool}

lemma ProcOk.addTables (h : ProcOk crc d p)
    (houtputs : ∀ es ∈ outputs, ∀ e ∈ es, e.1.sequence ≤ p.lastSequence) {deletedFiles : List Nat}
    {logNumber : Option Nat} (hidle : p.job = .idle)
    (hlog : ∀ n ∈ logNumber, p.version.logNumber ≤ n ∧ n ≤ p.logfileNumber) : ProcOk crc (addTables d outputs).2
    { p with job := .ready flush ⟨(addTables d outputs).1, deletedFiles, logNumber, 0⟩ } := by
  have hwhole := h.whole
  rw [target, hidle] at hwhole
  exact { h with
    tables := h.tables.addTables outputs
    job := ⟨tablesOk_addTables houtputs, hlog⟩
    logs_lt := fun n hn => (h.logs_lt n hn).trans_le (le_add_right _ _)
    whole := hwhole
    readings := fun n hn => ⟨(h.readings n hn).1.addTables outputs, (h.readings n hn).2⟩ }

lemma ProcOk.logEdit (h : ProcOk crc d p) {edit : VersionEdit} (hjob : p.job = .ready flush edit)
    (bytes : Nat) : ProcOk crc (p.logEdit d flush edit bytes).2 (p.logEdit d flush edit bytes).1 := by
  have hok := h.job
  rw [Process.JobOk, hjob] at hok
  have hwhole := h.whole
  rw [target, hjob] at hwhole
  obtain ⟨htables, hlogNumber⟩ := hwhole
  have hread : (p.logEdit d flush edit bytes).2.version = d.version.apply { edit with lastSequence := p.lastSequence } := by
    change (d.manifest.addRecord _ _).read.foldl Version.apply d.snapshot = _
    rw [Durability.LogFile.read_addRecord, foldl_append]
    rfl
  exact { h with
    job := hok
    whole := by
      rw [hread]
      change edit.newFiles ++ d.version.tables.filter (· ∉ edit.deletedFiles) =
          edit.newFiles ++ p.version.tables.filter (· ∉ edit.deletedFiles) ∧
        edit.logNumber.getD d.version.logNumber = edit.logNumber.getD p.version.logNumber
      rw [htables, hlogNumber]
      exact ⟨rfl, rfl⟩
    readings := by
      intro n hn
      change ReadingOk d p.version.logNumber (((d.manifest.addRecord _ _).wholeIn n).foldl Version.apply d.snapshot)
      rcases @Durability.LogFile.wholeIn_addRecord _ d.manifest { edit with lastSequence := p.lastSequence } bytes n
        with heq | heq
      · rw [heq]
        exact h.readings n hn
      · rw [heq, foldl_append]
        change ReadingOk d p.version.logNumber (d.version.apply { edit with lastSequence := p.lastSequence })
        refine ⟨TablesOk.apply (v := d.version) ?_ hok.1, ?_⟩
        · rw [htables]
          exact h.tables
        · change p.version.logNumber ≤ edit.logNumber.getD d.version.logNumber
          rw [hlogNumber]
          cases hnum : edit.logNumber with
          | none => exact le_refl _
          | some n => exact (hok.2 n hnum).1 }

lemma ProcOk.install (h : ProcOk crc d p) {edit : VersionEdit} (hjob : p.job = .logged flush edit) :
    ProcOk crc (p.install d flush edit).2 (p.install d flush edit).1 := by
  have hok := h.job
  rw [Process.JobOk, hjob] at hok
  have hwhole := h.whole
  rw [Process.target, hjob] at hwhole
  have hlogNumber : p.version.logNumber ≤ (p.version.apply edit).logNumber ∧
      (p.version.apply edit).logNumber ≤ p.logfileNumber := by
    unfold Version.apply
    dsimp only
    cases hnum : edit.logNumber with
    | none => exact ⟨le_refl _, h.logNumber_le⟩
    | some n => exact hok.2 n hnum
  exact { h with
    imm := by
      intro e he
      unfold Process.install at he
      dsimp only at he
      split_ifs at he
      · cases he
      · exact h.imm e he
    tables := h.tables.apply hok.1
    job := trivial
    logs := fun n hn hle => h.logs n hn (hlogNumber.1.trans hle)
    logNumber_le := hlogNumber.2
    whole := hwhole
    readings := by
      intro n hn
      change ReadingOk d (p.version.apply edit).logNumber ((d.manifest.sync.wholeIn n).foldl Version.apply d.snapshot)
      rw [Durability.LogFile.wholeIn_of_length_le (show d.manifest.sync.length ≤ n from hn)]
      have hreading := h.readings (max d.manifest.synced d.manifest.length) (le_max_left _ _)
      rw [Durability.LogFile.wholeIn_of_length_le (le_max_right _ _)] at hreading
      exact ⟨hreading.1, hwhole.2.ge⟩ }

end Background

lemma ProcOk.crash (h : ProcOk crc d p) (logs : Nat → Nat) (manifest : Nat) : DiskOk crc (d.crash logs manifest) := by
  have hreading := h.readings (max d.manifest.synced manifest) (le_max_left _ _)
  exact {
    tables := hreading.1
    logs := ⟨p.bound, fun n hn hle => (h.logs n hn (hreading.2.trans hle)).cut _⟩
    logs_lt := h.logs_lt }

lemma DiskOk.recover (h : DiskOk crc d) : ProcOk crc (d.recover crc).2 (d.recover crc).1 := by
  obtain ⟨B, hlogs⟩ := h.logs
  have hold : ∀ n ∈ d.logs, n < (d.recover crc).1.logfileNumber :=
    fun n hn => (h.logs_lt n hn).trans_le (le_add_right _ _)
  have hentries : ∀ es ∈ (d.logs.filter (d.version.logNumber ≤ ·)).map fun n => (d.log n).entries crc,
      ∀ e ∈ es, e.1.sequence ≤ (d.recover crc).1.lastSequence := by
    intro es hes e he
    obtain ⟨n, hn, rfl⟩ := mem_map.1 hes
    obtain ⟨hmem, hle⟩ := mem_filter.1 hn
    have hmax := ((hlogs n hmem (of_decide_eq_true hle)).sequence_le he).2
    exact (hmax.trans (le_foldr_max (mem_map.2 ⟨n, hn, rfl⟩))).trans (le_max_right _ _)
  have htables : TablesOk (d.recover crc).2 (d.recover crc).1.lastSequence (d.recover crc).1.version.tables := by
    intro t ht
    have hall := (tablesOk_addTables hentries).append ((h.tables.mono (le_max_left _ _)).addTables _)
    obtain ⟨hlt, hle⟩ := hall t ht
    exact ⟨lt_succ_of_lt hlt, hle⟩
  exact {
    lastSequence_le := le_refl _
    phase := nofun
    mem := nofun
    imm := nofun
    tables := htables
    job := trivial
    logs := by
      intro n hn hle
      rcases mem_cons.1 hn with rfl | hn
      · change LogOk crc _ (update d.log _ .empty _).bytes
        rw [update_self]
        exact logWhole_empty.ok
      · exact absurd (hold n hn) (not_lt.2 hle)
    current := by
      intro _
      have hempty : (d.recover crc).2.log (d.recover crc).1.logfileNumber = .empty := update_self _ _ _
      rw [hempty]
      exact logWhole_empty
    logs_lt := by
      intro n hn
      rcases mem_cons.1 hn with rfl | hn
      · exact lt_succ_self _
      · exact lt_succ_of_lt (hold n hn)
    logfile_mem := mem_cons_self
    logNumber_le := le_refl _
    whole := ⟨rfl, rfl⟩
    readings := fun _ _ => ⟨htables, le_refl _⟩ }

/-! ## Runs -/

lemma ProcOk.step (h : ProcOk crc d p) {a : Action}
    (hc : AppendsBehindWhole ⟨d, some p⟩ a) {r : Process × Disk} (hs : p.step crc d a = some r) : ProcOk crc r.2 r.1 := by
  cases a with
  | write b sync faults =>
    obtain ⟨hfailed, hfill⟩ := hc p rfl
    simp only [Process.step] at hs
    split at hs
    · exact h.write ‹_› hfailed hfill hs
    · cases hs
  | sync fails =>
    simp only [Process.step] at hs
    split at hs
    · cases hs
      exact h.syncLog ‹_› fails
    · cases hs
  | insert =>
    simp only [Process.step] at hs
    split at hs
    · cases hs
      exact h.insert ‹_›
    · cases hs
  | finish =>
    simp only [Process.step] at hs
    split at hs
    · cases hs
      exact h.finish ‹_›
    · cases hs
  | switchMemTable =>
    simp only [Process.step] at hs
    split at hs
    · cases hs
      exact h.switchMemTable ‹_›
    · cases hs
  | flush =>
    simp only [Process.step] at hs
    split at hs
    · rename_i imm hjob himm
      cases hs
      refine h.addTables ?_ hjob ?_
      · intro es hes e he
        cases mem_singleton.1 hes
        exact h.imm e (himm ▸ he)
      · intro n hn
        cases Option.mem_some_iff.1 hn
        exact ⟨h.logNumber_le, le_refl _⟩
    · cases hs
  | compact inputs outputs =>
    simp only [Process.step] at hs
    split at hs
    · rename_i hjob
      unfold Process.compact at hs
      split_ifs at hs with hin
      cases hs
      refine h.addTables ?_ hjob nofun
      intro es hes e he
      obtain ⟨t, ht, het⟩ := hin.2 es hes e he
      exact (h.tables t (hin.1 t ht)).2 e het
    · cases hs
  | logEdit bytes =>
    simp only [Process.step] at hs
    split at hs
    · cases hs
      exact h.logEdit ‹_› bytes
    · cases hs
  | install =>
    simp only [Process.step] at hs
    split at hs
    · cases hs
      exact h.install ‹_›
    · cases hs
  | crash logs manifest => cases hs
  | recover => cases hs

lemma Inv.step {s s' : State} (h : Inv crc s) {a : Action} (hc : AppendsBehindWhole s a)
    (hs : Sequences.step crc s a = some s') : Inv crc s' := by
  obtain ⟨d, process⟩ := s
  cases process with
  | none =>
    cases a with
    | recover =>
      cases hs
      exact DiskOk.recover h
    | _ => cases hs
  | some p =>
    by_cases hcrash : ∃ logs manifest, a = .crash logs manifest
    · obtain ⟨logs, manifest, rfl⟩ := hcrash
      cases hs
      exact ProcOk.crash h logs manifest
    · have hstep : (p.step crc d a).map (fun r => (⟨r.2, some r.1⟩ : State)) = some s' := by
        cases a with
        | crash logs manifest => exact absurd ⟨logs, manifest, rfl⟩ hcrash
        | _ => exact hs
      obtain ⟨r, hr, rfl⟩ := Option.map_eq_some_iff.1 hstep
      exact ProcOk.step h hc hr

lemma inv_fresh : Inv crc .fresh where
  tables := nofun
  logs := ⟨0, nofun⟩
  logs_lt := nofun

/-- After every write that has returned and after every recovery, the last sequence is at least that of every entry that is
visible or that a recovery would make visible. -/
theorem lastSequence_covers (crc : Crc32c) (s : State) (as : List Action)
    (hc : Lib.StepsMeet (step crc) AppendsBehindWhole .fresh as) (hrun : Lib.run (step crc) .fresh as = some s) :
    Covered crc s :=
  (Lib.run_invariant (fun _ _ _ h hc hs => Inv.step h hc hs) inv_fresh hc hrun).covered

instance (w : Log.Writer) : Decidable w.FillsUp := by
  unfold Log.Writer.FillsUp
  infer_instance

instance (s : State) (a : Action) : Decidable (AppendsBehindWhole s a) := by
  unfold AppendsBehindWhole
  split <;> infer_instance

def Batch.ofPut (key value : Slice) (h : (BatchOp.put key value).Storable) : Batch where
  ops := [.put key value]
  storable := by
    intro op hop
    cases mem_singleton.1 hop
    exact h
  count_lt := Nat.one_lt_two_pow (by decide)

def failedWriteRun : List Action :=
  [.recover, .write (Batch.ofPut [97] [1] (by decide)) true [], .sync false, .insert, .finish, .switchMemTable, .flush,
    .logEdit 20, .install, .write (Batch.ofPut [97] [2] (by decide)) false [some 3], .finish, .crash (fun _ => 2) 0,
    .recover]

theorem lastSequence_covers_sample :
    ∃ s, Lib.run (step .bitwise) .fresh failedWriteRun = some s ∧ s.process.isSome ∧ Covered .bitwise s := by
  have hex : ∃ s, Lib.run (step .bitwise) .fresh failedWriteRun = some s ∧ s.process.isSome :=
    Lib.exists_run (by decide +kernel)
  obtain ⟨s, hrun, hs⟩ := hex
  exact ⟨s, hrun, hs, lastSequence_covers .bitwise s failedWriteRun (by decide +kernel) hrun⟩

def forgedRun : List Action :=
  [.recover, .write (Batch.ofPut [97] [30, 221, 169, 226] (by decide)) false [some 3], .finish,
    .write (Batch.ofPut [97] [122, 166, 66, 212] (by decide)) false [], .insert, .finish]

/-- The log holds an entry with a sequence number far above the last one, which is 2. -/
theorem forged_sequence : ∃ s, Lib.run (step .bitwise) .fresh forgedRun = some s ∧ ¬ Covered .bitwise s := by
  have hex : ∃ s, Lib.run (step .bitwise) .fresh forgedRun = some s ∧ (s.process.any fun p => p.phase.isWaiting &&
        s.disk.logs.any fun n => p.version.logNumber ≤ n &&
          ((s.disk.log n).entries .bitwise).any fun e => p.lastSequence < e.1.sequence) = true :=
    Lib.exists_run (by decide +kernel)
  obtain ⟨s, hrun, hs⟩ := hex
  refine ⟨s, hrun, fun hcovered => ?_⟩
  simp only [Option.any_eq_true, Bool.and_eq_true, any_eq_true, decide_eq_true_eq] at hs
  obtain ⟨p, hp, hphase, n, hn, hle, e, he, hlt⟩ := hs
  have hcover := hcovered p hp hphase e (.inr (.inr (.inr ⟨n, hn, hle, he⟩)))
  exact absurd hlt (not_lt.2 hcover)

end RallyDB.Db.Sequences
