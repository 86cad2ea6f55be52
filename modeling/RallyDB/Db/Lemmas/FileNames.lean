import RallyDB.Db.FileNames

/-!
# The invariant of the files
-/

namespace RallyDB.Db.FileNames

open RallyDB.Lib List Function FileName Disk Manifest Lib Process
open Nat (le_succ lt_succ_self)

variable {m : Manifest} {r : Recorded} {e : Edit} {d d' : Disk} {p p' : Process} {o o' : Opening} {f : FileName} {n : Nat}

/-! ## Readings of a manifest -/

def Manifest.Reading (m : Manifest) (r : Recorded) : Prop :=
  ∃ pre, pre <+: m.records ∧ r = pre.foldl Recorded.apply m.base

lemma Manifest.reading_read (m : Manifest) : m.Reading m.read := ⟨m.records, prefix_rfl, rfl⟩

lemma Manifest.read_addRecord (m : Manifest) (e : Edit) : (m.addRecord e).read = m.read.apply e := by
  simp [read, addRecord]

lemma Manifest.reading_addRecord (h : (m.addRecord e).Reading r) : m.Reading r ∨ r = m.read.apply e := by
  obtain ⟨pre, hpre, rfl⟩ := h
  rcases prefix_concat_iff.1 hpre with rfl | hpre
  · right
    simp [read, addRecord]
  · exact .inl ⟨pre, hpre, rfl⟩

lemma Manifest.reading_cut {k : Nat} (h : (m.cut k).Reading r) : m.Reading r := by
  obtain ⟨pre, hpre, rfl⟩ := h
  exact ⟨pre, hpre.trans ( take_prefix _ _), rfl⟩

@[simp] lemma Disk.mem_create {g : FileName} : g ∈ (d.create f).files ↔ g = f ∨ g ∈ d.files := by
  unfold create
  dsimp only
  split_ifs with h
  · constructor
    · exact .inr
    · rintro (rfl | hg)
      · exact h
      · exact hg
  · simp [or_comm]

@[simp] lemma Disk.mem_remove {g : FileName} : g ∈ (d.remove f).files ↔ g ∈ d.files ∧ g ≠ f := by
  simp [remove]

lemma Disk.mem_logNumbers : n ∈ d.logNumbers ↔ log n ∈ d.files := by
  simp only [logNumbers, mem_filterMap]
  constructor
  · rintro ⟨f, hf, he⟩
    cases f with
    | log l =>
      cases he
      exact hf
    | table l => cases he
    | manifest l => cases he
  · intro h
    exact ⟨_, h, rfl⟩

/-! ## What is on disk -/

structure Recorded.Sound (r : Recorded) (d : Disk) : Prop where
  log : r.logNumber < r.nextFile
  tables : ∀ t ∈ r.tables, t < r.nextFile
  current : d.current < r.nextFile
  covered : ∀ n, FileName.log n ∈ d.files → n < r.logNumber → ∀ w ∈ d.logWrites n, w ∈ r.writes

def Disk.Ok (d : Disk) : Prop := ∀ r, d.manifest.Reading r → r.Sound d

lemma Recorded.Sound.mono (h : r.Sound d) (hcurrent : d'.current = d.current)
    (hlogs : ∀ n, FileName.log n ∈ d'.files → n < r.logNumber → ∀ w ∈ d'.logWrites n,
    FileName.log n ∈ d.files ∧ w ∈ d.logWrites n) : r.Sound d' where
  log := h.log
  tables := h.tables
  current := hcurrent ▸ h.current
  covered n hn hlt w hw := h.covered n (hlogs n hn hlt w hw).1 hlt w (hlogs n hn hlt w hw).2

lemma Disk.ok_newDB : newDB.Ok := by
  rintro r ⟨pre, hpre, rfl⟩
  cases prefix_nil.1 hpre
  refine ⟨by decide, by simp [newDB], by decide, ?_⟩
  simp [newDB]

lemma Disk.Ok.crash (h : d.Ok) (records : Nat) (logs : Nat → Nat) : (d.crash records logs).Ok := by
  intro r hr
  refine (h r (Manifest.reading_cut hr)).mono rfl fun n hn _ w hw => ⟨hn, mem_of_mem_take hw⟩

lemma Disk.Ok.create (h : d.Ok) (hf : ∀ n, f ≠ .log n) : (d.create f).Ok := by
  intro r hr
  refine (h r hr).mono rfl fun n hn _ w hw => ⟨?_, hw⟩
  rcases Disk.mem_create.1 hn with he | hn
  · exact absurd he.symm (hf n)
  · exact hn

lemma Disk.Ok.createLog (h : d.Ok) (n : Nat) : (d.createLog n).Ok := by
  intro r hr
  refine (h r hr).mono rfl fun l hl _ w hw => ?_
  by_cases he : l = n
  · subst he
    simp [Disk.createLog] at hw
  · rw [Disk.createLog] at hw hl
    refine ⟨?_, by simpa [Function.update_of_ne he] using hw⟩
    rcases Disk.mem_create.1 hl with hl | hl
    · cases hl
      exact absurd rfl he
    · exact hl

lemma Disk.Ok.remove (h : d.Ok) (f : FileName) : (d.remove f).Ok := fun r hr =>
  (h r hr).mono rfl fun _ hn _ _ hw => ⟨(Disk.mem_remove.1 hn).1, hw⟩

lemma Disk.Ok.sync (h : d.Ok) : Disk.Ok { d with manifest := d.manifest.sync } := fun r hr =>
  (h r hr).mono rfl fun _ hn _ _ hw => ⟨hn, hw⟩

variable {v base : List Nat}

lemma Process.mem_versions : v ∈ p.versions ↔ v = p.current ∨ v ∈ p.pinned ∨
    (∃ c, p.compaction = some c ∧ v = c.inputVersion) ∨ ∃ n created, p.job = .build n created v := by
  unfold versions
  cases hc : p.compaction with
  | none | some c => cases hj : p.job <;> simp [eq_comm]

structure RecordOk (p : Process) (d : Disk) (e : Edit) (purpose : Purpose) (written : Bool) : Prop where
  added : ∀ t ∈ e.added, t < e.nextFile
  next : e.nextFile ≤ p.nextFile
  log : e.logNumber < e.nextFile
  manifest : p.manifestNumber < e.nextFile
  recorded : d.manifest.read.nextFile ≤ e.nextFile
  writes : written = true → ∀ w ∈ e.writes, w ∈ d.manifest.read.writes
  flush : purpose = .flush → e.logNumber = p.logfileNumber ∧ p.imm = some e.writes
  other : purpose ≠ .flush → e.logNumber = p.logNumber ∧ e.writes = []

def Process.JobOk (p : Process) (d : Disk) : Prop :=
  match p.job with
  | .idle => True
  | .build n _ _ => n < p.nextFile ∧ (∀ v ∈ p.versions, n ∉ v) ∧ ∀ c, p.compaction = some c → n ∉ c.outputs
  | .output n => n < p.nextFile ∧ ∀ v ∈ p.versions, n ∉ v
  | .record e purpose written => RecordOk p d e purpose written
  | .remove files => ∀ f ∈ files, p.keep f = false

structure Process.Ok (p : Process) (d : Disk) : Prop where
  nextRecorded : d.manifest.read.nextFile ≤ p.nextFile
  logRecorded : ∀ r, d.manifest.Reading r → r.logNumber ≤ p.logfileNumber
  installed : ∀ w ∈ p.installed, w ∈ d.manifest.read.writes
  manifest : d.current = p.manifestNumber
  manifestLt : p.manifestNumber < p.nextFile
  logs : ∀ n, FileName.log n ∈ d.files → n ≤ p.logfileNumber
  logNumber : p.logNumber ≤ p.logfileNumber
  logfileLt : p.logfileNumber < p.nextFile
  old : ∀ n, FileName.log n ∈ d.files → n < p.logNumber → ∀ w ∈ d.logWrites n, w ∈ p.installed
  older : ∀ n, FileName.log n ∈ d.files → n < p.logfileNumber → ∀ w ∈ d.logWrites n, w ∈ p.installed ∨ w ∈ p.imm.getD []
  newest : ∀ w ∈ d.logWrites p.logfileNumber, w ∈ p.mem ∨ p.writing = some w ∨ p.bgError = true
  versions : ∀ v ∈ p.versions, ∀ t ∈ v, t < p.nextFile
  outputs : ∀ c, p.compaction = some c → ∀ n ∈ c.outputs, n ∈ p.pendingOutputs
  pending : ∀ n ∈ p.pendingOutputs, n < p.nextFile
  job : p.JobOk d

lemma Process.JobOk.mono (h : p.JobOk d) (hjob : p'.job = p.job) (hnext : p.nextFile ≤ p'.nextFile)
    (hver : ∀ v ∈ p'.versions, v ∈ p.versions) (hcomp : p'.compaction = p.compaction)
    (hpend : p'.pendingOutputs = p.pendingOutputs) (hlog : p'.logNumber = p.logNumber)
    (hman : p'.manifestNumber = p.manifestNumber)
    (himm : ∀ ws, p.imm = some ws → p'.imm = some ws ∧ p'.logfileNumber = p.logfileNumber)
    (hdisk : d'.manifest.read = d.manifest.read) : p'.JobOk d' := by
  unfold Process.JobOk at h ⊢
  rw [hjob]
  cases hj : p.job with
  | idle => trivial
  | build n created base =>
    rw [hj] at h
    exact ⟨h.1.trans_le hnext, fun v hv => h.2.1 v (hver v hv), fun c hc => h.2.2 c (hcomp ▸ hc)⟩
  | output n =>
    rw [hj] at h
    exact ⟨h.1.trans_le hnext, fun v hv => h.2 v (hver v hv)⟩
  | record e purpose written =>
    rw [hj] at h
    refine ⟨h.added, h.next.trans hnext, h.log, hman ▸ h.manifest, hdisk ▸ h.recorded, hdisk ▸ h.writes, fun hp => ?_,
      hlog ▸ h.other⟩
    obtain ⟨hflush, hw⟩ := h.flush hp
    exact ⟨hflush.trans (himm _ hw).2.symm, (himm _ hw).1⟩
  | remove files =>
    rw [hj] at h
    intro f hf
    have hkeep := h f hf
    cases f with
    | log n => simpa [keep, hlog] using hkeep
    | manifest n => simpa [keep, hman] using hkeep
    | table n =>
      simp only [keep, live, decide_eq_false_iff_not, mem_append, mem_flatten, hpend] at hkeep ⊢
      rintro (hn | ⟨v, hv, hn⟩)
      · exact hkeep (.inl hn)
      · exact hkeep (.inr ⟨v, hver v hv, hn⟩)

lemma Process.Ok.ref (h : p.Ok d) : Process.Ok { p with pinned := p.current :: p.pinned } d := by
  have hver : ∀ v ∈ ({ p with pinned := p.current :: p.pinned } : Process).versions, v ∈ p.versions := by
    intro v hv
    rw [mem_versions] at hv ⊢
    rcases hv with hv | hv | hv
    · exact .inl hv
    · rcases mem_cons.1 hv with hv | hv
      · exact .inl hv
      · exact .inr (.inl hv)
    · exact .inr (.inr hv)
  exact { h with
    versions := fun v hv => h.versions v (hver v hv)
    job := h.job.mono rfl le_rfl hver rfl rfl rfl rfl (fun _ hw => ⟨hw, rfl⟩) rfl }

lemma Process.Ok.unref (h : p.Ok d) (v : List Nat) : Process.Ok { p with pinned := p.pinned.erase v } d := by
  have hver : ∀ u ∈ ({ p with pinned := p.pinned.erase v } : Process).versions, u ∈ p.versions := by
    intro u hu
    rw [mem_versions] at hu ⊢
    exact hu.imp_right (Or.imp_left mem_of_mem_erase)
  exact { h with
    versions := fun u hu => h.versions u (hver u hu)
    job := h.job.mono rfl le_rfl hver rfl rfl rfl rfl (fun _ hw => ⟨hw, rfl⟩) rfl }

lemma Disk.Ok.addWrite (hd : d.Ok) (h : p.Ok d) (ws : List Nat) :
    Disk.Ok { d with logWrites := Function.update d.logWrites p.logfileNumber ws } := by
  intro r hr
  refine (hd r hr).mono rfl fun n hn hlt w hw => ⟨hn, ?_⟩
  have hne : n ≠ p.logfileNumber := (hlt.trans_le (h.logRecorded r hr)).ne
  simpa [Function.update_of_ne hne] using hw

namespace Process

lemma Ok.addRecord (h : p.Ok d) (hw : p.writing = none) (w : Nat) : Ok { p with writing := some w }
    { d with logWrites := update d.logWrites p.logfileNumber (d.logWrites p.logfileNumber ++ [w]) } := by
  have hother : ∀ n, n < p.logfileNumber →
      update d.logWrites p.logfileNumber (d.logWrites p.logfileNumber ++ [w]) n = d.logWrites n := fun n hn =>
    update_of_ne hn.ne _ _
  exact { h with
    old := fun n hn hlt x hx => h.old n hn hlt x (hother n (hlt.trans_le h.logNumber) ▸ hx)
    older := fun n hn hlt x hx => h.older n hn hlt x (hother n hlt ▸ hx)
    newest := fun x hx => by
      dsimp only at hx ⊢
      rw [update_self] at hx
      rcases mem_append.1 hx with hx | hx
      · rcases h.newest x hx with hx | hx | hx
        · exact .inl hx
        · rw [hw] at hx
          cases hx
        · exact .inr (.inr hx)
      · exact .inr (.inl (congrArg some (mem_singleton.1 hx).symm))
    job := h.job.mono rfl le_rfl (fun _ hv => hv) rfl rfl rfl rfl (fun _ hw => ⟨hw, rfl⟩) rfl }

lemma Ok.insert (h : p.Ok d) {w : Nat} (hw : p.writing = some w) : Ok { p with mem := p.mem ++ [w], writing := none } d :=
  { h with
    newest := fun x hx => by
      rcases h.newest x hx with hx | hx | hx
      · exact .inl (mem_append_left _ hx)
      · rw [hw] at hx
        cases hx
        exact .inl (mem_append_right _ (mem_singleton_self _))
      · exact .inr (.inr hx)
    job := h.job.mono rfl le_rfl (fun _ hv => hv) rfl rfl rfl rfl (fun _ hw => ⟨hw, rfl⟩) rfl }

lemma Ok.syncFails (h : p.Ok d) : Ok { p with writing := none, bgError := true } d :=
  { h with
    newest := fun _ _ => .inr (.inr rfl)
    job := h.job.mono rfl le_rfl (fun _ hv => hv) rfl rfl rfl rfl (fun _ hw => ⟨hw, rfl⟩) rfl }

lemma Ok.switchMemTable (h : p.Ok d) (hw : p.writing = none) (himm : p.imm = none) (herr : p.bgError = false)
    (closeFails : Bool) :
    Ok { p with nextFile := p.nextFile + 1, logfileNumber := p.nextFile, imm := some p.mem, mem := [],
                bgError := closeFails } (d.createLog p.nextFile) := by
  have hlogs : ∀ n, log n ∈ (d.createLog p.nextFile).files → n = p.nextFile ∨ log n ∈ d.files := by
    intro n hn
    rcases mem_create.1 hn with hn | hn
    · cases hn
      exact .inl rfl
    · exact .inr hn
  have hother : ∀ n, n ≤ p.logfileNumber → (d.createLog p.nextFile).logWrites n = d.logWrites n := fun n hn =>
    update_of_ne (hn.trans_lt h.logfileLt).ne _ _
  refine { h with
    nextRecorded := h.nextRecorded.trans (le_succ _)
    logRecorded := fun r hr => (h.logRecorded r hr).trans h.logfileLt.le
    manifestLt := h.manifestLt.trans (lt_succ_self _)
    logs := fun n hn => ?_
    logNumber := h.logNumber.trans h.logfileLt.le
    logfileLt := lt_succ_self _
    old := fun n hn hlt w hmem => ?_
    older := fun n hn hlt w hmem => ?_
    newest := fun w hmem => ?_
    versions := fun v hv t ht => (h.versions v hv t ht).trans (lt_succ_self _)
    pending := fun n hn => (h.pending n hn).trans (lt_succ_self _)
    job := h.job.mono rfl (le_succ _) (fun _ hv => hv) rfl rfl rfl rfl (fun ws hws => ?_) rfl }
  · rcases hlogs n hn with rfl | hn
    · exact le_rfl
    · exact (h.logs n hn).trans h.logfileLt.le
  · have hle := (hlt.trans_le h.logNumber).le
    rcases hlogs n hn with rfl | hn
    · exact absurd hle h.logfileLt.not_ge
    · exact h.old n hn hlt w (hother n hle ▸ hmem)
  · rcases hlogs n hn with rfl | hn
    · exact absurd hlt (lt_irrefl _)
    · have hle := h.logs n hn
      rw [hother n hle] at hmem
      rcases hle.lt_or_eq with hlt | rfl
      · rcases h.older n hn hlt w hmem with hin | hin
        · exact .inl hin
        · rw [himm] at hin
          cases hin
      · rcases h.newest w hmem with hin | hin | hin
        · exact .inr hin
        · rw [hw] at hin
          cases hin
        · rw [herr] at hin
          cases hin
  · simp [createLog] at hmem
  · rw [himm] at hws
    cases hws

/-! ## The background thread -/

lemma versions_job {job : Job}
    (hjob : ∀ n created base, job = .build n created base → ∃ n' created', p.job = .build n' created' base)
    (hv : v ∈ ({ p with job := job } : Process).versions) : v ∈ p.versions := by
  rw [mem_versions] at hv ⊢
  refine hv.imp_right (Or.imp_right (Or.imp_right ?_))
  rintro ⟨n, created, hbuild⟩
  exact hjob n created v hbuild

lemma versions_idle (hv : v ∈ ({ p with job := .idle } : Process).versions) : v ∈ p.versions :=
  versions_job (fun _ _ _ hbuild => by cases hbuild) hv

variable {purpose : Purpose} {written created : Bool}

lemma versions_record (hv : v ∈ ({ p with job := .record e purpose written } : Process).versions) : v ∈ p.versions :=
  versions_job (fun _ _ _ hbuild => by cases hbuild) hv

lemma Ok.recordBackgroundError (h : p.Ok d) : p.recordBackgroundError.Ok d :=
  { h with
    newest := fun _ _ => .inr (.inr rfl)
    versions := fun v hv => h.versions v (versions_idle (p := p) hv)
    job := trivial }

lemma Ok.cleanupCompaction (h : p.Ok d) (hjob : p.job = .idle) : p.cleanupCompaction.Ok d := by
  unfold Process.cleanupCompaction
  split
  · refine { h with
      versions := fun v hv => h.versions v ?_
      outputs := fun c hc => by cases hc
      pending := fun n hn => h.pending n (mem_of_mem_filter hn)
      job := ?_ }
    · rw [mem_versions] at hv ⊢
      rcases hv with hv | hv | ⟨_, hv, -⟩ | hv
      · exact .inl hv
      · exact .inr (.inl hv)
      · cases hv
      · exact .inr (.inr (.inr hv))
    · unfold JobOk
      dsimp only
      rw [hjob]
      trivial
  · exact h

lemma keep_remove (hjob : p.job = .idle) (files : List FileName) (f : FileName) :
    ({ p with job := .remove files } : Process).keep f = p.keep f := by
  cases f with
  | log n => rfl
  | manifest n => rfl
  | table n => simp [keep, live, versions, hjob]

variable (h : p.Ok d)
include h

lemma Ok.removeObsoleteFiles (hjob : p.job = .idle) (files : List FileName) : (p.removeObsoleteFiles files).Ok d := by
  unfold Process.removeObsoleteFiles
  split
  · exact h
  · refine { h with
      versions := fun v hv => h.versions v ?_
      job := fun f hf => ?_ }
    · rw [mem_versions] at hv ⊢
      rcases hv with hv | hv | hv | ⟨_, _, hv⟩
      · exact .inl hv
      · exact .inr (.inl hv)
      · exact .inr (.inr (.inl hv))
      · cases hv
    · rw [keep_remove hjob]
      simpa using (mem_filter.1 hf).2

lemma Ok.withFiles {files : List FileName} (hlogs : ∀ n, log n ∈ files → log n ∈ d.files) : p.Ok { d with files := files } :=
  { h with
    logs := fun n hn => h.logs n (hlogs n hn)
    old := fun n hn => h.old n (hlogs n hn)
    older := fun n hn => h.older n (hlogs n hn)
    job := h.job.mono rfl le_rfl (fun _ hv => hv) rfl rfl rfl rfl (fun _ hw => ⟨hw, rfl⟩) rfl }

lemma Ok.sync : p.Ok { d with manifest := d.manifest.sync } :=
  { h with job := h.job.mono rfl le_rfl (fun _ hv => hv) rfl rfl rfl rfl (fun _ hw => ⟨hw, rfl⟩) rfl }

lemma Ok.create (hf : ∀ n, f ≠ .log n) : p.Ok (d.create f) :=
  h.withFiles fun n hn => (mem_create.1 hn).resolve_left (hf n).symm

lemma Ok.remove (f : FileName) : p.Ok (d.remove f) :=
  h.withFiles fun _ hn => (mem_remove.1 hn).1

lemma Ok.not_mem_of_le (hv : v ∈ p.versions) (hn : p.nextFile ≤ n) : n ∉ v :=
  fun hmem => absurd (h.versions v hv n hmem) hn.not_gt

lemma Ok.pending_next : ∀ n ∈ p.nextFile :: p.pendingOutputs, n < p.nextFile + 1 :=
  forall_mem_cons.2 ⟨lt_succ_self _, fun n hn => (h.pending n hn).trans (lt_succ_self _)⟩

lemma Ok.startFlush :
    Ok { p with nextFile := p.nextFile + 1, pendingOutputs := p.nextFile :: p.pendingOutputs,
                job := .build p.nextFile false p.current } d := by
  have hver : ∀ v ∈ Process.versions { p with
      nextFile := p.nextFile + 1
      pendingOutputs := p.nextFile :: p.pendingOutputs
      job := .build p.nextFile false p.current }, v ∈ p.versions := by
    intro v hv
    rw [mem_versions] at hv ⊢
    rcases hv with hv | hv | hv | ⟨_, _, hv⟩
    · exact .inl hv
    · exact .inr (.inl hv)
    · exact .inr (.inr (.inl hv))
    · cases hv
      exact .inl rfl
  refine { h with
    nextRecorded := h.nextRecorded.trans (Nat.le_succ _)
    manifestLt := h.manifestLt.trans (lt_succ_self _)
    logfileLt := h.logfileLt.trans (lt_succ_self _)
    versions := fun v hv t ht => (h.versions v (hver v hv) t ht).trans (lt_succ_self _)
    outputs := fun c hc n hn => mem_cons_of_mem _ (h.outputs c hc n hn)
    pending := h.pending_next
    job := ⟨lt_succ_self _, fun v hv => h.not_mem_of_le (hver v hv) le_rfl, fun c hc hmem => ?_⟩ }
  · exact absurd (h.pending _ (h.outputs c hc _ hmem)) (lt_irrefl _)

section

variable (hjob : p.job = .build n created base)
include hjob

lemma Ok.buildOk : n < p.nextFile ∧ (∀ v ∈ p.versions, n ∉ v) ∧ ∀ c, p.compaction = some c → n ∉ c.outputs := by
  have hjobOk := h.job
  unfold JobOk at hjobOk
  rw [hjob] at hjobOk
  exact hjobOk

lemma Ok.createTable : Ok { p with job := .build n true base } d := by
  have hver : ∀ v ∈ ({ p with job := .build n true base } : Process).versions, v ∈ p.versions := by
    intro v hv
    refine versions_job (fun _ _ _ hbuild => ?_) hv
    cases hbuild
    exact ⟨n, created, hjob⟩
  obtain ⟨hlt, hnew, hout⟩ := h.buildOk hjob
  exact { h with
    versions := fun v hv => h.versions v (hver v hv)
    job := ⟨hlt, fun v hv => hnew v (hver v hv), hout⟩ }

lemma Ok.erasePending : Ok { p with pendingOutputs := p.pendingOutputs.erase n, job := .idle } d := by
  obtain ⟨-, -, hout⟩ := h.buildOk hjob
  refine { h with
    versions := fun v hv => h.versions v (versions_idle (p := p) hv)
    outputs := fun c hc m hm => ?_
    pending := fun m hm => h.pending m (mem_of_mem_erase hm)
    job := trivial }
  have hne : m ≠ n := fun he => hout c hc (he ▸ hm)
  exact (mem_erase_of_ne hne).2 (h.outputs c hc m hm)

end

lemma Ok.startRecord {e : Edit} (hadded : ∀ t ∈ e.added, t < p.nextFile)
    (hnext : e.nextFile = p.nextFile) (hlog : e.logNumber ≤ p.logfileNumber)
    (hflush : purpose = .flush → e.logNumber = p.logfileNumber ∧ p.imm = some e.writes)
    (hother : purpose ≠ .flush → e.logNumber = p.logNumber ∧ e.writes = []) :
    Ok { p with job := .record e purpose false } d := by
  exact { h with
    versions := fun v hv => h.versions v (versions_record hv)
    job := ⟨hnext ▸ hadded, hnext.le, hnext ▸ hlog.trans_lt h.logfileLt, hnext ▸ h.manifestLt, hnext ▸ h.nextRecorded,
      fun hw => absurd hw Bool.false_ne_true, hflush, hother⟩ }

lemma Ok.finishTable {imm : List Nat} (hjob : p.job = .build n true base) (himm : p.imm = some imm) :
    Ok { p with pendingOutputs := p.pendingOutputs.erase n,
                job := .record ⟨[], if imm = [] then [] else [n], p.logfileNumber, p.nextFile, imm⟩ .flush false } d := by
  refine (h.erasePending hjob).startRecord (fun t ht => ?_) rfl le_rfl (fun _ => ⟨rfl, himm⟩) fun hne => absurd rfl hne
  dsimp only at ht
  split_ifs at ht
  · cases ht
  · rw [mem_singleton.1 ht]
    exact (h.buildOk hjob).1

lemma Ok.startCompaction (hjob : p.job = .idle) (inputs : List Nat) :
    Ok { p with compaction := some ⟨inputs, p.current, []⟩ } d := by
  refine { h with
    versions := fun v hv => h.versions v ?_
    outputs := fun c hc n hn => ?_
    job := ?_ }
  · rw [mem_versions] at hv ⊢
    rcases hv with hv | hv | ⟨c, hc, hv⟩ | hv
    · exact .inl hv
    · exact .inr (.inl hv)
    · cases hc
      exact .inl hv
    · exact .inr (.inr (.inr hv))
  · cases hc
    cases hn
  · unfold JobOk
    dsimp only
    rw [hjob]
    trivial

lemma Ok.openOutput {c : CompactionState} (hc : p.compaction = some c) :
    Ok { p with nextFile := p.nextFile + 1, pendingOutputs := p.nextFile :: p.pendingOutputs,
                compaction := some { c with outputs := c.outputs ++ [p.nextFile] }, job := .output p.nextFile } d := by
  have hver : ∀ v ∈ Process.versions { p with
      nextFile := p.nextFile + 1
      pendingOutputs := p.nextFile :: p.pendingOutputs
      compaction := some { c with outputs := c.outputs ++ [p.nextFile] }
      job := .output p.nextFile }, v ∈ p.versions := by
    intro v hv
    rw [mem_versions] at hv ⊢
    rcases hv with hv | hv | ⟨c', hc', hv⟩ | ⟨_, _, hv⟩
    · exact .inl hv
    · exact .inr (.inl hv)
    · cases hc'
      exact .inr (.inr (.inl ⟨c, hc, hv⟩))
    · cases hv
  refine { h with
    nextRecorded := h.nextRecorded.trans (Nat.le_succ _)
    manifestLt := h.manifestLt.trans (lt_succ_self _)
    logfileLt := h.logfileLt.trans (lt_succ_self _)
    versions := fun v hv t ht => (h.versions v (hver v hv) t ht).trans (lt_succ_self _)
    outputs := fun c' hc' n hn => ?_
    pending := h.pending_next
    job := ⟨lt_succ_self _, fun v hv => h.not_mem_of_le (hver v hv) le_rfl⟩ }
  · cases hc'
    rcases mem_append.1 hn with hn | hn
    · exact mem_cons_of_mem _ (h.outputs c hc n hn)
    · rw [mem_singleton.1 hn]
      exact mem_cons_self

lemma Ok.setIdle : Ok { p with job := .idle } d :=
  { h with
    versions := fun v hv => h.versions v (versions_idle (p := p) hv)
    job := trivial }

lemma Ok.recordOk (hjob : p.job = .record e purpose written) : RecordOk p d e purpose written := by
  have hjobOk := h.job
  unfold JobOk at hjobOk
  rw [hjob] at hjobOk
  exact hjobOk

lemma Ok.covered (hrec : RecordOk p d e purpose written)
    (hn : log n ∈ d.files) (hlt : n < e.logNumber) : ∀ w ∈ d.logWrites n, w ∈ p.installed ++ e.writes := by
  intro w hw
  by_cases hp : purpose = .flush
  · obtain ⟨hlog, himm⟩ := hrec.flush hp
    rcases h.older n hn (hlog ▸ hlt) w hw with hin | hin
    · exact mem_append_left _ hin
    · rw [himm] at hin
      exact mem_append_right _ hin
  · exact mem_append_left _ (h.old n hn ((hrec.other hp).1 ▸ hlt) w hw)

lemma Ok.logNumber_le (hrec : RecordOk p d e purpose written) : e.logNumber ≤ p.logfileNumber := by
  by_cases hp : purpose = .flush
  · exact (hrec.flush hp).1.le
  · exact (hrec.other hp).1.trans_le h.logNumber

end Process

lemma Disk.Ok.writeRecord (hd : d.Ok) (h : p.Ok d)
    (hrec : RecordOk p d e purpose written) : Disk.Ok { d with manifest := d.manifest.addRecord e } := by
  intro r hr
  rcases Manifest.reading_addRecord hr with hr | rfl
  · exact (hd r hr).mono rfl fun n hn _ w hw => ⟨hn, hw⟩
  · have hread := hd _ d.manifest.reading_read
    refine ⟨hrec.log, fun t ht => ?_, h.manifest ▸ hrec.manifest, fun n hn hlt w hw => ?_⟩
    · rcases mem_append.1 ht with ht | ht
      · exact (hread.tables t (mem_of_mem_filter ht)).trans_le hrec.recorded
      · exact hrec.added t ht
    · rcases mem_append.1 (h.covered hrec hn hlt w hw) with hin | hin
      · exact mem_append_left _ (h.installed w hin)
      · exact mem_append_right _ hin

namespace Process

lemma Ok.writeRecord (h : p.Ok d) (hjob : p.job = .record e purpose false) :
    Ok { p with job := .record e purpose true } { d with manifest := d.manifest.addRecord e } := by
  have hrec := h.recordOk hjob
  have hread : ({ d with manifest := d.manifest.addRecord e } : Disk).manifest.read = d.manifest.read.apply e :=
    d.manifest.read_addRecord e
  refine { h with
    nextRecorded := hread ▸ hrec.next
    logRecorded := fun r hr => ?_
    installed := fun w hw => hread ▸ mem_append_left _ (h.installed w hw)
    versions := fun v hv => h.versions v (versions_record hv)
    job := ⟨hrec.added, hrec.next, hrec.log, hrec.manifest, hread ▸ le_rfl, fun _ w hw => ?_, hrec.flush, hrec.other⟩ }
  · rcases reading_addRecord hr with hr | rfl
    · exact h.logRecorded r hr
    · exact h.logNumber_le hrec
  · rw [hread]
    exact mem_append_right _ hw

lemma Ok.install (h : p.Ok d) (hjob : p.job = .record e purpose true) : (p.install e).Ok d := by
  have hrec := h.recordOk hjob
  refine { h with
    installed := fun w hw => ?_
    logNumber := h.logNumber_le hrec
    old := fun n hn hlt => h.covered hrec hn hlt
    older := fun n hn hlt w hw => (h.older n hn hlt w hw).imp_left (mem_append_left _)
    versions := fun v hv t ht => ?_
    job := trivial }
  · rcases mem_append.1 hw with hw | hw
    · exact h.installed w hw
    · exact hrec.writes rfl w hw
  · rw [mem_versions] at hv
    rcases hv with rfl | hv | hv | ⟨_, _, hv⟩
    · rcases mem_append.1 ht with ht | ht
      · exact h.versions _ (mem_versions.2 (.inl rfl)) t (mem_of_mem_filter ht)
      · exact (hrec.added t ht).trans_le hrec.next
    · exact h.versions v (mem_versions.2 (.inr (.inl hv))) t ht
    · exact h.versions v (mem_versions.2 (.inr (.inr (.inl hv)))) t ht
    · cases hv

lemma Ok.dropImm (h : p.Ok d) (hjob : p.job = .idle) (himm : ∀ w ∈ p.imm.getD [], w ∈ p.installed) :
    Ok { p with imm := none } d := by
  refine { h with
    older := fun n hn hlt w hw => .inl ?_
    job := ?_ }
  · rcases h.older n hn hlt w hw with hin | hin
    · exact hin
    · exact himm w hin
  · unfold JobOk
    dsimp only
    rw [hjob]
    trivial

lemma cleanupCompaction_job (p : Process) : p.cleanupCompaction.job = p.job := by
  unfold cleanupCompaction
  split <;> rfl

lemma Ok.installRecord (h : p.Ok d) (hjob : p.job = .record e purpose true)
    (files : List FileName) : ((p.install e).afterInstall files purpose).Ok d := by
  have hinstall := h.install hjob
  cases purpose with
  | flush =>
    obtain ⟨-, himm⟩ := (h.recordOk hjob).flush rfl
    refine (hinstall.dropImm rfl fun w hw => ?_).removeObsoleteFiles rfl files
    dsimp only [Process.install] at hw ⊢
    rw [himm] at hw
    exact mem_append_right _ hw
  | move => exact hinstall
  | compaction => exact (hinstall.cleanupCompaction rfl).removeObsoleteFiles (cleanupCompaction_job _) files

lemma Ok.failRecord (h : p.Ok d) (purpose : Purpose) : (p.afterError purpose).Ok d := by
  cases purpose with
  | flush | move => exact h.recordBackgroundError
  | compaction => exact h.recordBackgroundError.cleanupCompaction rfl

lemma Ok.removeFile (h : p.Ok d) {files : List FileName} (hjob : p.job = .remove (f :: files)) :
    Ok { p with job := .remove files } d := by
  have hjobOk := h.job
  unfold JobOk at hjobOk
  rw [hjob] at hjobOk
  refine { h with
    versions := fun v hv => h.versions v ?_
    job := fun g hg => ?_ }
  · exact versions_job (fun _ _ _ hbuild => by cases hbuild) hv
  · have hkeep := hjobOk g (mem_cons_of_mem _ hg)
    cases g with
    | log n => exact hkeep
    | manifest n => exact hkeep
    | table n => simpa [Process.keep, Process.live, Process.versions, hjob] using hkeep

variable {a : Action}

lemma Ok.step (h : p.Ok d) (hd : d.Ok) (hs : p.step d a = some (p', d')) : p'.Ok d' ∧ d'.Ok := by
  cases a with
  | ref =>
    cases hs
    exact ⟨h.ref, hd⟩
  | unref v =>
    simp only [step, guard_eq_some] at hs
    cases hs.2
    exact ⟨h.unref v, hd⟩
  | addRecord w fails =>
    simp only [step, Option.ite_none_right_eq_some] at hs
    obtain ⟨hw, hs⟩ := hs
    split_ifs at hs <;> cases hs
    · exact ⟨h, hd⟩
    · exact ⟨h.addRecord hw w, hd.addWrite h _⟩
  | insert =>
    simp only [step] at hs
    split at hs <;> cases hs
    exact ⟨h.insert ‹_›, hd⟩
  | syncFails =>
    simp only [step] at hs
    split at hs <;> cases hs
    exact ⟨h.syncFails, hd⟩
  | switchMemTable createFails closeFails =>
    simp only [step, Option.ite_none_right_eq_some] at hs
    obtain ⟨⟨hw, himm, herr⟩, hs⟩ := hs
    split_ifs at hs <;> cases hs
    · exact ⟨h, hd⟩
    · exact ⟨h.switchMemTable hw himm herr closeFails, hd.createLog _⟩
  | startFlush =>
    simp only [step, guard_eq_some] at hs
    cases hs.2
    exact ⟨h.startFlush, hd⟩
  | createTable =>
    simp only [step] at hs
    split at hs <;> cases hs
    rename_i hjob
    exact ⟨(h.createTable hjob).create fun _ => nofun, hd.create fun _ => nofun⟩
  | finishTable =>
    simp only [step] at hs
    split at hs <;> cases hs
    rename_i hjob himm
    have hok := h.finishTable hjob himm
    split_ifs
    · simp only [if_pos ‹_ = []›] at hok ⊢
      exact ⟨hok.remove _, hd.remove _⟩
    · simp only [if_neg ‹¬_ = []›] at hok ⊢
      exact ⟨hok, hd⟩
  | failTable =>
    simp only [step] at hs
    split at hs <;> cases hs
    rename_i hjob
    exact ⟨((h.erasePending hjob).recordBackgroundError).remove _, hd.remove _⟩
  | startMove n =>
    simp only [step, guard_eq_some] at hs
    obtain ⟨⟨-, -, -, -, hn⟩, hs⟩ := hs
    cases hs
    refine ⟨h.startRecord (fun t ht => ?_) rfl h.logNumber (fun hp => by cases hp) fun _ => ⟨rfl, rfl⟩, hd⟩
    rw [mem_singleton.1 ht]
    exact h.versions _ (mem_versions.2 (.inl rfl)) n hn
  | startCompaction inputs =>
    simp only [step, guard_eq_some] at hs
    obtain ⟨⟨hjob, -⟩, hs⟩ := hs
    cases hs
    exact ⟨h.startCompaction hjob inputs, hd⟩
  | openOutput =>
    simp only [step] at hs
    split at hs <;> cases hs
    exact ⟨h.openOutput ‹_›, hd⟩
  | createOutput fails =>
    simp only [step] at hs
    split at hs
    · split_ifs at hs <;> cases hs
      · exact ⟨h.recordBackgroundError.cleanupCompaction rfl, hd⟩
      · exact ⟨h.setIdle.create fun _ => nofun, hd.create fun _ => nofun⟩
    · cases hs
  | finishCompaction =>
    simp only [step] at hs
    split at hs <;> cases hs
    rename_i c _ hc
    exact ⟨h.startRecord (fun t ht => h.pending t (h.outputs c hc t ht)) rfl h.logNumber (fun hp => by cases hp)
      fun _ => ⟨rfl, rfl⟩, hd⟩
  | failCompaction =>
    simp only [step, guard_eq_some] at hs
    cases hs.2
    exact ⟨h.recordBackgroundError.cleanupCompaction rfl, hd⟩
  | writeRecord =>
    simp only [step] at hs
    split at hs <;> cases hs
    rename_i hjob
    exact ⟨h.writeRecord hjob, hd.writeRecord h (h.recordOk hjob)⟩
  | installRecord =>
    simp only [step] at hs
    split at hs <;> cases hs
    rename_i hjob
    exact ⟨(h.installRecord hjob d.files).sync, hd.sync⟩
  | failRecord =>
    simp only [step] at hs
    split at hs <;> cases hs
    exact ⟨h.failRecord _, hd⟩
  | removeFile fails =>
    simp only [step] at hs
    split at hs <;> cases hs
    rename_i hjob
    split_ifs
    · exact ⟨h.removeFile hjob, hd⟩
    · exact ⟨(h.removeFile hjob).remove _, hd.remove _⟩
  | removed =>
    simp only [step, guard_eq_some] at hs
    cases hs.2
    exact ⟨h.setIdle, hd⟩
  | crash _ _ => cases hs
  | recover => cases hs
  | recoverTable => cases hs
  | recoverLog => cases hs
  | openLog => cases hs
  | createManifest => cases hs
  | setCurrent => cases hs

end Process

/-! ## Opening -/

structure Opening.Ok (o : Opening) (d : Disk) : Prop where
  recorded : o.recorded = d.manifest.read
  next : o.recorded.nextFile < o.nextFile
  added : ∀ t ∈ o.added, t < o.nextFile
  logs : ∀ n, FileName.log n ∈ d.files → n < o.nextFile ∨ n ∈ o.logs
  recovered : ∀ n, FileName.log n ∈ d.files → o.recorded.logNumber ≤ n → n ∈ o.logs ∨ ∀ w ∈ d.logWrites n, w ∈ o.recovered
  logfile : ∀ l, o.logfile = some l → o.logs = [] ∧ l < o.nextFile ∧ o.recorded.logNumber ≤ l ∧ d.logWrites l = [] ∧
    ∀ n, FileName.log n ∈ d.files → n ≤ l

lemma Disk.Ok.recover (hd : d.Ok) (h : d.recover = some o) : o.Ok d := by
  simp only [Disk.recover, Lib.guard_eq_some] at h
  obtain ⟨-, rfl⟩ := h
  have hread := hd _ d.manifest.reading_read
  have hlogs : ∀ n, FileName.log n ∈ d.files → d.manifest.read.logNumber ≤ n →
      n ∈ (d.logNumbers.filter fun n => d.manifest.read.logNumber ≤ n ∨ n = prevLogNumber).insertionSort (· ≤ ·) := by
    intro n hn hle
    rw [mem_insertionSort, mem_filter]
    exact ⟨Disk.mem_logNumbers.2 hn, by simp [hle]⟩
  refine ⟨rfl, lt_succ_self _, fun _ => nofun, fun n hn => ?_, fun n hn hle => .inl (hlogs n hn hle), fun _ => nofun⟩
  rcases lt_or_ge n d.manifest.read.logNumber with hlt | hge
  · exact .inl ((hlt.trans hread.log).trans (lt_succ_self _))
  · exact .inr (hlogs n hn hge)

section

variable (h : o.Ok d)
include h

lemma Opening.Ok.create (hf : ∀ n, f ≠ .log n) : o.Ok (d.create f) := by
  have hlogs : ∀ n, log n ∈ (d.create f).files → log n ∈ d.files := fun n hn =>
    (mem_create.1 hn).resolve_left (hf n).symm
  refine { h with
    logs := fun n hn => h.logs n (hlogs n hn)
    recovered := fun n hn => h.recovered n (hlogs n hn)
    logfile := fun l hl => ?_ }
  obtain ⟨h1, h2, h3, h4, h5⟩ := h.logfile l hl
  exact ⟨h1, h2, h3, h4, fun n hn => h5 n (hlogs n hn)⟩

lemma Opening.Ok.recoverTable (hlogs : o.logs ≠ []) :
    Opening.Ok { o with nextFile := o.nextFile + 1, added := o.added ++ [o.nextFile], tableWritten := true } d := by
  refine { h with
    next := h.next.trans (lt_succ_self _)
    added := fun t ht => ?_
    logs := fun n hn => (h.logs n hn).imp_left fun hlt => hlt.trans (lt_succ_self _)
    logfile := fun l hl => absurd (h.logfile l hl).1 hlogs }
  rcases mem_append.1 ht with ht | ht
  · exact (h.added t ht).trans (lt_succ_self _)
  · rw [mem_singleton.1 ht]
    exact lt_succ_self _

lemma Opening.Ok.recoverLog {l : Nat} {logs : List Nat} (hlogs : o.logs = l :: logs) :
    Opening.Ok { o with nextFile := max o.nextFile (l + 1), logs := logs, tableWritten := false,
                        recovered := o.recovered ++ d.logWrites l } d := by
  refine { h with
    next := h.next.trans_le (le_max_left _ _)
    added := fun t ht => (h.added t ht).trans_le (le_max_left _ _)
    logs := fun n hn => ?_
    recovered := fun n hn hle => ?_
    logfile := fun m hm => ?_ }
  · rcases h.logs n hn with hlt | hmem
    · exact .inl (hlt.trans_le (le_max_left _ _))
    · rw [hlogs] at hmem
      rcases mem_cons.1 hmem with rfl | hmem
      · exact .inl ((lt_succ_self _).trans_le (le_max_right _ _))
      · exact .inr hmem
  · rcases h.recovered n hn hle with hmem | hin
    · rw [hlogs] at hmem
      rcases mem_cons.1 hmem with rfl | hmem
      · exact .inr fun w hw => mem_append_right _ hw
      · exact .inl hmem
    · exact .inr fun w hw => mem_append_left _ (hin w hw)
  · have hnil := (h.logfile m hm).1
    rw [hlogs] at hnil
    cases hnil

lemma Opening.Ok.openLog (hd : d.Ok) (hlogs : o.logs = []) :
    Opening.Ok { o with nextFile := o.nextFile + 1, logfile := some o.nextFile } (d.createLog o.nextFile) := by
  have hnil : (d.createLog o.nextFile).logWrites o.nextFile = [] := update_self ..
  have hfiles : ∀ n, log n ∈ (d.createLog o.nextFile).files → n = o.nextFile ∨ log n ∈ d.files := by
    intro n hn
    rcases mem_create.1 hn with hn | hn
    · cases hn
      exact .inl rfl
    · exact .inr hn
  have hlt : ∀ n, log n ∈ d.files → n < o.nextFile := fun n hn => by
    rcases h.logs n hn with hlt | hmem
    · exact hlt
    · rw [hlogs] at hmem
      cases hmem
  refine { h with
    next := h.next.trans (lt_succ_self _)
    added := fun t ht => (h.added t ht).trans (lt_succ_self _)
    logs := fun n hn => .inl ?_
    recovered := fun n hn hle => ?_
    logfile := fun l hl => ?_ }
  · rcases hfiles n hn with rfl | hn
    · exact lt_succ_self _
    · exact (hlt n hn).trans (lt_succ_self _)
  · rcases hfiles n hn with rfl | hn
    · exact .inr fun w hw => by
        rw [hnil] at hw
        cases hw
    · refine (h.recovered n hn hle).imp_right fun hin w hw => hin w ?_
      rwa [show (d.createLog o.nextFile).logWrites n = d.logWrites n from update_of_ne (hlt n hn).ne _ _] at hw
  · cases hl
    have hread := hd _ d.manifest.reading_read
    refine ⟨hlogs, lt_succ_self _, ?_, hnil, fun n hn => ?_⟩
    · exact ((h.recorded ▸ hread.log).trans h.next).le
    · rcases hfiles n hn with rfl | hn
      · exact le_rfl
      · exact (hlt n hn).le

lemma Opening.Ok.step (hd : d.Ok) (hs : o.step d a = some (o', d')) : o'.Ok d' ∧ d'.Ok := by
  unfold Opening.step at hs
  split at hs
  · simp only [guard_eq_some] at hs
    obtain ⟨hlogs, hs⟩ := hs
    cases hs
    exact ⟨(h.recoverTable hlogs).create fun _ => nofun, hd.create fun _ => nofun⟩
  · split at hs
    · rename_i hlogs
      simp only [guard_eq_some] at hs
      cases hs.2
      exact ⟨h.recoverLog hlogs, hd⟩
    · cases hs
  · simp only [guard_eq_some] at hs
    obtain ⟨⟨hlogs, -⟩, hs⟩ := hs
    cases hs
    exact ⟨h.openLog hd hlogs, hd.createLog _⟩
  · simp only [guard_eq_some] at hs
    cases hs.2
    have hsame : Opening.Ok { o with manifestCreated := true } d := { h with }
    exact ⟨hsame.create fun _ => nofun, hd.create fun _ => nofun⟩
  · cases hs

lemma Opening.Ok.setCurrent (hd : d.Ok) (hs : o.setCurrent d = some (p, d')) : p.Ok d' ∧ d'.Ok := by
  simp only [Opening.setCurrent] at hs
  split at hs
  · rename_i l hl
    simp only [guard_eq_some] at hs
    obtain ⟨-, hs⟩ := hs
    cases hs
    obtain ⟨hlogs, hlt, hge, hnil, hmax⟩ := h.logfile l hl
    have hread := h.recorded ▸ hd _ d.manifest.reading_read
    have htables : ∀ t ∈ o.recorded.tables ++ o.added, t < o.nextFile := by
      intro t ht
      rcases mem_append.1 ht with ht | ht
      · exact (hread.tables t ht).trans h.next
      · exact h.added t ht
    have hcovered : ∀ n, log n ∈ d.files → n < l → ∀ w ∈ d.logWrites n, w ∈ o.recorded.writes ++ o.recovered := by
      intro n hn _ w hw
      rcases lt_or_ge n o.recorded.logNumber with hlow | hhigh
      · exact mem_append_left _ (hread.covered n hn hlow w hw)
      · rcases h.recovered n hn hhigh with hmem | hin
        · rw [hlogs] at hmem
          cases hmem
        · exact mem_append_right _ (hin w hw)
    have hreading : ∀ r, Manifest.Reading ⟨⟨o.recorded.tables ++ o.added, l, o.nextFile,
        o.recorded.writes ++ o.recovered⟩, [], 0⟩ r →
        r = ⟨o.recorded.tables ++ o.added, l, o.nextFile, o.recorded.writes ++ o.recovered⟩ := by
      rintro r ⟨pre, hpre, rfl⟩
      cases prefix_nil.1 hpre
      rfl
    refine ⟨Process.Ok.removeObsoleteFiles ?_ rfl _, fun r hr => ?_⟩
    · refine ⟨le_rfl, fun r hr => (hreading r hr ▸ le_rfl), fun w hw => hw, rfl, h.next, hmax, le_rfl, hlt, hcovered,
        fun n hn hlt w hw => .inl (hcovered n hn hlt w hw), fun w hw => ?_, fun v hv t ht => ?_, fun _ => nofun,
        fun _ => nofun, trivial⟩
      · dsimp only at hw
        rw [hnil] at hw
        cases hw
      · rw [mem_versions] at hv
        rcases hv with rfl | hv | ⟨_, hv, -⟩ | ⟨_, _, hv⟩
        · exact htables t ht
        · cases hv
        · cases hv
        · cases hv
    · rw [hreading r hr]
      exact ⟨hlt, htables, h.next, hcovered⟩
  · cases hs

end

def System.Ok (s : System) : Prop :=
  s.disk.Ok ∧ match s.phase with
    | .down => True
    | .opening o => o.Ok s.disk
    | .up p => p.Ok s.disk

lemma System.ok_init : System.init.Ok := ⟨ok_newDB, trivial⟩

lemma System.Ok.step {s s' : System} (h : s.Ok) (hs : s.step a = some s') : s'.Ok := by
  obtain ⟨hd, hphase⟩ := h
  unfold System.step at hs
  split at hs
  · cases hs
    exact ⟨hd.crash _ _, trivial⟩
  · obtain ⟨o, ho, rfl⟩ := Option.map_eq_some_iff.1 hs
    exact ⟨hd, hd.recover ho⟩
  · rw [‹s.phase = Phase.opening _›] at hphase
    obtain ⟨r, hr, rfl⟩ := Option.map_eq_some_iff.1 hs
    exact (Opening.Ok.setCurrent hphase hd hr).symm
  · rw [‹s.phase = Phase.opening _›] at hphase
    obtain ⟨r, hr, rfl⟩ := Option.map_eq_some_iff.1 hs
    exact (Opening.Ok.step hphase hd hr).symm
  · rw [‹s.phase = Phase.up _›] at hphase
    obtain ⟨r, hr, rfl⟩ := Option.map_eq_some_iff.1 hs
    exact (Process.Ok.step hphase hd hr).symm
  · cases hs

end RallyDB.Db.FileNames
