import RallyDB.Db.Manifest

/-!
# A failed `LogAndApply`
-/

namespace RallyDB.Db.Descriptor

open Util Table List VersionSet

structure Objects where
  versions : List (Nat × Nat)
  files : List Nat
  logs : List Nat
  fresh : Nat
  versions_lt : ∀ v ∈ versions, v.1 < fresh
  files_lt : ∀ f ∈ files, f < fresh
  logs_lt : ∀ l ∈ logs, l < fresh

namespace Objects

variable {objects : Objects}

section

variable (objects)

def newVersion : Objects where
  versions := (objects.fresh, 0) :: objects.versions
  files := objects.files
  logs := objects.logs
  fresh := objects.fresh + 1
  versions_lt := by
    intro v hv
    rcases mem_cons.1 hv with rfl | hv
    · exact lt_add_one _
    · exact (objects.versions_lt v hv).trans (lt_add_one _)
  files_lt := fun f hf => (objects.files_lt f hf).trans (lt_add_one _)
  logs_lt := fun l hl => (objects.logs_lt l hl).trans (lt_add_one _)

def newDescriptor : Objects where
  versions := objects.versions
  files := objects.fresh :: objects.files
  logs := (objects.fresh + 1) :: objects.logs
  fresh := objects.fresh + 2
  versions_lt := fun v hv => (objects.versions_lt v hv).trans (by omega)
  files_lt := by
    intro f hf
    rcases mem_cons.1 hf with rfl | hf
    · omega
    · exact (objects.files_lt f hf).trans (by omega)
  logs_lt := by
    intro l hl
    rcases mem_cons.1 hl with rfl | hl
    · omega
    · exact (objects.logs_lt l hl).trans (by omega)

def deleteVersion (v : Nat) : Objects :=
  { objects with
    versions := objects.versions.filter fun p => p.1 ≠ v
    versions_lt := fun p hp => objects.versions_lt p (mem_filter.1 hp).1 }

def deleteDescriptor (file log : Nat) : Objects :=
  { objects with
    files := objects.files.filter (· ≠ file)
    logs := objects.logs.filter (· ≠ log)
    files_lt := fun f hf => objects.files_lt f (mem_filter.1 hf).1
    logs_lt := fun l hl => objects.logs_lt l (mem_filter.1 hl).1 }

def unref (v : Nat) : Objects :=
  { objects with
    versions := (objects.versions.map fun p => if p.1 = v then (p.1, p.2 - 1) else p).filter fun p => p.1 ≠ v ∨ p.2 ≠ 0
    versions_lt := by
      intro p hp
      obtain ⟨q, hq, rfl⟩ := mem_map.1 (mem_filter.1 hp).1
      have := objects.versions_lt q hq
      split_ifs <;> exact this }

def ref (v : Nat) : Objects :=
  { objects with
    versions := objects.versions.map fun p => if p.1 = v then (p.1, p.2 + 1) else p
    versions_lt := by
      intro p hp
      obtain ⟨q, hq, rfl⟩ := mem_map.1 hp
      have := objects.versions_lt q hq
      split_ifs <;> exact this }

lemma versions_deleteVersion : (objects.newVersion.deleteVersion objects.fresh).versions = objects.versions := by
  simp only [deleteVersion, newVersion, ne_eq, not_true_eq_false, decide_false, Bool.false_eq_true, not_false_eq_true,
    filter_cons_of_neg]
  exact filter_eq_self.2 fun p hp => decide_eq_true (objects.versions_lt p hp).ne

end

lemma filter_fresh {l : List Nat} {n : Nat} (h : ∀ a ∈ l, a < n) : (n :: l).filter (· ≠ n) = l := by
  rw [filter_cons_of_neg (by simp)]
  exact filter_eq_self.2 fun a ha => decide_eq_true (h a ha).ne

end Objects

variable {crc : Crc32c} {name : Slice} {faults : Faults} {vs : VersionSet} {disk : Disk} {edit : VersionEdit}

structure Unchanged (vs vs' : VersionSet) (disk disk' : Disk) : Prop where
  current : vs'.current = vs.current
  logNumber : vs'.logNumber = vs.logNumber
  prevLogNumber : vs'.prevLogNumber = vs.prevLogNumber
  lastSequence : vs'.lastSequence = vs.lastSequence
  nextFileNumber : vs'.nextFileNumber = vs.nextFileNumber
  manifestFileNumber : vs'.manifestFileNumber = vs.manifestFileNumber
  descriptorLog : vs'.descriptorLog.isNone = vs.descriptorLog.isNone
  currentFile : disk'.current = disk.current

section

variable (crc name faults vs edit)

def VersionSet.writtenDescriptor : Option Log.Writer × Status :=
  match vs.openDescriptor crc name faults with
  | (some w, .ok _) => let r := writeEdit crc w faults edit; (some r.1, r.2)
  | r => r

lemma writtenDescriptor_cases : (∃ w status, vs.writtenDescriptor crc name faults edit = (some w, status)) ∨
    vs.descriptorLog.isNone = true ∧ ∃ e, vs.writtenDescriptor crc name faults edit = (none, .error e) := by
  rw [writtenDescriptor, openDescriptor]
  cases vs.descriptorLog with
  | some w => exact .inl ⟨_, _, rfl⟩
  | none =>
    by_cases hnew : faults.newWritableFile = true
    · rw [if_pos hnew]
      exact .inr ⟨rfl, _, rfl⟩
    · rw [if_neg hnew]
      dsimp only
      cases (addRecordWith crc (.new ⟨[], []⟩) faults.snapshot (vs.snapshotEdit name).encodeTo).2 with
      | ok u | error e => exact .inl ⟨_, _, rfl⟩

end

def VersionSet.switchStatus (faults : Faults) (vs : VersionSet) : Status → Status
  | .ok _ => if vs.descriptorLog.isNone && faults.setCurrentFile then .error (.ioError "CURRENT") else .ok ()
  | .error e => .error e

def VersionSet.failed (vs : VersionSet) (edit : VersionEdit) (log : Option Log.Writer) : VersionSet :=
  { vs with
    descriptorLog := if vs.descriptorLog.isNone then none else log
    compactPointer := applyPointers vs.compactPointer edit }

section

variable (crc name faults vs disk edit)

lemma logAndApply_cases :
    (∃ vs' disk', vs.logAndApply crc name faults disk edit = (vs', disk', .ok ()) ∧ vs'.descriptorLog.isNone = false) ∨
    ∃ vs' disk' e, vs.logAndApply crc name faults disk edit = (vs', disk', .error e) ∧ Unchanged vs vs' disk disk' := by
  generalize hr : vs.logAndApply crc name faults disk edit = r
  unfold VersionSet.logAndApply at hr
  extract_lets edit v pointers created opened written status after at hr
  have hwritten := writtenDescriptor_cases crc name faults vs edit
  change (∃ w status, written = (some w, status)) ∨ created = true ∧ ∃ e, written = (none, .error e) at hwritten
  have hstatus : vs.switchStatus faults written.2 = status := rfl
  clear_value status
  subst hr
  cases status with
  | ok u =>
    refine .inl ⟨_, _, rfl, ?_⟩
    rcases hwritten with ⟨w, status, hw⟩ | ⟨-, e, hw⟩
    · simp only [hw, Option.isNone_some]
    · rw [hw] at hstatus
      cases hstatus
  | error e =>
    refine .inr ⟨_, _, e, rfl, rfl, rfl, rfl, rfl, rfl, rfl, ?_, ?_⟩
    · change (vs.failed edit written.1).descriptorLog.isNone = created
      rcases hwritten with ⟨w, status, hw⟩ | ⟨hnone, e, hw⟩
      · rw [failed, hw]
        cases hlog : vs.descriptorLog <;> simp [created, hlog]
      · rw [failed, hw, hnone, if_pos hnone]
        rfl
    · split <;> rfl

end

lemma descriptorLog_of_ok {vs' : VersionSet} {disk' : Disk} {u : Unit}
    (h : vs.logAndApply crc name faults disk edit = (vs', disk', .ok u)) : vs'.descriptorLog.isNone = false := by
  rcases logAndApply_cases crc name faults vs disk edit with ⟨vs1, disk1, h1, hopen⟩ | ⟨vs1, disk1, e, h1, -⟩
  · cases h.symm.trans h1
    exact hopen
  · cases h.symm.trans h1

lemma unchanged_of_error {vs' : VersionSet} {disk' : Disk} {e : Error}
    (h : vs.logAndApply crc name faults disk edit = (vs', disk', .error e)) : Unchanged vs vs' disk disk' := by
  rcases logAndApply_cases crc name faults vs disk edit with ⟨vs1, disk1, h1, -⟩ | ⟨vs1, disk1, e1, h1, hunchanged⟩
  · cases h.symm.trans h1
  · cases h.symm.trans h1
    exact hunchanged

structure Instance where
  vs : VersionSet
  disk : Disk
  objects : Objects
  currentVersion : Nat
  descriptor : Option (Nat × Nat)
  manifests : List Nat
  closed : vs.descriptorLog.isNone = true → descriptor = none

def Instance.logAndApply (crc : Crc32c) (name : Slice) (faults : Faults) (s : Instance) (edit : VersionEdit) :
    Instance × Status :=
  let v := s.objects.fresh
  let objects := s.objects.newVersion
  let created := s.vs.descriptorLog.isNone
  let opens := created && !faults.newWritableFile
  let descriptor := if opens then some (objects.fresh, objects.fresh + 1) else s.descriptor
  let objects := if opens then objects.newDescriptor else objects
  let manifests := if opens then s.vs.manifestFileNumber :: s.manifests else s.manifests
  match h : s.vs.logAndApply crc name faults s.disk edit with
  | (vs, disk, .ok _) =>
    ({ vs, disk, manifests, descriptor
       -- `AppendVersion`
       objects := (objects.unref s.currentVersion).ref v
       currentVersion := v
       closed := fun hnone => by rw [descriptorLog_of_ok h] at hnone; cases hnone }, .ok ())
  | (vs, disk, .error e) =>
    let objects := objects.deleteVersion v
    if hc : created then
      ({ vs, disk
         objects := match descriptor with
          | some (file, log) => objects.deleteDescriptor file log
          | none => objects
         currentVersion := s.currentVersion
         descriptor := none
         manifests := manifests.filter (· ≠ s.vs.manifestFileNumber)
         closed := fun _ => rfl }, .error e)
    else
      ({ vs, disk, objects, descriptor, manifests
         currentVersion := s.currentVersion
         closed := fun hnone => absurd (((unchanged_of_error h).descriptorLog).symm.trans hnone) hc }, .error e)

/-- A call leaves nothing behind: the installed state is as before, the new version is freed, and a manifest that was created
is closed and removed. -/
structure Discarded (s s' : Instance) : Prop where
  unchanged : Unchanged s.vs s'.vs s.disk s'.disk
  currentVersion : s'.currentVersion = s.currentVersion
  versions : s'.objects.versions = s.objects.versions
  closed : s.vs.descriptorLog.isNone = true → s'.vs.descriptorLog = none ∧ s'.descriptor = none ∧
    s'.objects.files = s.objects.files ∧ s'.objects.logs = s.objects.logs
  removed : s.vs.descriptorLog.isNone = true → s.vs.manifestFileNumber ∉ s'.manifests
  restarts : s.vs.descriptorLog.isNone = true → ∀ (crc : Crc32c) (name : Slice) (faults : Faults),
    faults.newWritableFile = false → s'.vs.openDescriptor crc name faults =
      ((addRecordWith crc (.new ⟨[], []⟩) faults.snapshot (s'.vs.snapshotEdit name).encodeTo).map some id)

/-- Whatever goes wrong, a failed `LogAndApply` has no effect on the installed state. -/
theorem logAndApply_failed (crc : Crc32c) (name : Slice) (faults : Faults) (s s' : Instance) (edit : VersionEdit) (e : Error)
    (h : s.logAndApply crc name faults edit = (s', .error e)) : Discarded s s' := by
  unfold Instance.logAndApply at h
  dsimp only at h
  split at h
  · cases h
  · rename_i vs disk e' hcall
    have hunchanged := unchanged_of_error hcall
    by_cases hc : s.vs.descriptorLog.isNone = true
    · rw [dif_pos hc] at h
      cases h
      have hlog : vs.descriptorLog = none := Option.isNone_iff_eq_none.1 (hunchanged.descriptorLog.trans hc)
      have hrestarts : ∀ (crc : Crc32c) (name : Slice) (faults : Faults), faults.newWritableFile = false →
          vs.openDescriptor crc name faults =
            (addRecordWith crc (.new ⟨[], []⟩) faults.snapshot (vs.snapshotEdit name).encodeTo).map some id := by
        intro crc name faults hnew
        simp only [openDescriptor, hlog, hnew, Bool.false_eq_true, if_false]
        rfl
      cases hnew : faults.newWritableFile with
      | true =>
        -- there is no file, and nothing to close
        refine ⟨hunchanged, rfl, ?_, fun _ => ⟨hlog, rfl, ?_, ?_⟩, fun _ => by simp, fun _ => hrestarts⟩
        all_goals simp only [hc, s.closed hc, Bool.not_true, Bool.and_false, Bool.false_eq_true, if_false]
        · exact s.objects.versions_deleteVersion
        · rfl
        · rfl
      | false =>
        refine ⟨hunchanged, rfl, ?_, fun _ => ⟨hlog, rfl, ?_, ?_⟩, fun _ => by simp, fun _ => hrestarts⟩
        all_goals simp only [hc, Bool.not_false, Bool.and_true, if_true]
        · exact s.objects.versions_deleteVersion
        · exact Objects.filter_fresh s.objects.newVersion.files_lt
        · exact Objects.filter_fresh fun l hl => (s.objects.newVersion.logs_lt l hl).trans (lt_add_one _)
    · rw [dif_neg hc] at h
      cases h
      refine ⟨hunchanged, rfl, ?_, fun hnone => absurd hnone hc, fun hnone => absurd hnone hc, fun hnone => absurd hnone hc⟩
      simp only [Bool.not_eq_true] at hc
      simp only [hc, Bool.false_and, Bool.false_eq_true, if_false]
      exact s.objects.versions_deleteVersion

def freshInstance : Instance where
  vs := .new
  disk := ⟨0, fun _ => []⟩
  objects := ⟨[(0, 1)], [], [], 1, by simp, by simp, by simp⟩
  currentVersion := 0
  descriptor := none
  manifests := []
  closed := fun _ => rfl

theorem logAndApply_failed_sync :
    (freshInstance.logAndApply Crc32c.bitwise [] { sync := true } {}).2 = .error (.ioError "sync") ∧
    Discarded freshInstance (freshInstance.logAndApply Crc32c.bitwise [] { sync := true } {}).1 := by
  have hstatus : (freshInstance.logAndApply Crc32c.bitwise [] { sync := true } {}).2 = .error (.ioError "sync") := by
    decide +kernel
  exact ⟨hstatus, logAndApply_failed Crc32c.bitwise [] _ freshInstance _ {} _ (Prod.ext rfl hstatus)⟩

end RallyDB.Db.Descriptor
