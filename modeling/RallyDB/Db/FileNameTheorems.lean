import RallyDB.Db.Lemmas.FileNames

/-!
# No file that is needed is removed, and no file in use is created again
-/

namespace RallyDB.Db.FileNames

open RallyDB.Lib List Process Disk Phase Opening Option

variable {s s' : System} {a : Action} {d d' : Disk} {p p' : Process} {o o' : Opening} {f : FileName} {n : Nat}

lemma System.ok_run {as : List Action} (hr : run System.step System.init as = some s) : s.Ok :=
  run_invariant (C := fun _ _ => True) (fun _ _ _ h _ hs => h.step hs) System.ok_init
    (stepsMeet_of_forall (P := fun _ => True) fun _ _ => trivial) hr

lemma System.Ok.process (h : s.Ok) (hp : s.phase = .up p) : p.Ok s.disk := by
  have := h.2
  rwa [hp] at this

lemma System.Ok.opening (h : s.Ok) (ho : s.phase = .opening o) : o.Ok s.disk := by
  have := h.2
  rwa [ho] at this

lemma System.step_up (hp : s.phase = .up p) (hc : ∀ records logs, a ≠ .crash records logs) (hs : s.step a = some s') :
    ∃ p' d', p.step s.disk a = some (p', d') ∧ s' = ⟨d', .up p'⟩ := by
  unfold System.step at hs
  rw [hp] at hs
  split at hs
  · exact absurd rfl (hc _ _)
  · cases ‹up p = down›
  · cases ‹up p = opening _›
  · cases ‹up p = opening _›
  · cases ‹up p = up _›
    obtain ⟨⟨p', d'⟩, hr, rfl⟩ := map_eq_some_iff.1 hs
    exact ⟨p', d', hr, rfl⟩
  · cases hs

lemma Process.Ok.keep_of_filesToDelete (h : p.Ok d) (hf : f ∈ (up p).filesToDelete) : p.keep f = false := by
  unfold filesToDelete at hf
  dsimp only at hf
  split at hf
  · rename_i files hjob
    have hjobOk := h.job
    unfold Process.JobOk at hjobOk
    rw [hjob] at hjobOk
    exact hjobOk f hf
  · cases hf

lemma Process.Ok.beingWritten_pending (h : p.Ok d) {files : List FileName} (hjob : p.job = .remove files)
    (hn : n ∈ p.beingWritten) : n ∈ p.pendingOutputs := by
  unfold beingWritten at hn
  rw [hjob] at hn
  simp only [append_nil, mem_append] at hn
  rcases hn with hn | hn
  · exact hn
  · cases hc : p.compaction with
    | none =>
      rw [hc] at hn
      cases hn
    | some c =>
      rw [hc] at hn
      exact h.outputs c hc n hn

lemma Process.Ok.not_needs (h : p.Ok d) (hf : f ∈ (up p).filesToDelete) : ¬ p.Needs d f := by
  have hkeep := h.keep_of_filesToDelete hf
  cases f with
  | table n =>
    simp only [keep, live, decide_eq_false_iff_not, mem_append, mem_flatten, not_or] at hkeep
    rintro (⟨v, hv, hn⟩ | hn)
    · exact hkeep.2 ⟨v, hv, hn⟩
    · unfold filesToDelete at hf
      dsimp only at hf
      split at hf
      · exact hkeep.1 (h.beingWritten_pending ‹_› hn)
      · cases hf
  | log n =>
    simp only [keep, decide_eq_false_iff_not, not_or, not_le] at hkeep
    rintro ⟨hin, w, hw, hnot⟩
    exact hnot (h.old n hin hkeep.1 w hw)
  | manifest n =>
    simp only [keep, decide_eq_false_iff_not, not_le] at hkeep
    intro (he : n = d.current)
    rw [he, h.manifest] at hkeep
    exact absurd hkeep (lt_irrefl _)

lemma Process.removeFile_removes {fails : Bool} (hs : p.step d (.removeFile fails) = some (p', d')) (hf : f ∈ d.files)
    (hgone : f ∉ d'.files) : f ∈ (up p).filesToDelete := by
  simp only [step] at hs
  split at hs <;> cases hs
  rename_i g files hjob
  unfold filesToDelete
  dsimp only
  rw [hjob]
  split_ifs at hgone
  · exact absurd hf hgone
  · rw [mem_remove, not_and, not_not] at hgone
    rw [hgone hf]
    exact mem_cons_self

/-- In every run, what `RemoveObsoleteFiles` has chosen to remove and has not removed yet is not needed, and its loop removes
nothing else. -/
theorem removeObsoleteFiles_safe (as : List Action) (s : System) (p : Process)
    (hr : run System.step System.init as = some s) (hp : s.phase = .up p) :
    (∀ f ∈ s.phase.filesToDelete, ¬ p.Needs s.disk f) ∧
    ∀ fails s', s.step (.removeFile fails) = some s' → ∀ f ∈ s.disk.files, f ∉ s'.disk.files →
    f ∈ s.phase.filesToDelete := by
  have h := (System.ok_run hr).process hp
  refine ⟨fun f hf => h.not_needs (hp ▸ hf), fun fails s' hs f hf hgone => ?_⟩
  obtain ⟨p', d', hstep, rfl⟩ := System.step_up (a := .removeFile fails) hp (fun _ _ => nofun) hs
  rw [hp]
  exact removeFile_removes hstep hf hgone

def flushRun : List Action :=
  [.recover, .openLog, .createManifest, .setCurrent, .removeFile false, .removed, .addRecord 7 false, .insert,
    .switchMemTable false false, .startFlush, .createTable, .finishTable, .writeRecord, .installRecord]

theorem removeObsoleteFiles_safe_sample : ∃ s p, run System.step System.init flushRun = some s ∧ s.phase = .up p ∧
    s.phase.filesToDelete = [.log 3] ∧ ¬ p.Needs s.disk (.log 3) := by
  obtain ⟨s, hs, hfiles⟩ : ∃ s, run System.step System.init flushRun = some s ∧ s.phase.filesToDelete = [.log 3] :=
    exists_run (by decide +kernel)
  cases hp : s.phase with
  | down | opening o =>
    rw [hp] at hfiles
    cases hfiles
  | up p =>
    have hsafe := (removeObsoleteFiles_safe flushRun s p hs hp).1 (.log 3) (hfiles ▸ mem_singleton_self _)
    exact ⟨s, p, hs, hp, hfiles, hsafe⟩

/-! ## Created files -/

lemma Process.Ok.log_fresh (h : p.Ok d) : FileName.log p.nextFile ∉ d.files := fun hin =>
  absurd (h.logs _ hin) h.logfileLt.not_ge

lemma Process.Ok.log_not_chosen (h : p.Ok d) : FileName.log p.nextFile ∉ (up p).filesToDelete := by
  intro hf
  have hkeep := h.keep_of_filesToDelete hf
  simp only [keep, decide_eq_false_iff_not, not_or, not_le] at hkeep
  exact absurd (h.logNumber.trans_lt h.logfileLt) hkeep.1.not_gt

lemma Process.Ok.creates_fresh (h : p.Ok s.disk) (hp : s.phase = .up p) (hf : p.creates a = some f) : ¬ s.InUse f := by
  unfold creates at hf
  split at hf
  · simp only [ite_none_left_eq_some, some.injEq] at hf
    obtain ⟨-, rfl⟩ := hf
    rintro (hreads | hchosen)
    · exact h.log_fresh hreads.1
    · exact h.log_not_chosen (hp ▸ hchosen)
  · split at hf <;> cases hf
    rename_i hjob
    have hjobOk := h.job
    unfold Process.JobOk at hjobOk
    rw [hjob] at hjobOk
    rintro (⟨v, hv, hn⟩ | hchosen)
    · exact hjobOk.2.1 v (by rwa [hp] at hv) hn
    · simp [hp, filesToDelete, hjob] at hchosen
  · split at hf
    · rename_i hjob
      simp only [ite_none_left_eq_some, some.injEq] at hf
      obtain ⟨-, rfl⟩ := hf
      have hjobOk := h.job
      unfold Process.JobOk at hjobOk
      rw [hjob] at hjobOk
      rintro (⟨v, hv, hn⟩ | hchosen)
      · exact hjobOk.2 v (by rwa [hp] at hv) hn
      · simp [hp, filesToDelete, hjob] at hchosen
    · cases hf
  · cases hf

lemma Opening.Ok.creates_fresh (h : o.Ok s.disk) (hd : s.disk.Ok) (ho : s.phase = .opening o)
    (hs : o.step s.disk a = some (o', d')) (hf : o.creates a = some f) : ¬ s.InUse f := by
  have hread : o.recorded.Sound s.disk := h.recorded ▸ hd _ s.disk.manifest.reading_read
  have hnone : f ∉ s.phase.filesToDelete := by
    rw [ho]
    exact not_mem_nil
  unfold Opening.creates at hf
  split at hf
  · cases hf
    rintro (⟨v, hv, hn⟩ | hchosen)
    · rw [ho] at hv
      rw [mem_singleton.1 hv] at hn
      exact absurd ((hread.tables _ hn).trans h.next) (lt_irrefl _)
    · exact hnone hchosen
  · cases hf
    simp only [Opening.step, Option.ite_none_right_eq_some] at hs
    rintro (hreads | hchosen)
    · rcases h.logs _ hreads.1 with hlt | hmem
      · exact absurd hlt (lt_irrefl _)
      · rw [hs.1.1] at hmem
        cases hmem
    · exact hnone hchosen
  · cases hf
    rintro (he | hchosen)
    · exact absurd hread.current (Nat.not_lt_of_ge (Nat.le_of_eq he))
    · exact hnone hchosen
  · cases hf

lemma Process.created_files (hs : p.step d a = some (p', d')) (hf : f ∈ d'.files) : f ∈ d.files ∨ p.creates a = some f := by
  cases a with
  | switchMemTable createFails closeFails =>
    simp only [step, ite_none_right_eq_some] at hs
    obtain ⟨-, hs⟩ := hs
    split_ifs at hs with hfails <;> cases hs
    · exact .inl hf
    · rcases mem_create.1 hf with rfl | hf
      · exact .inr (by simp [creates, hfails])
      · exact .inl hf
  | createTable =>
    simp only [step] at hs
    split at hs <;> cases hs
    rename_i hjob
    rcases mem_create.1 hf with rfl | hf
    · exact .inr (by simp [creates, hjob])
    · exact .inl hf
  | createOutput fails =>
    simp only [step] at hs
    split at hs
    · rename_i hjob
      split_ifs at hs with hfails <;> cases hs
      · exact .inl hf
      · rcases mem_create.1 hf with rfl | hf
        · exact .inr (by simp [creates, hjob, hfails])
        · exact .inl hf
    · cases hs
  | finishTable =>
    simp only [step] at hs
    split at hs <;> cases hs
    split_ifs at hf
    · exact .inl (mem_remove.1 hf).1
    · exact .inl hf
  | failTable =>
    simp only [step] at hs
    split at hs <;> cases hs
    exact .inl (mem_remove.1 hf).1
  | removeFile fails =>
    simp only [step] at hs
    split at hs <;> cases hs
    split_ifs at hf
    · exact .inl hf
    · exact .inl (mem_remove.1 hf).1
  | addRecord w fails =>
    simp only [step, ite_none_right_eq_some] at hs
    obtain ⟨-, hs⟩ := hs
    split_ifs at hs <;> cases hs <;> exact .inl hf
  | ref =>
    cases hs
    exact .inl hf
  | unref _ | startFlush | startMove _ | startCompaction _ | failCompaction | removed =>
    simp only [step, Lib.guard_eq_some] at hs
    cases hs.2
    exact .inl hf
  | insert | syncFails | openOutput | finishCompaction | writeRecord | installRecord | failRecord =>
    simp only [step] at hs
    split at hs <;> cases hs
    exact .inl hf
  | crash _ _ | recover | recoverTable | recoverLog | openLog | createManifest | setCurrent => cases hs

lemma Opening.created_files (hs : o.step d a = some (o', d')) (hf : f ∈ d'.files) : f ∈ d.files ∨ o.creates a = some f := by
  unfold step at hs
  split at hs
  · simp only [Lib.guard_eq_some] at hs
    cases hs.2
    exact (mem_create.1 hf).symm.imp_right fun he => congrArg some he.symm
  · split at hs
    · simp only [Lib.guard_eq_some] at hs
      cases hs.2
      exact .inl hf
    · cases hs
  · simp only [Lib.guard_eq_some] at hs
    cases hs.2
    exact (mem_create.1 hf).symm.imp_right fun he => congrArg some he.symm
  · simp only [Lib.guard_eq_some] at hs
    cases hs.2
    exact (mem_create.1 hf).symm.imp_right fun he => congrArg some he.symm
  · cases hs

lemma Opening.setCurrent_files (hs : o.setCurrent d = some (p, d')) : d'.files = d.files := by
  simp only [setCurrent] at hs
  split at hs
  · simp only [Lib.guard_eq_some] at hs
    cases hs.2
    rfl
  · cases hs

lemma System.Ok.step_creates (h : s.Ok) (hs : s.step a = some s') : (∀ f, s.creates a = some f → ¬ s.InUse f) ∧
    ∀ f ∈ s'.disk.files, f ∉ s.disk.files → s.creates a = some f := by
  unfold System.step at hs
  unfold System.creates
  split at hs
  · cases hs
    refine ⟨fun f hf => ?_, fun f hf hnot => absurd hf hnot⟩
    split at hf <;> cases hf
  · obtain ⟨o, ho, rfl⟩ := Option.map_eq_some_iff.1 hs
    rw [‹s.phase = Phase.down›]
    exact ⟨fun _ => nofun, fun f hf hnot => absurd hf hnot⟩
  · obtain ⟨r, hr, rfl⟩ := Option.map_eq_some_iff.1 hs
    rw [‹s.phase = Phase.opening _›]
    refine ⟨fun _ => nofun, fun f hf hnot => absurd ?_ hnot⟩
    dsimp only at hf
    rwa [Opening.setCurrent_files hr] at hf
  · have ho := ‹s.phase = Phase.opening _›
    obtain ⟨⟨o', d'⟩, hr, rfl⟩ := Option.map_eq_some_iff.1 hs
    rw [ho]
    exact ⟨fun f hf => (h.opening ho).creates_fresh h.1 ho hr hf,
      fun f hf hnot => (Opening.created_files hr hf).resolve_left hnot⟩
  · have hp := ‹s.phase = Phase.up _›
    obtain ⟨⟨p', d'⟩, hr, rfl⟩ := Option.map_eq_some_iff.1 hs
    rw [hp]
    exact ⟨fun f hf => (h.process hp).creates_fresh hp hf, fun f hf hnot => (Process.created_files hr hf).resolve_left hnot⟩
  · cases hs

/-- In every run, with any number of crashes and recoveries, a step that creates a file gives it a name that is not in use,
and no other step adds a file to the directory. -/
theorem created_file_fresh (as : List Action) (s s' : System) (a : Action)
    (hr : run System.step System.init as = some s) (hs : s.step a = some s') : (∀ f, s.creates a = some f → ¬ s.InUse f) ∧
    ∀ f ∈ s'.disk.files, f ∉ s.disk.files → s.creates a = some f :=
  (System.ok_run hr).step_creates hs

def reopenRun : List Action :=
  [.recover, .openLog, .createManifest, .setCurrent, .removeFile true, .removed, .addRecord 7 false, .insert,
    .switchMemTable true false, .switchMemTable false false, .startFlush, .createTable, .crash 0 fun _ => 9,
    .recover, .recoverTable, .recoverLog, .recoverLog]

theorem created_file_fresh_sample : ∃ s, run System.step System.init reopenRun = some s ∧
    s.creates .openLog = some (.log 6) ∧ ¬ s.InUse (.log 6) := by
  obtain ⟨s, hs, hcreates, hstep⟩ : ∃ s, run System.step System.init reopenRun = some s ∧
      s.creates .openLog = some (.log 6) ∧ (s.step .openLog).isSome := exists_run (by decide +kernel)
  obtain ⟨s', hs'⟩ := isSome_iff_exists.1 hstep
  exact ⟨s, hs, hcreates, (created_file_fresh reopenRun s s' .openLog hs hs').1 _ hcreates⟩

end RallyDB.Db.FileNames
