import RallyDB.Db.Lemmas.State

/-!
# Installing the results of a compaction keeps the invariant
-/

namespace RallyDB.Db

/-! ## The steps of the database keep the invariant -/

section

open RallyDB.Lib List InternalKey Nat

variable {κ : Type*} [LinearOrder κ] {ops : List (BatchOp κ)} {db db' : DB κ}

section

variable (h : db.Ok ops)
include h

lemma DB.Ok.write {batch : List (BatchOp κ)} (hs : db.write batch = some db') : db'.Ok (ops ++ batch) := by
  simp only [DB.write, Lib.guard_eq_some] at hs
  obtain ⟨hbound, rfl⟩ := hs
  have hlast := h.lastSequence
  have hnew : ∀ e ∈ batchEntries (db.lastSequence + 1) batch, db.lastSequence < e.1.sequence := fun e he =>
    (batchEntries_sequence he).1
  have hstored : ({ db with
      mem := insertInto db.mem (db.lastSequence + 1) batch
      lastSequence := db.lastSequence + batch.length } : DB κ).stored =
      {e | e ∈ batchEntries (db.lastSequence + 1) batch} ∪ db.stored := by
    ext e
    simp only [DB.stored, mem_insertInto, Set.mem_union, Set.mem_ofPred_eq, or_assoc]
  have hwritten : written (ops ++ batch) = {e | e ∈ batchEntries (db.lastSequence + 1) batch} ∪ written ops := by
    rw [written_append, hlast]
  -- An entry of the memtable is an old one or newer than everything.
  have hmem : ∀ a ∈ insertInto db.mem (db.lastSequence + 1) batch, ∀ b ∈ db.stored,
      (a ∈ db.mem → b.1.sequence < a.1.sequence) → b.1.sequence < a.1.sequence := by
    intro a ha b hb hold
    rcases mem_insertInto.1 ha with ha | ha
    · exact (h.sequence_le hb).trans_lt (hnew a ha)
    · exact hold ha
  refine { h with
    mem := insertInto_sorted h.mem (fun e he => lt_succ_of_le (h.sequence_le (.inl he))) batch
    lastSequence := by simp [hlast]
    bound := hbound
    genuine := ?_
    memImm := fun m hm a ha b hb => hmem a ha b (.inr (.inl ⟨m, hm, hb⟩)) fun ha => h.memImm m hm a ha b hb
    memFiles := fun a ha b hb => hmem a ha b (.inr (.inr hb)) fun ha => h.memFiles a ha b hb
    snapshots := fun s hs => (h.snapshots s hs).trans (le_add_right _ _)
    retains := ?_
    running := ?_ }
  · rw [hstored, hwritten]
    exact Set.union_subset_union_right _ h.genuine
  · intro s hs
    rw [hstored, hwritten]
    rcases hs with rfl | hs
    · exact (h.retains _ (.inl rfl)).add_now (le_add_right _ _) h.genuine (fun e he => hlast ▸ written_sequence he) hnew
    · exact (h.retains s (.inr hs)).add_later fun e he => (h.snapshots s hs).trans_lt (hnew e he)
  · intro r hr
    have hrun := h.running r hr
    refine { hrun with snapshot := fun s hs => ?_ }
    rcases hs with rfl | hs
    · exact (hrun.snapshot _ (.inl rfl)).trans (le_add_right _ _)
    · exact hrun.snapshot s (.inr hs)

lemma DB.Ok.switchMemTable (hs : db.switchMemTable = some db') : db'.Ok ops := by
  unfold DB.switchMemTable at hs
  cases himm : db.imm with
  | some m => simp [himm] at hs
  | none =>
    simp only [himm, Option.some.injEq] at hs
    subst hs
    have hstored : ({ db with mem := [], imm := some db.mem, nextFileNumber := db.nextFileNumber + 1 } :
        DB κ).stored = db.stored := by
      ext e
      simp [DB.stored, himm]
    refine { h with
      numbers := fun l f hf => (h.numbers l f hf).trans (lt_succ_self _)
      mem := .nil
      imm := ?_
      genuine := hstored ▸ h.genuine
      memImm := by simp
      memFiles := by simp
      immFiles := ?_
      retains := fun s hs => hstored ▸ h.retains s hs
      running := ?_ }
    · rintro m ⟨⟩
      exact h.mem
    · rintro m ⟨⟩
      exact h.memFiles
    · intro r hr
      have hrun := h.running r hr
      exact { hrun with
        fresh := fun n hn => ⟨(hrun.fresh n hn).1.trans (lt_succ_self _), (hrun.fresh n hn).2⟩ }

lemma DB.Ok.getSnapshot : DB.Ok ops { db with snapshots := db.snapshots ++ [db.lastSequence] } := by
  have hread : ∀ s, ({ db with snapshots := db.snapshots ++ [db.lastSequence] } : DB κ).Readable s → db.Readable s := by
    intro s hs
    simpa [DB.Readable, or_comm] using hs
  refine { h with oldestFirst := ?_, snapshots := ?_, retains := fun s hs => h.retains s (hread s hs), running := ?_ }
  · refine pairwise_append.2 ⟨h.oldestFirst, pairwise_singleton _ _, fun s hs t ht => ?_⟩
    rw [mem_singleton.1 ht]
    exact h.snapshots s hs
  · intro s hs
    rcases mem_append.1 hs with hs | hs
    · exact h.snapshots s hs
    · exact (mem_singleton.1 hs).le
  · intro r hr
    have hrun := h.running r hr
    exact { hrun with snapshot := fun s hs => hrun.snapshot s (hread s hs) }

lemma DB.Ok.releaseSnapshot (n : Nat) : DB.Ok ops { db with snapshots := db.snapshots.erase n } := by
  have hread : ∀ s, ({ db with snapshots := db.snapshots.erase n } : DB κ).Readable s → db.Readable s := by
    rintro s (hs | hs)
    · exact .inl hs
    · exact .inr (mem_of_mem_erase hs)
  refine { h with
    oldestFirst := h.oldestFirst.sublist erase_sublist
    snapshots := fun s hs => h.snapshots s (mem_of_mem_erase hs)
    retains := fun s hs => h.retains s (hread s hs)
    running := fun r hr => ?_ }
  have hrun := h.running r hr
  exact { hrun with snapshot := fun s hs => hrun.snapshot s (hread s hs) }

lemma DB.Ok.openOutput (hs : db.openOutput = some db') : db'.Ok ops := by
  unfold DB.openOutput at hs
  cases hr : db.running with
  | none => simp [hr] at hs
  | some r =>
    simp only [hr, Option.some.injEq] at hs
    subst hs
    have hrun := h.running r hr
    refine { h with numbers := fun l f hf => (h.numbers l f hf).trans (lt_succ_self _), running := ?_ }
    rintro _ ⟨⟩
    refine { hrun with distinct := ?_, fresh := ?_ }
    · refine List.Nodup.append hrun.distinct (nodup_singleton _) fun n hn hnext => ?_
      have := (hrun.fresh n hn).1
      rw [mem_singleton.1 hnext] at this
      exact lt_irrefl _ this
    · intro n hn
      rcases mem_append.1 hn with hn | hn
      · exact ⟨(hrun.fresh n hn).1.trans (lt_succ_self _), (hrun.fresh n hn).2⟩
      · rw [mem_singleton.1 hn]
        exact ⟨lt_succ_self _, fun l f hf => (h.numbers l f hf).ne⟩

end

/-! ## Flushes -/

variable {o : Options κ} {f g : FileMetaData κ}

lemma buildTable_some {n : Nat} {l : List (Entry κ)} (h : buildTable o n l = some f) : f.entries = l ∧ f.number = n := by
  unfold buildTable at h
  split at h
  · obtain rfl := Option.some.inj h
    exact ⟨rfl, rfl⟩
  · cases h

lemma buildTable_isSome {l : List (Entry κ)} (n : Nat) (hl : SortedEntries l) (hne : l ≠ []) :
    ∃ f, buildTable o n l = some f := by
  have h : l ≠ [] ∧ l.Pairwise fun a b => a.1 < b.1 := ⟨hne, hl⟩
  rw [buildTable, dif_pos h]
  exact ⟨_, rfl⟩

lemma logAndApply_empty (v : Version κ) : v.logAndApply {} = v := by
  have hfiles : ∀ level, (v.logAndApply {}).files level = v.files level := by
    intro level
    simp [Version.logAndApply, Builder.apply, Builder.saveTo, Builder.init, saveLevel]
  cases v
  exact congrArg Version.mk (funext hfiles)

lemma beside_of_outsideGap {inputs : List (FileMetaData κ)}
    (hfree : ∀ g ∈ inputs, g.largest.userKey < f.smallest.userKey ∨ f.largest.userKey < g.smallest.userKey)
    (hgap : ¬ ((∃ a ∈ inputs, a.largest.userKey < f.smallest.userKey) ∧
    ∃ b ∈ inputs, f.largest.userKey < b.smallest.userKey)) : Beside f inputs := by
  by_cases hbefore : ∃ a ∈ inputs, a.largest.userKey < f.smallest.userKey
  · refine .inr fun g hg => ?_
    rcases hfree g hg with h | h
    · exact lt_of_user_lt h
    · exact absurd ⟨hbefore, g, hg, h⟩ hgap
  · refine .inl fun g hg => ?_
    rcases hfree g hg with h | h
    · exact absurd ⟨g, hg, h⟩ hbefore
    · exact lt_of_user_lt h

variable {r : RunningCompaction κ}

lemma RunningOk.input_mem (h : RunningOk db r)
    (hg : g ∈ r.compaction.inputs) : ∃ l ≤ r.compaction.level + 1, g ∈ db.current.files l := by
  rcases mem_append.1 hg with hg | hg
  · exact ⟨_, le_succ _, h.kept _ g (h.inputs.mem0 g hg)⟩
  · exact ⟨_, le_rfl, h.kept _ g (h.inputs.mem1 g hg)⟩

lemma RunningOk.flush (h : RunningOk db r) (imm : Option (MemTable κ)) {level : Nat} (hnumber : f.number = db.nextFileNumber)
    (hn : ∀ l, ∀ g ∈ db.current.files l, g.number < f.number)
    (hnew : ∀ l, ∀ g ∈ db.current.files l, FileNewer f g)
    (hbeside : level = r.compaction.level + 1 → Beside f r.compaction.inputs) :
    RunningOk { db with
    imm := imm
    current := db.current.logAndApply { newFiles := [(level, f)] }
    nextFileNumber := db.nextFileNumber + 1 } r := by
  obtain ⟨_, hmem⟩ := mem_flush level hn
  refine { h with kept := fun l g hg => ?_, added := fun l g hg hgn => ?_, fresh := fun n hn => ?_ }
  · exact (hmem l g).2 (.inl (h.kept l g hg))
  · rcases (hmem l g).1 hg with hg | ⟨rfl, rfl⟩
    · exact h.added l g hg hgn
    · refine ⟨fun x hx => ?_, hbeside⟩
      obtain ⟨l', _, hxl⟩ := h.input_mem hx
      exact hnew l' x hxl
  · obtain ⟨h1, h2⟩ := h.fresh n hn
    refine ⟨h1.trans (lt_succ_self _), fun l g hg => ?_⟩
    rcases (hmem l g).1 hg with hg | ⟨_, rfl⟩
    · exact h2 l g hg
    · exact hnumber ▸ h1.ne'

lemma DB.Ok.flushFile (h : db.Ok ops) (himm : db.imm = some f.entries)
    (hnumber : f.number = db.nextFileNumber) {level : Nat} (hlevel : level < kNumLevels)
    (hfree : level = 0 ∨ ∀ l ≤ level, RangeFree db.current l f.smallest.userKey f.largest.userKey)
    (hbeside : ∀ r, db.running = some r → level = r.compaction.level + 1 → Beside f r.compaction.inputs) :
    DB.Ok ops { db with
    imm := none
    current := db.current.logAndApply { newFiles := [(level, f)] }
    nextFileNumber := db.nextFileNumber + 1 } := by
  have hn : ∀ l, ∀ g ∈ db.current.files l, g.number < f.number := hnumber ▸ h.numbers
  have hnew : ∀ l, ∀ g ∈ db.current.files l, FileNewer f g := fun l g hg a ha b hb _ =>
    h.immFiles f.entries himm a ha b ⟨l, g, hg, hb⟩
  have hrunning := fun r hr => (h.running r hr).flush none hnumber hn hnew (hbeside r hr)
  obtain ⟨_, hmem⟩ := mem_flush level hn
  have hfiles := h.files.flush hn hlevel hfree hnew
  generalize db.current.logAndApply { newFiles := [(level, f)] } = v at hmem hfiles hrunning
  have hentries : ∀ e, e ∈ v.entries ↔ e ∈ f.entries ∨ e ∈ db.current.entries := by
    intro e
    constructor
    · rintro ⟨l, g, hg, he⟩
      rcases (hmem l g).1 hg with hg | ⟨_, rfl⟩
      · exact .inr ⟨l, g, hg, he⟩
      · exact .inl he
    · rintro (he | ⟨l, g, hg, he⟩)
      · exact ⟨level, f, (hmem level f).2 (.inr ⟨rfl, rfl⟩), he⟩
      · exact ⟨l, g, (hmem l g).2 (.inl hg), he⟩
  have hstored : ({ db with imm := none, current := v, nextFileNumber := db.nextFileNumber + 1 } : DB κ).stored =
      db.stored := by
    ext e
    simp [DB.stored, himm, hentries]
  refine { h with
    files := hfiles
    numbers := fun l g hg => ?_
    imm := by simp
    genuine := hstored ▸ h.genuine
    memImm := by simp
    memFiles := fun a ha b hb => ?_
    immFiles := by simp
    retains := fun s hs => hstored ▸ h.retains s hs
    running := hrunning }
  · rcases (hmem l g).1 hg with hg | ⟨_, rfl⟩
    · exact (h.numbers l g hg).trans (lt_succ_self _)
    · exact hnumber ▸ lt_succ_self _
  · rcases (hentries b).1 hb with hb | hb
    · exact h.memImm _ himm a ha b hb
    · exact h.memFiles a ha b hb

lemma DB.Ok.flushNothing (h : db.Ok ops) (himm : db.imm = some []) :
    DB.Ok ops { db with imm := none, nextFileNumber := db.nextFileNumber + 1 } := by
  have hstored : ({ db with imm := none, nextFileNumber := db.nextFileNumber + 1 } : DB κ).stored = db.stored := by
    ext e
    simp [DB.stored, himm]
  refine { h with
    numbers := fun l f hf => (h.numbers l f hf).trans (lt_succ_self _)
    imm := by simp
    genuine := hstored ▸ h.genuine
    memImm := by simp
    immFiles := by simp
    retains := fun s hs => hstored ▸ h.retains s hs
    running := fun r hr => ?_ }
  have hrun := h.running r hr
  exact { hrun with
    fresh := fun n hn => ⟨(hrun.fresh n hn).1.trans (lt_succ_self _), (hrun.fresh n hn).2⟩ }

lemma DB.Ok.compactMemTable (h : db.Ok ops) (hgap : db.NoFlushIntoGap o)
    (hs : db.compactMemTable o = some db') : db'.Ok ops := by
  unfold DB.compactMemTable at hs
  cases himm : db.imm with
  | none => simp [himm] at hs
  | some imm =>
    simp only [himm, Option.some.injEq] at hs
    subst hs
    cases hbuild : buildTable o db.nextFileNumber imm with
    | none =>
      obtain rfl : imm = [] := by
        by_contra hne
        obtain ⟨f, hf⟩ := buildTable_isSome (o := o) db.nextFileNumber (h.imm imm himm) hne
        rw [hbuild] at hf
        cases hf
      rw [DB.writeLevel0Table, hbuild, logAndApply_empty]
      exact h.flushNothing himm
    | some f =>
      obtain ⟨rfl, hnumber⟩ := buildTable_some hbuild
      obtain ⟨hlevel, hfree⟩ := pickLevel_rangeFree h.files.disjoint h.entries_bound o f.smallest.userKey f.largest.userKey
      rw [DB.writeLevel0Table, hbuild]
      refine h.flushFile himm hnumber hlevel hfree fun r hr hout => ?_
      have hf : f ∈ db.imm.bind (buildTable o db.nextFileNumber) := by simp [himm, hbuild]
      refine beside_of_outsideGap (fun x hx => ?_) (hgap r hr f hf hout)
      obtain ⟨l, hl, hxl⟩ := (h.running r hr).input_mem hx
      exact hfree.resolve_left (hout ▸ succ_ne_zero _) l (hout ▸ hl) x hxl

lemma fileNewer_of_noOlder (hi : SeqInj ({e | e ∈ f.entries} ∪ {e | e ∈ g.entries}))
    (h : f.largest < g.smallest ∨ g.largest.userKey < f.smallest.userKey) : FileNewer f g := by
  intro a ha b hb (hu : a.1.userKey = b.1.userKey)
  rcases h with h | h
  · have hlt : a.1 < b.1 :=
      (FileMetaData.le_largest ha).trans_lt (h.trans_le (FileMetaData.smallest_le hb))
    refine lt_of_le_of_ne (sequence_le_of_le hlt.le hu) fun he => ?_
    exact hlt.ne (by rw [hi a (.inl ha) b (.inr hb) he.symm])
  · have h1 := user_le_of_le (FileMetaData.smallest_le ha)
    have h2 := user_le_of_le (FileMetaData.le_largest hb)
    exact absurd (h2.trans_lt (h.trans_le h1)) (by rw [hu]; exact lt_irrefl _)

lemma Compaction.InputsOk.movable {c : Compaction κ} (h : c.InputsOk) (hlevel : c.level + 1 < kNumLevels)
    {v : Version κ} (hi : SeqInj v.entries) (hkept : ∀ l, ∀ f ∈ c.inputVersion.files l, f ∈ v.files l)
    (hadded : ∀ l, ∀ f ∈ v.files l, f ∉ c.inputVersion.files l →
    (∀ g ∈ c.inputs, FileNewer f g) ∧ (l = c.level + 1 → Beside f c.inputs)) : c.Movable v := by
  have hmem : ∀ g ∈ c.inputs, ∃ l, g ∈ v.files l := by
    intro g hg
    rcases mem_append.1 hg with hg | hg
    · exact ⟨_, hkept _ g (h.mem0 g hg)⟩
    · exact ⟨_, hkept _ g (h.mem1 g hg)⟩
  have hnewer : ∀ l, ∀ f ∈ v.files l, ∀ g ∈ c.inputs,
      f.largest < g.smallest ∨ g.largest.userKey < f.smallest.userKey → FileNewer f g := by
    intro l f hf g hg hno
    obtain ⟨l', hg'⟩ := hmem g hg
    have hsub : ∀ e, e ∈ ({e | e ∈ f.entries} ∪ {e | e ∈ g.entries} : Set (Entry κ)) → e ∈ v.entries := by
      rintro e (he | he)
      · exact ⟨l, f, hf, he⟩
      · exact ⟨l', g, hg', he⟩
    exact fileNewer_of_noOlder (fun a ha b hb => hi a (hsub a ha) b (hsub b hb)) hno
  refine ⟨hlevel, fun f hf => hkept _ f (h.mem0 f hf), fun f hf => hkept _ f (h.mem1 f hf),
    fun f hf hfn g hg => ?_, fun f hf hfn g hg => ?_, fun f hf hfn => ?_⟩
  · by_cases hin : f ∈ c.inputVersion.files c.level
    · exact hnewer _ f hf g (mem_append_left _ hg) (h.noOlder0 f hin hfn g hg)
    · exact (hadded _ f hf hin).1 g (mem_append_left _ hg)
  · by_cases hin : f ∈ c.inputVersion.files (c.level + 1)
    · exact hnewer _ f hf g hg (h.noOlder1 f hin hfn g hg)
    · exact (hadded _ f hf hin).1 g hg
  · by_cases hin : f ∈ c.inputVersion.files (c.level + 1)
    · exact h.beside f hin hfn
    · exact (hadded _ f hf hin).2 rfl

lemma FilesOk.nodup {v : Version κ} (h : FilesOk v) (level : Nat) : (v.files level).Nodup :=
  (h.sorted level).imp fun {f g} hlt (he : f = g) => FileLt.irrefl f (he ▸ hlt)

lemma DB.Ok.smallestSnapshot_le (h : db.Ok ops) {s : Nat} (hs : db.Readable s) : db.smallestSnapshot ≤ s := by
  unfold DB.smallestSnapshot
  cases hsn : db.snapshots with
  | nil =>
    rcases hs with rfl | hs
    · exact le_rfl
    · rw [hsn] at hs
      cases hs
  | cons a rest =>
    have hord := hsn ▸ h.oldestFirst
    rcases hs with rfl | hs
    · exact h.snapshots a (by simp [hsn])
    · rw [hsn] at hs
      rcases mem_cons.1 hs with rfl | hs
      · exact le_rfl
      · exact rel_of_pairwise_cons hord hs

lemma DB.Ok.setCompactPointer (h : db.Ok ops) (pointers : Nat → Option (InternalKey κ)) :
    DB.Ok ops { db with compactPointer := pointers } :=
  { h with running := fun r hr => { h.running r hr with } }

lemma DB.Ok.startRunning (h : db.Ok ops) {c : Compaction κ} (hc : c.InputsOk)
    (hlevel : c.level + 1 < kNumLevels) (hv : c.inputVersion = db.current) : (db.startRunning c).Ok ops := by
  refine { h with running := ?_ }
  rintro r ⟨⟩
  exact {
    inputs := hc
    level := hlevel
    files := hv ▸ h.files
    kept := fun l f hf => hv ▸ hf
    added := fun l f hf hfn => absurd (hv ▸ hf) hfn
    snapshot := fun s hs => h.smallestSnapshot_le hs
    distinct := nodup_nil
    fresh := by simp }

end

open RallyDB.Lib List FileMetaData InternalKey Compaction

variable {κ : Type*} [LinearOrder κ] {ops : List (BatchOp κ)} {db db' : DB κ}

variable {v w : Version κ}

lemma DB.Ok.replaceFiles (h : db.Ok ops) (hf : FilesOk v)
    (hn : ∀ l, ∀ f ∈ v.files l, f.number < db.nextFileNumber) (hsub : v.entries ⊆ db.current.entries)
    (hretains : ∀ s, db.Readable s → Retains entryUser entrySeq IsDeletion s (written ops)
    ({ db with current := v, running := none } : DB κ).stored) :
    DB.Ok ops { db with current := v, running := none } where
  files := hf
  numbers := hn
  mem := h.mem
  imm := h.imm
  lastSequence := h.lastSequence
  bound := h.bound
  genuine := by
    rintro e (he | he | he)
    · exact h.genuine (.inl he)
    · exact h.genuine (.inr (.inl he))
    · exact h.genuine (.inr (.inr (hsub he)))
  memImm := h.memImm
  memFiles := fun a ha b hb => h.memFiles a ha b (hsub hb)
  immFiles := fun m hm a ha b hb => h.immFiles m hm a ha b (hsub hb)
  oldestFirst := h.oldestFirst
  snapshots := h.snapshots
  retains := hretains
  running := by simp

variable {c : Compaction κ} {g f : FileMetaData κ}

lemma Compaction.Movable.input_mem (h : c.Movable v) (hg : g ∈ c.inputs) : ∃ l, g ∈ v.files l := by
  rcases mem_append.1 hg with hg | hg
  · exact ⟨_, h.mem0 g hg⟩
  · exact ⟨_, h.mem1 g hg⟩

variable {outs : List (FileMetaData κ)}

lemma Replaces.entries_subset
    (hr : Replaces v c outs w) (hc : c.Movable v) (ho : OutputsOk v c outs) : w.entries ⊆ v.entries := by
  rintro e ⟨l, f, hf, he⟩
  rcases (hr.mem l f).1 hf with ⟨hf, _⟩ | ⟨_, hfo⟩
  · exact ⟨l, f, hf, he⟩
  · obtain ⟨g, hg, heg⟩ := ho.entries f hfo e he
    obtain ⟨l', hg'⟩ := hc.input_mem hg
    exact ⟨l', g, hg', heg⟩

lemma Replaces.numbers_lt (hr : Replaces v c outs w) {n : Nat} (hv : ∀ l, ∀ f ∈ v.files l, f.number < n)
    (ho : ∀ f ∈ outs, f.number < n) : ∀ l, ∀ f ∈ w.files l, f.number < n := by
  intro l f hf
  rcases (hr.mem l f).1 hf with ⟨hf, _⟩ | ⟨_, hfo⟩
  · exact hv l f hf
  · exact ho f hfo

lemma outputsOk_move (h : FilesOk v) (hc : c.Movable v) (hone : c.inputs0.length = 1) : OutputsOk v c c.inputs0 := by
  obtain ⟨f, hf⟩ := length_eq_one_iff.1 hone
  refine ⟨?_, fun g hg e he => ⟨g, mem_append_left _ hg, he⟩, ?_, fun x hx l g hg hn he => ?_⟩
  · rw [hf]
    exact pairwise_singleton _ _
  · rw [hf]
    exact pairwise_singleton _ _
  · obtain ⟨rfl, rfl⟩ := h.numbers l c.level g hg x (hc.mem0 x hx) he
    exact hn ⟨rfl, hx⟩

lemma DB.Ok.move (h : db.Ok ops) (hrun : db.running = none) (hc : c.Movable db.current)
    (hone : c.inputs0.length = 1) (hnone : c.inputs1 = []) :
    DB.Ok ops { db with current := db.current.logAndApply c.moveEdit } := by
  have ho := outputsOk_move h.files hc hone
  have hr : Replaces db.current c c.inputs0 (db.current.logAndApply c.moveEdit) := by
    refine h.files.replaces_edit hc ho.distinct (fun f hf x hx he => ?_) (fun l n => ?_) rfl
    · have := (h.files.numbers _ _ f hf x (hc.mem0 x hx) he).1
      omega
    · simp only [moveEdit, mem_map, Prod.mk.injEq, hnone, not_mem_nil, false_and,
        exists_false, and_false, or_false]
      constructor
      · rintro ⟨f, hf, rfl, rfl⟩
        exact ⟨rfl, f, hf, rfl⟩
      · rintro ⟨rfl, f, hf, rfl⟩
        exact ⟨f, hf, rfl, rfl⟩
  have hfiles := h.files.replace hc ho hr
  have hsub := hr.entries_subset hc ho
  have hnum := hr.numbers_lt h.numbers fun f hf => h.numbers _ f (hc.mem0 f hf)
  -- No entry is lost: the file is at the next level now.
  have hsup : db.current.entries ⊆ (db.current.logAndApply c.moveEdit).entries := by
    rintro e ⟨l, f, hf, he⟩
    by_cases hin : l = c.level ∧ f ∈ c.inputs0
    · exact ⟨_, f, (hr.mem _ f).2 (.inr ⟨rfl, hin.2⟩), he⟩
    · exact ⟨l, f, (hr.mem l f).2 (.inl ⟨hf, hin, by simp [hnone]⟩), he⟩
  generalize db.current.logAndApply c.moveEdit = v at hfiles hsub hnum hsup
  have heq : ({ db with current := v } : DB κ) = { db with current := v, running := none } := by rw [hrun]
  rw [heq]
  refine h.replaceFiles hfiles hnum hsub fun s hs => ?_
  have hstored : ({ db with current := v, running := none } : DB κ).stored = db.stored := by
    ext e
    simp only [DB.stored, Set.Subset.antisymm hsub hsup, Set.mem_ofPred_eq]
  rw [hstored]
  exact h.retains s hs

variable {a b : Entry κ}

lemma FilesOk.keys_ne (h : FilesOk v) {i j : Nat} (hf : f ∈ v.files i)
    (hg : g ∈ v.files j) (hne : ¬ (i = j ∧ f = g)) (ha : a ∈ f.entries) (hb : b ∈ g.entries) : a.1 ≠ b.1 := by
  intro he
  have hu : entryUser a = entryUser b := congrArg userKey he
  have hs : entrySeq a = entrySeq b := congrArg sequence he
  rcases Nat.lt_trichotomy i j with hij | rfl | hji
  · exact (h.newer i j hij f hf g hg a ha b hb hu).ne' hs
  · have hfg : f ≠ g := fun hfg => hne ⟨rfl, hfg⟩
    rcases Nat.eq_zero_or_pos i with rfl | hpos
    · have hnum : f.number ≠ g.number := fun hn => hfg (h.numbers 0 0 f hf g hg hn).2
      rcases Nat.lt_or_gt_of_ne hnum with hlt | hgt
      · exact (h.newer0 g hg f hf hlt b hb a ha hu.symm).ne hs
      · exact (h.newer0 f hf g hg hgt a ha b hb hu).ne' hs
    · rcases (h.disjoint i hpos).apart hf hg hfg with hlt | hgt
      · exact ((le_largest ha).trans_lt (hlt.trans_le (smallest_le hb))).ne he
      · exact ((le_largest hb).trans_lt (hgt.trans_le (smallest_le ha))).ne' he
  · exact (h.newer j i hji g hg f hf b hb a ha hu.symm).ne hs

lemma mem_makeInputIterator {e : Entry κ} : e ∈ c.makeInputIterator ↔ ∃ g ∈ c.inputs, e ∈ g.entries := by
  simp [makeInputIterator]

lemma FilesOk.makeInputIterator_sorted (h : FilesOk v) (hc : c.Movable v)
    (hn0 : c.inputs0.Nodup) (hn1 : c.inputs1.Nodup) : SortedEntries c.makeInputIterator := by
  have hfiles : c.inputs.Pairwise fun f g => ∀ a ∈ f.entries, ∀ b ∈ g.entries, a.1 ≠ b.1 := by
    refine pairwise_append.2 ⟨?_, ?_, fun f hf g hg a ha b hb => ?_⟩
    · refine List.Pairwise.imp_of_mem (fun {f g} hf hg hne a ha b hb => ?_) hn0
      exact h.keys_ne (hc.mem0 f hf) (hc.mem0 g hg) (fun he => hne he.2) ha hb
    · refine List.Pairwise.imp_of_mem (fun {f g} hf hg hne a ha b hb => ?_) hn1
      exact h.keys_ne (hc.mem1 f hf) (hc.mem1 g hg) (fun he => hne he.2) ha hb
    · exact h.keys_ne (hc.mem0 f hf) (hc.mem1 g hg) (fun he => Nat.succ_ne_self _ he.1.symm) ha hb
  refine sorted_of_perm_ne (pairwise_insertionSort _ _) ?_
  refine (List.Perm.pairwise_iff (fun {a b} => Ne.symm) (perm_insertionSort _ _)).2 ?_
  exact pairwise_flatMap.2 ⟨fun f _ => f.sorted.imp ne_of_lt, hfiles⟩

def outputFiles (o : Options κ) (numbers : List Nat) (outputs : List (List (Entry κ))) : List (FileMetaData κ) :=
  (numbers.zip outputs).filterMap fun p => buildTable o p.1 p.2

variable {o : Options κ} {numbers : List Nat} {outputs : List (List (Entry κ))}

lemma mem_outputFiles (h : f ∈ outputFiles o numbers outputs) : f.number ∈ numbers ∧ f.entries ∈ outputs := by
  obtain ⟨⟨n, l⟩, hp, hb⟩ := mem_filterMap.1 h
  obtain ⟨rfl, rfl⟩ := buildTable_some hb
  exact ⟨(of_mem_zip hp).1, (of_mem_zip hp).2⟩

lemma exists_outputFile (hlen : outputs.length = numbers.length) (hs : ∀ l ∈ outputs, SortedEntries l ∧ l ≠ [])
    {l : List (Entry κ)} (hl : l ∈ outputs) : ∃ f ∈ outputFiles o numbers outputs, f.entries = l := by
  have hsnd : l ∈ (numbers.zip outputs).map Prod.snd := by
    rwa [map_snd_zip (le_of_eq hlen)]
  obtain ⟨⟨n, _⟩, hp, rfl⟩ := mem_map.1 hsnd
  obtain ⟨f, hf⟩ := buildTable_isSome (o := o) n (hs _ hl).1 (hs _ hl).2
  exact ⟨f, mem_filterMap.2 ⟨_, hp, hf⟩, (buildTable_some hf).1⟩

lemma outputFiles_distinct (hn : numbers.Nodup) (hlen : outputs.length = numbers.length) :
    (outputFiles o numbers outputs).Pairwise fun f g => f.number ≠ g.number := by
  have hfst : ((numbers.zip outputs).map Prod.fst).Pairwise (· ≠ ·) := by
    rwa [map_fst_zip (le_of_eq hlen.symm)]
  refine pairwise_filterMap.2 ((pairwise_map.1 hfst).imp fun {p q} hne f hf g hg => ?_)
  rw [(buildTable_some hf).2, (buildTable_some hg).2]
  exact hne

lemma outputFiles_disjoint (hlen : outputs.length = numbers.length) (hs : SortedEntries outputs.flatten) :
    DisjointSorted (outputFiles o numbers outputs) := by
  have hpair := (pairwise_flatten.1 hs).2
  have hsnd : ((numbers.zip outputs).map Prod.snd).Pairwise fun l m => ∀ a ∈ l, ∀ b ∈ m, a.1 < b.1 := by
    rwa [map_snd_zip (le_of_eq hlen)]
  refine pairwise_filterMap.2 ((pairwise_map.1 hsnd).imp fun {p q} hlt f hf g hg => ?_)
  obtain ⟨a, ha, hal⟩ := f.largest_mem
  obtain ⟨b, hb, hbs⟩ := g.smallest_mem
  rw [← hal, ← hbs]
  exact hlt a ((buildTable_some hf).1 ▸ ha) b ((buildTable_some hg).1 ▸ hb)

/-! ## Installing -/

variable {r : RunningCompaction κ}

lemma RunningOk.movable (h : db.Ok ops) (hrun : RunningOk db r) : r.compaction.Movable db.current :=
  hrun.inputs.movable hrun.level h.entries_seqInj hrun.kept hrun.added

lemma mem_deeperLevels {l : Nat} : l ∈ c.deeperLevels ↔ l < kNumLevels ∧ c.level + 2 ≤ l := by
  simp [deeperLevels]

variable (h : db.Ok ops)
include h

section

variable (hrun : RunningOk db r)
include hrun

lemma RunningOk.work (o : Options κ) :
    (r.compaction.doCompactionWork o r.smallestSnapshot).flatten.Sublist r.compaction.makeInputIterator ∧
    (∀ l ∈ r.compaction.doCompactionWork o r.smallestSnapshot, l ≠ []) ∧ ∀ e ∈ r.compaction.makeInputIterator,
    e ∈ (r.compaction.doCompactionWork o r.smallestSnapshot).flatten ↔
    ¬ r.compaction.Dropped r.compaction.makeInputIterator r.smallestSnapshot e := by
  refine doCompactionWork_spec _ o ((hrun.snapshot _ (.inl rfl)).trans_lt h.bound) (fun l hl => ?_) ?_
  · exact hrun.files.disjoint l (by have := (mem_deeperLevels.1 hl).2; omega)
  · exact h.files.makeInputIterator_sorted (hrun.movable h) hrun.inputs.nodup0 hrun.inputs.nodup1

lemma RunningOk.sortedInputs : SortedEntries r.compaction.makeInputIterator :=
  h.files.makeInputIterator_sorted (hrun.movable h) hrun.inputs.nodup0 hrun.inputs.nodup1

lemma RunningOk.outputsOk (o : Options κ)
    (hlen : (r.compaction.doCompactionWork o r.smallestSnapshot).length = r.outputNumbers.length) :
    OutputsOk db.current r.compaction
    (outputFiles o r.outputNumbers (r.compaction.doCompactionWork o r.smallestSnapshot)) := by
  obtain ⟨hsub, _, _⟩ := hrun.work h o
  refine ⟨outputFiles_disjoint hlen ((hrun.sortedInputs h).sublist hsub), fun f hf e he => ?_,
    outputFiles_distinct hrun.distinct hlen, fun x hx l f hf _ => ?_⟩
  · have hm := hsub.mem (mem_flatten.2 ⟨_, (mem_outputFiles hf).2, he⟩)
    exact mem_makeInputIterator.1 hm
  · exact (hrun.fresh x.number (mem_outputFiles hx).1).2 l f hf

lemma RunningOk.newer_of_baseFor (hf : f ∈ r.compaction.inputs) (ha : a ∈ f.entries)
    (hbase : r.compaction.BaseFor a.1.userKey) {l : Nat} (hg : g ∈ db.current.files l)
    (h0 : ¬ (l = r.compaction.level ∧ g ∈ r.compaction.inputs0))
    (h1 : ¬ (l = r.compaction.level + 1 ∧ g ∈ r.compaction.inputs1)) (hb : b ∈ g.entries)
    (hu : b.1.userKey = a.1.userKey) : a.1.sequence < b.1.sequence := by
  have hmov := hrun.movable h
  rcases Nat.lt_or_ge l (r.compaction.level + 2) with hl | hl
  · -- The levels up to the output level are searched before the inputs, or hold newer entries beside them.
    rcases Nat.lt_or_eq_of_le (Nat.lt_succ_iff.1 hl) with hlt | rfl
    · rcases mem_append.1 hf with hf0 | hf1
      · rcases Nat.lt_or_eq_of_le (Nat.lt_succ_iff.1 hlt) with hlt' | rfl
        · exact h.files.newer l _ hlt' g hg f (hmov.mem0 f hf0) b hb a ha hu
        · exact hmov.newer0 g hg (fun hin => h0 ⟨rfl, hin⟩) f hf0 b hb a ha hu
      · exact h.files.newer l _ hlt g hg f (hmov.mem1 f hf1) b hb a ha hu
    · exact hmov.newer1 g hg (fun hin => h1 ⟨rfl, hin⟩) f hf b hb a ha hu
  · by_cases hold : g ∈ r.compaction.inputVersion.files l
    · -- The compaction has looked for the user key in this file.
      have hlt : l < kNumLevels := by
        by_contra hge
        rw [h.files.levels l (not_lt.1 hge)] at hg
        cases hg
      have hin : InRange (r.compaction.inputVersion.files l) a.1.userKey :=
        ⟨g, hold, hu ▸ user_le_of_le (smallest_le hb), hu ▸ user_le_of_le (le_largest hb)⟩
      exact absurd hin (hbase l (mem_deeperLevels.2 ⟨hlt, hl⟩))
    · exact (hrun.added l g hg hold).1 f hf b hb a ha hu

end

lemma RunningOk.dropped (hrun : RunningOk db r) (o : Options κ) (hr : Replaces db.current r.compaction
    (outputFiles o r.outputNumbers (r.compaction.doCompactionWork o r.smallestSnapshot)) v)
    (ha : a ∈ r.compaction.makeInputIterator)
    (hd : r.compaction.Dropped r.compaction.makeInputIterator r.smallestSnapshot a) :
    (∃ p ∈ written ops, entryUser p = entryUser a ∧ entrySeq a < entrySeq p ∧ entrySeq p ≤ r.smallestSnapshot) ∨
    IsDeletion a ∧ ∀ b ∈ ({ db with current := v, running := none } : DB κ).stored,
    entryUser b = entryUser a → entrySeq a < entrySeq b := by
  have hinput : ∀ e ∈ r.compaction.makeInputIterator, e ∈ db.current.entries := by
    intro e he
    obtain ⟨g, hg, heg⟩ := mem_makeInputIterator.1 he
    obtain ⟨l, hl⟩ := (hrun.movable h).input_mem hg
    exact ⟨l, g, hl, heg⟩
  have hlt : ∀ p ∈ r.compaction.makeInputIterator, ∀ e ∈ r.compaction.makeInputIterator, p.1 < e.1 →
      p.1.userKey = e.1.userKey → e.1.sequence < p.1.sequence := by
    intro p hp e he hpe hu
    refine lt_of_le_of_ne (sequence_le_of_le hpe.le hu) fun heq => ?_
    exact hpe.ne (by rw [h.entries_seqInj p (hinput p hp) e (hinput e he) heq.symm])
  rcases hd with ⟨p, hp, hpa, hu, hq⟩ | ⟨htype, hq, hbase⟩
  · exact .inl ⟨p, h.genuine (.inr (.inr (hinput p hp))), hu, hlt p hp a ha hpa hu, hq⟩
  · refine .inr ⟨htype, ?_⟩
    rintro b (hb | ⟨m, hm, hb⟩ | ⟨l, g, hg, hb⟩) hu
    · exact h.memFiles b hb a (hinput a ha)
    · exact h.immFiles m hm b hb a (hinput a ha)
    · rcases (hr.mem l g).1 hg with ⟨hg, h0, h1⟩ | ⟨_, hg⟩
      · obtain ⟨f, hf, haf⟩ := mem_makeInputIterator.1 ha
        exact hrun.newer_of_baseFor h hf haf hbase hg h0 h1 hb hu
      · -- An output entry of the key comes before the deletion, since the later ones are dropped with it.
        obtain ⟨hsub, _, hkept⟩ := hrun.work h o
        have hbf : b ∈ (r.compaction.doCompactionWork o r.smallestSnapshot).flatten :=
          mem_flatten.2 ⟨_, (mem_outputFiles hg).2, hb⟩
        have hbm := hsub.mem hbf
        have hbn := (hkept b hbm).1 hbf
        rcases lt_trichotomy b.1 a.1 with hba | hba | hab
        · exact hlt b hbm a ha hba hu
        · have : b = a := h.entries_seqInj b (hinput b hbm) a (hinput a ha) (by rw [hba])
          exact absurd (this ▸ .inr ⟨htype, hq, hbase⟩) hbn
        · exact absurd (.inl ⟨a, ha, hab, hu.symm, hq⟩) hbn

lemma DB.Ok.installCompaction (hs : db.installCompaction o = some db') : db'.Ok ops := by
  unfold DB.installCompaction at hs
  cases hr : db.running with
  | none => simp [hr] at hs
  | some r =>
    simp only [hr, Lib.guard_eq_some] at hs
    obtain ⟨hlen, rfl⟩ := hs
    have hrun := h.running r hr
    have hmov := hrun.movable h
    obtain ⟨hsub, hne, hkept⟩ := hrun.work h o
    have ho := hrun.outputsOk h o hlen
    have hrep : Replaces db.current r.compaction
        (outputFiles o r.outputNumbers (r.compaction.doCompactionWork o r.smallestSnapshot))
        (db.current.logAndApply (r.compaction.installEdit
          (outputFiles o r.outputNumbers (r.compaction.doCompactionWork o r.smallestSnapshot)))) := by
      refine h.files.replaces_edit hmov ho.distinct (fun f hf x hx => ?_) (fun l n => ?_) rfl
      · exact (hrun.fresh x.number (mem_outputFiles hx).1).2 _ f hf
      · simp only [installEdit, inputDeletions, mem_append, mem_map, Prod.mk.injEq]
        constructor
        · rintro (⟨f, hf, rfl, rfl⟩ | ⟨f, hf, rfl, rfl⟩)
          · exact .inl ⟨rfl, f, hf, rfl⟩
          · exact .inr ⟨rfl, f, hf, rfl⟩
        · rintro (⟨rfl, f, hf, rfl⟩ | ⟨rfl, f, hf, rfl⟩)
          · exact .inl ⟨f, hf, rfl, rfl⟩
          · exact .inr ⟨f, hf, rfl, rfl⟩
    have hentries := hrep.entries_subset hmov ho
    refine h.replaceFiles (h.files.replace hmov ho hrep)
      (hrep.numbers_lt h.numbers fun f hf => (hrun.fresh _ (mem_outputFiles hf).1).1) hentries fun s hs => ?_
    refine (h.retains s hs).forget (hrun.snapshot s hs) h.genuine ?_ fun a ha => ?_
    · rintro e (he | he | he)
      · exact .inl he
      · exact .inr (.inl he)
      · exact .inr (.inr (hentries he))
    rcases ha with ha | ha | ⟨l, f, hf, haf⟩
    · exact .inl (.inl ha)
    · exact .inl (.inr (.inl ha))
    · by_cases hin : (l = r.compaction.level ∧ f ∈ r.compaction.inputs0) ∨
        (l = r.compaction.level + 1 ∧ f ∈ r.compaction.inputs1)
      · have hfin : f ∈ r.compaction.inputs := by
          rcases hin with hin | hin
          · exact mem_append_left _ hin.2
          · exact mem_append_right _ hin.2
        have ham := mem_makeInputIterator.2 ⟨f, hfin, haf⟩
        by_cases hd : r.compaction.Dropped r.compaction.makeInputIterator r.smallestSnapshot a
        · exact .inr (hrun.dropped h o hrep ham hd)
        · obtain ⟨out, hout, haout⟩ := mem_flatten.1 ((hkept a ham).2 hd)
          have hsorted := (hrun.sortedInputs h).sublist hsub
          obtain ⟨g, hg, rfl⟩ := exists_outputFile (o := o) hlen
            (fun m hm => ⟨(pairwise_flatten.1 hsorted).1 m hm, hne m hm⟩) hout
          exact .inl (.inr (.inr ⟨_, g, (hrep.mem _ g).2 (.inr ⟨rfl, hg⟩), haout⟩))
      · rw [not_or] at hin
        exact .inl (.inr (.inr ⟨l, f, (hrep.mem l f).2 (.inl ⟨hf, hin⟩), haf⟩))

end RallyDB.Db
