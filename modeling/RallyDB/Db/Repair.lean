import RallyDB.Db.Lemmas.Contents
import RallyDB.Db.Theorems

/-!
# RepairDB (`db/repair.cc`)
-/

namespace RallyDB.Db

open RallyDB.Lib List

variable {κ : Type*} [LinearOrder κ]

def findFiles (tables : List (FileMetaData κ)) (logs : List (Nat × MemTable κ)) : Nat :=
  (tables.map (·.number) ++ logs.map (·.1)).foldl (fun next number => max next (number + 1)) 1

def convertLogFilesToTables (o : Options κ) (next : Nat) : List (Nat × MemTable κ) → List (FileMetaData κ)
  | [] => []
  | log :: logs => (buildTable o next log.2).toList ++ convertLogFilesToTables o (next + 1) logs

def repairedTables (o : Options κ) (tables : List (FileMetaData κ)) (logs : List (Nat × MemTable κ)) :
    List (FileMetaData κ) :=
  tables ++ convertLogFilesToTables o (findFiles tables logs) logs

def maxSequence (tables : List (FileMetaData κ)) : Nat :=
  (tables.flatMap (·.entries)).foldl (fun s e => max s e.1.sequence) 0

/-- The database that is opened after `RepairDB`: every table is at level 0, the logs have been moved away, and opening
takes two numbers, for the manifest and the log. -/
def repairDB (o : Options κ) (tables : List (FileMetaData κ)) (logs : List (Nat × MemTable κ)) : DB κ :=
  { DB.init with
    current := Version.logAndApply ⟨fun _ => []⟩ { newFiles := (repairedTables o tables logs).map fun f => (0, f) }
    lastSequence := maxSequence (repairedTables o tables logs)
    nextFileNumber := findFiles tables logs + logs.length + 2 }

/-- The directory holds the tables of the current version and the logs of the memtables, and nothing else that repair reads. -/
structure Closed (db : DB κ) (tables : List (FileMetaData κ)) (logs : List (Nat × MemTable κ)) : Prop where
  live : ∀ f, f ∈ tables ↔ ∃ level, f ∈ db.current.files level
  names : (tables.map (·.number)).Nodup
  memtables : (logs.map (·.2)).Perm (db.imm.toList ++ [db.mem])

structure OldestFirst (tables : List (FileMetaData κ)) (logs : List (Nat × MemTable κ)) : Prop where
  numbers : ∀ f ∈ tables, ∀ g ∈ tables, g.number < f.number → FileNewer f g
  listing : logs.Pairwise fun a b => Newer entryUser entrySeq b.2 a.2

/-! ## Numbers -/

variable {o : Options κ} {tables : List (FileMetaData κ)} {logs : List (Nat × MemTable κ)} {db : DB κ}

lemma lt_foldl_max (ns : List Nat) (next : Nat) : next ≤ ns.foldl (fun next number => max next (number + 1)) next ∧
    ∀ n ∈ ns, n < ns.foldl (fun next number => max next (number + 1)) next := by
  induction ns generalizing next with
  | nil => exact ⟨le_rfl, fun n hn => absurd hn not_mem_nil⟩
  | cons m ns ih =>
    obtain ⟨hle, hlt⟩ := ih (max next (m + 1))
    refine ⟨(le_max_left _ _).trans hle, fun n hn => ?_⟩
    rcases mem_cons.1 hn with rfl | hn
    · exact (lt_add_one _).trans_le ((le_max_right _ _).trans hle)
    · exact hlt n hn

variable {f : FileMetaData κ}

lemma number_lt_findFiles (hf : f ∈ tables) : f.number < findFiles tables logs :=
  (lt_foldl_max _ 1).2 _ (mem_append_left _ (mem_map_of_mem hf))

variable {next : Nat}

lemma convertLogs_number (hf : f ∈ convertLogFilesToTables o next logs) :
    next ≤ f.number ∧ ∃ log ∈ logs, f.entries = log.2 := by
  induction logs generalizing next with
  | nil => cases hf
  | cons log logs ih =>
    rcases mem_append.1 hf with hf | hf
    · obtain ⟨hentries, hnumber⟩ := buildTable_some (Option.mem_toList.1 hf)
      exact ⟨hnumber.ge, log, mem_cons_self, hentries⟩
    · obtain ⟨hle, log', hlog, he⟩ := ih hf
      exact ⟨(Nat.le_succ _).trans hle, log', mem_cons_of_mem _ hlog, he⟩

lemma convertLogs_newer (hl : logs.Pairwise fun a b => Newer entryUser entrySeq b.2 a.2) :
    (convertLogFilesToTables o next logs).Pairwise fun f g => f.number < g.number ∧ FileNewer g f := by
  induction logs generalizing next with
  | nil => exact List.Pairwise.nil
  | cons log logs ih =>
    obtain ⟨hhead, htail⟩ := pairwise_cons.1 hl
    refine pairwise_append.2 ⟨?_, ih htail, fun f hf g hg => ?_⟩
    · cases buildTable o next log.2 with
      | none => exact List.Pairwise.nil
      | some f => exact pairwise_singleton _ _
    · obtain ⟨hentries, hnumber⟩ := buildTable_some (Option.mem_toList.1 hf)
      obtain ⟨hle, log', hlog, he⟩ := convertLogs_number hg
      refine ⟨hnumber.trans_lt (Nat.lt_of_succ_le hle), ?_⟩
      unfold FileNewer
      rw [he, hentries]
      exact hhead log' hlog

lemma Closed.mem_log {m : MemTable κ} (h : Closed db tables logs) :
    (∃ log ∈ logs, log.2 = m) ↔ db.imm = some m ∨ m = db.mem := by
  have hmem := h.memtables.mem_iff (a := m)
  simpa [eq_comm] using hmem

lemma repairedTables_names (h : Closed db tables logs) (ho : OldestFirst tables logs) :
    ((repairedTables o tables logs).map (·.number)).Nodup := by
  rw [repairedTables, map_append]
  refine nodup_append.2 ⟨h.names, ?_, fun n hn m hm => ?_⟩
  · exact pairwise_map.2 ((convertLogs_newer ho.listing).imp fun hlt => hlt.1.ne)
  · obtain ⟨f, hf, rfl⟩ := mem_map.1 hn
    obtain ⟨g, hg, rfl⟩ := mem_map.1 hm
    exact ((number_lt_findFiles hf).trans_le (convertLogs_number hg).1).ne

variable {ops : List (BatchOp κ)}

lemma repairedTables_newer (hdb : db.Ok ops) (h : Closed db tables logs) (ho : OldestFirst tables logs) :
    ∀ f ∈ repairedTables o tables logs, ∀ g ∈ repairedTables o tables logs, g.number < f.number → FileNewer f g := by
  intro f hf g hg hlt
  rcases mem_append.1 hf with hf | hf
  · rcases mem_append.1 hg with hg | hg
    · exact ho.numbers f hf g hg hlt
    · exact absurd ((number_lt_findFiles hf).trans_le (convertLogs_number hg).1) hlt.not_gt
  · rcases mem_append.1 hg with hg | hg
    · obtain ⟨-, log, hlog, he⟩ := convertLogs_number hf
      obtain ⟨level, hg⟩ := (h.live g).1 hg
      intro a ha b hb _
      rw [he] at ha
      rcases h.mem_log.1 ⟨log, hlog, rfl⟩ with himm | hmem
      · exact hdb.immFiles _ himm a ha b ⟨level, g, hg, hb⟩
      · exact hdb.memFiles a (hmem ▸ ha) b ⟨level, g, hg, hb⟩
    · have hne : g ≠ f := fun he => hlt.ne (congrArg _ he)
      rcases rel_or_rel_of_pairwise (convertLogs_newer ho.listing) hg hf hne with hrel | hrel
      · exact hrel.2
      · exact absurd hrel.1 hlt.not_gt

variable {e : Entry κ}

lemma mem_convertLogs (hs : ∀ log ∈ logs, SortedEntries log.2) :
    (∃ f ∈ convertLogFilesToTables o next logs, e ∈ f.entries) ↔ ∃ log ∈ logs, e ∈ log.2 := by
  constructor
  · rintro ⟨f, hf, he⟩
    obtain ⟨-, log, hlog, hentries⟩ := convertLogs_number hf
    exact ⟨log, hlog, hentries ▸ he⟩
  · intro hlog
    induction logs generalizing next with
    | nil =>
      obtain ⟨log, hlog, -⟩ := hlog
      cases hlog
    | cons log logs ih =>
      obtain ⟨log', hmem, he⟩ := hlog
      rcases mem_cons.1 hmem with rfl | hmem
      · obtain ⟨f, hf⟩ := buildTable_isSome (o := o) next (hs _ mem_cons_self) (ne_nil_of_mem he)
        refine ⟨f, mem_append_left _ (Option.mem_toList.2 hf), ?_⟩
        rwa [(buildTable_some hf).1]
      · obtain ⟨f, hf, hef⟩ := ih (fun l hl => hs l (mem_cons_of_mem _ hl)) ⟨log', hmem, he⟩
        exact ⟨f, mem_append_right _ hf, hef⟩

lemma mem_repairedTables (hdb : db.Ok ops) (h : Closed db tables logs) :
    (∃ f ∈ repairedTables o tables logs, e ∈ f.entries) ↔ e ∈ db.stored := by
  have hsorted : ∀ log ∈ logs, SortedEntries log.2 := fun log hlog => by
    rcases h.mem_log.1 ⟨log, hlog, rfl⟩ with himm | hmem
    · exact hdb.imm _ himm
    · exact hmem ▸ hdb.mem
  have hlogs : (∃ log ∈ logs, e ∈ log.2) ↔ e ∈ db.mem ∨ ∃ m, db.imm = some m ∧ e ∈ m := by
    constructor
    · rintro ⟨log, hlog, he⟩
      rcases h.mem_log.1 ⟨log, hlog, rfl⟩ with himm | hmem
      · exact .inr ⟨_, himm, he⟩
      · exact .inl (hmem ▸ he)
    · rintro (he | ⟨m, hm, he⟩)
      · obtain ⟨log, hlog, hmem⟩ := h.mem_log.2 (.inr rfl)
        exact ⟨log, hlog, hmem ▸ he⟩
      · obtain ⟨log, hlog, hmem⟩ := h.mem_log.2 (.inl hm)
        exact ⟨log, hlog, hmem ▸ he⟩
  have htables : (∃ f ∈ tables, e ∈ f.entries) ↔ e ∈ db.current.entries := by
    constructor
    · rintro ⟨f, hf, he⟩
      obtain ⟨level, hf⟩ := (h.live f).1 hf
      exact ⟨level, f, hf, he⟩
    · rintro ⟨level, f, hf, he⟩
      exact ⟨f, (h.live f).2 ⟨level, hf⟩, he⟩
  simp only [repairedTables, mem_append, or_and_right, exists_or, mem_convertLogs hsorted, hlogs, htables, DB.stored,
    Set.mem_ofPred_eq]
  rw [or_comm, or_assoc]

/-! ## The repaired version -/

lemma repair_editNew (h : Closed db tables logs) (ho : OldestFirst tables logs) :
    EditNew (⟨fun _ => []⟩ : Version κ) { newFiles := (repairedTables o tables logs).map fun f => (0, f) } := by
  refine ⟨?_, fun p hp l g hg => absurd hg not_mem_nil⟩
  rw [map_map]
  exact repairedTables_names h ho

lemma repair_files (h : Closed db tables logs) (ho : OldestFirst tables logs) {level : Nat} :
    f ∈ (repairDB o tables logs).current.files level ↔ level = 0 ∧ f ∈ repairedTables o tables logs := by
  rw [repairDB, (repair_editNew h ho).editOk.mem_files, VersionEdit.mem_newAt]
  simp [eq_comm, and_comm]

lemma repair_filesOk (hdb : db.Ok ops) (h : Closed db tables logs) (ho : OldestFirst tables logs) :
    FilesOk (repairDB o tables logs).current := by
  have hupper : ∀ level, level ≠ 0 → (repairDB o tables logs).current.files level = [] := fun level hl =>
    eq_nil_iff_forall_not_mem.2 fun f hf => hl ((repair_files h ho).1 hf).1
  refine ⟨fun level => (repair_editNew h ho).editOk.sorted List.Pairwise.nil, fun level hl => ?_,
    fun i j f hf g hg he => ?_, fun level hl => ?_, fun f hf g hg hlt => ?_, fun i j hij f hf g hg => ?_⟩
  · rw [hupper level hl.ne']
    exact List.Pairwise.nil
  · obtain ⟨rfl, hft⟩ := (repair_files h ho).1 hf
    obtain ⟨rfl, hgt⟩ := (repair_files h ho).1 hg
    exact ⟨rfl, inj_on_of_nodup_map (repairedTables_names h ho) hft hgt he⟩
  · refine hupper level fun he => ?_
    rw [he] at hl
    exact absurd hl (by decide)
  · exact repairedTables_newer hdb h ho f ((repair_files h ho).1 hf).2 g ((repair_files h ho).1 hg).2 hlt
  · exact absurd ((repair_files h ho).1 hg).1 (Nat.ne_of_gt (Nat.zero_lt_of_lt hij))

lemma repair_entries (hdb : db.Ok ops) (h : Closed db tables logs) (ho : OldestFirst tables logs) :
    e ∈ (repairDB o tables logs).current.entries ↔ e ∈ db.stored := by
  rw [← mem_repairedTables hdb h]
  constructor
  · rintro ⟨level, f, hf, he⟩
    exact ⟨f, ((repair_files h ho).1 hf).2, he⟩
  · rintro ⟨f, hf, he⟩
    exact ⟨0, f, (repair_files h ho).2 ⟨rfl, hf⟩, he⟩

lemma le_maxSequence {ts : List (FileMetaData κ)} (hf : f ∈ ts) (he : e ∈ f.entries) : e.1.sequence ≤ maxSequence ts := by
  have hfold : ∀ (es : List (Entry κ)) (s : Nat), s ≤ es.foldl (fun s e => max s e.1.sequence) s ∧
      ∀ e ∈ es, e.1.sequence ≤ es.foldl (fun s e => max s e.1.sequence) s := by
    intro es
    induction es with
    | nil => exact fun s => ⟨le_rfl, fun e he => absurd he not_mem_nil⟩
    | cons a es ih =>
      intro s
      obtain ⟨hle, hall⟩ := ih (max s a.1.sequence)
      refine ⟨(le_max_left _ _).trans hle, fun e he => ?_⟩
      rcases mem_cons.1 he with rfl | he
      · exact (le_max_right _ _).trans hle
      · exact hall e he
  exact (hfold _ 0).2 e (mem_flatMap.2 ⟨f, hf, he⟩)

lemma repair_get (hdb : db.Ok ops) (h : Closed db tables logs) (ho : OldestFirst tables logs) (u : κ) (s : Nat) :
    (repairDB o tables logs).get u s = entryValue (entryRead u s (repairDB o tables logs).current.places.flatten) := by
  have hfiles := repair_filesOk (o := o) hdb h ho
  have hversion : ((repairDB o tables logs).current.get u s).1.valueOr none =
      entryValue (entryRead u s (repairDB o tables logs).current.places.flatten) := by
    rw [Version.get_eq (fun f hf g hg he => (hfiles.numbers 0 0 f hf g hg he).2) hfiles.disjoint]
    simpa [entryValue] using saveValue_valueOr u s (repairDB o tables logs).current.places.flatten []
  exact hversion

/-- In every run in which no flush goes into a gap of the running compaction, repair keeps the results of all reads if the
directory holds nothing else and tables and logs are in the order of their age. -/
theorem repair_keeps_reads (o : Options κ) (as : List (Action κ)) (db : DB κ)
    (hc : StepsMeet (DB.step o) (DB.FlushOutsideGap o) DB.init as) (hr : run (DB.step o) DB.init as = some db)
    (tables : List (FileMetaData κ)) (logs : List (Nat × MemTable κ)) (hclosed : Closed db tables logs)
    (holdest : OldestFirst tables logs) (u : κ) :
    (repairDB o tables logs).get u (repairDB o tables logs).lastSequence = db.get u db.lastSequence := by
  have hdb := run_ok hc hr
  have hfiles := repair_filesOk (o := o) hdb hclosed holdest
  have hentries : ∀ e, e ∈ (repairDB o tables logs).current.places.flatten ↔ e ∈ db.stored := fun e =>
    hfiles.mem_places.trans (repair_entries hdb hclosed holdest)
  have hnewest := hfiles.places_newestFirst fun a ha b hb =>
    hdb.seqInj a ((repair_entries hdb hclosed holdest).1 ha) b ((repair_entries hdb hclosed holdest).1 hb)
  rw [repair_get hdb hclosed holdest, hdb.get_eq, entryRead, entryRead]
  congr 1
  refine readAt_congr hnewest hdb.places_newestFirst (fun e => (hentries e).trans hdb.mem_places.symm) (fun e he => ?_) u
  have hstored := (hentries e).1 he
  obtain ⟨f, hf, hef⟩ := (mem_repairedTables (o := o) hdb hclosed).2 hstored
  exact ⟨le_maxSequence hf hef, hdb.sequence_le hstored⟩

def DB.liveTables (db : DB κ) : List (FileMetaData κ) := (List.range kNumLevels).flatMap db.current.files

theorem repair_keeps_reads_sample :
    ∃ db, run (DB.step sampleOptions) DB.init (writeAndFlush 1 [1] ++ writeAndFlush 1 [2]) = some db ∧
    (repairDB sampleOptions db.liveTables [(4, db.mem)]).get 1
    (repairDB sampleOptions db.liveTables [(4, db.mem)]).lastSequence = some [2] := by
  obtain ⟨db, hdb, hnames, horder, himm, hget⟩ :
      ∃ db, run (DB.step sampleOptions) DB.init (writeAndFlush 1 [1] ++ writeAndFlush 1 [2]) = some db ∧
        (db.liveTables.map (·.number)).Nodup ∧
        (∀ f ∈ db.liveTables, ∀ g ∈ db.liveTables, g.number < f.number → ∀ a ∈ f.entries, ∀ b ∈ g.entries,
          entryUser a = entryUser b → entrySeq b < entrySeq a) ∧
        db.imm.isNone ∧ db.get 1 db.lastSequence = some [2] := exists_run (by decide +kernel)
  have hmeet : StepsMeet (DB.step sampleOptions) (DB.FlushOutsideGap sampleOptions) DB.init
      (writeAndFlush 1 [1] ++ writeAndFlush 1 [2]) := by decide +kernel
  have hlevels := (run_ok hmeet hdb).files.levels
  have hclosed : Closed db db.liveTables [(4, db.mem)] := by
    refine ⟨fun f => ?_, hnames, ?_⟩
    · rw [DB.liveTables, mem_flatMap]
      constructor
      · rintro ⟨level, -, hf⟩
        exact ⟨level, hf⟩
      · rintro ⟨level, hf⟩
        refine ⟨level, mem_range.2 ?_, hf⟩
        by_contra hge
        rw [hlevels level (not_lt.1 hge)] at hf
        cases hf
    · rw [Option.isNone_iff_eq_none.1 himm]
      exact List.Perm.refl _
  have holdest : OldestFirst db.liveTables [(4, db.mem)] := ⟨horder, pairwise_singleton _ _⟩
  exact ⟨db, hdb, (repair_keeps_reads _ _ db hmeet hdb _ _ hclosed holdest 1).trans hget⟩

/-- An old table is compacted by itself and gets a larger number than the table with the newer value, which repair then puts
behind it. -/
theorem repair_returns_old_value : ∃ db, run (DB.step sampleOptions) DB.init (writeAndFlush 1 [1] ++ writeAndFlush 1 [2] ++
    [.startManual 2 none none, .openOutput, .installCompaction]) = some db ∧ db.get 1 db.lastSequence = some [2] ∧
    (repairDB sampleOptions db.liveTables [(4, db.mem)]).get 1
    (repairDB sampleOptions db.liveTables [(4, db.mem)]).lastSequence = some [1] :=
  exists_run (by decide +kernel)

end RallyDB.Db
