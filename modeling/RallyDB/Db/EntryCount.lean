import RallyDB.Db.Lemmas.Contents
import RallyDB.Db.Theorems

/-!
# The entry count of the filter budget (`DBImpl::number_`)
-/

namespace RallyDB.Db

open RallyDB.Lib List
open Multiset (card card_add coe_add coe_card coe_nil map_add map_coe map_le_map nodup_of_le)

variable {κ : Type*} [LinearOrder κ] {db db' : DB κ} {o : Options κ} {a : Action κ}

def DB.entryCount (db : DB κ) : Nat :=
  db.mem.length + (db.imm.getD []).length +
    ∑ l ∈ Finset.range kNumLevels, ((db.current.files l).map fun f => f.entries.length).sum

structure CountedDB (κ : Type*) [LinearOrder κ] where
  db : DB κ
  number : Nat
  tables : List Nat

def CountedDB.init : CountedDB κ := ⟨DB.init, 0, []⟩

inductive CountedDB.Action (κ : Type*) [LinearOrder κ] where
  | db (a : Db.Action κ)
  | removeObsoleteFiles

/-! ## RemoveObsoleteFiles -/

def tableFileName (number : Nat) : String :=
  let digits := toString number
  String.ofList (List.replicate (6 - digits.length) '0') ++ digits ++ ".ldb"

def movedFrom (_ : String) : String := ""

variable (cwd : String → Option Nat)

/-- `GetFileSize`, `NewRandomAccessFile` and `return_sstable_kv_number` on a path, where `cwd` gives the entries of the
tables that paths from the working directory lead to. -/
def returnSstableKvNumber (path : String) : Option Nat := if path = "" then none else cwd path

def countRemoved (number : Nat) (filename : String) : Nat :=
  match returnSstableKvNumber cwd (movedFrom filename) with
  | some kvNumber => if 0 < kvNumber then (number + 2 ^ 64 - kvNumber % 2 ^ 64) % 2 ^ 64 else number
  | none => number

def DB.live (db : DB κ) : List Nat :=
  ((List.range kNumLevels).flatMap fun l => (db.current.files l).map (·.number)) ++
    match db.running with
    | some r => r.outputNumbers
    | none => []

def DB.creates (db : DB κ) (o : Options κ) : Db.Action κ → List Nat
  | .compactMemTable => (db.editOf o .compactMemTable).newFiles.map fun p => p.2.number
  | .openOutput => [db.nextFileNumber]
  | _ => []

def Action.batchLength : Db.Action κ → Nat
  | .write batch => batch.length
  | _ => 0

def CountedDB.step (o : Options κ) (cwd : String → Option Nat) (s : CountedDB κ) : CountedDB.Action κ → Option (CountedDB κ)
  | .db a => (s.db.step o a).map fun db =>
    ⟨db, (s.number + a.batchLength) % 2 ^ 64, s.tables ++ s.db.creates o a⟩
  | .removeObsoleteFiles =>
    let obsolete := s.tables.filter fun n => n ∉ s.db.live
    some ⟨s.db, (obsolete.map tableFileName).foldl (countRemoved cwd) s.number, s.tables.filter fun n => n ∈ s.db.live⟩

lemma foldl_countRemoved (names : List String) (number : Nat) : names.foldl (countRemoved cwd) number = number := by
  induction names with
  | nil => rfl
  | cons name names ih => exact ih

/-! ## Entries have different sequences -/

structure DB.Distinct (db : DB κ) : Prop where
  numbered : db.Numbered
  mem : SortedEntries db.mem
  imm : ∀ m, db.imm = some m → SortedEntries m
  nodup : (db.contents.map entrySeq).Nodup
  le : ∀ e ∈ db.contents, entrySeq e ≤ db.lastSequence
  bound : db.lastSequence < 2 ^ 64

lemma DB.distinct_init : (DB.init : DB κ).Distinct := by
  have hcontents : (DB.init : DB κ).contents = 0 := by simp [DB.contents, DB.init, Version.contents, fileContents]
  refine ⟨DB.numbered_init, List.Pairwise.nil, by simp [DB.init], ?_, ?_, by simp [DB.init]⟩
  · simp [hcontents]
  · simp [hcontents]

lemma card_contents (db : DB κ) : db.contents.card = db.entryCount := by
  simp [DB.contents, DB.entryCount, Version.contents, fileContents, length_flatMap]

lemma perm_insertInto (m : MemTable κ) (s : Nat) (ops : List (BatchOp κ)) :
    (insertInto m s ops).Perm (batchEntries s ops ++ m) := by
  induction ops generalizing m s with
  | nil => exact List.Perm.refl _
  | cons op ops ih =>
    rw [insertInto_cons, batchEntries, cons_append]
    refine (ih _ _).trans ?_
    exact ((perm_orderedInsert _ _ _).append_left _).trans perm_middle

omit [LinearOrder κ] in
lemma map_batchEntries (s : Nat) (ops : List (BatchOp κ)) :
    (batchEntries s ops).map entrySeq = List.range' s ops.length := by
  induction ops generalizing s with
  | nil => rfl
  | cons op ops ih =>
    rw [batchEntries, map_cons, ih, length_cons, range'_succ]
    cases op <;> rfl

variable {r : RunningCompaction κ}

lemma DB.Distinct.sorted_inputs (h : db.Distinct) (hr : db.running = some r) :
    SortedEntries r.compaction.makeInputIterator := by
  have hle := h.numbered.inputs_le (h.numbered.inputs r hr) (h.numbered.level r hr)
  have hseq : ((r.compaction.inputs.flatMap (·.entries)).map entrySeq).Nodup :=
    Multiset.coe_nodup.1 (nodup_of_le (map_le_map hle) h.nodup)
  have hperm := perm_insertionSort (fun a b : Entry κ => a.1 ≤ b.1) (r.compaction.inputs.flatMap (·.entries))
  refine sorted_of_perm_ne (pairwise_insertionSort _ _) ?_
  exact (pairwise_map.1 ((hperm.map entrySeq).nodup_iff.2 hseq)).imp fun hne he => hne (congrArg InternalKey.sequence he)

lemma DB.Distinct.outputs (h : db.Distinct) (hr : db.running = some r)
    (hlen : (r.compaction.doCompactionWork o r.smallestSnapshot).length = r.outputNumbers.length) :
    fileContents (outputFiles o r.outputNumbers (r.compaction.doCompactionWork o r.smallestSnapshot)) =
    ↑(r.compaction.doCompactionWork o r.smallestSnapshot).flatten := by
  obtain ⟨hsub, hne⟩ := doCompactionWork_sublist r.compaction o r.smallestSnapshot
  have hsorted := (pairwise_flatten.1 ((h.sorted_inputs hr).sublist hsub)).1
  rw [fileContents, flatMap_outputFiles hlen fun l hl => ⟨hsorted l hl, hne l hl⟩]

lemma coe_makeInputIterator (c : Compaction κ) : (↑c.makeInputIterator : Multiset (Entry κ)) = fileContents c.inputs :=
  Multiset.coe_eq_coe.2 (perm_insertionSort _ _)

def DB.dropped (db : DB κ) (o : Options κ) : Db.Action κ → Nat
  | .installCompaction =>
    match db.running with
    | some r => r.compaction.makeInputIterator.length - (r.compaction.doCompactionWork o r.smallestSnapshot).flatten.length
    | none => 0
  | _ => 0

lemma DB.Distinct.install (h : db.Distinct) (hs : db.installCompaction o = some db') :
    db'.contents ≤ db.contents ∧ db'.contents.card + db.dropped o .installCompaction = db.contents.card := by
  simp only [DB.installCompaction] at hs
  split at hs
  · cases hs
  · rename_i r hr
    simp only [Lib.guard_eq_some] at hs
    obtain ⟨hlen, rfl⟩ := hs
    have hinstall := h.numbered.contents_install (h.numbered.inputs r hr) (h.numbered.level r hr)
      (h.numbered.editNew_install hr hlen)
    rw [h.outputs hr hlen, ← coe_makeInputIterator] at hinstall
    have hsub := (doCompactionWork_sublist r.compaction o r.smallestSnapshot).1
    have hle : (↑(r.compaction.doCompactionWork o r.smallestSnapshot).flatten : Multiset (Entry κ)) ≤
        ↑r.compaction.makeInputIterator := Multiset.coe_le.2 hsub.subperm
    have hversion : (db.current.logAndApply (r.compaction.installEdit (outputFiles o r.outputNumbers
        (r.compaction.doCompactionWork o r.smallestSnapshot)))).contents ≤ db.current.contents := by
      refine le_of_add_le_add_right (a := (↑r.compaction.makeInputIterator : Multiset (Entry κ))) ?_
      rw [hinstall]
      exact add_le_add_right hle _
    refine ⟨add_le_add_right hversion _, ?_⟩
    have hcard := congrArg card hinstall
    have hlength := hsub.length_le
    simp only [card_add, coe_card] at hcard
    simp only [DB.contents, DB.dropped, hr, card_add, coe_card]
    change _ + ((db.current.logAndApply (r.compaction.installEdit (outputFiles o r.outputNumbers
      (r.compaction.doCompactionWork o r.smallestSnapshot)))).contents).card + _ = _
    omega

lemma DB.Distinct.of_le (h : db.Distinct) (hn : db'.Numbered) (hmem : SortedEntries db'.mem)
    (himm : ∀ m, db'.imm = some m → SortedEntries m) (hle : db'.contents ≤ db.contents)
    (hlast : db'.lastSequence = db.lastSequence) : db'.Distinct :=
  ⟨hn, hmem, himm, nodup_of_le (map_le_map hle) h.nodup,
    fun e he => hlast ▸ h.le e (Multiset.mem_of_le hle he), hlast ▸ h.bound⟩

variable {batch : List (BatchOp κ)}

lemma DB.contents_write (hs : db.write batch = some db') :
    db'.contents = ↑(batchEntries (db.lastSequence + 1) batch) + db.contents := by
  simp only [DB.write, Lib.guard_eq_some] at hs
  obtain ⟨-, rfl⟩ := hs
  have hperm := Multiset.coe_eq_coe.2 (perm_insertInto db.mem (db.lastSequence + 1) batch)
  simp only [DB.contents, hperm, ← coe_add, add_assoc]

lemma DB.Distinct.write (h : db.Distinct) (hs : db.write batch = some db') : db'.Distinct := by
  have hcontents := DB.contents_write hs
  have hnumbered := h.numbered.step (a := .write batch) (o := ⟨0, fun _ => 0, fun _ => 0⟩) hs
  simp only [DB.write, Lib.guard_eq_some] at hs
  obtain ⟨hroom, rfl⟩ := hs
  refine ⟨hnumbered, insertInto_sorted h.mem (fun e he => ?_) batch, h.imm, ?_, fun e he => ?_, hroom.trans (by decide)⟩
  · refine Nat.lt_succ_of_le (h.le e ?_)
    simp [DB.contents, he]
  · rw [hcontents, map_add, map_coe, map_batchEntries]
    refine Multiset.nodup_add.2 ⟨Multiset.coe_nodup.2 nodup_range', h.nodup, ?_⟩
    refine Multiset.disjoint_left.2 fun hn hmem => ?_
    obtain ⟨e, he, rfl⟩ := Multiset.mem_map.1 hmem
    have hnew := (mem_range'_1.1 (Multiset.mem_coe.1 hn)).1
    exact absurd (h.le e he) (not_le.2 hnew)
  · rw [hcontents] at he
    rcases Multiset.mem_add.1 he with he | he
    · have := (batchEntries_sequence (Multiset.mem_coe.1 he)).2
      change e.1.sequence ≤ db.lastSequence + batch.length
      omega
    · exact (h.le e he).trans (Nat.le_add_right _ _)

/-- Every step keeps the entries different, and changes their number by what is written and what is dropped. -/
lemma DB.Distinct.step (h : db.Distinct) (hs : db.step o a = some db') :
    db'.Distinct ∧ db'.contents.card + db.dropped o a = db.contents.card + a.batchLength ∧
    db'.lastSequence = db.lastSequence + a.batchLength := by
  have hn := h.numbered.step hs
  cases a with
  | write batch =>
    refine ⟨h.write hs, ?_, ?_⟩
    · rw [DB.contents_write hs, card_add, coe_card, ← length_map (f := entrySeq), map_batchEntries, length_range']
      exact add_comm batch.length _
    · simp only [DB.step, DB.write, Lib.guard_eq_some] at hs
      rw [← hs.2]
      rfl
  | switchMemTable =>
    simp only [DB.step, DB.switchMemTable] at hs
    split at hs <;> cases hs
    rename_i himm
    have hcontents : DB.contents { db with mem := [], imm := some db.mem, nextFileNumber := db.nextFileNumber + 1 } =
        db.contents := by
      simp [DB.contents, himm]
    refine ⟨h.of_le hn List.Pairwise.nil (fun m hm => ?_) hcontents.le rfl, congrArg card hcontents, rfl⟩
    cases hm
    exact h.mem
  | compactMemTable =>
    simp only [DB.step, DB.compactMemTable] at hs
    split at hs <;> cases hs
    rename_i imm himm
    have hcontents : DB.contents { db with
        imm := none
        current := db.current.logAndApply (db.writeLevel0Table o imm)
        nextFileNumber := db.nextFileNumber + 1 } = db.contents := by
      simp only [DB.contents, himm, h.numbered.contents_flush (h.imm imm himm), Option.getD_none, Option.getD_some,
        coe_nil, add_zero]
      abel
    exact ⟨h.of_le hn h.mem (fun m hm => by cases hm) hcontents.le rfl, congrArg card hcontents, rfl⟩
  | startCompaction hint =>
    simp only [DB.step, DB.startCompaction, Option.ite_none_right_eq_some, Option.bind_eq_bind,
      Option.bind_eq_some_iff] at hs
    obtain ⟨⟨-, -, hlevel⟩, ⟨c, pointer⟩, hpick, hs⟩ := hs
    obtain ⟨hc, hfrom⟩ := pickCompaction_from h.numbered.nodup hpick
    dsimp only at hs
    split at hs <;> cases hs
    · rename_i hmove
      simp only [Compaction.isTrivialMove, Bool.decide_and, Bool.and_eq_true, decide_eq_true_eq] at hmove
      have hinputs1 := length_eq_zero_iff.1 hmove.2.1
      have hnew := h.numbered.editNew_move hfrom hmove.1
      rw [moveEdit_eq hinputs1] at hnew hn ⊢
      have hinstall := h.numbered.contents_install hfrom (hc ▸ hlevel) hnew
      rw [Compaction.inputs, hinputs1, append_nil] at hinstall
      have hcontents : DB.contents { db with
          compactPointer := Function.update db.compactPointer c.level (some pointer)
          current := db.current.logAndApply (c.installEdit c.inputs0) } = db.contents := by
        simp only [DB.contents, add_right_cancel hinstall]
      exact ⟨h.of_le hn h.mem h.imm hcontents.le rfl, congrArg card hcontents, rfl⟩
    · exact ⟨h.of_le hn h.mem h.imm le_rfl rfl, rfl, rfl⟩
  | startManual level begin limit =>
    simp only [DB.step, DB.startManual, Option.ite_none_right_eq_some, Option.bind_eq_bind, Option.bind_eq_some_iff] at hs
    obtain ⟨-, ⟨c, pointer⟩, -, hs⟩ := hs
    cases hs
    exact ⟨h.of_le hn h.mem h.imm le_rfl rfl, rfl, rfl⟩
  | openOutput =>
    simp only [DB.step, DB.openOutput] at hs
    split at hs <;> cases hs
    exact ⟨h.of_le hn h.mem h.imm le_rfl rfl, rfl, rfl⟩
  | installCompaction =>
    obtain ⟨hle, hcard⟩ := h.install hs
    simp only [DB.step, DB.installCompaction] at hs
    split at hs
    · cases hs
    · simp only [Lib.guard_eq_some] at hs
      obtain ⟨-, rfl⟩ := hs
      exact ⟨h.of_le hn h.mem h.imm hle rfl, hcard, rfl⟩
  | getSnapshot =>
    cases hs
    exact ⟨h.of_le hn h.mem h.imm le_rfl rfl, rfl, rfl⟩
  | releaseSnapshot s =>
    simp only [DB.step, Lib.guard_eq_some] at hs
    obtain ⟨-, rfl⟩ := hs
    exact ⟨h.of_le hn h.mem h.imm le_rfl rfl, rfl, rfl⟩

/-! ## Whole runs -/

variable {cwd : String → Option Nat} {s s' : CountedDB κ}

structure CountedDB.Ok (s : CountedDB κ) : Prop where
  distinct : s.db.Distinct
  number : s.number = s.db.lastSequence

lemma CountedDB.ok_init : (CountedDB.init : CountedDB κ).Ok := ⟨DB.distinct_init, rfl⟩

lemma CountedDB.Ok.step {a : CountedDB.Action κ} (h : s.Ok) (hs : s.step o cwd a = some s') : s'.Ok := by
  cases a with
  | db a =>
    obtain ⟨db, hdb, rfl⟩ := Option.map_eq_some_iff.1 hs
    obtain ⟨hdistinct, -, hlast⟩ := h.distinct.step hdb
    refine ⟨hdistinct, ?_⟩
    change (s.number + a.batchLength) % 2 ^ 64 = db.lastSequence
    rw [h.number, ← hlast, Nat.mod_eq_of_lt hdistinct.bound]
  | removeObsoleteFiles =>
    cases hs
    exact ⟨h.distinct, (foldl_countRemoved cwd _ _).trans h.number⟩

def CountedDB.KeepsEntries (o : Options κ) (s : CountedDB κ) : CountedDB.Action κ → Prop
  | .db .installCompaction => ∀ r ∈ s.db.running,
      (r.compaction.doCompactionWork o r.smallestSnapshot).flatten = r.compaction.makeInputIterator
  | _ => True

instance (o : Options κ) (s : CountedDB κ) (a : CountedDB.Action κ) : Decidable (s.KeepsEntries o a) := by
  unfold CountedDB.KeepsEntries
  split <;> infer_instance

lemma CountedDB.dropped_eq_zero_iff (a : Db.Action κ) : s.db.dropped o a = 0 ↔ s.KeepsEntries o (.db a) := by
  cases a with
  | installCompaction =>
    unfold DB.dropped CountedDB.KeepsEntries
    cases hr : s.db.running with
    | none => simp
    | some r =>
      have hsub := (doCompactionWork_sublist r.compaction o r.smallestSnapshot).1
      simp only [Option.mem_some_iff, forall_eq', Nat.sub_eq_zero_iff_le]
      exact ⟨hsub.eq_of_length_le, fun he => (congrArg List.length he).ge⟩
  | write _ | switchMemTable | compactMemTable | startCompaction _ | startManual _ _ _ | openOutput =>
    exact iff_of_true rfl trivial
  | getSnapshot | releaseSnapshot _ => exact iff_of_true rfl trivial

lemma CountedDB.Ok.count_step {a : CountedDB.Action κ} (h : s.Ok) (hcount : s.number = s.db.entryCount)
    (hs : s.step o cwd a = some s') : s'.number = s'.db.entryCount ↔ s.KeepsEntries o a := by
  have hnumber := (h.step hs).number
  cases a with
  | db a =>
    obtain ⟨db, hdb, rfl⟩ := Option.map_eq_some_iff.1 hs
    obtain ⟨-, hcard, hlast⟩ := h.distinct.step hdb
    rw [card_contents, card_contents, ← hcount, h.number, ← hlast] at hcard
    rw [hnumber, ← CountedDB.dropped_eq_zero_iff]
    change db.lastSequence = db.entryCount ↔ _
    omega
  | removeObsoleteFiles =>
    cases hs
    exact iff_of_true ((foldl_countRemoved cwd _ _).trans hcount) trivial

/-- `number_` is the number of entries in every state of a run exactly when no compaction of the run drops an entry. -/
theorem number_iff (o : Options κ) (cwd : String → Option Nat) (as : List (CountedDB.Action κ)) (s : CountedDB κ)
    (hr : run (CountedDB.step o cwd) CountedDB.init as = some s) :
    StepsMeet (CountedDB.step o cwd) (CountedDB.KeepsEntries o) CountedDB.init as ↔
    ∀ pre rest t, as = pre ++ rest → run (CountedDB.step o cwd) CountedDB.init pre = some t → t.number = t.db.entryCount :=
  stepsMeet_iff_reached (P := fun t => t.number = t.db.entryCount) (fun _ _ _ h hs => h.step hs)
    (fun _ _ _ h hcount hs => h.count_step hcount hs) CountedDB.ok_init (by simp [CountedDB.init, DB.entryCount, DB.init]) hr

def mergedRun : List (CountedDB.Action Nat) :=
  (writeAndFlush 1 [1] ++ writeAndFlush 2 [2] ++
    [Action.startManual 2 none none, .openOutput, .installCompaction]).map .db ++ [.removeObsoleteFiles]

theorem number_iff_sample : ∃ s, run (CountedDB.step sampleOptions fun _ => none) CountedDB.init mergedRun = some s ∧
    s.number = s.db.entryCount ∧ s.number = 2 ∧ s.tables.length = 1 := by
  obtain ⟨s, hs, htwo⟩ : ∃ s, run (CountedDB.step sampleOptions fun _ => none) CountedDB.init mergedRun = some s ∧
      s.number = 2 ∧ s.tables.length = 1 := exists_run (by decide +kernel)
  have hkeeps : StepsMeet (CountedDB.step sampleOptions fun _ => none) (CountedDB.KeepsEntries sampleOptions)
      CountedDB.init mergedRun := by decide +kernel
  exact ⟨s, hs, (number_iff _ _ _ s hs).1 hkeeps mergedRun [] s (append_nil _).symm hs, htwo⟩

/-- A key is written twice and its table compacted: one entry is left, and `number_` is still 2. -/
theorem number_counts_dropped : ∃ s, run (CountedDB.step sampleOptions fun _ => none) CountedDB.init
    ([Action.write [.put 1 [1]], .write [.put 1 [2]], .switchMemTable, .compactMemTable, .startManual 2 none none,
    .openOutput, .installCompaction].map .db ++ [.removeObsoleteFiles]) = some s ∧ s.number = 2 ∧ s.db.entryCount = 1 :=
  exists_run (by decide +kernel)

end RallyDB.Db
