import RallyDB.Db.Lemmas.Install

/-!
# Every file has a number of its own
-/

namespace RallyDB.Db

open RallyDB.Lib List DB Compaction
open Lib (guard_eq_some)
open Option (bind_eq_bind bind_eq_some_iff ite_none_right_eq_some)

variable {κ : Type*} [LinearOrder κ] {db db' : DB κ} {o : Options κ} {a : Action κ}

/-! ## Inputs of a compaction -/

structure InputsFrom (v : Version κ) (c : Compaction κ) : Prop where
  nodup0 : c.inputs0.Nodup
  nodup1 : c.inputs1.Nodup
  mem0 : ∀ f ∈ c.inputs0, f ∈ v.files c.level
  mem1 : ∀ f ∈ c.inputs1, f ∈ v.files (c.level + 1)

variable {files part : List (FileMetaData κ)}

lemma addBoundaryInputs_nodup (hn : part.Nodup) (hmem : ∀ g ∈ part, g ∈ files) :
    (addBoundaryInputs files part).Nodup ∧ ∀ g ∈ addBoundaryInputs files part, g ∈ files := by
  unfold addBoundaryInputs
  cases hk : findLargestKey part with
  | none => exact ⟨hn, hmem⟩
  | some k =>
    obtain ⟨hle, hkm⟩ := findLargestKey_spec hk
    obtain ⟨added, hloop, hna, hadded, _⟩ := boundaryLoop_added files hle hkm
    dsimp only
    rw [hloop]
    exact ⟨hn.append hna fun x hx hxa => (hadded x hxa).2 hx, forall_mem_append.2 ⟨hmem, fun g hg => (hadded g hg).1⟩⟩

variable {v : Version κ} {level l : Nat}

lemma getOverlappingInputs_nodup (hn : (v.files level).Nodup) (begin limit : Option (InternalKey κ)) :
    (v.getOverlappingInputs level begin limit).Nodup ∧
    ∀ g ∈ v.getOverlappingInputs level begin limit, g ∈ v.files level := by
  obtain ⟨b, e, h, -, -⟩ := getOverlappingInputs_spec v level begin limit
  rw [h]
  exact ⟨hn.sublist filter_sublist, fun g hg => (mem_filter.1 hg).1⟩

variable {c : Compaction κ} {pointer : InternalKey κ}

lemma setupOtherInputs_from (hn : ∀ level, (v.files level).Nodup)
    {first : List (FileMetaData κ)} (hfirst : first.Nodup) (hmem : ∀ g ∈ first, g ∈ v.files level)
    (h : v.setupOtherInputs o level first = some (c, pointer)) : c.level = level ∧ InputsFrom v c := by
  obtain ⟨rfl, -, chosen, hchosen, h0, smallest, largest, -, h1⟩ := setupOtherInputs_cases h
  have hpart : chosen.Nodup ∧ ∀ g ∈ chosen, g ∈ v.files c.level := by
    rcases hchosen with rfl | ⟨_, _, lo, hi, -, -, rfl⟩
    · exact ⟨hfirst, hmem⟩
    · exact getOverlappingInputs_nodup (hn _) _ _
  obtain ⟨hn0, hm0⟩ := addBoundaryInputs_nodup hpart.1 hpart.2
  obtain ⟨hn1, hm1⟩ := getOverlappingInputs_nodup (hn (c.level + 1)) (some smallest) (some largest)
  obtain ⟨hn1, hm1⟩ := addBoundaryInputs_nodup hn1 hm1
  refine ⟨rfl, h0 ▸ hn0, ?_, h0 ▸ hm0, ?_⟩
  · rw [h1]
    exact hn1
  · rw [h1]
    exact hm1

variable {hint : CompactionHint κ}

lemma pickCompaction_from (hn : ∀ level, (v.files level).Nodup) {compactPointer : Nat → Option (InternalKey κ)}
    (h : v.pickCompaction o compactPointer hint = some (c, pointer)) : c.level = hint.level ∧ InputsFrom v c := by
  simp only [Version.pickCompaction, bind_eq_bind, bind_eq_some_iff] at h
  obtain ⟨f, hf, h⟩ := h
  split at h
  · rename_i h0
    obtain ⟨hnodup, hmem⟩ := getOverlappingInputs_nodup (hn 0) (some f.smallest) (some f.largest)
    obtain ⟨hlevel, hfrom⟩ := setupOtherInputs_from hn hnodup hmem h
    exact ⟨hlevel.trans h0.symm, hfrom⟩
  · exact setupOtherInputs_from hn (nodup_singleton f) (fun g hg => mem_singleton.1 hg ▸ pickFirstInput_mem hf) h

variable {begin limit : Option (InternalKey κ)}

lemma compactRange_from (hn : ∀ level, (v.files level).Nodup)
    (h : v.compactRange o level begin limit = some (c, pointer)) : c.level = level ∧ InputsFrom v c := by
  simp only [Version.compactRange, Option.ite_none_left_eq_some] at h
  obtain ⟨hnodup, hmem⟩ := getOverlappingInputs_nodup (hn level) begin limit
  refine setupOtherInputs_from hn ?_ ?_ h.2
  · split
    · exact hnodup.sublist (takeUntilLimit_isPrefix ..).sublist
    · exact hnodup
  · split
    · exact fun g hg => hmem g ((takeUntilLimit_isPrefix ..).mem hg)
    · exact hmem

def DB.editOf (o : Options κ) (db : DB κ) : Action κ → VersionEdit κ
  | .compactMemTable => (db.imm.map (db.writeLevel0Table o)).getD {}
  | .startCompaction hint =>
    match db.current.pickCompaction o db.compactPointer hint with
    | some (c, _) => if c.isTrivialMove o then c.moveEdit else {}
    | none => {}
  | .installCompaction =>
    match db.running with
    | some r => r.compaction.installEdit
        (outputFiles o r.outputNumbers (r.compaction.doCompactionWork o r.smallestSnapshot))
    | none => {}
  | _ => {}

lemma DB.step_current (hs : db.step o a = some db') : db'.current = db.current.logAndApply (db.editOf o a) := by
  cases a with
  | write batch =>
    simp only [step, write, guard_eq_some] at hs
    rw [← hs.2]
    exact (logAndApply_empty _).symm
  | switchMemTable =>
    simp only [step, switchMemTable] at hs
    split at hs <;> cases hs
    exact (logAndApply_empty _).symm
  | compactMemTable =>
    simp only [step, compactMemTable] at hs
    split at hs <;> cases hs
    rename_i imm himm
    rw [editOf, himm]
    rfl
  | startCompaction hint =>
    simp only [step, startCompaction, ite_none_right_eq_some, bind_eq_bind, bind_eq_some_iff] at hs
    obtain ⟨-, ⟨c, pointer⟩, hpick, hs⟩ := hs
    rw [editOf, hpick]
    dsimp only at hs ⊢
    split at hs <;> cases hs
    · rw [if_pos ‹_›]
    · rw [if_neg ‹_›, logAndApply_empty]
      rfl
  | startManual level begin limit =>
    simp only [step, startManual, ite_none_right_eq_some, bind_eq_bind, bind_eq_some_iff] at hs
    obtain ⟨-, ⟨c, pointer⟩, hpick, hs⟩ := hs
    cases hs
    exact (logAndApply_empty _).symm
  | openOutput =>
    simp only [step, openOutput] at hs
    split at hs <;> cases hs
    exact (logAndApply_empty _).symm
  | installCompaction =>
    simp only [step, installCompaction] at hs
    split at hs
    · cases hs
    · rename_i r hr
      simp only [guard_eq_some] at hs
      rw [← hs.2, editOf, hr]
      rfl
  | getSnapshot =>
    cases hs
    exact (logAndApply_empty _).symm
  | releaseSnapshot s =>
    simp only [step, guard_eq_some] at hs
    rw [← hs.2]
    exact (logAndApply_empty _).symm

/-! ## The invariant -/

structure DB.Numbered (db : DB κ) : Prop where
  sorted : ∀ l, (db.current.files l).Pairwise FileLt
  unique : ∀ l l' f g, f ∈ db.current.files l → g ∈ db.current.files l' → f.number = g.number → l = l' ∧ f = g
  lt : ∀ l, ∀ f ∈ db.current.files l, f.number < db.nextFileNumber
  inputs : ∀ r, db.running = some r → InputsFrom db.current r.compaction
  level : ∀ r, db.running = some r → r.compaction.level + 1 < kNumLevels
  outputs : ∀ r, db.running = some r → r.outputNumbers.Nodup ∧
    ∀ n ∈ r.outputNumbers, n < db.nextFileNumber ∧ ∀ l, ∀ f ∈ db.current.files l, f.number ≠ n

lemma DB.numbered_init : (init : DB κ).Numbered := by
  constructor <;> simp [init]

lemma nodup_of_fileLt (h : files.Pairwise FileLt) : files.Nodup := by
  refine h.imp fun {f g} hlt (he : f = g) => ?_
  subst he
  exact FileLt.irrefl f hlt

lemma DB.Numbered.nodup (h : db.Numbered) (l : Nat) : (db.current.files l).Nodup := nodup_of_fileLt (h.sorted l)

structure EditNew (v : Version κ) (edit : VersionEdit κ) : Prop where
  distinct : (edit.newFiles.map fun p => p.2.number).Nodup
  fresh : ∀ p ∈ edit.newFiles, ∀ l, ∀ f ∈ v.files l, f.number = p.2.number → (l, f.number) ∈ edit.deletedFiles ∧ l ≠ p.1

lemma EditNew.editOk {edit : VersionEdit κ} (h : EditNew v edit) : EditOk v edit where
  distinct level := by
    have hpair := pairwise_map.1 h.distinct
    exact pairwise_map.2 (hpair.sublist filter_sublist)
  fresh level f hf g hg he := (h.fresh _ (VersionEdit.mem_newAt.1 hg) level f hf he).2 rfl

lemma editNew_empty (v : Version κ) : EditNew v {} := ⟨nodup_nil, fun _ hp => absurd hp not_mem_nil⟩

variable {p : Nat × FileMetaData κ}

lemma mem_writeLevel0Table {imm : MemTable κ} (hp : p ∈ (db.writeLevel0Table o imm).newFiles) :
    buildTable o db.nextFileNumber imm = some p.2 ∧ (db.writeLevel0Table o imm).newFiles = [p] := by
  unfold writeLevel0Table at hp ⊢
  split at hp
  · cases hp
  · rename_i f hf
    cases mem_singleton.1 hp
    exact ⟨hf, rfl⟩

lemma deletedFiles_writeLevel0Table (imm : MemTable κ) : (db.writeLevel0Table o imm).deletedFiles = [] := by
  unfold writeLevel0Table
  split <;> rfl

section

variable (h : db.Numbered)
include h

lemma DB.Numbered.editNew_flush (imm : MemTable κ) : EditNew db.current (db.writeLevel0Table o imm) := by
  refine ⟨?_, fun p hp l f hf he => ?_⟩
  · unfold writeLevel0Table
    split
    · exact nodup_nil
    · exact nodup_singleton _
  · have hnumber := (buildTable_some (mem_writeLevel0Table hp).1).2
    exact absurd (he.trans hnumber) (h.lt l f hf).ne

lemma DB.Numbered.editNew_move (hfrom : InputsFrom db.current c)
    (hone : c.inputs0.length = 1) : EditNew db.current c.moveEdit := by
  obtain ⟨f, hf⟩ := length_eq_one_iff.1 hone
  have hmem := hfrom.mem0 f (by rw [hf]; exact mem_singleton_self f)
  refine ⟨?_, fun p hp l g hg he => ?_⟩
  · simp [moveEdit, hf]
  · simp only [moveEdit, hf, map_cons, map_nil, mem_singleton] at hp
    subst hp
    obtain ⟨rfl, rfl⟩ := h.unique _ _ _ _ hg hmem he
    refine ⟨?_, Nat.ne_of_lt (lt_add_one _)⟩
    simp [moveEdit, hf]

lemma DB.Numbered.editNew_install {r : RunningCompaction κ} (hrun : db.running = some r)
    (hlen : (r.compaction.doCompactionWork o r.smallestSnapshot).length = r.outputNumbers.length) :
    EditNew db.current (r.compaction.installEdit
    (outputFiles o r.outputNumbers (r.compaction.doCompactionWork o r.smallestSnapshot))) := by
  obtain ⟨hnodup, hfresh⟩ := h.outputs r hrun
  refine ⟨?_, fun p hp l f hf he => ?_⟩
  · rw [installEdit, map_map]
    exact pairwise_map.2 (outputFiles_distinct hnodup hlen)
  · obtain ⟨g, hg, rfl⟩ := mem_map.1 hp
    exact absurd he ((hfresh _ (mem_outputFiles hg).1).2 l f hf)

lemma DB.Numbered.editNew (hs : db.step o a = some db') : EditNew db.current (db.editOf o a) := by
  cases a with
  | compactMemTable =>
    unfold editOf
    cases db.imm with
    | none => exact editNew_empty _
    | some imm => exact h.editNew_flush imm
  | startCompaction hint =>
    unfold editOf
    dsimp only
    split
    · rename_i c pointer hpick
      split_ifs with hmove
      · simp only [isTrivialMove, Bool.decide_and, Bool.and_eq_true, decide_eq_true_eq] at hmove
        exact h.editNew_move (pickCompaction_from h.nodup hpick).2 hmove.1
      · exact editNew_empty _
    · exact editNew_empty _
  | installCompaction =>
    simp only [step, installCompaction] at hs
    split at hs
    · cases hs
    · rename_i r hr
      simp only [ite_none_right_eq_some] at hs
      simp only [editOf, hr]
      exact h.editNew_install hr hs.1
  | write _ | switchMemTable | startManual _ _ _ | openOutput | getSnapshot | releaseSnapshot _ => exact editNew_empty _

lemma DB.Numbered.mem_files (hs : db.step o a = some db') {f : FileMetaData κ} :
    f ∈ db'.current.files l ↔ f ∈ db.current.files l ∧ (l, f.number) ∉ (db.editOf o a).deletedFiles ∨
    (l, f) ∈ (db.editOf o a).newFiles := by
  rw [step_current hs, (h.editNew hs).editOk.mem_files, VersionEdit.mem_newAt]

end

lemma EditNew.unique {w : Version κ} {edit : VersionEdit κ} (h : EditNew v edit)
    (hv : ∀ l l' f g, f ∈ v.files l → g ∈ v.files l' → f.number = g.number → l = l' ∧ f = g)
    (hw : ∀ l f, f ∈ w.files l ↔ f ∈ v.files l ∧ (l, f.number) ∉ edit.deletedFiles ∨ (l, f) ∈ edit.newFiles) :
    ∀ l l' f g, f ∈ w.files l → g ∈ w.files l' → f.number = g.number → l = l' ∧ f = g := by
  intro l l' f g hf hg he
  rcases (hw l f).1 hf with ⟨hf, hfd⟩ | hf
  · rcases (hw l' g).1 hg with ⟨hg, hgd⟩ | hg
    · exact hv l l' f g hf hg he
    · exact absurd (h.fresh _ hg l f hf he).1 hfd
  · rcases (hw l' g).1 hg with ⟨hg, hgd⟩ | hg
    · exact absurd (h.fresh _ hf l' g hg he.symm).1 hgd
    · have := inj_on_of_nodup_map h.distinct hf hg he
      cases this
      exact ⟨rfl, rfl⟩

/-! ## Every step keeps the invariant -/

section

variable (h : db.Numbered)
include h

lemma DB.Numbered.congr (hcur : db'.current = db.current) (hrun : db'.running = db.running)
    (hnext : db.nextFileNumber ≤ db'.nextFileNumber) : db'.Numbered where
  sorted := hcur ▸ h.sorted
  unique := hcur ▸ h.unique
  lt l f hf := (h.lt l f (hcur ▸ hf)).trans_le hnext
  inputs := hcur ▸ hrun ▸ h.inputs
  level := hrun ▸ h.level
  outputs r hr := by
    obtain ⟨hnodup, hout⟩ := h.outputs r (hrun ▸ hr)
    exact ⟨hnodup, fun n hn => ⟨(hout n hn).1.trans_le hnext, hcur ▸ (hout n hn).2⟩⟩

lemma DB.Numbered.startRunning (hfrom : InputsFrom db.current c)
    (hlevel : c.level + 1 < kNumLevels) (pointers : Nat → Option (InternalKey κ)) : ({ db with compactPointer := pointers }.startRunning c).Numbered where
  sorted := h.sorted
  unique := h.unique
  lt := h.lt
  inputs r hr := by
    cases hr
    exact hfrom
  level r hr := by
    cases hr
    exact hlevel
  outputs r hr := by
    cases hr
    exact ⟨nodup_nil, fun n hn => absurd hn not_mem_nil⟩

lemma DB.Numbered.openOutput (hs : db.openOutput = some db') : db'.Numbered := by
  simp only [DB.openOutput] at hs
  split at hs <;> cases hs
  rename_i r hr
  obtain ⟨hnodup, hout⟩ := h.outputs r hr
  refine ⟨h.sorted, h.unique, fun l f hf => (h.lt l f hf).trans (lt_add_one _), fun r' hr' => ?_, fun r' hr' => ?_,
    fun r' hr' => ?_⟩
  · cases hr'
    exact h.inputs r hr
  · cases hr'
    exact h.level r hr
  · cases hr'
    refine ⟨?_, fun n hn => ?_⟩
    · refine nodup_append.2 ⟨hnodup, nodup_singleton _, fun n hn m hm => ?_⟩
      cases mem_singleton.1 hm
      exact (hout n hn).1.ne
    · rcases mem_append.1 hn with hn | hn
      · exact ⟨(hout n hn).1.trans (lt_add_one _), (hout n hn).2⟩
      · cases mem_singleton.1 hn
        exact ⟨lt_add_one _, fun l f hf => (h.lt l f hf).ne⟩

lemma DB.Numbered.edit {edit : VersionEdit κ} (hnew : EditNew db.current edit)
    (hcur : db'.current = db.current.logAndApply edit) (hnext : db.nextFileNumber ≤ db'.nextFileNumber)
    (hlt : ∀ p ∈ edit.newFiles, p.2.number < db'.nextFileNumber)
    (hrun : ∀ r, db'.running = some r → db.running = some r ∧ edit.deletedFiles = [] ∧
    ∀ p ∈ edit.newFiles, p.2.number ∉ r.outputNumbers) : db'.Numbered := by
  have hmem : ∀ l f, f ∈ db'.current.files l ↔
      f ∈ db.current.files l ∧ (l, f.number) ∉ edit.deletedFiles ∨ (l, f) ∈ edit.newFiles := fun l f => by
    rw [hcur, hnew.editOk.mem_files, VersionEdit.mem_newAt]
  refine ⟨fun l => ?_, hnew.unique h.unique hmem, fun l f hf => ?_, fun r hr => ?_, fun r hr => h.level r (hrun r hr).1,
    fun r hr => ?_⟩
  · rw [hcur]
    exact hnew.editOk.sorted (h.sorted l)
  · rcases (hmem l f).1 hf with ⟨hf, -⟩ | hf
    · exact (h.lt l f hf).trans_le hnext
    · exact hlt _ hf
  · obtain ⟨hr, hdel, -⟩ := hrun r hr
    have hkeep : ∀ l f, f ∈ db.current.files l → f ∈ db'.current.files l := fun l f hf =>
      (hmem l f).2 (.inl ⟨hf, by simp [hdel]⟩)
    have hfrom := h.inputs r hr
    exact ⟨hfrom.nodup0, hfrom.nodup1, fun f hf => hkeep _ f (hfrom.mem0 f hf), fun f hf => hkeep _ f (hfrom.mem1 f hf)⟩
  · obtain ⟨hr, -, hfresh⟩ := hrun r hr
    obtain ⟨hnodup, hout⟩ := h.outputs r hr
    refine ⟨hnodup, fun n hn => ⟨(hout n hn).1.trans_le hnext, fun l f hf he => ?_⟩⟩
    rcases (hmem l f).1 hf with ⟨hf, -⟩ | hf
    · exact (hout n hn).2 l f hf he
    · exact hfresh _ hf (he ▸ hn)

lemma DB.Numbered.compactMemTable (hs : db.compactMemTable o = some db') : db'.Numbered := by
  simp only [DB.compactMemTable] at hs
  split at hs <;> cases hs
  rename_i imm himm
  have hnumber : ∀ p ∈ (db.writeLevel0Table o imm).newFiles, p.2.number = db.nextFileNumber := fun p hp =>
    (buildTable_some (mem_writeLevel0Table hp).1).2
  refine h.edit (h.editNew_flush imm) rfl (Nat.le_succ _) (fun p hp => ?_) fun r hr => ?_
  · rw [hnumber p hp]
    exact lt_add_one _
  · refine ⟨hr, deletedFiles_writeLevel0Table imm, fun p hp hmem => ?_⟩
    exact (((h.outputs r hr).2 _ hmem).1).ne (hnumber p hp)

lemma DB.Numbered.startCompaction (hs : db.startCompaction o hint = some db') : db'.Numbered := by
  simp only [DB.startCompaction, ite_none_right_eq_some, bind_eq_bind, bind_eq_some_iff] at hs
  obtain ⟨⟨hidle, -, hlevel⟩, ⟨c, pointer⟩, hpick, hs⟩ := hs
  obtain ⟨hc, hfrom⟩ := pickCompaction_from h.nodup hpick
  dsimp only at hs
  split at hs <;> cases hs
  · rename_i hmove
    simp only [Compaction.isTrivialMove, Bool.decide_and, Bool.and_eq_true, decide_eq_true_eq] at hmove
    refine h.edit (h.editNew_move hfrom hmove.1) rfl le_rfl (fun p hp => ?_) fun r hr => ?_
    · obtain ⟨f, hf, rfl⟩ := mem_map.1 hp
      exact h.lt _ f (hfrom.mem0 f hf)
    · rw [show db.running = none from Option.isNone_iff_eq_none.1 hidle] at hr
      cases hr
  · exact h.startRunning hfrom (hc ▸ hlevel) _

lemma DB.Numbered.startManual (hs : db.startManual o level begin limit = some db') : db'.Numbered := by
  simp only [DB.startManual, ite_none_right_eq_some, bind_eq_bind, bind_eq_some_iff] at hs
  obtain ⟨⟨-, -, hlevel⟩, ⟨c, pointer⟩, hpick, hs⟩ := hs
  obtain ⟨hc, hfrom⟩ := compactRange_from h.nodup hpick
  cases hs
  exact h.startRunning hfrom (hc ▸ hlevel) _

lemma DB.Numbered.installCompaction (hs : db.installCompaction o = some db') : db'.Numbered := by
  simp only [DB.installCompaction] at hs
  split at hs
  · cases hs
  · rename_i r hr
    simp only [guard_eq_some] at hs
    obtain ⟨hlen, rfl⟩ := hs
    refine h.edit (h.editNew_install hr hlen) rfl le_rfl (fun p hp => ?_) fun r' hr' => by cases hr'
    obtain ⟨f, hf, rfl⟩ := mem_map.1 hp
    exact ((h.outputs r hr).2 _ (mem_outputFiles hf).1).1

lemma DB.Numbered.step (hs : db.step o a = some db') : db'.Numbered := by
  cases a with
  | write batch =>
    simp only [step, write, guard_eq_some] at hs
    obtain ⟨-, rfl⟩ := hs
    exact h.congr rfl rfl le_rfl
  | switchMemTable =>
    simp only [step, switchMemTable] at hs
    split at hs <;> cases hs
    exact h.congr rfl rfl (Nat.le_succ _)
  | compactMemTable => exact h.compactMemTable hs
  | startCompaction hint => exact h.startCompaction hs
  | startManual level begin limit => exact h.startManual hs
  | openOutput => exact h.openOutput hs
  | installCompaction => exact h.installCompaction hs
  | getSnapshot =>
    cases hs
    exact h.congr rfl rfl le_rfl
  | releaseSnapshot s =>
    simp only [step, guard_eq_some] at hs
    obtain ⟨-, rfl⟩ := hs
    exact h.congr rfl rfl le_rfl

end

def DB.Unused (db : DB κ) (n : Nat) : Prop := db.nextFileNumber ≤ n ∨ ∃ r, db.running = some r ∧ n ∈ r.outputNumbers

lemma DB.Numbered.not_unused (h : db.Numbered) {f : FileMetaData κ} (hf : f ∈ db.current.files l) :
    ¬ db.Unused f.number := by
  rintro (hn | ⟨r, hr, hn⟩)
  · exact absurd (h.lt l f hf) hn.not_gt
  · exact ((h.outputs r hr).2 _ hn).2 l f hf rfl

lemma DB.Unused.of_step {n : Nat} (h : db'.Unused n) (hs : db.step o a = some db') : db.Unused n := by
  cases a with
  | write batch =>
    simp only [step, write, guard_eq_some] at hs
    rw [← hs.2] at h
    exact h
  | switchMemTable =>
    simp only [step, switchMemTable] at hs
    split at hs <;> cases hs
    exact h.imp_left (Nat.le_succ _).trans
  | compactMemTable =>
    simp only [step, compactMemTable] at hs
    split at hs <;> cases hs
    exact h.imp_left (Nat.le_succ _).trans
  | startCompaction hint =>
    simp only [step, startCompaction, ite_none_right_eq_some, bind_eq_bind, bind_eq_some_iff] at hs
    obtain ⟨-, ⟨c, pointer⟩, -, hs⟩ := hs
    dsimp only at hs
    split at hs <;> cases hs
    · exact h
    · rcases h with h | ⟨r, hr, hn⟩
      · exact .inl h
      · cases hr
        cases hn
  | startManual level begin limit =>
    simp only [step, startManual, ite_none_right_eq_some, bind_eq_bind, bind_eq_some_iff] at hs
    obtain ⟨-, ⟨c, pointer⟩, -, hs⟩ := hs
    cases hs
    rcases h with h | ⟨r, hr, hn⟩
    · exact .inl h
    · cases hr
      cases hn
  | openOutput =>
    simp only [step, openOutput] at hs
    split at hs <;> cases hs
    rename_i r hr
    rcases h with h | ⟨r', hr', hn⟩
    · exact .inl ((Nat.le_succ _).trans h)
    · cases hr'
      rcases mem_append.1 hn with hn | hn
      · exact .inr ⟨r, hr, hn⟩
      · exact .inl (mem_singleton.1 hn).ge
  | installCompaction =>
    simp only [step, installCompaction] at hs
    split at hs
    · cases hs
    · simp only [guard_eq_some] at hs
      rw [← hs.2] at h
      rcases h with h | ⟨r', hr', -⟩
      · exact .inl h
      · cases hr'
  | getSnapshot =>
    cases hs
    exact h
  | releaseSnapshot s =>
    simp only [step, guard_eq_some] at hs
    rw [← hs.2] at h
    exact h

lemma DB.unused_of_mem_newFiles (hp : p ∈ (db.editOf o a).newFiles)
    (hmove : ∀ hint, a ≠ .startCompaction hint) : db.Unused p.2.number := by
  cases a with
  | compactMemTable =>
    unfold editOf at hp
    cases himm : db.imm with
    | none =>
      rw [himm] at hp
      cases hp
    | some imm =>
      rw [himm] at hp
      exact .inl (buildTable_some (mem_writeLevel0Table hp).1).2.ge
  | startCompaction hint => exact absurd rfl (hmove hint)
  | installCompaction =>
    unfold editOf at hp
    dsimp only at hp
    split at hp
    · rename_i r hr
      obtain ⟨f, hf, rfl⟩ := mem_map.1 hp
      exact .inr ⟨r, hr, (mem_outputFiles hf).1⟩
    · cases hp
  | write _ => cases hp
  | switchMemTable => cases hp
  | startManual _ _ _ => cases hp
  | openOutput => cases hp
  | getSnapshot => cases hp
  | releaseSnapshot _ => cases hp

end RallyDB.Db
