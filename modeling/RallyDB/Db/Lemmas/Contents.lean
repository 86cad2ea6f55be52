import RallyDB.Db.Lemmas.Numbers

/-!
# The entries of a database, counted with repetition
-/

namespace RallyDB.Db

open RallyDB.Lib List Compaction WorkState
open Finset (range sum_add_distrib sum_congr)
open VersionEdit (newAt)

variable {κ : Type*} [LinearOrder κ] {db : DB κ} {o : Options κ}

/-! ## What the compaction loop writes -/

def WorkState.Wrote (done : List (Entry κ)) (w : WorkState κ) : Prop := w.NoEmpty ∧ w.emitted.Sublist done

variable {done : List (Entry κ)} {w : WorkState κ}

lemma WorkState.Wrote.finishOutput (h : w.Wrote done) : w.finishOutput.Wrote done :=
  ⟨h.1.finishOutput, w.finishOutput_emitted ▸ h.2⟩

lemma WorkState.Wrote.of_eq {w' : WorkState κ} (h : w.Wrote done)
    (hb : w'.builder = w.builder) (ho : w'.outputs = w.outputs) : w'.Wrote done := by
  unfold WorkState.Wrote WorkState.NoEmpty emitted at h ⊢
  rwa [hb, ho]

lemma dropEntry_kept (c : Compaction κ) (q : Nat) (key : InternalKey κ) (w : WorkState κ) :
    (c.dropEntry q key w).1.builder = w.builder ∧ (c.dropEntry q key w).1.outputs = w.outputs := by
  unfold dropEntry
  dsimp only
  split_ifs
  · exact ⟨w.enterKey_builder _, w.enterKey_outputs _⟩
  · exact ⟨w.enterKey_builder _, w.enterKey_outputs _⟩
  · exact ⟨w.enterKey_builder _, w.enterKey_outputs _⟩

lemma WorkState.Wrote.processEntry (h : w.Wrote done) (c : Compaction κ)
    (o : Options κ) (q : Nat) (e : Entry κ) : (c.processEntry o q w e).Wrote (done ++ [e]) := by
  have hstop : (c.shouldStopBefore o e.1 w).1.Wrote done := by
    unfold Compaction.shouldStopBefore
    dsimp only
    split_ifs <;> exact h.of_eq rfl rfl
  have hclosed : (if (c.shouldStopBefore o e.1 w).2 then (c.shouldStopBefore o e.1 w).1.finishOutput
      else (c.shouldStopBefore o e.1 w).1).Wrote done := by
    split_ifs
    · exact hstop.finishOutput
    · exact hstop
  unfold Compaction.processEntry
  dsimp only
  generalize (if (c.shouldStopBefore o e.1 w).2 then (c.shouldStopBefore o e.1 w).1.finishOutput
      else (c.shouldStopBefore o e.1 w).1) = w1 at hclosed ⊢
  have hdrop := hclosed.of_eq (dropEntry_kept c q e.1 w1).1 (dropEntry_kept c q e.1 w1).2
  split_ifs
  · exact ⟨hdrop.1, hdrop.2.trans (sublist_append_left _ _)⟩
  · refine ⟨hdrop.1.addEntry o e, ?_⟩
    rw [WorkState.addEntry_emitted]
    exact hdrop.2.append_right [e]

lemma WorkState.Wrote.foldl (h : w.Wrote done) (c : Compaction κ)
    (o : Options κ) (q : Nat) (es : List (Entry κ)) : (es.foldl (c.processEntry o q) w).Wrote (done ++ es) := by
  induction es generalizing done w with
  | nil => simpa using h
  | cons e es ih => simpa using ih (h.processEntry c o q e)

lemma doCompactionWork_sublist (c : Compaction κ) (o : Options κ) (q : Nat) :
    (c.doCompactionWork o q).flatten.Sublist c.makeInputIterator ∧ ∀ l ∈ c.doCompactionWork o q, l ≠ [] := by
  have h0 : ({} : WorkState κ).Wrote [] := ⟨⟨by simp, by simp⟩, by simp [emitted]⟩
  have h := (h0.foldl c o q c.makeInputIterator).finishOutput
  refine ⟨?_, h.1.1⟩
  have hsub := h.2
  rw [emitted, finishOutput_builder] at hsub
  simpa [doCompactionWork] using hsub

lemma flatMap_outputFiles {numbers : List Nat} {outputs : List (List (Entry κ))} (hlen : outputs.length = numbers.length)
    (hs : ∀ l ∈ outputs, SortedEntries l ∧ l ≠ []) :
    (outputFiles o numbers outputs).flatMap (·.entries) = outputs.flatten := by
  induction outputs generalizing numbers with
  | nil => simp [outputFiles]
  | cons l outputs ih =>
    cases numbers with
    | nil => cases hlen
    | cons n numbers =>
      obtain ⟨f, hf⟩ := buildTable_isSome (o := o) n (hs l mem_cons_self).1 (hs l mem_cons_self).2
      have hrest := ih (Nat.succ.inj hlen) fun l hl => hs l (mem_cons_of_mem _ hl)
      simp only [outputFiles, zip_cons_cons, filterMap_cons, hf, flatMap_cons, flatten_cons,
        (buildTable_some hf).1] at hrest ⊢
      rw [hrest]

def fileContents (files : List (FileMetaData κ)) : Multiset (Entry κ) := ↑(files.flatMap (·.entries))

def Version.contents (v : Version κ) : Multiset (Entry κ) := ∑ l ∈ Finset.range kNumLevels, fileContents (v.files l)

def DB.contents (db : DB κ) : Multiset (Entry κ) := ↑db.mem + ↑(db.imm.getD []) + db.current.contents

lemma fileContents_append (fs gs : List (FileMetaData κ)) : fileContents (fs ++ gs) = fileContents fs + fileContents gs := by
  simp [fileContents]

lemma fileContents_perm {fs gs : List (FileMetaData κ)} (h : fs.Perm gs) : fileContents fs = fileContents gs :=
  Multiset.coe_eq_coe.2 (h.flatMap_right _)

variable {v : Version κ}

lemma EditNew.perm_files {edit : VersionEdit κ} (h : EditNew v edit) {l : Nat} (hs : (v.files l).Pairwise FileLt) :
    ((v.logAndApply edit).files l).Perm
    ((v.files l).filter (fun f => (l, f.number) ∉ edit.deletedFiles) ++ edit.newAt l) := by
  have hnew : (edit.newAt l).Nodup := by
    have hnodup := h.editOk.distinct l
    exact hnodup.imp fun hne he => hne (congrArg _ he)
  refine (perm_ext_iff_of_nodup (nodup_of_fileLt (h.editOk.sorted hs)) ?_).2 fun f => ?_
  · refine nodup_append.2 ⟨(nodup_of_fileLt hs).filter _, hnew, fun f hf g hg he => ?_⟩
    subst he
    have hmem := VersionEdit.mem_newAt.1 hg
    exact (h.fresh _ hmem l f (mem_of_mem_filter hf) rfl).2 rfl
  · rw [h.editOk.mem_files, mem_append, mem_filter, decide_eq_true_eq]

lemma EditNew.contents {edit : VersionEdit κ} (h : EditNew v edit) (hs : ∀ l, (v.files l).Pairwise FileLt) :
    (v.logAndApply edit).contents +
    ∑ l ∈ range kNumLevels, fileContents ((v.files l).filter fun f => (l, f.number) ∈ edit.deletedFiles) =
    v.contents + ∑ l ∈ range kNumLevels, fileContents (edit.newAt l) := by
  rw [Version.contents, Version.contents, ← sum_add_distrib, ← sum_add_distrib]
  refine sum_congr rfl fun l _ => ?_
  have hsplit : fileContents (v.files l) = fileContents ((v.files l).filter fun f => (l, f.number) ∈ edit.deletedFiles) +
      fileContents ((v.files l).filter fun f => (l, f.number) ∉ edit.deletedFiles) := by
    rw [← fileContents_append]
    refine fileContents_perm ?_
    simpa using (filter_append_perm (fun f => decide ((l, f.number) ∈ edit.deletedFiles)) (v.files l)).symm
  rw [fileContents_perm (h.perm_files (hs l)), fileContents_append, hsplit]
  abel

/-! ## Edits of the database -/

lemma newAt_level (deletedFiles : List (Nat × Nat)) (files : List (FileMetaData κ)) (level l : Nat) :
    newAt ⟨deletedFiles, files.map fun f => (level, f)⟩ l = if l = level then files else [] := by
  by_cases h : l = level
  · simp [newAt, filter_map, Function.comp_def, h]
  · simp [newAt, filter_map, Function.comp_def, h, Ne.symm h]

lemma sum_level {level : Nat} (h : level < kNumLevels) (files : List (FileMetaData κ)) :
    ∑ l ∈ range kNumLevels, fileContents (if l = level then files else []) = fileContents files := by
  rw [Finset.sum_eq_single_of_mem level (Finset.mem_range.2 h), if_pos rfl]
  intro l _ hl
  rw [if_neg hl]
  rfl

lemma pickLevel_lt (v : Version κ) (lo hi : κ) : v.pickLevelForMemTableOutput o lo hi < kNumLevels := by
  have hloop : ∀ start ≤ kMaxMemCompactLevel, v.pickLevelLoop o lo hi start ≤ kMaxMemCompactLevel := by
    intro start hstart
    fun_induction Version.pickLevelLoop v o lo hi start with
    | case1 => assumption
    | case2 => assumption
    | case3 level hlt _ _ ih => exact ih hlt
    | case4 => assumption
  unfold Version.pickLevelForMemTableOutput
  split
  · decide
  · exact (hloop 0 (Nat.zero_le _)).trans_lt (by decide)

lemma DB.Numbered.contents_flush (h : db.Numbered) {imm : MemTable κ} (hsorted : SortedEntries imm) :
    (db.current.logAndApply (db.writeLevel0Table o imm)).contents = db.current.contents + ↑imm := by
  have hcontents := (h.editNew_flush (o := o) imm).contents h.sorted
  unfold DB.writeLevel0Table at hcontents ⊢
  split at hcontents
  · rename_i hnone
    have himm : imm = [] := by
      by_contra hne
      obtain ⟨f, hf⟩ := buildTable_isSome (o := o) db.nextFileNumber hsorted hne
      rw [hnone] at hf
      cases hf
    rw [logAndApply_empty, himm]
    simp
  · rename_i f hf
    have hnew := newAt_level [] [f] (db.current.pickLevelForMemTableOutput o f.smallest.userKey f.largest.userKey)
    simp only [map_cons, map_nil] at hnew
    simp only [hnew, sum_level (pickLevel_lt _ _ _)] at hcontents
    simpa [fileContents, (buildTable_some hf).1] using hcontents

variable {c : Compaction κ}

lemma perm_inputs (hfrom : InputsFrom v c) (hn : ∀ l, (v.files l).Nodup)
    (hunique : ∀ l l' f g, f ∈ v.files l → g ∈ v.files l' → f.number = g.number → l = l' ∧ f = g) (l : Nat) :
    ((v.files l).filter fun f => (l, f.number) ∈ c.inputDeletions).Perm
    ((if l = c.level then c.inputs0 else []) ++ if l = c.level + 1 then c.inputs1 else []) := by
  have hmem : ∀ f ∈ v.files l, (l, f.number) ∈ c.inputDeletions ↔
      (l = c.level ∧ f ∈ c.inputs0) ∨ (l = c.level + 1 ∧ f ∈ c.inputs1) := by
    intro f hf
    simp only [inputDeletions, mem_append, mem_map, Prod.mk.injEq]
    constructor
    · rintro (⟨g, hg, hl, he⟩ | ⟨g, hg, hl, he⟩)
      · cases (hunique _ _ _ _ (hfrom.mem0 g hg) hf he).2
        exact .inl ⟨hl.symm, hg⟩
      · cases (hunique _ _ _ _ (hfrom.mem1 g hg) hf he).2
        exact .inr ⟨hl.symm, hg⟩
    · rintro (⟨hl, hg⟩ | ⟨hl, hg⟩)
      · exact .inl ⟨f, hg, hl.symm, rfl⟩
      · exact .inr ⟨f, hg, hl.symm, rfl⟩
  refine (perm_ext_iff_of_nodup ((hn l).filter _) ?_).2 fun f => ?_
  · by_cases h0 : l = c.level
    · rw [if_pos h0, if_neg (by omega), append_nil]
      exact hfrom.nodup0
    · rw [if_neg h0, nil_append]
      split_ifs
      · exact hfrom.nodup1
      · exact nodup_nil
  · rw [mem_filter, decide_eq_true_eq, mem_append]
    constructor
    · rintro ⟨hf, hdel⟩
      rcases (hmem f hf).1 hdel with ⟨hl, hg⟩ | ⟨hl, hg⟩
      · exact .inl (by rwa [if_pos hl])
      · exact .inr (by rwa [if_pos hl])
    · rintro (hf | hf)
      · split_ifs at hf with hl
        · have hin : f ∈ v.files l := hl ▸ hfrom.mem0 f hf
          exact ⟨hin, (hmem f hin).2 (.inl ⟨hl, hf⟩)⟩
        · cases hf
      · split_ifs at hf with hl
        · have hin : f ∈ v.files l := hl ▸ hfrom.mem1 f hf
          exact ⟨hin, (hmem f hin).2 (.inr ⟨hl, hf⟩)⟩
        · cases hf

lemma DB.Numbered.sum_deleted (h : db.Numbered) (hfrom : InputsFrom db.current c) (hlevel : c.level + 1 < kNumLevels) :
    ∑ l ∈ range kNumLevels, fileContents ((db.current.files l).filter fun f => (l, f.number) ∈ c.inputDeletions) =
    fileContents c.inputs := by
  calc ∑ l ∈ range kNumLevels,
        fileContents ((db.current.files l).filter fun f => (l, f.number) ∈ c.inputDeletions)
      = ∑ l ∈ range kNumLevels, (fileContents (if l = c.level then c.inputs0 else []) +
          fileContents (if l = c.level + 1 then c.inputs1 else [])) := by
        refine sum_congr rfl fun l _ => ?_
        rw [fileContents_perm (perm_inputs hfrom h.nodup h.unique l), fileContents_append]
    _ = fileContents c.inputs0 + fileContents c.inputs1 := by
        rw [sum_add_distrib, sum_level (Nat.lt_of_succ_lt hlevel), sum_level hlevel]
    _ = fileContents c.inputs := (fileContents_append _ _).symm

lemma DB.Numbered.inputs_le (h : db.Numbered) (hfrom : InputsFrom db.current c)
    (hlevel : c.level + 1 < kNumLevels) : fileContents c.inputs ≤ db.contents := by
  refine le_trans ?_ (Multiset.le_add_left _ _)
  rw [← h.sum_deleted hfrom hlevel, Version.contents]
  refine Finset.sum_le_sum fun l _ => ?_
  exact Multiset.coe_le.2 (List.Sublist.flatMap filter_sublist _).subperm

lemma DB.Numbered.contents_install (h : db.Numbered) (hfrom : InputsFrom db.current c)
    (hlevel : c.level + 1 < kNumLevels) {files : List (FileMetaData κ)} (hnew : EditNew db.current (c.installEdit files)) :
    (db.current.logAndApply (c.installEdit files)).contents + fileContents c.inputs =
    db.current.contents + fileContents files := by
  have hcontents := hnew.contents h.sorted
  simp only [installEdit, newAt_level, sum_level hlevel] at hcontents
  rw [← h.sum_deleted hfrom hlevel]
  exact hcontents

lemma moveEdit_eq (h : c.inputs1 = []) : c.moveEdit = c.installEdit c.inputs0 := by
  simp [moveEdit, installEdit, inputDeletions, h]

end RallyDB.Db
