import RallyDB.Db.VersionSet

/-!
# The version that an edit makes
-/

namespace RallyDB.Db

open RallyDB.Lib List Builder

variable {κ : Type*} [LinearOrder κ]

def FileLt (f g : FileMetaData κ) : Prop := bySmallestKey f g = true

variable {f g : FileMetaData κ}

lemma fileLt_iff : FileLt f g ↔ f.smallest < g.smallest ∨ f.smallest = g.smallest ∧ f.number < g.number := by
  unfold FileLt bySmallestKey
  by_cases h : f.smallest = g.smallest
  · simp [h]
  · simp [h]

lemma FileLt.trans {h : FileMetaData κ} (h1 : FileLt f g) (h2 : FileLt g h) : FileLt f h := by
  rw [fileLt_iff] at *
  rcases h1 with h1 | ⟨h1, h1'⟩ <;> rcases h2 with h2 | ⟨h2, h2'⟩
  · exact .inl (h1.trans h2)
  · exact .inl (h2 ▸ h1)
  · exact .inl (h1 ▸ h2)
  · exact .inr ⟨h1.trans h2, h1'.trans h2'⟩

lemma FileLt.irrefl (f : FileMetaData κ) : ¬ FileLt f f := by
  rw [fileLt_iff]
  simp

lemma FileLt.smallest_le (h : FileLt f g) : f.smallest ≤ g.smallest := by
  rcases fileLt_iff.1 h with h | ⟨h, _⟩
  · exact h.le
  · exact h.le

lemma fileLt_or_fileLt (h : f.number ≠ g.number) : FileLt f g ∨ FileLt g f := by
  rw [fileLt_iff, fileLt_iff]
  rcases lt_trichotomy f.smallest g.smallest with h1 | h1 | h1
  · exact .inl (.inl h1)
  · rcases Nat.lt_or_gt_of_ne h with h2 | h2
    · exact .inl (.inr ⟨h1, h2⟩)
    · exact .inr (.inr ⟨h1.symm, h2⟩)
  · exact .inr (.inl h1)

/-! ## The added files -/

variable {files base : List (FileMetaData κ)}

lemma mem_insertAdded (h : ∀ x ∈ files, x.number ≠ f.number) : g ∈ insertAdded f files ↔ g = f ∨ g ∈ files := by
  induction files with
  | nil => simp [insertAdded]
  | cons x files ih =>
    have ih := ih fun y hy => h y (by simp [hy])
    unfold insertAdded
    split
    · simp
    · split
      · simp only [mem_cons, ih]
        tauto
      · rename_i h1 h2
        rcases fileLt_or_fileLt (h x (by simp)) with hlt | hlt
        · exact absurd hlt h2
        · exact absurd hlt h1

lemma insertAdded_sorted (hs : files.Pairwise FileLt)
    (h : ∀ x ∈ files, x.number ≠ f.number) : (insertAdded f files).Pairwise FileLt := by
  induction files with
  | nil => simp [insertAdded]
  | cons x files ih =>
    have hrest : ∀ y ∈ files, y.number ≠ f.number := fun y hy => h y (by simp [hy])
    have ih := ih hs.of_cons hrest
    unfold insertAdded
    split
    · rename_i hfx
      refine List.Pairwise.cons (fun y hy => ?_) hs
      rcases mem_cons.1 hy with rfl | hy
      · exact hfx
      · exact FileLt.trans hfx (rel_of_pairwise_cons hs hy)
    · split
      · rename_i hxf
        refine List.Pairwise.cons (fun y hy => ?_) ih
        rcases (mem_insertAdded hrest).1 hy with rfl | hy
        · exact hxf
        · exact rel_of_pairwise_cons hs hy
      · exact hs

def VersionEdit.newAt (edit : VersionEdit κ) (level : Nat) : List (FileMetaData κ) :=
  (edit.newFiles.filter (·.1 = level)).map (·.2)

variable {edit : VersionEdit κ} {level : Nat}

lemma VersionEdit.mem_newAt : f ∈ edit.newAt level ↔ (level, f) ∈ edit.newFiles := by
  simp [VersionEdit.newAt]

lemma mem_foldl_insertAdded {new : List (FileMetaData κ)}
    (hn : new.Pairwise fun f g => f.number ≠ g.number) (h : ∀ x ∈ files, ∀ f ∈ new, x.number ≠ f.number)
    (hs : files.Pairwise FileLt) : (∀ g, g ∈ new.foldl (fun acc f => insertAdded f acc) files ↔ g ∈ new ∨ g ∈ files) ∧
    (new.foldl (fun acc f => insertAdded f acc) files).Pairwise FileLt := by
  induction new generalizing files with
  | nil => simpa using hs
  | cons f new ih =>
    have hf : ∀ x ∈ files, x.number ≠ f.number := fun x hx => h x hx f (by simp)
    have hstep : ∀ x ∈ insertAdded f files, ∀ g ∈ new, x.number ≠ g.number := by
      intro x hx g hg
      rcases (mem_insertAdded hf).1 hx with rfl | hx
      · exact rel_of_pairwise_cons hn hg
      · exact h x hx g (by simp [hg])
    obtain ⟨h1, h2⟩ := ih hn.of_cons hstep (insertAdded_sorted hs hf)
    refine ⟨fun g => ?_, h2⟩
    rw [foldl_cons, h1 g, mem_insertAdded hf, mem_cons]
    tauto

lemma foldl_deleteFile (deleted : List (Nat × Nat)) (b : Builder κ) :
    (deleted.foldl (fun b p => b.deleteFile p.1 p.2) b).base = b.base ∧
    (deleted.foldl (fun b p => b.deleteFile p.1 p.2) b).addedFiles = b.addedFiles ∧
    ∀ level n, n ∈ (deleted.foldl (fun b p => b.deleteFile p.1 p.2) b).deletedFiles level ↔
    (level, n) ∈ deleted ∨ n ∈ b.deletedFiles level := by
  induction deleted generalizing b with
  | nil => simp
  | cons p deleted ih =>
    obtain ⟨h1, h2, h3⟩ := ih (b.deleteFile p.1 p.2)
    refine ⟨h1, h2, fun level n => ?_⟩
    rw [foldl_cons, h3, mem_cons]
    by_cases hl : level = p.1
    · subst hl
      simp only [deleteFile, Function.update_self, mem_cons, Prod.ext_iff, true_and]
      tauto
    · simp [deleteFile, Prod.ext_iff, hl]

lemma foldl_addFile (new : List (Nat × FileMetaData κ)) (b : Builder κ) :
    (new.foldl (fun b p => b.addFile p.1 p.2) b).base = b.base ∧
    ∀ level, (new.foldl (fun b p => b.addFile p.1 p.2) b).addedFiles level =
    ((new.filter (·.1 = level)).map (·.2)).foldl (fun acc f => insertAdded f acc) (b.addedFiles level) ∧
    ∀ n, n ∈ (new.foldl (fun b p => b.addFile p.1 p.2) b).deletedFiles level ↔
    n ∈ b.deletedFiles level ∧ ∀ f, (level, f) ∈ new → n ≠ f.number := by
  induction new generalizing b with
  | nil => simp
  | cons p new ih =>
    obtain ⟨h1, h2⟩ := ih (b.addFile p.1 p.2)
    refine ⟨h1, fun level => ?_⟩
    obtain ⟨h2, h3⟩ := h2 level
    by_cases hl : level = p.1
    · subst hl
      refine ⟨?_, fun n => ?_⟩
      · rw [foldl_cons, h2]
        simp [addFile]
      rw [foldl_cons, h3]
      simp only [addFile, Function.update_self, mem_filter, decide_eq_true_eq, mem_cons, Prod.ext_iff, true_and]
      constructor
      · rintro ⟨⟨h4, h5⟩, h6⟩
        refine ⟨h4, ?_⟩
        rintro f (rfl | hf)
        · exact h5
        · exact h6 f hf
      · rintro ⟨h4, h5⟩
        exact ⟨⟨h4, h5 p.2 (.inl rfl)⟩, fun f hf => h5 f (.inr hf)⟩
    · refine ⟨?_, fun n => ?_⟩
      · rw [foldl_cons, h2]
        simp [addFile, Ne.symm hl, hl]
      · rw [foldl_cons, h3]
        simp [addFile, Prod.ext_iff, hl]

lemma mem_saveLevel {deleted : List Nat} {added : List (FileMetaData κ)} :
    f ∈ saveLevel deleted base added ↔ (f ∈ base ∨ f ∈ added) ∧ f.number ∉ deleted := by
  induction added generalizing base with
  | nil => simp [saveLevel]
  | cons a added ih =>
    have hb : f ∈ base ↔ f ∈ base.takeWhile (fun f => !bySmallestKey a f) ∨
        f ∈ base.dropWhile (fun f => !bySmallestKey a f) := by
      rw [← mem_append, takeWhile_append_dropWhile]
    simp only [saveLevel, mem_append, ih, mem_filter, decide_eq_true_eq, mem_cons, not_mem_nil, or_false, hb]
    tauto

lemma saveLevel_sorted {deleted : List Nat} {added : List (FileMetaData κ)}
    (hb : base.Pairwise FileLt) (ha : added.Pairwise FileLt)
    (h : ∀ f ∈ base, ∀ a ∈ added, f.number ≠ a.number) : (saveLevel deleted base added).Pairwise FileLt := by
  induction added generalizing base with
  | nil => exact hb.filter _
  | cons a added ih =>
    have hsplit := takeWhile_append_dropWhile (l := base) (p := fun f => !bySmallestKey a f)
    have hbefore : ∀ f ∈ base.takeWhile fun f => !bySmallestKey a f, FileLt f a := by
      intro f hf
      have hnot : ¬ FileLt a f := by
        have := all_eq_true.1 all_takeWhile f hf
        simpa [FileLt] using this
      have hm : f ∈ base := (takeWhile_sublist _).mem hf
      exact (fileLt_or_fileLt (h f hm a (by simp))).resolve_right hnot
    have hd : (base.dropWhile fun f => !bySmallestKey a f).Pairwise FileLt :=
      hb.sublist (dropWhile_sublist _)
    have hafter : ∀ f ∈ base.dropWhile fun f => !bySmallestKey a f, FileLt a f := by
      intro f hf
      cases hdw : base.dropWhile fun f => !bySmallestKey a f with
      | nil => simp [hdw] at hf
      | cons g rest =>
        have hg : FileLt a g := by
          have := head_dropWhile_not (fun f => !bySmallestKey a f) (l := base) (by simp [hdw])
          simpa [hdw, FileLt] using this
        rw [hdw] at hf hd
        rcases mem_cons.1 hf with rfl | hf
        · exact hg
        · exact hg.trans (rel_of_pairwise_cons hd hf)
    have hlater : ∀ f ∈ saveLevel deleted (base.dropWhile fun f => !bySmallestKey a f) added, FileLt a f := by
      intro f hf
      rcases (mem_saveLevel.1 hf).1 with hf | hf
      · exact hafter f hf
      · exact rel_of_pairwise_cons ha hf
    have ih := ih hd ha.of_cons fun f hf b hb' =>
      h f ((dropWhile_sublist _).mem hf) b (by simp [hb'])
    rw [saveLevel, append_assoc, pairwise_append, pairwise_append]
    refine ⟨(hb.sublist (takeWhile_sublist _)).filter _, ⟨?_, ih, ?_⟩, ?_⟩
    · exact (pairwise_singleton _ a).filter _
    · intro x hx f hf
      obtain rfl : x = a := by simpa using (mem_filter.1 hx).1
      exact hlater f hf
    · intro x hx f hf
      have hxa := hbefore x (mem_filter.1 hx).1
      rcases mem_append.1 hf with hf | hf
      · obtain rfl : f = a := by simpa using (mem_filter.1 hf).1
        exact hxa
      · exact hxa.trans (hlater f hf)

structure EditOk (v : Version κ) (edit : VersionEdit κ) : Prop where
  distinct : ∀ level, (edit.newAt level).Pairwise fun f g => f.number ≠ g.number
  fresh : ∀ level, ∀ f ∈ v.files level, ∀ g ∈ edit.newAt level, f.number ≠ g.number

variable {v : Version κ}

lemma EditOk.added (h : EditOk v edit) (level : Nat) :
    (∀ g, g ∈ ((init v).apply edit).addedFiles level ↔ g ∈ edit.newAt level) ∧
    (((init v).apply edit).addedFiles level).Pairwise FileLt := by
  have hadd := (foldl_addFile edit.newFiles (edit.deletedFiles.foldl (fun b p => b.deleteFile p.1 p.2) (init v))).2 level
  have hdel := (foldl_deleteFile edit.deletedFiles (init v)).2.1
  obtain ⟨h1, h2⟩ := mem_foldl_insertAdded (h.distinct level)
    (by simp : ∀ x ∈ ([] : List (FileMetaData κ)), ∀ f ∈ edit.newAt level, x.number ≠ f.number) .nil
  rw [apply, hadd.1, hdel]
  exact ⟨fun g => (h1 g).trans (by simp), h2⟩

lemma Builder.apply_base (v : Version κ) (edit : VersionEdit κ) : ((init v).apply edit).base = v := by
  rw [apply, (foldl_addFile _ _).1, (foldl_deleteFile _ _).1]
  rfl

lemma EditOk.mem_files (h : EditOk v edit) : f ∈ (v.logAndApply edit).files level ↔
    f ∈ v.files level ∧ (level, f.number) ∉ edit.deletedFiles ∨ f ∈ edit.newAt level := by
  have hdeleted : ∀ n, n ∈ ((init v).apply edit).deletedFiles level ↔
      (level, n) ∈ edit.deletedFiles ∧ ∀ g ∈ edit.newAt level, n ≠ g.number := by
    intro n
    rw [apply, ((foldl_addFile _ _).2 level).2, (foldl_deleteFile _ _).2.2]
    simp [init, VersionEdit.mem_newAt]
  rw [Version.logAndApply, saveTo, mem_saveLevel, apply_base, (h.added level).1, hdeleted]
  constructor
  · rintro ⟨hf | hf, hn⟩
    · exact .inl ⟨hf, fun hd => hn ⟨hd, h.fresh level f hf⟩⟩
    · exact .inr hf
  · rintro (⟨hf, hn⟩ | hf)
    · exact ⟨.inl hf, fun hd => hn hd.1⟩
    · exact ⟨.inr hf, fun hd => hd.2 f hf rfl⟩

lemma EditOk.sorted (h : EditOk v edit)
    (hs : (v.files level).Pairwise FileLt) : ((v.logAndApply edit).files level).Pairwise FileLt := by
  rw [Version.logAndApply, saveTo, apply_base]
  refine saveLevel_sorted hs (h.added level).2 fun f hf a ha => ?_
  exact h.fresh level f hf a (((h.added level).1 a).1 ha)

end RallyDB.Db
