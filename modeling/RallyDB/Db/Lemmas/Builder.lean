import RallyDB.Db.Manifest

/-!
# One builder for all edits, and one for each
-/

namespace RallyDB.Db.Descriptor

open Util Lib List Descriptor.Builder LevelState

def fileRank (f : FileMetaData) : (Slice ×ₗ Natᵒᵈ) ×ₗ Nat := toLex (keyRank f.smallest, f.number)

lemma internalKeyCompare_eq_iff {a b : Slice} : internalKeyCompare a b = .eq ↔ keyRank a = keyRank b := by
  have hrank : keyRank a = keyRank b ↔ extractUserKey a = extractUserKey b ∧ extractTag a = extractTag b := by
    simp [keyRank]
  unfold internalKeyCompare
  rw [hrank, ← bytewiseCompare_eq_iff]
  cases h : bytewiseCompare (extractUserKey a) (extractUserKey b) with
  | lt => simp
  | gt => simp
  | eq =>
    dsimp only
    split_ifs with h1 h2
    · simp [h1.ne']
    · simp [h2.ne]
    · simp [le_antisymm (not_lt.1 h1) (not_lt.1 h2)]

lemma bySmallestKey_iff (f g : FileMetaData) : bySmallestKey f g = true ↔ fileRank f < fileRank g := by
  unfold bySmallestKey fileRank
  rw [Prod.Lex.toLex_lt_toLex, ← internalKeyCompare_lt_iff, ← internalKeyCompare_eq_iff]
  cases internalKeyCompare f.smallest g.smallest <;> simp

lemma fileRank_ne {f g : FileMetaData} (h : f.number ≠ g.number) : fileRank f ≠ fileRank g := by
  unfold fileRank
  simp [h]

/-! ## One level -/

variable {s : LevelState} {deleted : List Nat} {new : List FileMetaData}

variable {n level : Nat}

lemma mem_foldl_deleteFile : n ∈ (deleted.foldl deleteFile s).deletedFiles ↔ n ∈ deleted ∨ n ∈ s.deletedFiles := by
  induction deleted generalizing s with
  | nil => simp
  | cons m deleted ih =>
    rw [foldl_cons, ih]
    simp only [deleteFile, mem_cons]
    tauto

lemma addedFiles_foldl_deleteFile : (deleted.foldl deleteFile s).addedFiles = s.addedFiles := by
  induction deleted generalizing s with
  | nil => rfl
  | cons m deleted ih => rw [foldl_cons, ih, deleteFile]

lemma mem_foldl_addFile : n ∈ (new.foldl addFile s).deletedFiles ↔ n ∈ s.deletedFiles ∧ ∀ f ∈ new, f.number ≠ n := by
  induction new generalizing s with
  | nil => simp
  | cons f new ih =>
    rw [foldl_cons, ih, forall_mem_cons]
    simp only [addFile, mem_filter, decide_eq_true_eq]
    have : n ≠ f.number ↔ f.number ≠ n := ne_comm
    tauto

lemma addedFiles_foldl_addFile :
    (new.foldl addFile s).addedFiles = new.foldl (fun l f => setInsert bySmallestKey f l) s.addedFiles := by
  induction new generalizing s with
  | nil => rfl
  | cons f new ih => rw [foldl_cons, ih, foldl_cons, addFile]

lemma mem_deletedFiles_apply :
    n ∈ (s.apply deleted new).deletedFiles ↔ (n ∈ deleted ∨ n ∈ s.deletedFiles) ∧ ∀ f ∈ new, f.number ≠ n := by
  rw [LevelState.apply, mem_foldl_addFile, mem_foldl_deleteFile]

lemma addedFiles_apply :
    (s.apply deleted new).addedFiles = new.foldl (fun l f => setInsert bySmallestKey f l) s.addedFiles := by
  rw [LevelState.apply, addedFiles_foldl_addFile, addedFiles_foldl_deleteFile]

def LevelState.files (s : LevelState) : List FileMetaData := s.addedFiles.filter fun f => f.number ∉ s.deletedFiles

lemma LevelState.ascending_files (h : Ascending fileRank s.addedFiles) : Ascending fileRank s.files := h.filter _

lemma LevelState.files_apply (h : Ascending fileRank s.addedFiles)
    (hfresh : ∀ f ∈ new, ∀ g ∈ s.addedFiles, g.number ≠ f.number) : (s.apply deleted new).files =
      (setMerge bySmallestKey s.files (apply ⟨[], []⟩ deleted new).addedFiles).filter
        fun f => f.number ∉ (apply ⟨[], []⟩ deleted new).deletedFiles := by
  have hempty : Ascending fileRank ([] : List FileMetaData) := .nil
  have hnew : ∀ g ∈ new.foldl (fun l f => setInsert bySmallestKey f l) [], g ∈ new := fun g hg =>
    (mem_of_mem_foldl_setInsert bySmallestKey_iff new hempty hg).resolve_left (not_mem_nil)
  have hmem : ∀ g, g ∈ new.foldl (fun l f => setInsert bySmallestKey f l) s.addedFiles ↔
      g ∈ s.addedFiles ∨ g ∈ new.foldl (fun l f => setInsert bySmallestKey f l) [] := fun g =>
    mem_foldl_setInsert bySmallestKey_iff new h hempty (by simp) fun f hf g hg => fileRank_ne (hfresh f hf g hg)
  refine Ascending.eq_of_mem_iff (?_ : Ascending fileRank _) ?_ fun g => ?_
  · refine ascending_files ?_
    rw [addedFiles_apply]
    exact ascending_foldl_setInsert bySmallestKey_iff new h
  · refine Ascending.filter (Ascending.setMerge bySmallestKey_iff (ascending_files h) ?_ ?_) _
    · rw [addedFiles_apply]
      exact ascending_foldl_setInsert bySmallestKey_iff new hempty
    · intro f hf g hg
      rw [addedFiles_apply] at hf
      exact fileRank_ne (hfresh f (hnew f hf) g (mem_of_mem_filter hg))
  · simp only [files, mem_filter, decide_eq_true_eq, mem_setMerge, mem_deletedFiles_apply, addedFiles_apply,
      hmem g, not_mem_nil, or_false]
    by_cases hg : g ∈ new.foldl (fun l f => setInsert bySmallestKey f l) []
    · have hadded : ¬ ∀ f ∈ new, f.number ≠ g.number := fun hall => hall g (hnew g hg) rfl
      tauto
    · by_cases hold : g ∈ s.addedFiles
      · have hother : ∀ f ∈ new, f.number ≠ g.number := fun f hf => (hfresh f hf g hold).symm
        tauto
      · tauto

/-! ## All levels -/

structure Collects (b : Builder) (v : Version) (removed : List (Nat × Nat)) : Prop where
  base : b.base = fun _ => []
  ascending : ∀ level, Ascending fileRank (b.levels level).addedFiles
  files : ∀ level, (b.levels level).files = v level
  removed : ∀ level, ∀ n ∈ (b.levels level).deletedFiles, (level, n) ∈ removed

variable {b : Builder} {v : Version} {removed : List (Nat × Nat)}

lemma Collects.known (h : Collects b v removed) {f : FileMetaData}
    (hf : f ∈ (b.levels level).addedFiles) : f ∈ v level ∨ (level, f.number) ∈ removed := by
  by_cases hdeleted : f.number ∈ (b.levels level).deletedFiles
  · exact .inr (h.removed level _ hdeleted)
  · refine .inl ?_
    rw [← h.files level, LevelState.files, mem_filter]
    exact ⟨hf, decide_eq_true hdeleted⟩

lemma Collects.saveTo (h : Collects b v removed) : b.saveTo = v := by
  funext level
  have hmerge : ∀ l : List FileMetaData, setMerge bySmallestKey [] l = l := fun l => by
    induction l with
    | nil => rfl
    | cons f l ih => simpa [setMerge] using ih
  rw [Builder.saveTo, h.base, hmerge]
  exact h.files level

def Fresh (v : Version) (removed : List (Nat × Nat)) (edit : VersionEdit) : Prop :=
  ∀ p ∈ edit.newFiles, (∀ g ∈ v p.1, g.number ≠ p.2.number) ∧ (p.1, p.2.number) ∉ removed

variable {edit : VersionEdit}

lemma mem_newAt {f : FileMetaData} : f ∈ edit.newAt level ↔ (level, f) ∈ edit.newFiles := by
  simp [VersionEdit.newAt]

lemma mem_deletedAt : n ∈ edit.deletedAt level ↔ (level, n) ∈ edit.deletedFiles := by
  simp [VersionEdit.deletedAt]

lemma Collects.apply (h : Collects b v removed) (hfresh : Fresh v removed edit) :
    Collects (b.apply edit) ((Builder.new v).apply edit).saveTo (removed ++ edit.deletedFiles) := by
  have hnew : ∀ level, ∀ f ∈ edit.newAt level, ∀ g ∈ (b.levels level).addedFiles, g.number ≠ f.number := by
    intro level f hf g hg heq
    obtain ⟨hpresent, hremoved⟩ := hfresh _ (mem_newAt.1 hf)
    rcases h.known hg with hg | hgone
    · exact hpresent g hg heq
    · exact hremoved (heq ▸ hgone)
  have hfiles : ∀ level, ((b.apply edit).levels level).files = ((Builder.new v).apply edit).saveTo level := by
    intro level
    have happly := @LevelState.files_apply _ (edit.deletedAt level) _ (h.ascending level) (hnew level)
    rw [h.files level] at happly
    exact happly
  refine ⟨h.base, fun level => ?_, hfiles, fun level n hn => ?_⟩
  · show Ascending fileRank ((b.levels level).apply _ _).addedFiles
    rw [addedFiles_apply]
    exact ascending_foldl_setInsert bySmallestKey_iff _ (h.ascending level)
  · rcases (mem_deletedFiles_apply.1 hn).1 with hn | hn
    · exact mem_append_right _ (mem_deletedAt.1 hn)
    · exact mem_append_left _ (h.removed level n hn)

lemma Collects.ascending_files (h : Collects b v removed) (level : Nat) : Ascending fileRank (v level) := by
  rw [← h.files level]
  exact LevelState.ascending_files (h.ascending level)

lemma collects_snapshot (hdeleted : edit.deletedFiles = []) (hnew : ∀ level, edit.newAt level = v level)
    (hv : ∀ level, Ascending fileRank (v level)) : Collects ((Builder.new fun _ => []).apply edit) v removed := by
  have hadded : ∀ level, (((Builder.new fun _ => []).apply edit).levels level).addedFiles = v level := fun level => by
    show (LevelState.apply ⟨[], []⟩ (edit.deletedAt level) (edit.newAt level)).addedFiles = v level
    rw [addedFiles_apply, hnew level]
    exact foldl_setInsert_of_ascending bySmallestKey_iff (hv level)
  have hnone : ∀ level n, n ∉ (((Builder.new fun _ => []).apply edit).levels level).deletedFiles := fun level n hn => by
    have hn' := (mem_deletedFiles_apply.1 hn).1
    simp [mem_deletedAt, hdeleted, Builder.new] at hn'
  refine ⟨rfl, fun level => ?_, fun level => ?_, fun level n hn => absurd hn (hnone level n)⟩
  · rw [hadded]
    exact hv level
  · rw [LevelState.files, hadded]
    exact filter_eq_self.2 fun f _ => decide_eq_true (hnone level _)

end RallyDB.Db.Descriptor
