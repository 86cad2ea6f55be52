import RallyDB.Db.VersionEdit

/-!
# An edit is read back as it was written
-/

namespace RallyDB.Db.Descriptor

open Util Table Lib List Descriptor.VersionEdit

def StorableKey (key : Slice) : Prop := key ≠ [] ∧ key.length < 2 ^ 32

instance (key : Slice) : Decidable (StorableKey key) := inferInstanceAs (Decidable (_ ∧ _))

def Field.Valid : Field → Prop
  | .comparator name => name.length < 2 ^ 32
  | .logNumber n => n < 2 ^ 64
  | .prevLogNumber n => n < 2 ^ 64
  | .nextFileNumber n => n < 2 ^ 64
  | .lastSequence n => n < 2 ^ 64
  | .compactPointer level key => level < kNumLevels ∧ StorableKey key
  | .deletedFile level number => level < kNumLevels ∧ number < 2 ^ 64
  | .newFile level f =>
    level < kNumLevels ∧ f.number < 2 ^ 64 ∧ f.fileSize < 2 ^ 64 ∧ StorableKey f.smallest ∧ StorableKey f.largest

instance (f : Field) : Decidable f.Valid := by cases f <;> unfold Field.Valid <;> infer_instance

lemma getInternalKey_put {key : Slice} (h : StorableKey key) (rest : Slice) :
    getInternalKey (putLengthPrefixedSlice key ++ rest) = some (key, rest) := by
  simp [getInternalKey, getLengthPrefixedSlice_put h.2, h.1]

lemma getLevel_encode {level : Nat} (h : level < kNumLevels) (rest : Slice) :
    getLevel (encodeVarint32 level ++ rest) = some (level, rest) := by
  have hlt : level < 2 ^ 32 := h.trans (by decide)
  simp [getLevel, getVarint32_encode hlt, h]

lemma exists_tag {f : Field} (h : f.Valid) : ∃ tag payload, f.encode = encodeVarint32 tag ++ payload ∧ tag < 2 ^ 32 ∧
    ∀ rest, getField tag (payload ++ rest) = .ok (f, rest) := by
  cases f with
  | comparator name =>
    refine ⟨kComparator, _, rfl, by decide, fun rest => ?_⟩
    simp [getField, getLengthPrefixedSlice_put h]
  | logNumber n =>
    refine ⟨kLogNumber, _, rfl, by decide, fun rest => ?_⟩
    simp [getField, kLogNumber, kComparator, getVarint64_encode h]
  | prevLogNumber n =>
    refine ⟨kPrevLogNumber, _, rfl, by decide, fun rest => ?_⟩
    simp [getField, kPrevLogNumber, kLogNumber, kComparator, getVarint64_encode h]
  | nextFileNumber n =>
    refine ⟨kNextFileNumber, _, rfl, by decide, fun rest => ?_⟩
    simp [getField, kNextFileNumber, kPrevLogNumber, kLogNumber, kComparator, getVarint64_encode h]
  | lastSequence n =>
    refine ⟨kLastSequence, _, rfl, by decide, fun rest => ?_⟩
    simp [getField, kLastSequence, kNextFileNumber, kPrevLogNumber, kLogNumber, kComparator, getVarint64_encode h]
  | compactPointer level key =>
    refine ⟨kCompactPointer, _, append_assoc _ _ _, by decide, fun rest => ?_⟩
    simp [getField, kCompactPointer, kLastSequence, kNextFileNumber, kPrevLogNumber, kLogNumber, kComparator,
      getLevel_encode h.1, getInternalKey_put h.2]
  | deletedFile level number =>
    refine ⟨kDeletedFile, _, append_assoc _ _ _, by decide, fun rest => ?_⟩
    simp [getField, kDeletedFile, kCompactPointer, kLastSequence, kNextFileNumber, kPrevLogNumber, kLogNumber,
      kComparator, getLevel_encode h.1, getVarint64_encode h.2]
  | newFile level f =>
    obtain ⟨hlevel, hnumber, hsize, hsmallest, hlargest⟩ := h
    refine ⟨kNewFile, encodeVarint32 level ++ (encodeVarint64 f.number ++ (encodeVarint64 f.fileSize ++
      (putLengthPrefixedSlice f.smallest ++ putLengthPrefixedSlice f.largest))), ?_, by decide, fun rest => ?_⟩
    · simp [Field.encode]
    · simp [getField, kNewFile, kDeletedFile, kCompactPointer, kLastSequence, kNextFileNumber, kPrevLogNumber,
        kLogNumber, kComparator, getLevel_encode hlevel, getVarint64_encode hnumber, getVarint64_encode hsize,
        getInternalKey_put hsmallest, getInternalKey_put hlargest]

lemma decodeLoop_encode {f : Field} (h : f.Valid) (edit : VersionEdit) (rest : Slice) :
    decodeLoop edit (f.encode ++ rest) = decodeLoop (edit.set f) rest := by
  obtain ⟨tag, payload, hencode, htag, hget⟩ := exists_tag h
  have hvarint : getVarint32 (f.encode ++ rest) = some (tag, payload ++ rest) := by
    rw [hencode, append_assoc]
    exact getVarint32_encode htag _
  rw [decodeLoop]
  split
  · simp_all
  · rename_i tag' input' hvarint'
    rw [hvarint] at hvarint'
    cases hvarint'
    split
    · simp_all
    · simp_all

lemma decodeLoop_nil (edit : VersionEdit) : decodeLoop edit [] = (edit, .ok ()) := by
  rw [decodeLoop]
  split
  · rfl
  · rename_i h
    cases h

lemma decodeLoop_flatMap {fs : List Field} (h : ∀ f ∈ fs, f.Valid) (edit : VersionEdit) :
    decodeLoop edit (fs.flatMap Field.encode) = (fs.foldl set edit, .ok ()) := by
  induction fs generalizing edit with
  | nil => exact decodeLoop_nil edit
  | cons f fs ih =>
    obtain ⟨hf, hfs⟩ := forall_mem_cons.1 h
    rw [flatMap_cons, decodeLoop_encode hf, ih hfs]
    rfl

/-! ## Edits -/

def deletedRank (p : Nat × Nat) : Nat ×ₗ Nat := toLex p

lemma deletedLt_iff (a b : Nat × Nat) : deletedLt a b = true ↔ deletedRank a < deletedRank b := by
  simp [deletedLt, deletedRank, Prod.Lex.toLex_lt_toLex]

structure VersionEdit.Valid (edit : VersionEdit) : Prop where
  fields : ∀ f ∈ edit.fields, f.Valid
  deletedFiles : Ascending deletedRank edit.deletedFiles

instance (edit : VersionEdit) : Decidable edit.Valid :=
  decidable_of_iff ((∀ f ∈ edit.fields, f.Valid) ∧ edit.deletedFiles.Pairwise fun a b => deletedLt a b)
    ⟨fun h => ⟨h.1, h.2.imp fun hab => (deletedLt_iff _ _).1 hab⟩,
      fun h => ⟨h.fields, h.deletedFiles.imp fun hab => (deletedLt_iff _ _).2 hab⟩⟩

variable {edit : VersionEdit}

lemma forall_mem_fields {P : Field → Prop} : (∀ f ∈ edit.fields, P f) ↔
    (∀ c ∈ edit.comparator, P (.comparator c)) ∧ (∀ n ∈ edit.logNumber, P (.logNumber n)) ∧
    (∀ n ∈ edit.prevLogNumber, P (.prevLogNumber n)) ∧ (∀ n ∈ edit.nextFileNumber, P (.nextFileNumber n)) ∧
    (∀ n ∈ edit.lastSequence, P (.lastSequence n)) ∧ (∀ p ∈ edit.compactPointers, P (.compactPointer p.1 p.2)) ∧
    (∀ p ∈ edit.deletedFiles, P (.deletedFile p.1 p.2)) ∧ ∀ p ∈ edit.newFiles, P (.newFile p.1 p.2) := by
  simp only [fields, forall_mem_append, forall_mem_map, Option.mem_toList, Option.mem_def, and_assoc]

lemma foldl_set_compactPointers (ps : List (Nat × Slice)) (edit : VersionEdit) :
    (ps.map fun p => Field.compactPointer p.1 p.2).foldl VersionEdit.set edit =
    { edit with compactPointers := edit.compactPointers ++ ps } := by
  induction ps generalizing edit with
  | nil => simp
  | cons p ps ih => simp [ih, VersionEdit.set]

lemma foldl_set_deletedFiles (ps : List (Nat × Nat)) (edit : VersionEdit)
    (h : Ascending deletedRank (edit.deletedFiles ++ ps)) :
    (ps.map fun p => Field.deletedFile p.1 p.2).foldl VersionEdit.set edit =
    { edit with deletedFiles := edit.deletedFiles ++ ps } := by
  induction ps generalizing edit with
  | nil => simp
  | cons p ps ih =>
    have hinsert : setInsert deletedLt p edit.deletedFiles = edit.deletedFiles ++ [p] :=
      setInsert_of_gt deletedLt_iff fun q hq => (pairwise_append.1 h).2.2 q hq p mem_cons_self
    rw [append_cons] at h
    simp only [map_cons, foldl_cons, VersionEdit.set, VersionEdit.removeFile, Prod.mk.eta, hinsert]
    rw [ih _ h]
    simp

lemma foldl_set_newFiles (ps : List (Nat × FileMetaData)) (edit : VersionEdit) :
    (ps.map fun p => Field.newFile p.1 p.2).foldl VersionEdit.set edit = { edit with newFiles := edit.newFiles ++ ps } := by
  induction ps generalizing edit with
  | nil => simp
  | cons p ps ih => simp [ih, VersionEdit.set, VersionEdit.addFile]

lemma foldl_set_fields (h : Ascending deletedRank edit.deletedFiles) : edit.fields.foldl set {} = edit := by
  obtain ⟨comparator, logNumber, prevLogNumber, nextFileNumber, lastSequence, compactPointers, deletedFiles, newFiles⟩ := edit
  simp only [fields, foldl_append]
  rw [foldl_set_newFiles, foldl_set_deletedFiles, foldl_set_compactPointers]
  · cases comparator <;> cases logNumber <;> cases prevLogNumber <;> cases nextFileNumber <;> cases lastSequence <;> rfl
  · rw [foldl_set_compactPointers]
    cases comparator <;> cases logNumber <;> cases prevLogNumber <;> cases nextFileNumber <;> cases lastSequence <;>
      exact h

lemma decodeFrom_encodeTo (h : edit.Valid) : decodeFrom edit.encodeTo = (edit, .ok ()) := by
  rw [decodeFrom, encodeTo, decodeLoop_flatMap h.fields, foldl_set_fields h.deletedFiles]

end RallyDB.Db.Descriptor
