import RallyDB.Db.Lemmas.VersionEdit
import RallyDB.Util.Lemmas.Coding

/-!
# Main results about stored version edits
-/

namespace RallyDB.Db.Descriptor

open Util Lib List

/-- The numbers are 64-bit numbers, the levels exist, and a key has its eight bytes for the sequence and the type. -/
def Field.Typed : Field → Prop
  | .comparator _ => True
  | .logNumber n | .prevLogNumber n | .nextFileNumber n | .lastSequence n => n < 2 ^ 64
  | .compactPointer level key => level < kNumLevels ∧ 8 ≤ key.length
  | .deletedFile level number => level < kNumLevels ∧ number < 2 ^ 64
  | .newFile level f =>
    level < kNumLevels ∧ f.number < 2 ^ 64 ∧ f.fileSize < 2 ^ 64 ∧ 8 ≤ f.smallest.length ∧ 8 ≤ f.largest.length

structure VersionEdit.Typed (edit : VersionEdit) : Prop where
  fields : ∀ f ∈ edit.fields, f.Typed
  deletedFiles : Ascending deletedRank edit.deletedFiles

def Field.Short : Field → Prop
  | .comparator name => name.length < 2 ^ 32
  | .compactPointer _ key => key.length < 2 ^ 32
  | .newFile _ f => f.smallest.length < 2 ^ 32 ∧ f.largest.length < 2 ^ 32
  | _ => True

variable {f : Field} {edit : VersionEdit} {fs : List Field} {input rest p : Slice} {tag : Nat}

lemma Field.Typed.valid (h : f.Typed) (hs : f.Short) : f.Valid := by
  have hne : ∀ {key : Slice}, 8 ≤ key.length → key ≠ [] := by
    rintro key hkey rfl
    cases hkey
  cases f with
  | comparator name => exact hs
  | logNumber n | prevLogNumber n | nextFileNumber n | lastSequence n => exact h
  | compactPointer level key => exact ⟨h.1, hne h.2, hs⟩
  | deletedFile level number => exact h
  | newFile level f =>
    obtain ⟨hlevel, hnumber, hsize, hsmallest, hlargest⟩ := h
    exact ⟨hlevel, hnumber, hsize, ⟨hne hsmallest, hs.1⟩, hne hlargest, hs.2⟩

/-! ## What is read -/

lemma ignoresRest_getInternalKey : IgnoresRest getInternalKey := ignoresRest_getLengthPrefixedSlice.filter (· ≠ [])

lemma ignoresRest_getLevel : IgnoresRest getLevel := ignoresRest_getVarint32.filter (· < kNumLevels)

lemma getField_append (h : getField tag input = .ok (f, rest)) (more : Slice) :
    getField tag (input ++ more) = .ok (f, rest ++ more) := by
  unfold getField at h ⊢
  split_ifs at h ⊢
  all_goals rw [required_eq_ok] at h ⊢
  · exact ignoresRest_getLengthPrefixedSlice.bind (fun _ => ignoresRest_pure _) _ _ _ h more
  iterate 4
    · exact ignoresRest_getVarint64.bind (fun _ => ignoresRest_pure _) _ _ _ h more
  · exact ignoresRest_getLevel.bind (fun _ => ignoresRest_getInternalKey.bind fun _ => ignoresRest_pure _) _ _ _ h more
  · exact ignoresRest_getLevel.bind (fun _ => ignoresRest_getVarint64.bind fun _ => ignoresRest_pure _) _ _ _ h more
  · exact ignoresRest_getLevel.bind (fun level => ignoresRest_getVarint64.bind fun number =>
      ignoresRest_getVarint64.bind fun fileSize => ignoresRest_getInternalKey.bind fun smallest =>
        ignoresRest_getInternalKey.bind fun largest =>
          ignoresRest_pure (Field.newFile level { number, fileSize, smallest, largest })) _ _ _ h more

lemma getInternalKey_short {key : Slice} (h : getInternalKey input = some (key, rest)) : key.length < 2 ^ 32 := by
  simp only [getInternalKey, Option.bind_eq_bind, Option.bind_eq_some_iff] at h
  obtain ⟨⟨str, rest'⟩, hget, h⟩ := h
  split_ifs at h
  cases h
  obtain ⟨_, -, hused⟩ := isLengthPrefixed_of_get hget
  exact hused.length_lt

lemma getField_short (h : getField tag input = .ok (f, rest)) : f.Short := by
  unfold getField at h
  split_ifs at h
  all_goals simp only [required_eq_ok, Option.bind_eq_bind, Option.bind_eq_some_iff] at h
  · obtain ⟨⟨str, rest'⟩, hget, h⟩ := h
    cases h
    obtain ⟨_, -, hused⟩ := isLengthPrefixed_of_get hget
    exact hused.length_lt
  iterate 4
    · obtain ⟨_, -, h⟩ := h
      cases h
      trivial
  · obtain ⟨_, -, ⟨key, rest2⟩, hkey, h⟩ := h
    cases h
    exact getInternalKey_short hkey
  · obtain ⟨_, -, _, -, h⟩ := h
    cases h
    trivial
  · obtain ⟨_, -, _, -, _, -, ⟨smallest, rest4⟩, hsmallest, ⟨largest, rest5⟩, hlargest, h⟩ := h
    cases h
    exact ⟨getInternalKey_short hsmallest, getInternalKey_short hlargest⟩

lemma short_set (h : ∀ g ∈ edit.fields, g.Short) (hf : f.Short) : ∀ g ∈ (edit.set f).fields, g.Short := by
  rw [forall_mem_fields] at h ⊢
  obtain ⟨hcomparator, -, -, -, -, hpointers, -, hfiles⟩ := h
  refine ⟨?_, fun _ _ => trivial, fun _ _ => trivial, fun _ _ => trivial, fun _ _ => trivial, ?_, fun _ _ => trivial, ?_⟩
  · cases f with
    | comparator name =>
      rintro _ ⟨⟩
      exact hf
    | _ => exact hcomparator
  · cases f with
    | compactPointer level key => exact forall_mem_append.2 ⟨hpointers, forall_mem_singleton.2 hf⟩
    | _ => exact hpointers
  · cases f with
    | newFile level f => exact forall_mem_append.2 ⟨hfiles, forall_mem_singleton.2 hf⟩
    | _ => exact hfiles

lemma short_decodeLoop (h : ∀ g ∈ edit.fields, g.Short) : ∀ g ∈ (decodeLoop edit input).1.fields, g.Short := by
  fun_induction decodeLoop edit input with
  | case1 => exact h
  | case2 => exact h
  | case3 edit input tag input' htag f rest hfield ih => exact ih (short_set h (getField_short hfield))

-- What is found in a part of an entry is found in the whole of it too, with the other part left over.
lemma eq_nil_of_decodeLoop_cut {a : Slice} (hf : f.Valid) (hp : f.encode = p ++ a) (ha : a ≠ [])
    (hok : (decodeLoop edit p).2 = .ok ()) : p = [] := by
  obtain ⟨tag, payload, hencode, htag, hget⟩ := exists_tag hf
  have hwhole : getVarint32 (p ++ a) = some (tag, payload) := by rw [← hp, hencode, getVarint32_encode htag]
  rw [decodeLoop] at hok
  split at hok
  · by_contra hne
    rw [if_neg hne] at hok
    cases hok
  · rename_i tag' input hcut
    rw [ignoresRest_getVarint32 _ _ _ hcut a] at hwhole
    cases hwhole
    split at hok
    · cases hok
    · rename_i g rest hfield
      have hall := hget []
      rw [append_nil, getField_append hfield a] at hall
      simp only [Except.ok.injEq, Prod.mk.injEq, append_eq_nil_iff] at hall
      exact absurd hall.2.2 ha

lemma decodeLoop_of_prefix (hfs : ∀ f ∈ fs, f.Valid) (hp : p <+: fs.flatMap Field.encode)
    (hok : (decodeLoop edit p).2 = .ok ()) : ∃ gs, gs <+: fs ∧ (decodeLoop edit p).1 = gs.foldl VersionEdit.set edit := by
  induction fs generalizing edit p with
  | nil =>
    cases prefix_nil.1 hp
    exact ⟨[], prefix_rfl, by rw [decodeLoop_nil]; rfl⟩
  | cons f fs ih =>
    obtain ⟨hf, hfs⟩ := forall_mem_cons.1 hfs
    obtain ⟨t, ht⟩ := hp
    rw [flatMap_cons] at ht
    by_cases hnil : p = []
    · subst hnil
      exact ⟨[], nil_prefix, by rw [decodeLoop_nil]; rfl⟩
    rcases append_eq_append_iff.1 ht with ⟨a, ha, -⟩ | ⟨p', rfl, hp'⟩
    · have hempty : a = [] := not_not.1 fun ha' => hnil (eq_nil_of_decodeLoop_cut hf ha ha' hok)
      rw [hempty, append_nil] at ha
      refine ⟨[f], cons_prefix_cons.2 ⟨rfl, nil_prefix⟩, ?_⟩
      rw [← ha, ← append_nil f.encode, decodeLoop_encode hf, decodeLoop_nil]
      rfl
    · rw [decodeLoop_encode hf] at hok ⊢
      obtain ⟨gs, hgs, he⟩ := ih hfs ⟨t, hp'.symm⟩ hok
      exact ⟨f :: gs, cons_prefix_cons.2 ⟨rfl, hgs⟩, he⟩

/-- A stored edit is read back as it is, and what is accepted of a part of it has the first fields of the edit. -/
structure VersionEdit.ReadBack (edit : VersionEdit) : Prop where
  decode : decodeFrom edit.encodeTo = (edit, .ok ())
  cut : ∀ p, p <+: edit.encodeTo → p ≠ edit.encodeTo → (decodeFrom p).2 = .ok () →
    ∃ gs, gs <+: edit.fields ∧ (decodeFrom p).1 = gs.foldl VersionEdit.set {}

lemma VersionEdit.ReadBack.short (h : edit.ReadBack) : ∀ f ∈ edit.fields, f.Short := by
  have hread : (decodeLoop {} edit.encodeTo).1 = edit := congrArg Prod.fst h.decode
  rw [← hread]
  exact short_decodeLoop (forall_mem_nil _)

/-- An edit is read back, and no part of its record is read as an edit with other fields, if and only if its strings
are shorter than $2^{32}$ bytes. -/
theorem readBack_iff (edit : VersionEdit) (h : edit.Typed) : edit.ReadBack ↔ ∀ f ∈ edit.fields, f.Short := by
  refine ⟨fun hread => hread.short, fun hshort => ?_⟩
  have hvalid : ∀ f ∈ edit.fields, f.Valid := fun f hf => (h.fields f hf).valid (hshort f hf)
  exact ⟨decodeFrom_encodeTo ⟨hvalid, h.deletedFiles⟩, fun p hp _ hok => decodeLoop_of_prefix hvalid hp hok⟩

def everyField : VersionEdit where
  comparator := some [98]
  logNumber := some 4
  prevLogNumber := some 0
  nextFileNumber := some 9
  lastSequence := some (2 ^ 56 - 1)
  compactPointers := [(1, List.replicate 9 5), (2, List.replicate 8 0)]
  deletedFiles := [(0, 3), (1, 5)]
  newFiles := [(1, ⟨7, 4096, List.replicate 8 1, List.replicate 9 2⟩), (2, ⟨8, 300, List.replicate 9 3, List.replicate 9 4⟩)]

theorem readBack_iff_everyField : everyField.ReadBack :=
  (readBack_iff everyField ⟨by simp [everyField, VersionEdit.fields, Field.Typed, kNumLevels], by
    simp [everyField, Ascending, deletedRank, Prod.Lex.toLex_lt_toLex]⟩).2
    (by simp [everyField, VersionEdit.fields, Field.Short])

def longComparator : VersionEdit := { comparator := some (List.replicate (2 ^ 32) 0) }

/-- The length of a name of $2^{32}$ bytes is stored as 0. -/
theorem long_comparator_not_read_back : longComparator.Typed ∧ ¬longComparator.ReadBack := by
  refine ⟨⟨fun f hf => ?_, .nil⟩, fun h => ?_⟩
  · cases mem_singleton.1 hf
    trivial
  · have hlen : (List.replicate (2 ^ 32) (0 : UInt8)).length < 2 ^ 32 := h.short (.comparator _) mem_cons_self
    rw [length_replicate] at hlen
    exact lt_irrefl _ hlen

end RallyDB.Db.Descriptor
