import RallyDB.Table.Theorems

/-!
# Approximate offsets (`ApproximateOffsetOf` in `db/version_set.cc` and `table/table.cc`)
-/

namespace RallyDB.Table

open Util Db List

def TableRep.approximateOffsetOf (t : TableRep) (key : Slice) : Nat :=
  match (t.indexBlock.seek internalKeyCompare key).1 with
  | none => t.metaindexHandle.offset
  | some (_, value) =>
    match BlockHandle.decode value with
    | .ok (handle, _) => handle.offset
    | .error _ => t.metaindexHandle.offset

def Opened (f : FileMetaData Slice) (t : TableRep) : Prop :=
  ∃ crc options file, ∃ built, built = tableOf crc options f.entries ∧
    (∀ e ∈ f.entries, e.1.Storable) ∧ (∀ a ∈ built.file, a.length < 2 ^ 32) ∧ built.bytes.length < 2 ^ 64 ∧
    f.fileSize = built.bytes.length ∧ file.ReadsAll built.bytes ∧ TableRep.openFile crc options file f.fileSize = .ok t

variable {crc : Crc32c} {options : TableOptions} {tb : TableBuilder} {rows : List (DataBlock × Slice)} {t : TableRep}
  {f : FileMetaData Slice} {k k' : Slice}

lemma Layout.approximateOffsetOf {h : Layout crc options tb rows} (hfits : h.Fits)
    (hindex : t.indexBlock = .new tb.finalIndex.finish) (hmeta : t.metaindexHandle = tb.metaHandle crc options) (k : Slice) :
    (t.approximateOffsetOf k = (tb.metaHandle crc options).offset ∧ ∀ r ∈ rows, keyRank r.2 < keyRank k) ∨
    ∃ A b sep B, rows = A ++ (b, sep) :: B ∧ (∀ r ∈ A, keyRank r.2 < keyRank k) ∧ keyRank k ≤ keyRank sep ∧
    t.approximateOffsetOf k = blocksLength (A.map Prod.fst) := by
  unfold TableRep.approximateOffsetOf
  rw [hindex, Layout.seek_index hfits, hmeta]
  rcases indexEntries_find 0 rows k with ⟨hnone, hall⟩ | ⟨A, b, sep, B, hrows, hA, hk, hfind⟩
  · exact .inl ⟨by rw [hnone], hall⟩
  · refine .inr ⟨A, b, sep, B, hrows, hA, hk, ?_⟩
    have hdecode := BlockHandle.decode_encode (hfits.handle hrows) []
    rw [append_nil] at hdecode
    rw [hfind]
    simp only [zero_add, hdecode]

/-- The offset grows with the key, and the metaindex block is in the file. -/
lemma Opened.approximateOffsetOf (h : Opened f t) :
    (∀ k k', keyRank k ≤ keyRank k' → t.approximateOffsetOf k ≤ t.approximateOffsetOf k') ∧
    ∀ k, t.approximateOffsetOf k ≤ f.fileSize := by
  obtain ⟨crc, options, file, built, rfl, hstorable, hpieces, hlt, hsize, hread, hopen⟩ := h
  obtain ⟨tb, rows, h, -, hfile⟩ := buildTable_layout crc options (encodeEntry_sorted f.sorted hstorable)
  have hbytes : (tableOf crc options f.entries).bytes = finishedBytes crc options tb rows := by
    rw [TableBuilder.bytes, tableOf, hfile, h.flatten]
  rw [hbytes] at hlt hsize hread
  have hfits : h.Fits := ⟨hfile ▸ hpieces, hlt⟩
  rw [hsize, h.openFile hlt hread] at hopen
  cases hopen
  have hspec := Layout.approximateOffsetOf hfits (t := ⟨options, tb.metaHandle crc options, .new tb.finalIndex.finish, none, none⟩)
    rfl rfl
  have hblocks : ∀ A B : List (DataBlock × Slice), rows = A ++ B →
      blocksLength (A.map Prod.fst) ≤ (tb.metaHandle crc options).offset := by
    rintro A B rfl
    have hoffset := h.offset
    rw [map_append, blocksLength_append] at hoffset
    rw [TableBuilder.metaHandle]
    dsimp only
    omega
  have hmeta : (tb.metaHandle crc options).offset ≤ f.fileSize := by
    rw [hsize, finishedBytes, length_append, length_append, h.dataBytes_length, TableBuilder.metaHandle]
    dsimp only
    omega
  refine ⟨fun k k' hk => ?_, fun k => ?_⟩
  · rcases hspec k with ⟨hval, hall⟩ | ⟨A, b, sep, B, hrows, hA, hsep, hval⟩ <;>
      rcases hspec k' with ⟨hval', hall'⟩ | ⟨A', b', sep', B', hrows', hA', hsep', hval'⟩ <;> rw [hval, hval']
    · exact absurd (hall (b', sep') (by simp [hrows'])) (hk.trans hsep').not_gt
    · exact hblocks A _ hrows
    · -- the block for the larger key is not among those before the other one
      rcases append_eq_append_iff.1 (hrows.symm.trans hrows') with ⟨C, rfl, -⟩ | ⟨C, rfl, hC⟩
      · simp
      · cases C with
        | nil => simp
        | cons r C =>
          obtain ⟨rfl, -⟩ := cons.inj hC
          exact absurd (hA (b', sep') (by simp)) (hk.trans hsep').not_gt
  · rcases hspec k with ⟨hval, -⟩ | ⟨A, b, sep, B, hrows, -, -, hval⟩ <;> rw [hval]
    · exact hmeta
    · exact (hblocks A _ hrows).trans hmeta

end RallyDB.Table

namespace RallyDB.Db

open Util Table List

variable (tables : FileMetaData Slice → Option TableRep)

def addOffsets (level : Nat) (ikey : InternalKey Slice) : Nat → List (FileMetaData Slice) → Nat
  | result, [] => result
  | result, f :: files =>
    if f.largest ≤ ikey then addOffsets level ikey ((result + f.fileSize) % 2 ^ 64) files
    else if ikey < f.smallest then
      if 0 < level then result else addOffsets level ikey result files
    else addOffsets level ikey ((result + (tables f).elim 0 fun t => t.approximateOffsetOf ikey.encode) % 2 ^ 64) files

def approximateOffsetOf (v : Version Slice) (ikey : InternalKey Slice) : Nat :=
  (range kNumLevels).foldl (fun result level => addOffsets tables level ikey result (v.files level)) 0

def getApproximateSize (v : Version Slice) (start limit : Slice) : Nat :=
  let start := approximateOffsetOf tables v (lookupKey start kMaxSequenceNumber)
  let limit := approximateOffsetOf tables v (lookupKey limit kMaxSequenceNumber)
  if start ≤ limit then limit - start else 0

def fileOffset (ikey : InternalKey Slice) (f : FileMetaData Slice) : Nat :=
  if f.largest ≤ ikey then f.fileSize
  else if ikey < f.smallest then 0
  else (tables f).elim 0 fun t => t.approximateOffsetOf ikey.encode

variable {tables} {level result : Nat} {ikey : InternalKey Slice} {files : List (FileMetaData Slice)} {v : Version Slice}

lemma fileOffset_eq_zero {f : FileMetaData Slice} (h : ikey < f.smallest) : fileOffset tables ikey f = 0 := by
  rw [fileOffset, if_neg (h.trans_le f.smallest_le_largest).not_ge, if_pos h]

lemma addOffsets_eq (h : 0 < level → DisjointSorted files) (hresult : result < 2 ^ 64) :
    addOffsets tables level ikey result files = (result + (files.map (fileOffset tables ikey)).sum) % 2 ^ 64 := by
  induction files generalizing result with
  | nil => exact (Nat.mod_eq_of_lt hresult).symm
  | cons f files ih =>
    have hih : ∀ n, addOffsets tables level ikey ((result + n) % 2 ^ 64) files =
        (result + (n + (files.map (fileOffset tables ikey)).sum)) % 2 ^ 64 := by
      intro n
      rw [ih (fun hl => (pairwise_cons.1 (h hl)).2) (Nat.mod_lt _ (by decide)), Nat.mod_add_mod, add_assoc]
    rw [addOffsets, map_cons, sum_cons]
    split_ifs with hlargest hsmallest hlevel
    · rw [hih, fileOffset, if_pos hlargest]
    · -- the files after this one begin later
      have hlater : (files.map (fileOffset tables ikey)).sum = 0 := by
        refine sum_eq_zero fun n hn => ?_
        obtain ⟨g, hg, rfl⟩ := mem_map.1 hn
        have hfg : f.largest < g.smallest := rel_of_pairwise_cons (h hlevel) hg
        exact fileOffset_eq_zero ((hsmallest.trans_le f.smallest_le_largest).trans hfg)
      rw [fileOffset_eq_zero hsmallest, hlater]
      exact (Nat.mod_eq_of_lt hresult).symm
    · have hsame := hih 0
      rw [add_zero, Nat.mod_eq_of_lt hresult] at hsame
      rw [hsame, fileOffset_eq_zero hsmallest]
    · rw [hih, fileOffset, if_neg hlargest, if_neg hsmallest]

lemma foldl_addOffsets (h : ∀ level, 0 < level → DisjointSorted (v.files level)) (levels : List Nat) (hresult : result < 2 ^ 64) :
    levels.foldl (fun result level => addOffsets tables level ikey result (v.files level)) result =
    (result + ((levels.flatMap v.files).map (fileOffset tables ikey)).sum) % 2 ^ 64 := by
  induction levels generalizing result with
  | nil => exact (Nat.mod_eq_of_lt hresult).symm
  | cons level levels ih =>
    rw [foldl_cons, addOffsets_eq (h level) hresult, ih (Nat.mod_lt _ (by decide)), Nat.mod_add_mod, flatMap_cons, map_append,
      sum_append, add_assoc]

lemma fileOffset_le {f : FileMetaData Slice} {t : TableRep} (ht : tables f = some t) (h : Opened f t) :
    fileOffset tables ikey f ≤ f.fileSize := by
  unfold fileOffset
  split_ifs
  · exact le_rfl
  · exact Nat.zero_le _
  · rw [ht]
    exact h.approximateOffsetOf.2 _

lemma fileOffset_mono {f : FileMetaData Slice} {t : TableRep} (ht : tables f = some t) (h : Opened f t)
    {k k' : InternalKey Slice} (hk : k.Storable) (hk' : k'.Storable) (hle : k ≤ k') :
    fileOffset tables k f ≤ fileOffset tables k' f := by
  by_cases hlargest : f.largest ≤ k'
  · rw [fileOffset.eq_def tables k', if_pos hlargest]
    exact fileOffset_le ht h
  by_cases hsmallest : k < f.smallest
  · rw [fileOffset_eq_zero hsmallest]
    exact Nat.zero_le _
  · unfold fileOffset
    rw [if_neg fun hl => hlargest (hl.trans hle), if_neg hsmallest, if_neg hlargest, if_neg fun hl => hsmallest (hle.trans_lt hl),
      ht]
    exact h.approximateOffsetOf.1 _ _ ((keyRank_encode_le_iff hk hk').2 hle)

def Version.allFiles (v : Version Slice) : List (FileMetaData Slice) := (range kNumLevels).flatMap v.files

structure Version.Opens (tables : FileMetaData Slice → Option TableRep) (v : Version Slice) : Prop where
  levels : ∀ level, 0 < level → DisjointSorted (v.files level)
  tables : ∀ f ∈ v.allFiles, ∃ t, tables f = some t ∧ Opened f t
  total : (v.allFiles.map FileMetaData.fileSize).sum < 2 ^ 64

lemma Version.Opens.approximateOffsetOf (h : v.Opens tables) (ikey : InternalKey Slice) :
    approximateOffsetOf tables v ikey = (v.allFiles.map (fileOffset tables ikey)).sum ∧
    (v.allFiles.map (fileOffset tables ikey)).sum ≤ (v.allFiles.map FileMetaData.fileSize).sum := by
  have hle : (v.allFiles.map (fileOffset tables ikey)).sum ≤ (v.allFiles.map FileMetaData.fileSize).sum := by
    refine sum_le_sum fun f hf => ?_
    obtain ⟨t, ht, hopened⟩ := h.tables f hf
    exact fileOffset_le ht hopened
  refine ⟨?_, hle⟩
  rw [Db.approximateOffsetOf, foldl_addOffsets h.levels _ (by decide), zero_add]
  exact Nat.mod_eq_of_lt (hle.trans_lt h.total)

/-- The offset grows with the key up to the size of all files, so that no size of a range has to be clamped. -/
theorem approximateOffsetOf_monotone (tables : FileMetaData Slice → Option TableRep) (v : Version Slice) (h : v.Opens tables) :
    (∀ k k' : InternalKey Slice, k.Storable → k'.Storable → k ≤ k' →
    approximateOffsetOf tables v k ≤ approximateOffsetOf tables v k') ∧
    (∀ k, approximateOffsetOf tables v k ≤ (v.allFiles.map FileMetaData.fileSize).sum) ∧
    ∀ start limit, start ≤ limit → getApproximateSize tables v start limit +
    approximateOffsetOf tables v (lookupKey start kMaxSequenceNumber) =
    approximateOffsetOf tables v (lookupKey limit kMaxSequenceNumber) := by
  have hmono : ∀ k k' : InternalKey Slice, k.Storable → k'.Storable → k ≤ k' →
      approximateOffsetOf tables v k ≤ approximateOffsetOf tables v k' := by
    intro k k' hk hk' hle
    rw [(h.approximateOffsetOf k).1, (h.approximateOffsetOf k').1]
    refine sum_le_sum fun f hf => ?_
    obtain ⟨t, ht, hopened⟩ := h.tables f hf
    exact fileOffset_mono ht hopened hk hk' hle
  refine ⟨hmono, fun k => (h.approximateOffsetOf k).1.trans_le (h.approximateOffsetOf k).2, fun start limit hle => ?_⟩
  have hkeys : lookupKey start kMaxSequenceNumber ≤ lookupKey limit kMaxSequenceNumber :=
    lookupKey_le_iff.2 (hle.lt_or_eq.imp_right fun heq => ⟨heq, le_rfl⟩)
  have hoffset := hmono _ _ le_rfl le_rfl hkeys
  unfold getApproximateSize
  dsimp only
  rw [if_pos hoffset]
  exact Nat.sub_add_cancel hoffset

def offsetFile : FileMetaData Slice := ⟨1, sampleTable.bytes.length, sampleEntries, by decide, by decide⟩

def offsetVersion : Version Slice := ⟨fun level => if level = 1 then [offsetFile] else []⟩

theorem approximateOffsetOf_monotone_file : ∃ tables, offsetVersion.Opens tables ∧
    approximateOffsetOf tables offsetVersion ⟨[1], 7, .value⟩ ≤ approximateOffsetOf tables offsetVersion ⟨[2], 7, .value⟩ := by
  have hok : (TableRep.openFile .bitwise Table.sampleOptions sampleTableFile.toRandomAccessFile offsetFile.fileSize).isOk = true := by
    decide +kernel
  obtain ⟨t, ht⟩ : ∃ t, Opened offsetFile t := by
    cases hopen : TableRep.openFile .bitwise Table.sampleOptions sampleTableFile.toRandomAccessFile offsetFile.fileSize with
    | error e =>
      rw [hopen] at hok
      cases hok
    | ok t =>
      exact ⟨t, .bitwise, Table.sampleOptions, _, sampleTable, rfl, by unfold InternalKey.Storable; decide, by decide +kernel,
        sampleTableFile.size_lt, rfl, fun _ _ => rfl, hopen⟩
  have hfiles : offsetVersion.allFiles = [offsetFile] := rfl
  have h : offsetVersion.Opens fun _ => some t := by
    refine ⟨fun level _ => ?_, fun f hf => ⟨t, rfl, ?_⟩, by decide +kernel⟩
    · unfold offsetVersion DisjointSorted
      dsimp only
      split_ifs <;> simp
    · rw [hfiles] at hf
      rwa [mem_singleton.1 hf]
  exact ⟨_, h, (approximateOffsetOf_monotone _ _ h).1 _ _ (by unfold InternalKey.Storable; decide)
    (by unfold InternalKey.Storable; decide) (by decide)⟩

end RallyDB.Db
