import RallyDB.Table.Lemmas.Format
import RallyDB.Table.Lemmas.TableBuilder
import RallyDB.Table.Table
import RallyDB.Util.Lemmas.Adjustment

/-!
# Reading a finished table
-/

namespace RallyDB.Table

/-! ## The layout of a finished table -/

section

open Util Db

/-! ## What `Finish` appends -/

namespace TableBuilder

def finalFilters (tb : TableBuilder) : Option (FilterPolicy × FilterBlockBuilder) :=
  tb.filterBlock.map fun (policy, b) => (policy, b.returnFilters policy)

def finalUnits (tb : TableBuilder) : List Slice := (tb.finalFilters.map fun p => p.2.filterUnits).getD []

def filterEntry (tb : TableBuilder) : Option (Slice × Slice) :=
  tb.finalFilters.map fun (policy, b) => (filterKey policy, b.finish ⟨tb.offset, b.unitSize⟩)

variable (crc : Crc32c)

lemma writeRawFilters_eq (tb : TableBuilder) (units : List Slice) : tb.writeRawFilters crc units = { tb with
    file := tb.file ++ units.flatMap (rawPieces crc)
    offset := tb.offset + (Table.writeRawFilters crc units).length } := by
  induction units generalizing tb with
  | nil => simp [writeRawFilters, Table.writeRawFilters]
  | cons u units ih =>
    rw [writeRawFilters, ih]
    simp [writeRawBlock, Table.writeRawFilters, add_assoc]

lemma finishFilters_eq (tb : TableBuilder) : tb.finishFilters crc = ({ tb with
    file := tb.file ++ tb.finalUnits.flatMap (rawPieces crc)
    offset := tb.offset + (Table.writeRawFilters crc tb.finalUnits).length }, tb.filterEntry) := by
  unfold finishFilters
  split
  · rename_i h
    have hf : tb.finalFilters = none := by simp [finalFilters, h]
    simp [finalUnits, filterEntry, hf, Table.writeRawFilters]
  · rename_i policy b h
    have hf : tb.finalFilters = some (policy, b.returnFilters policy) := by simp [finalFilters, h]
    simp only [finalUnits, filterEntry, hf, writeRawFilters_eq, Option.map_some, Option.getD_some]
    rfl

def finalIndex (tb : TableBuilder) : BlockBuilder :=
  if tb.pendingIndexEntry then
    tb.indexBlock.add 1 (internalFindShortSuccessor tb.lastKey) tb.pendingHandle.encode
  else tb.indexBlock

variable (options : TableOptions)

variable (tb : TableBuilder)

def metaContents : Slice :=
  (tb.metaindexBlock options tb.filterEntry).finish

def metaHandle : BlockHandle :=
  ⟨tb.offset + (Table.writeRawFilters crc tb.finalUnits).length, (tb.metaContents options).length⟩

def indexHandle : BlockHandle :=
  ⟨(tb.metaHandle crc options).offset + (tb.metaContents options).length + kBlockTrailerSize, tb.finalIndex.finish.length⟩

def footer : Footer :=
  ⟨tb.metaHandle crc options, tb.indexHandle crc options⟩

def finishedFile : List Slice :=
  tb.file ++ (tb.finalUnits.flatMap (rawPieces crc) ++ (rawPieces crc (tb.metaContents options) ++
    (rawPieces crc tb.finalIndex.finish ++ [(tb.footer crc options).encode])))

lemma finish_file : (tb.finish crc options).file = (tb.flush crc).finishedFile crc options := by
  unfold finish finishedFile footer
  dsimp only
  rw [finishFilters_eq]
  cases h : (tb.flush crc).pendingIndexEntry <;>
    simp [h, writeRawBlock, addIndexEntry, metaHandle, indexHandle, metaContents, finalIndex, metaindexBlock]

end TableBuilder

structure Layout (crc : Crc32c) (options : TableOptions) (tb : TableBuilder) (rows : List (DataBlock × Slice)) :
    Prop where
  file : tb.file = blockFile crc (rows.map Prod.fst)
  offset : tb.offset = blocksLength (rows.map Prod.fst)
  index : ∃ items, Encodes tb.finalIndex items ∧ items.map Item.entry = indexEntries 0 rows
  seps : SepsOk rows []
  filter : FilterTracks options tb.filterBlock tb.offset (rows.map Prod.fst) []

variable {crc : Crc32c} {options : TableOptions} {tb : TableBuilder} {rows : List (DataBlock × Slice)}

variable {pending : Option DataBlock}

lemma Building.flush_last {cur : List Item} (h : Building crc options tb rows pending cur) :
    ∃ pending', Building crc options (tb.flush crc) rows pending' [] ∧
    builtEntries rows pending' [] = builtEntries rows pending cur := by
  by_cases hcur : cur = []
  · subst hcur
    have hbuf : tb.dataBlock.buffer = [] := h.data.buffer
    have hflush : tb.flush crc = tb := by
      unfold TableBuilder.flush
      rw [if_pos hbuf]
    exact ⟨pending, hflush.symm ▸ h, rfl⟩
  · cases pending with
    | none =>
      obtain ⟨b, hb, hitems⟩ := h.flush hcur
      exact ⟨some b, hb, by simp [builtEntries, DataBlock.entries, hitems]⟩
    | some b => exact absurd (h.pendingBlock b rfl).1 hcur

lemma Building.layout (h : Building crc options tb rows pending []) :
    ∃ rows', Layout crc options tb rows' ∧ (rows'.flatMap fun r => r.1.entries) = builtEntries rows pending [] := by
  have hflag := h.pendingFlag
  obtain ⟨items, hitems, hentries⟩ := h.index
  cases pending with
  | none =>
    have hindex : tb.finalIndex = tb.indexBlock := by
      unfold TableBuilder.finalIndex
      rw [hflag]
      rfl
    refine ⟨rows, ⟨by simpa using h.file, by simpa using h.offset, ⟨items, hindex.symm ▸ hitems, hentries⟩, ?_,
      by simpa using h.filter⟩, by simp [builtEntries]⟩
    simpa using h.seps
  | some b =>
    obtain ⟨-, hlast, hhandle⟩ := h.pendingBlock b rfl
    have hindex : tb.finalIndex = tb.indexBlock.add 1 (internalFindShortSuccessor b.lastKey) tb.pendingHandle.encode := by
      unfold TableBuilder.finalIndex
      rw [hflag, hlast]
      rfl
    obtain ⟨j, hj, henc⟩ := hitems.add 1 (internalFindShortSuccessor b.lastKey) tb.pendingHandle.encode
    have hseps : SepsOk rows b.keys := by simpa using h.seps
    refine ⟨rows ++ [(b, internalFindShortSuccessor b.lastKey)],
      ⟨by simpa using h.file, by simpa using h.offset, ⟨items ++ [j], hindex.symm ▸ henc, ?_⟩,
        hseps.snoc [] (internalFindShortSuccessor_spec _) (by simp) (by simp), by simpa using h.filter⟩,
      by simp [builtEntries]⟩
    rw [List.map_append, hentries, List.map_singleton, hj, hhandle, indexEntries_append, zero_add]
    rfl

lemma buildTable_layout (crc : Crc32c) (options : TableOptions) {entries : List (Slice × Slice)}
    (hsorted : entries.Pairwise fun a b => keyRank a.1 < keyRank b.1) :
    ∃ tb rows, Layout crc options tb rows ∧ (rows.flatMap fun r => r.1.entries) = entries ∧
    (buildTable crc options entries).file = tb.finishedFile crc options := by
  obtain ⟨rows, pending, cur, hb, hentries⟩ := building_entries crc options hsorted
  obtain ⟨pending', hflush, he⟩ := hb.flush_last
  obtain ⟨rows', hl, hr⟩ := hflush.layout
  exact ⟨_, rows', hl, by rw [hr, he, hentries], TableBuilder.finish_file crc options _⟩

end

open Util Db List TableBuilder

/-! ## The parts of the file -/

def dataBytes (crc : Crc32c) (rows : List (DataBlock × Slice)) : Slice :=
  rows.flatMap fun r => rawBlock crc r.1.contents

variable {crc : Crc32c} {options : TableOptions} {tb : TableBuilder} {rows : List (DataBlock × Slice)}

lemma dataBytes_length (rows : List (DataBlock × Slice)) :
    (dataBytes crc rows).length = blocksLength (rows.map Prod.fst) := by
  induction rows with
  | nil => rfl
  | cons r rows ih =>
    rw [dataBytes] at ih ⊢
    simp [blocksLength, ih]

section

variable (crc options tb rows)

def finishedBytes : Slice :=
  dataBytes crc rows ++ (writeRawFilters crc tb.finalUnits ++ (rawBlock crc (tb.metaContents options) ++
    (rawBlock crc tb.finalIndex.finish ++ (tb.footer crc options).encode)))

end

lemma Layout.flatten (h : Layout crc options tb rows) :
    (tb.finishedFile crc options).flatten = finishedBytes crc options tb rows := by
  have hunits := flatMap_rawPieces_flatten crc id tb.finalUnits
  have hdata : tb.file.flatten = dataBytes crc rows := by
    rw [h.file, blockFile_flatten, flatMap_map]
    rfl
  simp only [id_eq] at hunits
  rw [finishedFile, finishedBytes]
  simp only [flatten_append, hdata, hunits, rawPieces_flatten, flatten_singleton]
  rfl

section

variable (h : Layout crc options tb rows) {file : RandomAccessFile} {verify : Bool}
  (hread : file.ReadsAll (finishedBytes crc options tb rows))

include h in
lemma Layout.dataBytes_length : (dataBytes crc rows).length = tb.offset := by
  rw [Table.dataBytes_length, h.offset]

include hread

lemma readBlock_data {A B : List (DataBlock × Slice)} {b : DataBlock} {sep : Slice} (hrows : rows = A ++ (b, sep) :: B) :
    readBlock crc file verify ⟨blocksLength (A.map Prod.fst), b.contents.length⟩ = .ok b.contents := by
  have := readBlock_rawBlock crc verify (dataBytes crc A) b.contents
    (dataBytes crc B ++ (writeRawFilters crc tb.finalUnits ++ (rawBlock crc (tb.metaContents options) ++
      (rawBlock crc tb.finalIndex.finish ++ (tb.footer crc options).encode)))) hread
    (by simp [finishedBytes, hrows, dataBytes])
  rwa [Table.dataBytes_length] at this

include h

lemma Layout.readBlock_meta : readBlock crc file verify (tb.metaHandle crc options) = .ok (tb.metaContents options) := by
  have := readBlock_rawBlock crc verify (dataBytes crc rows ++ writeRawFilters crc tb.finalUnits)
    (tb.metaContents options) (rawBlock crc tb.finalIndex.finish ++ (tb.footer crc options).encode) hread
    (by simp only [finishedBytes, append_assoc])
  rwa [length_append, h.dataBytes_length] at this

lemma Layout.readBlock_index : readBlock crc file verify (tb.indexHandle crc options) = .ok tb.finalIndex.finish := by
  have := readBlock_rawBlock crc verify
    (dataBytes crc rows ++ (writeRawFilters crc tb.finalUnits ++ rawBlock crc (tb.metaContents options)))
    tb.finalIndex.finish (tb.footer crc options).encode hread (by simp only [finishedBytes, append_assoc])
  rw [length_append, length_append, h.dataBytes_length, rawBlock_length, ← add_assoc, ← add_assoc] at this
  exact this

end

lemma Layout.handles_fit (h : Layout crc options tb rows) (hlt : (finishedBytes crc options tb rows).length < 2 ^ 64) :
    (tb.metaHandle crc options).Fits ∧ (tb.indexHandle crc options).Fits := by
  have hdata := h.dataBytes_length
  simp only [finishedBytes, length_append, rawBlock_length, hdata] at hlt
  simp only [BlockHandle.Fits, metaHandle, indexHandle]
  omega

variable {file : RandomAccessFile}

lemma readFooter_append {f : Footer} (hm : f.metaindexHandle.Fits) (hi : f.indexHandle.Fits) {before bytes : Slice}
    (hread : file.ReadsAll bytes) (hfile : bytes = before ++ f.encode) : readFooter file bytes.length = .ok f := by
  have hlen : f.encode.length = kFooterLength := Footer.encode_length hm hi
  have hsize : bytes.length = before.length + kFooterLength := by rw [hfile, length_append, hlen]
  have hinput : file.read (bytes.length - kFooterLength) kFooterLength = .ok f.encode := by
    rw [hread, hsize, Nat.add_sub_cancel, hfile, drop_left, take_of_length_le hlen.le]
  rw [readFooter, if_neg (by omega), hinput]
  exact Footer.decode_encode hm hi

lemma Layout.openFile (h : Layout crc options tb rows) (hlt : (finishedBytes crc options tb rows).length < 2 ^ 64)
    (hread : file.ReadsAll (finishedBytes crc options tb rows)) :
    TableRep.openFile crc options file (finishedBytes crc options tb rows).length =
    .ok ⟨options, tb.metaHandle crc options, .new tb.finalIndex.finish, none, none⟩ := by
  obtain ⟨hm, hi⟩ := h.handles_fit hlt
  obtain ⟨before, hbytes⟩ : ∃ before, finishedBytes crc options tb rows = before ++ (tb.footer crc options).encode :=
    ⟨_, by simp only [finishedBytes, ← append_assoc]; rfl⟩
  rw [TableRep.openFile, readFooter_append hm hi hread hbytes]
  show (readBlock crc file _ (tb.indexHandle crc options) >>= fun _ => _) = _
  rw [h.readBlock_index hread]
  rfl

lemma filterKey_lt (policy : FilterPolicy) : internalKeyCompare (filterKey policy) kvNumberKey = .lt ∧
    filterKey policy < kvNumberKey := by
  have hcons : filterKey policy = 102 :: (filterKeyStart.tail ++ policy.name) := rfl
  refine ⟨?_, ?_⟩
  · -- the user key is empty or starts with the same byte
    rw [internalKeyCompare_lt_iff, keyRank_lt_iff]
    left
    have hkv : extractUserKey kvNumberKey = 108 :: [101, 118, 101, 108, 100, 98, 46, 107] := by decide
    rw [hkv, extractUserKey, hcons]
    cases hn : (102 :: (filterKeyStart.tail ++ policy.name)).length - 8 with
    | zero => exact nil_lt_cons _ _
    | succ n =>
      rw [take_succ_cons, cons_lt_cons_iff]
      exact .inl (by decide)
  · rw [hcons]
    exact cons_lt_cons_iff.2 (.inl (by decide))

lemma metaindexBlock_encodes (options : TableOptions) (tb : TableBuilder) (policy : FilterPolicy) (contents : Slice) :
    ∃ i j : Item, i.entry = (filterKey policy, contents) ∧ j.key = kvNumberKey ∧
    Encodes (tb.metaindexBlock options (some (filterKey policy, contents))) [i, j] := by
  obtain ⟨i, hi, henc⟩ := encodes_new.add options.blockRestartInterval (filterKey policy) contents
  obtain ⟨j, hj, henc'⟩ :=
    henc.add options.blockRestartInterval kvNumberKey (decimal tb.numEntries)
  refine ⟨i, j, hi, congrArg Prod.fst hj, ?_⟩
  unfold metaindexBlock
  dsimp only
  rw [if_pos (filterKey_lt policy).1]
  exact henc'

lemma Layout.readFilter (h : Layout crc options tb rows)
    (hread : file.ReadsAll (finishedBytes crc options tb rows)) {policy : FilterPolicy}
    (hpolicy : options.filterPolicy = some policy) {f : FilterBlockBuilder}
    (hf : tb.finalFilters = some (policy, f)) (hmeta : (tb.metaContents options).length < 2 ^ 32)
    (uninit : FilterBlockReader) (t : TableRep) (ht : t.options = options)
    (hhandle : t.metaindexHandle = tb.metaHandle crc options) :
    t.readFilter crc file uninit = some (.new uninit (f.finish ⟨tb.offset, f.unitSize⟩)) := by
  have hentry : tb.filterEntry = some (filterKey policy, f.finish ⟨tb.offset, f.unitSize⟩) := by
    simp [filterEntry, hf]
  obtain ⟨i, j, hi, hj, henc⟩ :=
    metaindexBlock_encodes options tb policy (f.finish ⟨tb.offset, f.unitSize⟩)
  have hik : i.key = filterKey policy := congrArg Prod.fst hi
  rw [← hentry] at henc
  have hseek : (Block.new (tb.metaContents options)).seek bytewiseCompare (filterKey policy) =
      (some (filterKey policy, f.finish ⟨tb.offset, f.unitSize⟩), .ok ()) := by
    have hsorted : [i, j].Pairwise fun x y => x.key < y.key := by
      simpa [hik, hj] using (filterKey_lt policy).2
    have hself : bytewiseCompare (filterKey policy) (filterKey policy) = .eq :=
      bytewiseCompare_eq_iff.2 rfl
    have hfind := Encodes.seek bytewiseCompare id (filterKey policy) (fun a b => bytewiseCompare_lt_iff) henc hmeta hsorted
    rw [metaContents, hfind]
    simp [hik, hself, hi]
  unfold TableRep.readFilter readFilterEntry
  rw [ht, hpolicy, hhandle]
  dsimp only
  rw [show readStoredBlock noCompression crc file _ _ = _ from h.readBlock_meta hread]
  dsimp only
  rw [hseek]
  exact if_pos rfl

lemma Layout.filters (h : Layout crc options tb rows) {policy : FilterPolicy}
    (hpolicy : options.filterPolicy = some policy) : ∃ calls, tb.finalFilters = some (policy, buildFilters policy calls) ∧
    (startOffsets calls).Pairwise (· ≤ ·) ∧ FilterAdded (addedKeys none calls) (rows.map Prod.fst) := by
  obtain ⟨hfst, hcalls⟩ := h.filter
  rw [hpolicy, Option.map_eq_some_iff] at hfst
  obtain ⟨⟨policy', f⟩, hfb, rfl⟩ := hfst
  obtain ⟨calls, hc⟩ := hcalls _ _ hfb
  refine ⟨calls, ?_, hc.mono, hc.added⟩
  rw [finalFilters, hfb, hc.built]
  rfl

end RallyDB.Table
