import RallyDB.Table.Lemmas.Block
import RallyDB.Table.Lemmas.FilterReader
import RallyDB.Table.TableBuilder

/-!
# The layout of a table while it is built
-/

namespace RallyDB.Table

open Util Db List TableBuilder

structure DataBlock where
  builder : BlockBuilder
  items : List Item
  encodes : Encodes builder items
  ne : items ≠ []

namespace DataBlock

variable (b : DataBlock)

def contents : Slice := b.builder.finish

def entries : List (Slice × Slice) := b.items.map Item.entry

def keys : List Slice := b.items.map Item.key

def lastKey : Slice := lastKeyOf [] b.items

lemma lastKey_mem : b.lastKey ∈ b.keys := by
  have h := getLast?_eq_some_getLast b.ne
  rw [lastKey, lastKeyOf, h]
  exact mem_map_of_mem (getLast_mem b.ne)

end DataBlock

variable (crc : Crc32c)

def blockFile (bs : List DataBlock) : List Slice :=
  bs.flatMap fun b => TableBuilder.rawPieces crc b.contents

def blocksLength : List DataBlock → Nat
  | [] => 0
  | b :: bs => b.contents.length + kBlockTrailerSize + blocksLength bs

def indexEntries : Nat → List (DataBlock × Slice) → List (Slice × Slice)
  | _, [] => []
  | o, (b, sep) :: rows =>
    (sep, BlockHandle.encode ⟨o, b.contents.length⟩) :: indexEntries (o + b.contents.length + kBlockTrailerSize) rows

def SepsOk : List (DataBlock × Slice) → List Slice → Prop
  | [], _ => True
  | (b, sep) :: rows, later =>
    Separates b.lastKey sep ∧ (∀ k ∈ (rows.flatMap fun r => r.1.keys) ++ later, Precedes b.lastKey sep k) ∧ SepsOk rows later

def FilterAdded (added : List (Nat × Slice)) (bs : List DataBlock) : Prop :=
  ∀ A b B, bs = A ++ b :: B → ∀ k ∈ b.keys, (blocksLength A, k) ∈ added

/-! ## Blocks -/

@[simp] lemma blocksLength_append (A B : List DataBlock) : blocksLength (A ++ B) = blocksLength A + blocksLength B := by
  induction A with
  | nil => simp [blocksLength]
  | cons b A ih => simp [blocksLength, ih, add_assoc]

@[simp] lemma blockFile_append (A B : List DataBlock) :
    blockFile crc (A ++ B) = blockFile crc A ++ blockFile crc B := flatMap_append

lemma rawPieces_flatten (contents : Slice) : (rawPieces crc contents).flatten = rawBlock crc contents := by
  simp [rawPieces, rawBlock]

lemma flatMap_rawPieces_flatten {α : Type*} (crc : Crc32c) (f : α → Slice) (l : List α) :
    (l.flatMap fun x => rawPieces crc (f x)).flatten = l.flatMap fun x => rawBlock crc (f x) := by
  induction l with
  | nil => rfl
  | cons x l ih => rw [flatMap_cons, flatten_append, rawPieces_flatten, ih, flatMap_cons]

lemma blockFile_flatten (bs : List DataBlock) : (blockFile crc bs).flatten = bs.flatMap fun b => rawBlock crc b.contents :=
  flatMap_rawPieces_flatten crc _ bs

lemma indexEntries_append (o : Nat) (A B : List (DataBlock × Slice)) :
    indexEntries o (A ++ B) = indexEntries o A ++ indexEntries (o + blocksLength (A.map Prod.fst)) B := by
  induction A generalizing o with
  | nil => simp [indexEntries, blocksLength]
  | cons r A ih =>
    obtain ⟨b, sep⟩ := r
    rw [cons_append, indexEntries, indexEntries, ih, map_cons, blocksLength, cons_append, add_assoc o, add_assoc o]

variable {bs : List DataBlock}

lemma FilterAdded.append {added : List (Nat × Slice)} (h : FilterAdded added bs)
    {b : DataBlock} (hb : ∀ k ∈ b.keys, (blocksLength bs, k) ∈ added) : FilterAdded added (bs ++ [b]) := by
  intro A b' B he k hk
  rcases append_eq_append_iff.1 he with ⟨C, rfl, hC⟩ | ⟨C, rfl, hC⟩
  · cases C with
    | nil =>
      cases hC
      simpa using hb k hk
    | cons c C => simp at hC
  · cases C with
    | nil =>
      cases hC
      simpa using hb k hk
    | cons c C =>
      cases hC
      exact h A b' C rfl k hk

lemma FilterAdded.mono {added added' : List (Nat × Slice)} (h : FilterAdded added bs)
    (hsub : ∀ p ∈ added, p ∈ added') : FilterAdded added' bs :=
  fun A b B he k hk => hsub _ (h A b B he k hk)

variable {rows : List (DataBlock × Slice)}

lemma SepsOk.push {later : List Slice} {k k0 : Slice} (h : SepsOk rows later)
    (h0 : k0 ∈ later) (hk : keyRank k0 ≤ keyRank k) : SepsOk rows (later ++ [k]) := by
  induction rows with
  | nil => trivial
  | cons r rows ih =>
    obtain ⟨b, sep⟩ := r
    refine ⟨h.1, fun x hx => ?_, ih h.2.2⟩
    rw [← append_assoc] at hx
    rcases mem_append.1 hx with hx | hx
    · exact h.2.1 x hx
    · obtain rfl := mem_singleton.1 hx
      exact (h.2.1 k0 (mem_append_right _ h0)).trans hk

lemma SepsOk.snoc {b : DataBlock} {sep : Slice} (later : List Slice)
    (h : SepsOk rows b.keys) (hsep : Separates b.lastKey sep) (hlater : ∀ k ∈ later, Precedes b.lastKey sep k)
    (hk : ∀ k ∈ later, keyRank b.lastKey ≤ keyRank k) : SepsOk (rows ++ [(b, sep)]) later := by
  induction rows with
  | nil => exact ⟨hsep, hlater, trivial⟩
  | cons r rows ih =>
    obtain ⟨b', sep'⟩ := r
    rw [cons_append]
    refine ⟨h.1, fun x hx => ?_, ih h.2.2⟩
    simp only [flatMap_append, flatMap_cons, flatMap_nil, append_nil, append_assoc, mem_append] at hx
    rcases hx with hx | hx | hx
    · exact h.2.1 x (mem_append_left _ hx)
    · exact h.2.1 x (mem_append_right _ hx)
    · exact (h.2.1 _ (mem_append_right _ b.lastKey_mem)).trans (hk x hx)

/-! ## The builder -/

structure FilterCalls (f : FilterBlockBuilder) (policy : FilterPolicy) (calls : List BuilderCall) (offset : Nat)
    (bs : List DataBlock) (cur : List Item) : Prop where
  built : f = calls.foldl (BuilderCall.apply policy) .new
  mono : (startOffsets calls).Pairwise (· ≤ ·)
  last : (startOffsets calls).getLast? = some offset
  added : FilterAdded (addedKeys none calls) bs
  current : ∀ i ∈ cur, (offset, i.key) ∈ addedKeys none calls

def FilterTracks (options : TableOptions) (fb : Option (FilterPolicy × FilterBlockBuilder)) (offset : Nat)
    (bs : List DataBlock) (cur : List Item) : Prop :=
  fb.map Prod.fst = options.filterPolicy ∧
    ∀ policy f, fb = some (policy, f) → ∃ calls, FilterCalls f policy calls offset bs cur

structure Building (crc : Crc32c) (options : TableOptions) (tb : TableBuilder) (rows : List (DataBlock × Slice))
    (pending : Option DataBlock) (cur : List Item) : Prop where
  file : tb.file = blockFile crc (rows.map Prod.fst ++ pending.toList)
  offset : tb.offset = blocksLength (rows.map Prod.fst ++ pending.toList)
  data : Encodes tb.dataBlock cur
  index : ∃ items, Encodes tb.indexBlock items ∧ items.map Item.entry = indexEntries 0 rows
  pendingFlag : tb.pendingIndexEntry = pending.isSome
  pendingBlock : ∀ b ∈ pending, cur = [] ∧ tb.lastKey = b.lastKey ∧
    tb.pendingHandle = ⟨blocksLength (rows.map Prod.fst), b.contents.length⟩
  currentLast : cur ≠ [] → tb.lastKey = lastKeyOf [] cur
  later : rows ≠ [] → pending.isSome ∨ cur ≠ []
  seps : SepsOk rows (pending.toList.flatMap DataBlock.keys ++ cur.map Item.key)
  filter : FilterTracks options tb.filterBlock tb.offset (rows.map Prod.fst ++ pending.toList) cur

def builtEntries (rows : List (DataBlock × Slice)) (pending : Option DataBlock) (cur : List Item) : List (Slice × Slice) :=
  (rows.flatMap fun r => r.1.entries) ++ pending.toList.flatMap DataBlock.entries ++ cur.map Item.entry

lemma startOffsets_append (calls more : List BuilderCall) :
    startOffsets (calls ++ more) = startOffsets calls ++ startOffsets more := filterMap_append

lemma addedKeys_append (cur : Option Nat) (calls more : List BuilderCall) : addedKeys cur (calls ++ more) =
    addedKeys cur calls ++ addedKeys ((startOffsets calls).getLast?.or cur) more := by
  induction calls generalizing cur with
  | nil => simp [addedKeys, startOffsets]
  | cons c calls ih =>
    cases c with
    | startBlock o =>
      have hlast : (startOffsets (.startBlock o :: calls)).getLast?.or cur = (startOffsets calls).getLast?.or (some o) := by
        simp [startOffsets, getLast?_cons]
      rw [hlast, cons_append, addedKeys, addedKeys, ih]
    | addKey k =>
      have hlast : startOffsets (.addKey k :: calls) = startOffsets calls := by simp [startOffsets]
      rw [hlast, cons_append]
      cases cur with
      | none => rw [addedKeys, addedKeys, ih]
      | some o => rw [addedKeys, addedKeys, ih, cons_append]

variable {options : TableOptions} {fb : Option (FilterPolicy × FilterBlockBuilder)}

lemma FilterTracks.startBlock
    {offset offset' : Nat} {bs' : List DataBlock} {cur : List Item} (h : FilterTracks options fb offset bs cur)
    (hle : offset ≤ offset')
    (hadded : ∀ added, FilterAdded added bs → (∀ i ∈ cur, (offset, i.key) ∈ added) → FilterAdded added bs') :
    FilterTracks options (fb.map fun (policy, b) => (policy, b.startBlock policy offset')) offset' bs' [] := by
  refine ⟨?_, ?_⟩
  · rw [← h.1, Option.map_map]
    rfl
  · intro policy f hf
    obtain ⟨⟨policy', f'⟩, hfb, he⟩ := Option.map_eq_some_iff.1 hf
    cases he
    obtain ⟨calls, hc⟩ := h.2 policy f' hfb
    have hkeys : addedKeys none (calls ++ [.startBlock offset']) = addedKeys none calls := by
      simp [addedKeys_append, addedKeys]
    refine ⟨calls ++ [.startBlock offset'], ?_, ?_, ?_, ?_, ?_⟩
    · rw [foldl_append, ← hc.built]
      rfl
    · rw [startOffsets_append, pairwise_append]
      refine ⟨hc.mono, pairwise_singleton _ _, ?_⟩
      intro a ha b hb
      obtain rfl : b = offset' := by simpa [startOffsets] using hb
      -- the last offset is the greatest
      have hlast := hc.last
      obtain ⟨init, hinit⟩ : ∃ init, startOffsets calls = init ++ [offset] := by
        obtain ⟨l, hl⟩ := getLast?_eq_some_iff.1 hlast
        exact ⟨l, hl⟩
      have hmono := hc.mono
      rw [hinit, pairwise_append] at hmono
      rw [hinit, mem_append, mem_singleton] at ha
      rcases ha with ha | rfl
      · exact (hmono.2.2 a ha offset (mem_singleton.2 rfl)).trans hle
      · exact hle
    · simp [startOffsets]
    · rw [hkeys]
      exact hadded _ hc.added hc.current
    · simp

lemma FilterTracks.addKey {offset : Nat} {cur : List Item} (h : FilterTracks options fb offset bs cur) (i : Item) :
    FilterTracks options (fb.map fun (policy, b) => (policy, b.addKey i.key)) offset bs (cur ++ [i]) := by
  refine ⟨?_, ?_⟩
  · rw [← h.1, Option.map_map]
    rfl
  · intro policy f hf
    obtain ⟨⟨policy', f'⟩, hfb, he⟩ := Option.map_eq_some_iff.1 hf
    cases he
    obtain ⟨calls, hc⟩ := h.2 policy f' hfb
    have hstart : startOffsets (calls ++ [.addKey i.key]) = startOffsets calls := by simp [startOffsets]
    have hkeys : addedKeys none (calls ++ [.addKey i.key]) = addedKeys none calls ++ [(offset, i.key)] := by
      rw [addedKeys_append, hc.last]
      rfl
    refine ⟨calls ++ [.addKey i.key], ?_, ?_, ?_, ?_, ?_⟩
    · rw [foldl_append, ← hc.built]
      rfl
    · rw [hstart]
      exact hc.mono
    · rw [hstart]
      exact hc.last
    · rw [hkeys]
      exact hc.added.mono fun p hp => mem_append_left _ hp
    · rw [hkeys]
      intro j hj
      rcases mem_append.1 hj with hj | hj
      · exact mem_append_left _ (hc.current j hj)
      · obtain rfl := mem_singleton.1 hj
        exact mem_append_right _ mem_cons_self

variable {crc : Crc32c} {options : TableOptions} {tb : TableBuilder} {rows : List (DataBlock × Slice)}
  {pending : Option DataBlock} {cur : List Item}

lemma building_new : Building crc options (.new options) [] none [] where
  file := rfl
  offset := rfl
  data := encodes_new
  index := ⟨[], encodes_new, rfl⟩
  pendingFlag := rfl
  pendingBlock := by simp
  currentLast := by simp
  later := by simp
  seps := trivial
  filter := by
    refine ⟨?_, ?_⟩
    · cases h : options.filterPolicy <;> simp [new, startFilterBlock, h]
    · intro policy f hf
      cases h : options.filterPolicy with
      | none => simp [new, startFilterBlock, h] at hf
      | some policy' =>
        simp only [new, startFilterBlock, h, Option.map_some, Option.some.injEq, Prod.mk.injEq] at hf
        obtain ⟨rfl, rfl⟩ := hf
        refine ⟨[.startBlock 0], rfl, pairwise_singleton _ _, rfl, ?_, by simp⟩
        intro A b B he
        simp at he

lemma Building.flush (h : Building crc options tb rows none cur) (hcur : cur ≠ []) :
    ∃ b, Building crc options (tb.flush crc) rows (some b) [] ∧ b.items = cur := by
  have hbuf : tb.dataBlock.buffer ≠ [] := by
    rw [h.data.buffer]
    cases cur with
    | nil => exact absurd rfl hcur
    | cons i cur =>
      intro he
      have := i.bytes_pos
      rw [flatMap_cons, append_eq_nil_iff] at he
      simp [he.1] at this
  set b : DataBlock := ⟨tb.dataBlock, cur, h.data, hcur⟩ with hb
  have hoffset : tb.offset = blocksLength (rows.map Prod.fst) := by simpa using h.offset
  refine ⟨b, ?_, rfl⟩
  unfold TableBuilder.flush
  rw [if_neg hbuf]
  constructor
  · have := h.file
    simp only [Option.toList_none, append_nil] at this
    simp [TableBuilder.startFilterBlock, TableBuilder.writeRawBlock, this, blockFile, DataBlock.contents, hb]
  · simp [TableBuilder.startFilterBlock, TableBuilder.writeRawBlock, hoffset, blocksLength, DataBlock.contents, hb,
      add_assoc]
  · exact encodes_new
  · exact h.index
  · rfl
  · intro b' hb'
    cases hb'
    exact ⟨rfl, h.currentLast hcur, by rw [← hoffset]; rfl⟩
  · simp
  · simp
  · have := h.seps
    simpa [DataBlock.keys, hb] using this
  · apply h.filter.startBlock (by simp [add_assoc])
    intro added hadded hkeys
    simp only [Option.toList_none, append_nil, Option.toList_some] at hadded ⊢
    apply hadded.append
    intro k hk
    obtain ⟨i, hi, rfl⟩ := mem_map.1 hk
    rw [← hoffset]
    exact hkeys i hi

lemma Building.addToBlock_of_none (h : Building crc options tb rows none cur) {key : Slice} (value : Slice)
    (hkey : ∀ i ∈ cur, keyRank i.key < keyRank key) : ∃ i : Item, i.entry = (key, value) ∧
    Building crc options (tb.addToBlock options key value) rows none (cur ++ [i]) := by
  obtain ⟨i, hi, henc⟩ := h.data.add options.blockRestartInterval key value
  have hik : i.key = key := congrArg Prod.fst hi
  have hflag : tb.pendingIndexEntry = false := h.pendingFlag
  refine ⟨i, hi, ?_⟩
  unfold addToBlock
  rw [hflag]
  constructor
  · exact h.file
  · exact h.offset
  · exact henc
  · exact h.index
  · exact hflag
  · simp
  · intro _
    simp [hik]
  · simp
  · have hseps := h.seps
    simp only [Option.toList_none, flatMap_nil, nil_append, map_append, map_cons,
      map_nil] at hseps ⊢
    by_cases hrows : rows = []
    · rw [hrows]
      trivial
    · obtain ⟨j, hj⟩ := exists_mem_of_ne_nil cur ((h.later hrows).resolve_left (by simp))
      exact hseps.push (mem_map_of_mem hj) (hik ▸ (hkey j hj).le)
  · have := h.filter.addKey i
    rwa [hik] at this

lemma Building.addToBlock_of_some {b : DataBlock} (h : Building crc options tb rows (some b) cur) {key : Slice}
    (value : Slice) (hkey : keyRank b.lastKey < keyRank key) : ∃ i : Item, i.entry = (key, value) ∧
    Building crc options (tb.addToBlock options key value)
    (rows ++ [(b, internalFindShortestSeparator b.lastKey key)]) none [i] := by
  obtain ⟨hcur, hlast, hhandle⟩ := h.pendingBlock b rfl
  subst hcur
  obtain ⟨i, hi, henc⟩ := h.data.add options.blockRestartInterval key value
  have hik : i.key = key := congrArg Prod.fst hi
  have hflag : tb.pendingIndexEntry = true := h.pendingFlag
  obtain ⟨hsep, hprec⟩ := internalFindShortestSeparator_spec hkey
  refine ⟨i, hi, ?_⟩
  unfold addToBlock
  rw [hflag]
  constructor
  · simpa [addIndexEntry] using h.file
  · simpa [addIndexEntry] using h.offset
  · exact henc
  · obtain ⟨items, hitems, hentries⟩ := h.index
    obtain ⟨j, hj, henc'⟩ := hitems.add 1 (internalFindShortestSeparator tb.lastKey key) tb.pendingHandle.encode
    refine ⟨items ++ [j], henc', ?_⟩
    rw [map_append, hentries, map_singleton, hj, hlast, hhandle, indexEntries_append, zero_add]
    rfl
  · rfl
  · simp
  · intro _
    simp [lastKeyOf, hik]
  · simp
  · have hseps : SepsOk rows b.keys := by simpa using h.seps
    have := hseps.snoc [key] hsep (by simpa using hprec) (by simpa using hkey.le)
    simpa [hik] using this
  · have := h.filter.addKey i
    rw [hik] at this
    simpa [addIndexEntry] using this

lemma Building.add (h : Building crc options tb rows pending cur) (key value : Slice)
    (hkey : ∀ e ∈ builtEntries rows pending cur, keyRank e.1 < keyRank key) :
    ∃ rows' pending' cur', Building crc options (tb.add crc options key value) rows' pending' cur' ∧
    builtEntries rows' pending' cur' = builtEntries rows pending cur ++ [(key, value)] := by
  obtain ⟨rows', cur', hadd, hne, hentries⟩ : ∃ rows' cur',
      Building crc options (tb.addToBlock options key value) rows' none cur' ∧ cur' ≠ [] ∧
        builtEntries rows' none cur' = builtEntries rows pending cur ++ [(key, value)] := by
    cases pending with
    | none =>
      obtain ⟨i, hi, hb⟩ := h.addToBlock_of_none value fun i hi =>
        hkey i.entry (mem_append_right _ (mem_map_of_mem hi))
      exact ⟨rows, cur ++ [i], hb, by simp, by simp [builtEntries, hi]⟩
    | some b =>
      obtain ⟨hcur, -, -⟩ := h.pendingBlock b rfl
      subst hcur
      obtain ⟨k, hk, hkl⟩ := mem_map.1 b.lastKey_mem
      have hlt : keyRank b.lastKey < keyRank key := by
        rw [← hkl]
        exact hkey k.entry (by simpa [builtEntries, DataBlock.entries] using .inr ⟨k, hk, rfl⟩)
      obtain ⟨i, hi, hb⟩ := h.addToBlock_of_some value hlt
      exact ⟨_, [i], hb, by simp, by simp [builtEntries, hi]⟩
  rw [TableBuilder.add]
  split_ifs
  · obtain ⟨b, hflush, hitems⟩ := hadd.flush hne
    refine ⟨rows', some b, [], hflush, ?_⟩
    rw [← hentries]
    simp [builtEntries, DataBlock.entries, hitems]
  · exact ⟨rows', none, cur', hadd, hentries⟩

lemma building_entries (crc : Crc32c) (options : TableOptions) {entries : List (Slice × Slice)}
    (hsorted : entries.Pairwise fun a b => keyRank a.1 < keyRank b.1) : ∃ rows pending cur,
    Building crc options (entries.foldl (fun tb e => add crc options tb e.1 e.2) (.new options))
    rows pending cur ∧ builtEntries rows pending cur = entries := by
  induction entries using List.reverseRecOn with
  | nil => exact ⟨[], none, [], building_new, rfl⟩
  | append_singleton entries e ih =>
    obtain ⟨hs, -, hlt⟩ := pairwise_append.1 hsorted
    obtain ⟨rows, pending, cur, hb, hentries⟩ := ih hs
    rw [foldl_append]
    obtain ⟨rows', pending', cur', hb', hentries'⟩ := hb.add e.1 e.2 (by
      rw [hentries]
      exact fun a ha => hlt a ha e mem_cons_self)
    exact ⟨rows', pending', cur', hb', by rw [hentries', hentries]⟩

end RallyDB.Table
