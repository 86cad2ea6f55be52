import RallyDB.Db.Lemmas.Lookup
import RallyDB.Table.Lemmas.Table

/-!
# Main results about tables
-/

namespace RallyDB.Table

/-! ## What `InternalGet` finds in a table -/

section

open Util Db List DataBlock BlockHandle TableRep
open BlockHandle (decode_encode encode)
open Prod (fst snd)

def atOrAfter (k : Slice) (e : Slice × Slice) : Bool := internalKeyCompare e.1 k ≠ .lt

variable {k u : Slice} {e : Slice × Slice}

lemma atOrAfter_iff : atOrAfter k e = true ↔ keyRank k ≤ keyRank e.1 := by
  rw [atOrAfter, decide_eq_true_iff, Ne, internalKeyCompare_lt_iff, not_lt]

lemma atOrAfter_eq_false : atOrAfter k e = false ↔ keyRank e.1 < keyRank k := by
  rw [← Bool.not_eq_true, atOrAfter_iff, not_le]

def savedEntry (userKey : Slice) : Option (Slice × Slice) → Option SaverState
  | none => some .notFound
  | some (ikey, value) => TableRep.saveEntry userKey ikey value

lemma Encodes.seek_entries {b : BlockBuilder} {items : List Item} (he : Encodes b items)
    (hb : b.finish.length < 2 ^ 32) (hsorted : items.Pairwise fun x y => keyRank x.key < keyRank y.key) (k : Slice) :
    (Block.new b.finish).seek internalKeyCompare k = ((items.map Item.entry).find? (atOrAfter k), .ok ()) := by
  rw [Encodes.seek internalKeyCompare keyRank k (fun _ _ => internalKeyCompare_lt_iff) he hb hsorted, find?_map]
  rfl

lemma SepsOk.separates {rows : List (DataBlock × Slice)} {later : List Slice} (h : SepsOk rows later) :
    ∀ r ∈ rows, Separates r.1.lastKey r.2 := by
  induction rows with
  | nil => simp
  | cons r rows ih =>
    intro x hx
    rcases mem_cons.1 hx with rfl | hx
    · exact h.1
    · exact ih h.2.2 x hx

lemma SepsOk.sorted {rows : List (DataBlock × Slice)} {later : List Slice} (h : SepsOk rows later) :
    rows.Pairwise fun r s => keyRank r.2 < keyRank s.2 := by
  induction rows with
  | nil => exact List.Pairwise.nil
  | cons r rows ih =>
    refine pairwise_cons.2 ⟨fun s hs => ?_, ih h.2.2⟩
    have hprec := h.2.1 s.1.lastKey (mem_append_left _ (mem_flatMap.2 ⟨s, hs, s.1.lastKey_mem⟩))
    exact hprec.lt.trans_le (h.2.2.separates s hs).le

lemma indexEntries_fst (o : Nat) (rows : List (DataBlock × Slice)) : (indexEntries o rows).map fst = rows.map snd := by
  induction rows generalizing o with
  | nil => rfl
  | cons r rows ih =>
    obtain ⟨b, sep⟩ := r
    rw [indexEntries, map_cons, ih, map_cons]

lemma indexEntries_find (o : Nat) (rows : List (DataBlock × Slice)) (k : Slice) :
    ((indexEntries o rows).find? (atOrAfter k) = none ∧ ∀ r ∈ rows, keyRank r.2 < keyRank k) ∨
    ∃ A b sep B, rows = A ++ (b, sep) :: B ∧ (∀ r ∈ A, keyRank r.2 < keyRank k) ∧ keyRank k ≤ keyRank sep ∧
    (indexEntries o rows).find? (atOrAfter k) =
    some (sep, encode ⟨o + blocksLength (A.map fst), b.contents.length⟩) := by
  induction rows generalizing o with
  | nil => exact .inl ⟨rfl, by simp⟩
  | cons r rows ih =>
    obtain ⟨b, sep⟩ := r
    rw [indexEntries, find?_cons]
    by_cases hsep : keyRank k ≤ keyRank sep
    · right
      have hp : atOrAfter k (sep, encode ⟨o, b.contents.length⟩) = true := atOrAfter_iff.2 hsep
      refine ⟨[], b, sep, rows, rfl, by simp, hsep, ?_⟩
      rw [hp]
      rfl
    · have hlt := not_le.1 hsep
      have hp : atOrAfter k (sep, encode ⟨o, b.contents.length⟩) = false := atOrAfter_eq_false.2 hlt
      rw [hp]
      dsimp only
      rcases ih (o + b.contents.length + kBlockTrailerSize) with ⟨hnone, hall⟩ | ⟨A, b', sep', B, hrows, hA, hk, hf⟩
      · exact .inl ⟨hnone, forall_mem_cons.2 ⟨hlt, hall⟩⟩
      · refine .inr ⟨(b, sep) :: A, b', sep', B, by rw [hrows, cons_append], forall_mem_cons.2 ⟨hlt, hA⟩, hk, ?_⟩
        rw [hf, map_cons, blocksLength]
        simp only [add_assoc]

/-! ## The block -/

variable {b : DataBlock}

lemma DataBlock.le_lastKey (hs : b.keys.Pairwise fun x y => keyRank x < keyRank y)
    (hk : k ∈ b.keys) : keyRank k ≤ keyRank b.lastKey := by
  have hne : b.keys ≠ [] := ne_nil_of_mem hk
  have hlast : b.lastKey = b.keys.getLast hne := by
    rw [lastKey, lastKeyOf, getLast?_eq_some_getLast b.ne]
    simp [keys]
  rw [hlast]
  rw [← dropLast_append_getLast hne, mem_append, mem_singleton] at hk
  rw [← dropLast_append_getLast hne, pairwise_append] at hs
  rcases hk with hk | hk
  · exact (hs.2.2 k hk _ (mem_singleton.2 rfl)).le
  · rw [← hk]

lemma DataBlock.mem_keys_of_entries (he : e ∈ b.entries) : e.1 ∈ b.keys := by
  obtain ⟨i, hi, rfl⟩ := mem_map.1 he
  exact mem_map_of_mem hi

lemma parseInternalKey_userKey {ikey : Slice} {k : InternalKey Slice} (h : parseInternalKey ikey = some k) :
    k.userKey = extractUserKey ikey := by
  unfold parseInternalKey at h
  dsimp only at h
  split_ifs at h
  split at h <;> cases h <;> rfl

lemma savedEntry_of_ne (hparse : (parseInternalKey e.1).isSome)
    (hne : extractUserKey e.1 ≠ u) : savedEntry u (some e) = some .notFound := by
  obtain ⟨k, hk⟩ := Option.isSome_iff_exists.1 hparse
  have hu : k.userKey ≠ u := parseInternalKey_userKey hk ▸ hne
  simp [savedEntry, saveEntry, hk, saveValue, hu]

section

variable {rows A B : List (DataBlock × Slice)} {b : DataBlock} {sep k u : Slice} {later : List Slice}

def rowEntries (rows : List (DataBlock × Slice)) : List (Slice × Slice) := rows.flatMap fun r => r.1.entries

lemma rowEntries_keys_sorted (hsorted : (rowEntries rows).Pairwise fun a b => keyRank a.1 < keyRank b.1)
    {r : DataBlock × Slice} (hr : r ∈ rows) : r.1.items.Pairwise fun x y => keyRank x.key < keyRank y.key := by
  have hblock : (r.1.items.map Item.entry).Pairwise fun a b => keyRank a.1 < keyRank b.1 :=
    (pairwise_flatMap.1 hsorted).1 r hr
  rw [pairwise_map] at hblock
  exact hblock

lemma find_before (hseps : SepsOk rows later) (hsorted : (rowEntries rows).Pairwise fun a b => keyRank a.1 < keyRank b.1)
    (hsub : ∀ r ∈ A, r ∈ rows) (hA : ∀ r ∈ A, keyRank r.2 < keyRank k) : (rowEntries A).find? (atOrAfter k) = none := by
  rw [find?_eq_none]
  intro e he
  obtain ⟨r, hr, her⟩ := mem_flatMap.1 he
  rw [Bool.not_eq_true, atOrAfter_eq_false]
  have hs : r.1.keys.Pairwise fun x y => keyRank x < keyRank y :=
    pairwise_map.2 (rowEntries_keys_sorted hsorted (hsub r hr))
  calc keyRank e.1 ≤ keyRank r.1.lastKey := le_lastKey hs (mem_keys_of_entries her)
    _ ≤ keyRank r.2 := (hseps.separates r (hsub r hr)).le
    _ < keyRank k := hA r hr

lemma SepsOk.drop (h : SepsOk (A ++ B) later) : SepsOk B later := by
  induction A with
  | nil => exact h
  | cons r A ih => exact ih h.2.2

lemma savedEntry_block (hseps : SepsOk rows []) (hrows : rows = A ++ (b, sep) :: B)
    (hsorted : (rowEntries rows).Pairwise fun a b => keyRank a.1 < keyRank b.1)
    (hparse : ∀ e ∈ rowEntries rows, (parseInternalKey e.1).isSome) (hA : ∀ r ∈ A, keyRank r.2 < keyRank k)
    (hk : keyRank k ≤ keyRank sep) (hu : extractUserKey k = u) :
    savedEntry u (b.entries.find? (atOrAfter k)) = savedEntry u ((rowEntries rows).find? (atOrAfter k)) := by
  have hbefore : (rowEntries A).find? (atOrAfter k) = none :=
    find_before hseps hsorted (fun r hr => by rw [hrows]; exact mem_append_left _ hr) hA
  have hsplit : rowEntries rows = rowEntries A ++ (b.entries ++ rowEntries B) := by
    simp [rowEntries, hrows]
  rw [hsplit, find?_append, hbefore, Option.none_or, find?_append]
  cases hb : b.entries.find? (atOrAfter k) with
  | some e => rfl
  | none =>
    rw [Option.none_or]
    cases hB : (rowEntries B).find? (atOrAfter k) with
    | none => rfl
    | some e =>
      -- the key lies between the last key of the block and its separator
      have he : e ∈ rowEntries B := mem_of_find?_eq_some hB
      have hmem : e ∈ rowEntries rows := by
        rw [hsplit]
        exact mem_append_right _ (mem_append_right _ he)
      obtain ⟨r, hr, her⟩ := mem_flatMap.1 he
      obtain ⟨i, hi, hil⟩ := mem_map.1 b.lastKey_mem
      have hlast : keyRank b.lastKey < keyRank k := by
        have hafter := find?_eq_none.1 hb i.entry (mem_map_of_mem hi)
        rw [Bool.not_eq_true, atOrAfter_eq_false] at hafter
        rw [← hil]
        exact hafter
      have hdrop : SepsOk ((b, sep) :: B) [] := SepsOk.drop (hrows ▸ hseps)
      have hprec := hdrop.2.1 e.1 (mem_append_left _ (mem_flatMap.2 ⟨r, hr, mem_keys_of_entries her⟩))
      have huser : extractUserKey sep < extractUserKey e.1 := by
        rcases hprec with ⟨rfl, -⟩ | h
        · exact absurd (hlast.trans_le hk) (lt_irrefl _)
        · exact h
      have hule : u ≤ extractUserKey sep := by
        rw [← hu]
        rcases keyRank_le_iff.1 hk with h | ⟨h, -⟩
        · exact h.le
        · exact h.le
      exact (savedEntry_of_ne (hparse e hmem) (hule.trans_lt huser).ne').symm

end

/-! ## The lookup -/

variable {crc : Crc32c} {options : TableOptions} {tb : TableBuilder} {rows : List (DataBlock × Slice)}

lemma mem_finishedFile_of_units (hu : u ∈ tb.finalUnits) : u ∈ tb.finishedFile crc options :=
  mem_append_right _ (mem_append_left _ (mem_flatMap.2 ⟨u, hu, mem_cons_self⟩))

structure Layout.Fits (h : Layout crc options tb rows) : Prop where
  pieces : ∀ a ∈ tb.finishedFile crc options, a.length < 2 ^ 32
  bytes : (finishedBytes crc options tb rows).length < 2 ^ 64

section

variable {h : Layout crc options tb rows} (hfits : h.Fits)
include hfits

lemma Layout.Fits.meta : (tb.metaContents options).length < 2 ^ 32 :=
  hfits.pieces _ (mem_append_right _ (mem_append_right _ (mem_append_left _ mem_cons_self)))

lemma Layout.Fits.index : tb.finalIndex.finish.length < 2 ^ 32 :=
  hfits.pieces _ (mem_append_right _ (mem_append_right _ (mem_append_right _ (mem_append_left _ mem_cons_self))))

lemma Layout.Fits.block {r : DataBlock × Slice} (hr : r ∈ rows) : r.1.contents.length < 2 ^ 32 := by
  apply hfits.pieces
  rw [TableBuilder.finishedFile, h.file]
  exact mem_append_left _ (mem_flatMap.2 ⟨r.1, mem_map_of_mem hr, mem_cons_self⟩)

lemma Layout.Fits.offset : tb.offset < 2 ^ 64 := by
  have hlt := hfits.bytes
  rw [finishedBytes, length_append, h.dataBytes_length] at hlt
  omega

variable {A B : List (DataBlock × Slice)}

lemma Layout.Fits.handle {b : DataBlock} {sep : Slice} (hrows : rows = A ++ (b, sep) :: B) :
    BlockHandle.Fits ⟨blocksLength (A.map fst), b.contents.length⟩ := by
  have hoffset := hfits.offset
  have hblock : b.contents.length < 2 ^ 32 := hfits.block (r := (b, sep)) (by simp [hrows])
  rw [h.offset, hrows, map_append, blocksLength_append] at hoffset
  refine ⟨?_, ?_⟩ <;> dsimp only <;> omega

lemma Layout.seek_index (k : Slice) : (Block.new tb.finalIndex.finish).seek internalKeyCompare k =
    ((indexEntries 0 rows).find? (atOrAfter k), .ok ()) := by
  obtain ⟨items, henc, hentries⟩ := h.index
  have hkeys : items.map Item.key = rows.map snd := by
    rw [← indexEntries_fst 0, ← hentries, map_map]
    rfl
  have hsorted : (items.map Item.key).Pairwise fun x y => keyRank x < keyRank y := by
    rw [hkeys, pairwise_map]
    exact h.seps.sorted
  rw [pairwise_map] at hsorted
  rw [henc.seek_entries hfits.index hsorted, hentries]

variable {file : RandomAccessFile} (hread : file.ReadsAll (finishedBytes crc options tb rows))
include hread

lemma Layout.seekInBlock (hsorted : (rowEntries rows).Pairwise fun a b => keyRank a.1 < keyRank b.1)
    {b : DataBlock} {sep : Slice} (hrows : rows = A ++ (b, sep) :: B) (verify : Bool) (k u : Slice) :
    (TableRep.seekInBlock crc file verify (encode ⟨blocksLength (A.map fst), b.contents.length⟩) k u).1 =
    savedEntry u (b.entries.find? (atOrAfter k)) := by
  have hmem : (b, sep) ∈ rows := by simp [hrows]
  have hdecode := decode_encode (hfits.handle hrows) []
  rw [append_nil] at hdecode
  have hblock : readBlock crc file verify ⟨blocksLength (A.map fst), b.contents.length⟩ = .ok b.contents :=
    readBlock_data hread hrows
  have hseek := b.encodes.seek_entries (hfits.block hmem) (rowEntries_keys_sorted hsorted hmem) k
  unfold TableRep.seekInBlock
  rw [hdecode]
  dsimp only
  rw [hblock]
  dsimp only [DataBlock.contents]
  rw [hseek, ← DataBlock.entries]
  cases b.entries.find? (atOrAfter k) <;> rfl

lemma Layout.internalGet (hsorted : (rowEntries rows).Pairwise fun a b => keyRank a.1 < keyRank b.1)
    (hparse : ∀ e ∈ rowEntries rows, (parseInternalKey e.1).isSome)
    {t : TableRep} (hindex : t.indexBlock = .new tb.finalIndex.finish) {worth : WorthAdjusting}
    {io : Nat → RandomAccessFile} {mq : MultiQueue} {k u : Slice} (hu : extractUserKey k = u)
    (hfilter : ∀ A b sep B, rows = A ++ (b, sep) :: B → ∀ policy, t.options.filterPolicy = some policy →
    ∀ key ∈ b.keys, extractUserKey key = u → (t.filterMayMatch worth crc io mq policy
    (encode ⟨blocksLength (A.map fst), b.contents.length⟩) k).2 = true) (verify : Bool) :
    (t.internalGet worth crc file io verify mq k u).2.1 = savedEntry u ((rowEntries rows).find? (atOrAfter k)) := by
  unfold TableRep.internalGet
  rw [hindex, Layout.seek_index hfits]
  rcases indexEntries_find 0 rows k with ⟨hnone, hall⟩ | ⟨A, b, sep, B, hrows, hA, hk, hfind⟩
  · rw [hnone, find_before h.seps hsorted (fun r hr => hr) hall]
    rfl
  · have hanswer := savedEntry_block h.seps hrows hsorted hparse hA hk hu
    have hblock := Layout.seekInBlock hfits hread hsorted hrows verify k u
    rw [hfind, zero_add]
    dsimp only
    cases hp : t.options.filterPolicy with
    | none =>
      dsimp only [Option.map_none]
      rw [hblock, hanswer]
    | some policy =>
      rcases hm : t.filterMayMatch worth crc io mq policy
        (encode ⟨blocksLength (A.map fst), b.contents.length⟩) k with ⟨mq', _ | _⟩
      · -- the filter excludes the block: none of its entries is of the user key
        rw [Option.map_some, hm]
        dsimp only
        rw [← hanswer]
        cases he : b.entries.find? (atOrAfter k) with
        | none => rfl
        | some e =>
          have hmem : e ∈ b.entries := mem_of_find?_eq_some he
          refine (savedEntry_of_ne (hparse e ?_) fun hue => ?_).symm
          · rw [hrows]
            exact mem_flatMap.2 ⟨(b, sep), by simp, hmem⟩
          · have hpass := hfilter A b sep B hrows policy hp e.1 (DataBlock.mem_keys_of_entries hmem) hue
            rw [hm] at hpass
            cases hpass
      · rw [Option.map_some, hm]
        dsimp only
        rw [hblock, hanswer]

end

/-! ## The filter check -/

def OpenedReader (crc : Crc32c) (file : RandomAccessFile) (bytes : Slice) (t : TableRep) (r : FilterBlockReader) : Prop :=
  ∃ (uninit r0 : FilterBlockReader) (first : HonestFile bytes) (calls : List (ReaderCall bytes)),
    t.readFilter crc file uninit = some r0 ∧ r = ((r0.initLoadFilter crc first.toRandomAccessFile).1).run crc calls

section

variable {h : Layout crc options tb rows} (hfits : h.Fits) {user : FilterPolicy}
  (hpolicy : options.filterPolicy = some (internalFilterPolicy user))
include h hfits hpolicy

lemma Layout.readerOk (hsound : user.Sound) {file : RandomAccessFile}
    (hread : file.ReadsAll (finishedBytes crc options tb rows)) {t : TableRep} (ht : t.options = options)
    (hhandle : t.metaindexHandle = tb.metaHandle crc options) :
    ∃ f : FilterBlockBuilder, f.filterUnits.length = kAllFilterUnitsNumber ∧
    HoldsUnits crc f tb.offset (finishedBytes crc options tb rows) ∧
    (∀ r, OpenedReader crc file (finishedBytes crc options tb rows) t r → ReaderOk f tb.offset r) ∧
    ∀ A b sep B, rows = A ++ (b, sep) :: B → ∀ key ∈ b.keys, ∀ k, extractUserKey key = extractUserKey k →
    ∀ r, ReaderOk f tb.offset r → r.keyMayMatch (internalFilterPolicy user) (blocksLength (A.map fst)) k = true := by
  obtain ⟨calls, hfinal, hmono, hadded⟩ := h.filters hpolicy
  obtain ⟨gs, hb, hc⟩ := buildFilters_builds (internalFilterPolicy user) hmono
  have hp := internalFilterPolicy_soundFor hsound
  have hunits : tb.finalUnits = (buildFilters (internalFilterPolicy user) calls).filterUnits := by
    rw [TableBuilder.finalUnits, hfinal]
    rfl
  have hsize : (buildFilters (internalFilterPolicy user) calls).unitSize < 2 ^ 32 := by
    apply hfits.pieces
    apply mem_finishedFile_of_units
    rw [hunits]
    have hlen := hb.filterUnits_length
    cases hu : (buildFilters (internalFilterPolicy user) calls).filterUnits with
    | nil => rw [hu] at hlen; cases hlen
    | cons u units => exact mem_cons_self
  have hholds := hb.holdsUnits hp crc (dataBytes crc rows) (rawBlock crc (tb.metaContents options) ++
    (rawBlock crc tb.finalIndex.finish ++ (tb.footer crc options).encode))
  rw [h.dataBytes_length, ← hunits] at hholds
  refine ⟨_, hb.filterUnits_length, hholds, ?_, ?_⟩
  · rintro r ⟨uninit, r0, first, readerCalls, hr0, rfl⟩
    rw [h.readFilter hread hpolicy hfinal hfits.meta uninit t ht hhandle] at hr0
    cases hr0
    exact ((readerOk_new uninit hsize hfits.offset).loadUpTo hholds hb.filterUnits_length first _).run hholds
      hb.filterUnits_length readerCalls
  · intro A b sep B hrows key hkey k hk r hr
    have hmem := hadded (A.map fst) b (B.map fst) (by rw [hrows]; simp) key hkey
    obtain ⟨g, hg, hkg⟩ := hc _ hmem
    exact hr.keyMayMatch hp hb hsize hg hkg hk

end

inductive Configured (crc : Crc32c) (file : RandomAccessFile) (bytes : Slice) (mq : MultiQueue)
    (io : Nat → RandomAccessFile) (t : TableRep) : TableRep → Prop
  | unfiltered : Configured crc file bytes mq io t t
  | ownedByTable {r : FilterBlockReader} (hr : OpenedReader crc file bytes t r) :
      Configured crc file bytes mq io t { t with reader := some r }
  | ownedByMultiQueue {a : Nat} {r : FilterBlockReader} (hr : OpenedReader crc file bytes t r)
      (hvalue : mq.value a = some r) (filterFile : HonestFile bytes) (hio : io a = filterFile.toRandomAccessFile) :
      Configured crc file bytes mq io t { t with handle := some a }

variable {file : RandomAccessFile} {io : Nat → RandomAccessFile}

lemma Configured.eq {bytes : Slice} {mq : MultiQueue} {t t' : TableRep} (h : Configured crc file bytes mq io t t') :
    t'.options = t.options ∧ t'.indexBlock = t.indexBlock := by
  cases h <;> exact ⟨rfl, rfl⟩

lemma Layout.filterMayMatch {h : Layout crc options tb rows} (hfits : h.Fits) {user : FilterPolicy}
    (hpolicy : options.filterPolicy = some (internalFilterPolicy user)) (hsound : user.Sound)
    (hread : file.ReadsAll (finishedBytes crc options tb rows)) {t t' : TableRep}
    (ht : t = ⟨options, tb.metaHandle crc options, .new tb.finalIndex.finish, none, none⟩)
    {worth : WorthAdjusting} {mq : MultiQueue} (hconf : Configured crc file (finishedBytes crc options tb rows) mq io t t')
    {A B : List (DataBlock × Slice)} {sep : Slice} (hrows : rows = A ++ (b, sep) :: B)
    {key : Slice} (hkey : key ∈ b.keys) (hk : extractUserKey key = extractUserKey k) :
    (t'.filterMayMatch worth crc io mq (internalFilterPolicy user)
    (encode ⟨blocksLength (A.map fst), b.contents.length⟩) k).2 = true := by
  obtain ⟨f, hlen, hholds, hopened, hmatch⟩ :=
    Layout.readerOk hfits hpolicy hsound hread (t := t) (by rw [ht]) (by rw [ht])
  have hdecode := decode_encode (hfits.handle hrows) []
  rw [append_nil] at hdecode
  unfold TableRep.filterMayMatch
  rw [hdecode]
  dsimp only
  cases hconf with
  | unfiltered =>
    subst ht
    rfl
  | @ownedByTable r hr =>
    subst ht
    simp [hmatch A b sep B hrows key hkey k hk r (hopened r hr)]
  | @ownedByMultiQueue a r hr hvalue filterFile hio =>
    subst ht
    refine MultiQueue.updateHandle_matches (P := ReaderOk f tb.offset) (fun r hr => hr.evictFilter) (fun r hr => ?_)
      ⟨r, hvalue, hopened r hr⟩ (fun r sn hr => hr.updateState sn) (hmatch A b sep B hrows key hkey k hk)
    rw [hio]
    exact hr.loadFilter filterFile hholds hlen

def encodeEntry (e : Entry Slice) : Slice × Slice := (e.1.encode, e.2)

variable {entries : List (Entry Slice)}

lemma encodeEntry_sorted (hsorted : SortedEntries entries) (hstorable : ∀ e ∈ entries, e.1.Storable) :
    (entries.map encodeEntry).Pairwise fun a b => keyRank a.1 < keyRank b.1 := by
  rw [pairwise_map]
  exact hsorted.imp_of_mem fun ha hb hlt => (keyRank_encode_lt_iff (hstorable _ ha) (hstorable _ hb)).2 hlt

lemma savedEntry_encode (hstorable : ∀ e ∈ entries, e.1.Storable) {k : InternalKey Slice} (hk : k.Storable) (u : Slice) :
    savedEntry u ((entries.map encodeEntry).find? (atOrAfter k.encode)) = some (saveValue u (seek entries k)) := by
  induction entries with
  | nil => rfl
  | cons e entries ih =>
    have he : e.1.Storable := hstorable e mem_cons_self
    have hiff : atOrAfter k.encode (encodeEntry e) = decide (k ≤ e.1) := by
      rw [Bool.eq_iff_iff, atOrAfter_iff, decide_eq_true_iff]
      exact keyRank_encode_le_iff hk he
    rw [map_cons, find?_cons, seek, find?_cons, hiff]
    by_cases hle : k ≤ e.1
    · simp [hle, savedEntry, encodeEntry, saveEntry, parseInternalKey_encode he]
    · rw [decide_eq_false hle]
      exact ih fun x hx => hstorable x (mem_cons_of_mem _ hx)

end

open Util Db List

/-! ## The filter block has no false negatives -/

def filterFile (crc : Crc32c) (before : Slice) (b : FilterBlockBuilder) (after : Slice) : Slice :=
  before ++ (writeRawFilters crc b.filterUnits ++ after)

def openFilter {bytes : Slice} (crc : Crc32c) (file : HonestFile bytes) (uninit : FilterBlockReader)
    (b : FilterBlockBuilder) (offset : Nat) : FilterBlockReader :=
  ((FilterBlockReader.new uninit (b.finish (filtersHandle b.filterUnits offset))).initLoadFilter crc file.toRandomAccessFile).1

/-- Every key matches at the offset of its block, whatever was loaded and evicted and whichever reads failed. -/
theorem keyMayMatch_of_added (crc : Crc32c) {policy : FilterPolicy} (hp : policy.Sound) {calls : List BuilderCall}
    (hmono : (startOffsets calls).Pairwise (· ≤ ·)) (hsize : (buildFilters policy calls).unitSize < 2 ^ 32)
    (before after : Slice) (file : HonestFile (filterFile crc before (buildFilters policy calls) after))
    (uninit : FilterBlockReader) (readerCalls : List (ReaderCall (filterFile crc before (buildFilters policy calls) after)))
    {o : Nat} {k : Slice} (hk : (o, k) ∈ addedKeys none calls) :
    ((openFilter crc file uninit (buildFilters policy calls) before.length).run crc readerCalls).keyMayMatch
    policy o k = true := by
  obtain ⟨gs, hb, hc⟩ := buildFilters_builds policy hmono
  have hunits := hb.holdsUnits hp.soundFor crc before after
  have hoffset : before.length < 2 ^ 64 := by
    have := file.size_lt
    rw [filterFile, length_append] at this
    omega
  have hinit : ReaderOk (buildFilters policy calls) before.length
      (openFilter crc file uninit (buildFilters policy calls) before.length) :=
    (readerOk_new uninit hsize hoffset).loadUpTo hunits hb.filterUnits_length file _
  obtain ⟨g, hg, hmem⟩ := hc (o, k) hk
  exact (hinit.run hunits hb.filterUnits_length readerCalls).keyMayMatch hp.soundFor hb hsize hg hmem rfl

def bytePolicy : FilterPolicy where
  name := [98]
  createFilter keys index := (keys.map fun k => k.getD index 0, keys)
  keyMayMatch key filter index := filter.contains (key.getD index 0)

lemma bytePolicy_sound : bytePolicy.Sound where
  keeps _ _ := rfl
  matches_of_mem keys index k hk := by
    simp only [bytePolicy, contains_iff_mem]
    exact mem_map_of_mem hk
  length_eq keys i j := by simp [bytePolicy]

def sampleCalls : List BuilderCall :=
  [.startBlock 0, .addKey [1], .startBlock 100, .addKey [2], .addKey [2, 7], .startBlock 5000, .addKey [3, 4]]

def sampleFilterFile : Slice := filterFile .bitwise [9, 9] (buildFilters bytePolicy sampleCalls) [8]

def sampleFile : HonestFile sampleFilterFile := .reliable _ (by decide +kernel)

def sampleUninit : FilterBlockReader := ⟨[], 0, 0, 0, 0, 0, 0, 0, 0, 0, []⟩

def sampleReaderCalls : List (ReaderCall sampleFilterFile) :=
  [.load sampleFile, .updateState 7, .clean, .goBackToInit sampleFile, .evict]

theorem keyMayMatch_of_added_sample :
    ((openFilter .bitwise sampleFile sampleUninit (buildFilters bytePolicy sampleCalls) 2).run .bitwise
    sampleReaderCalls).keyMayMatch bytePolicy 100 [2, 7] = true :=
  keyMayMatch_of_added .bitwise bytePolicy_sound (by decide) (by decide +kernel) [9, 9] [8] sampleFile
    sampleUninit sampleReaderCalls (by decide)

def tableOf (crc : Crc32c) (options : TableOptions) (entries : List (Entry Slice)) : TableBuilder :=
  buildTable crc options (entries.map encodeEntry)

/-- A table of increasing entries can be opened, and `InternalGet` leaves the same state of the saver wherever the
filter reader is: the one the newest entry of the user key at the sequence gives. -/
theorem internalGet_newest (crc : Crc32c) (worth : WorthAdjusting) (options : TableOptions)
    (hpolicy : ∀ policy, options.filterPolicy = some policy →
    ∃ user : FilterPolicy, user.Sound ∧ policy = internalFilterPolicy user)
    (entries : List (Entry Slice)) (hsorted : SortedEntries entries) (hstorable : ∀ e ∈ entries, e.1.Storable)
    (hpieces : ∀ a ∈ (tableOf crc options entries).file, a.length < 2 ^ 32)
    (hsize : (tableOf crc options entries).bytes.length < 2 ^ 64)
    (file : RandomAccessFile) (hread : file.ReadsAll (tableOf crc options entries).bytes) :
    ∃ t, TableRep.openFile crc options file (tableOf crc options entries).bytes.length = .ok t ∧
    ∀ mq io t', Configured crc file (tableOf crc options entries).bytes mq io t t' → ∀ u s verify, s ≤ kMaxSequenceNumber →
    (t'.internalGet worth crc file io verify mq (lookupKey u s).encode u).2.1 =
    some (saveValue u (entryRead u s entries)) := by
  obtain ⟨tb, rows, h, hrows, hfile⟩ := buildTable_layout crc options (encodeEntry_sorted hsorted hstorable)
  have hbytes : (tableOf crc options entries).bytes = finishedBytes crc options tb rows := by
    rw [TableBuilder.bytes, tableOf, hfile, h.flatten]
  rw [hbytes] at hsize hread ⊢
  have hfits : h.Fits := ⟨fun a ha => hpieces a (by rw [tableOf, hfile]; exact ha), hsize⟩
  refine ⟨_, h.openFile hsize hread, ?_⟩
  intro mq io t' hconf u s verify hs
  have hkey : (lookupKey u s).Storable := hs
  have hentries : rowEntries rows = entries.map encodeEntry := hrows
  have hu : extractUserKey (lookupKey u s).encode = u := extractUserKey_encode _
  rw [Layout.internalGet hfits hread (hentries ▸ encodeEntry_sorted hsorted hstorable) ?_ hconf.eq.2 hu ?_ verify,
    hentries, savedEntry_encode hstorable hkey, saveValue_seek hsorted]
  · rw [hentries]
    intro e he
    obtain ⟨x, hx, rfl⟩ := mem_map.1 he
    rw [encodeEntry, parseInternalKey_encode (hstorable x hx)]
    rfl
  · intro A b sep B hsplit policy hp key hkey huser
    rw [hconf.eq.1] at hp
    obtain ⟨user, hsound, rfl⟩ := hpolicy policy hp
    exact Layout.filterMayMatch hfits hp hsound hread rfl hconf hsplit hkey (huser.trans hu.symm)

def sampleEntries : List (Entry Slice) :=
  [(⟨[1], 5, .value⟩, [50]), (⟨[1], 3, .value⟩, [30]), (⟨[2], 4, .deletion⟩, [])]

def sampleOptions : TableOptions where
  blockSize := 1
  blockRestartInterval := 16
  filterPolicy := some (internalFilterPolicy bytePolicy)
  paranoidChecks := false

def sampleTable : TableBuilder := tableOf .bitwise sampleOptions sampleEntries

def sampleTableFile : HonestFile sampleTable.bytes := .reliable _ (by decide +kernel)

theorem internalGet_newest_sample :
    ∃ t r, TableRep.openFile .bitwise sampleOptions sampleTableFile.toRandomAccessFile sampleTable.bytes.length = .ok t ∧
    t.readFilter .bitwise sampleTableFile.toRandomAccessFile sampleUninit = some r ∧
    (({ t with reader := some (r.initLoadFilter .bitwise sampleTableFile.toRandomAccessFile).1 } :
    TableRep).internalGet (fun _ _ => true) .bitwise sampleTableFile.toRandomAccessFile
    (fun _ => sampleTableFile.toRandomAccessFile) true .new (lookupKey [1] 4).encode [1]).2.1 = some (.found [30]) := by
  obtain ⟨t, hopen, hget⟩ := internalGet_newest .bitwise (fun _ _ => true) sampleOptions
    (by rintro _ ⟨⟩; exact ⟨bytePolicy, bytePolicy_sound, rfl⟩) sampleEntries
    (by unfold SortedEntries; decide) (by unfold InternalKey.Storable; decide) (by decide +kernel)
    sampleTableFile.size_lt sampleTableFile.toRandomAccessFile (fun _ _ => rfl)
  have hsome : ((TableRep.openFile .bitwise sampleOptions sampleTableFile.toRandomAccessFile
      sampleTable.bytes.length).toOption.bind
        (TableRep.readFilter .bitwise sampleTableFile.toRandomAccessFile sampleUninit)).isSome = true := by
    decide +kernel
  rw [show TableRep.openFile .bitwise sampleOptions sampleTableFile.toRandomAccessFile sampleTable.bytes.length = .ok t
    from hopen] at hsome
  obtain ⟨r, hr⟩ := Option.isSome_iff_exists.1 hsome
  exact ⟨t, r, hopen, hr, hget .new (fun _ => sampleTableFile.toRandomAccessFile) _
    (.ownedByTable ⟨sampleUninit, r, sampleTableFile, [], hr, rfl⟩) [1] 4 true (by decide)⟩

end RallyDB.Table
