import RallyDB.Table.Lemmas.FileRuns
import RallyDB.Table.Lemmas.Table
import RallyDB.Util.Bloom

/-!
# Which meta entries are found again
-/

namespace RallyDB.Table

/-! ## Looking up the meta entries (`Table::ReadFilter`, `Table::return_sstable_kv_number`) -/

section

open Util

variable (uncompress : Uncompress) (crc : Crc32c) (file : RandomAccessFile) (verifyChecksums : Bool)

def isSpace (c : UInt8) : Bool := c = 32 || (9 ≤ c && c ≤ 13)

def isDigit (c : UInt8) : Bool := 48 ≤ c && c ≤ 57

def takeSign : Slice → Bool × Slice
  | 45 :: s => (true, s)
  | 43 :: s => (false, s)
  | s => (false, s)

def stoi (s : Slice) : Option Int :=
  let (negative, s) := takeSign (s.dropWhile isSpace)
  let digits := s.takeWhile isDigit
  if digits = [] then none
  else
    let n : Int := (digits.foldl (fun n c => 10 * n + (c.toNat - 48)) 0 : Nat)
    let n := if negative then -n else n
    if -2 ^ 31 ≤ n ∧ n < 2 ^ 31 then some n else none

def returnSstableKvNumber (size : Nat) : Except Error (Status × Option Int) := do
  let footer ← readFooter file size
  let (s, contents) : Status × Slice :=
    match readStoredBlock uncompress crc file verifyChecksums footer.metaindexHandle with
    | .error e => (.error e, [])
    | .ok contents => (.ok (), contents)
  match ((Block.new contents).seek bytewiseCompare TableBuilder.kvNumberKey).1 with
  | none => return (s, some (-1))
  -- the key at which the iterator stands is not compared
  | some (_, value) => return (s, stoi value)

end

open Util FileBuilder List
open TableBuilder (decimal filterKey kvNumberKey)

variable {crc : Crc32c} {options : BuilderOptions} {bytes : Slice} {file : RandomAccessFile} {uncompress : Uncompress}

lemma readStoredBlock_inFile (uncompress : Uncompress) (verify : Bool) {b : WrittenBlock} (h : b.InFile crc bytes) (hread : file.ReadsAll bytes) :
    readStoredBlock uncompress crc file verify b.handle =
      if b.type = kNoCompression then .ok b.contents else uncompress b.type b.contents := by
  obtain ⟨hsize, hbytes⟩ := h
  rw [hsize] at hbytes
  rw [show b.handle = ⟨b.handle.offset, b.contents.length⟩ by rw [← hsize]]
  exact readStoredBlock_at uncompress verify hread hbytes

lemma blockContents_cases (options : BuilderOptions) (raw : Slice) : options.blockContents raw = (raw, kNoCompression) ∨
    ∃ c ∈ options.compression, ∃ s, c.2 raw = some s ∧ options.blockContents raw = (s, c.1) := by
  unfold BuilderOptions.blockContents
  cases options.compression with
  | none => exact .inl rfl
  | some c =>
    obtain ⟨type, compress⟩ := c
    dsimp only
    cases hz : compress raw with
    | none => exact .inl rfl
    | some compressed =>
      by_cases hlen : compressed.length < raw.length - raw.length / 8
      · exact .inr ⟨_, rfl, compressed, hz, if_pos hlen⟩
      · exact .inl (if_neg hlen)

def Uncompresses (uncompress : Uncompress) (options : BuilderOptions) : Prop :=
  ∀ c ∈ options.compression, c.1 ≠ kNoCompression ∧ ∀ raw s, c.2 raw = some s → uncompress c.1 s = .ok raw

lemma Uncompresses.blockContents (h : Uncompresses uncompress options) (raw : Slice) :
    (if (options.blockContents raw).2 = kNoCompression then .ok (options.blockContents raw).1
      else uncompress (options.blockContents raw).2 (options.blockContents raw).1) = (.ok raw : Except Error Slice) := by
  rcases blockContents_cases options raw with heq | ⟨c, hc, s, hs, heq⟩
  · rw [heq]
    rfl
  · obtain ⟨htype, hun⟩ := h c hc
    rw [heq, if_neg htype]
    exact hun raw s hs

lemma WrittenBlock.InFile.fits {b : WrittenBlock} (h : b.InFile crc bytes) (hlt : bytes.length < 2 ^ 64) : b.handle.Fits := by
  have hlen := congrArg List.length h.2
  simp only [length_take, length_drop, length_append, blockTrailer_length, ← h.1] at hlen
  have hpos : 0 < kBlockTrailerSize := by decide
  exact ⟨by omega, by omega⟩

/-! ## The finished table -/

section

variable (crc options)

def metaBlock (calls : List Call) : BlockBuilder :=
  (filtered crc options calls).1.metaindexBlock options (filtered crc options calls).2

lemma build_faithful (calls : List Call) : Faithful crc (build noFaults crc options calls) := by
  rw [build_noFaults]
  exact (filtered_good crc options calls).1.finishIndex _ ((clean_noFaults _).finishIndex crc options _).1

def tableFooter (calls : List Call) : Footer :=
  (filtered crc options calls).1.footerOf crc options (filtered crc options calls).2

/-- The file ends with the footer, and its handles are those of two blocks; the first of them is the metaindex. -/
lemma build_file (calls : List Call) :
    (∃ before, (build noFaults crc options calls).file = before ++ (tableFooter crc options calls).encode) ∧
    (⟨(tableFooter crc options calls).metaindexHandle, (options.blockContents (metaBlock crc options calls).finish).1,
    (options.blockContents (metaBlock crc options calls).finish).2⟩ : WrittenBlock) ∈ (build noFaults crc options calls).written ∧
    ∃ b ∈ (build noFaults crc options calls).written, b.handle = (tableFooter crc options calls).indexHandle := by
  rw [build_noFaults, (clean_noFaults _).finishIndex_eq, tableFooter, metaBlock]
  generalize filtered crc options calls = r
  obtain ⟨tb, filter⟩ := r
  rw [writeFooter, append_of_none rfl]
  refine ⟨⟨_, rfl⟩, ?_, ?_⟩
  · refine mem_append_left _ ?_
    rw [withMetaindex, lastIndexEntry_written]
    exact mem_append_right _ (mem_singleton_self _)
  · exact nextHandle_written crc options _ _

end

lemma footer_fits {calls : List Call} (hlt : (build noFaults crc options calls).file.length < 2 ^ 64) :
    (tableFooter crc options calls).metaindexHandle.Fits ∧ (tableFooter crc options calls).indexHandle.Fits := by
  obtain ⟨-, hmeta, b, hb, hindex⟩ := build_file crc options calls
  have hfaithful := build_faithful crc options calls
  exact ⟨(hfaithful.written _ hmeta).fits hlt, hindex ▸ (hfaithful.written b hb).fits hlt⟩

lemma readFooter_build {calls : List Call} (hlt : (build noFaults crc options calls).file.length < 2 ^ 64)
    (hread : file.ReadsAll (build noFaults crc options calls).file) :
    readFooter file (build noFaults crc options calls).file.length = .ok (tableFooter crc options calls) := by
  obtain ⟨hm, hi⟩ := footer_fits hlt
  obtain ⟨⟨before, hfile⟩, -, -⟩ := build_file crc options calls
  exact readFooter_append hm hi hread hfile

lemma readStoredBlock_metaindex {calls : List Call} (hun : Uncompresses uncompress options)
    (hread : file.ReadsAll (build noFaults crc options calls).file) (verify : Bool) :
    readStoredBlock uncompress crc file verify (tableFooter crc options calls).metaindexHandle =
    .ok (metaBlock crc options calls).finish := by
  obtain ⟨-, hmeta, -⟩ := build_file crc options calls
  have hstored := readStoredBlock_inFile uncompress verify ((build_faithful crc options calls).written _ hmeta) hread
  exact hstored.trans (hun.blockContents _)

section

variable (options)

def metaEntries (number : Slice) : Option (Slice × Slice) → List (Slice × Slice)
  | none => [(TableBuilder.kvNumberKey, number)]
  | some (key, contents) =>
    if options.compare key TableBuilder.kvNumberKey = .lt then
      [(key, contents), (TableBuilder.kvNumberKey, number)]
    else [(TableBuilder.kvNumberKey, number), (key, contents)]

lemma metaindexBlock_entries (tb : FileBuilder) (filter : Option (Slice × Slice)) :
    ∃ items, Encodes (tb.metaindexBlock options filter) items ∧
    items.map Item.entry = metaEntries options (decimal tb.numEntries) filter := by
  have htwo : ∀ key value key' value', ∃ items,
      Encodes ((BlockBuilder.new.add options.blockRestartInterval key value).add options.blockRestartInterval key' value') items ∧
        items.map Item.entry = [(key, value), (key', value')] := by
    intro key value key' value'
    obtain ⟨i, hi, henc⟩ := encodes_new.add options.blockRestartInterval key value
    obtain ⟨j, hj, henc'⟩ := henc.add options.blockRestartInterval key' value'
    exact ⟨[i, j], henc', by simp [hi, hj]⟩
  unfold FileBuilder.metaindexBlock metaEntries
  cases filter with
  | none =>
    obtain ⟨i, hi, henc⟩ :=
      encodes_new.add options.blockRestartInterval kvNumberKey (decimal tb.numEntries)
    exact ⟨[i], henc, by simp [hi]⟩
  | some p =>
    obtain ⟨key, contents⟩ := p
    dsimp only
    split_ifs
    · exact htwo _ _ _ _
    · exact htwo _ _ _ _

end

lemma seek_entries {b : BlockBuilder} {items : List Item} {entries : List (Slice × Slice)} (he : Encodes b items)
    (hentries : items.map Item.entry = entries) (hb : b.finish.length < 2 ^ 32) (target : Slice)
    (horder : (entries.Pairwise fun x y => x.1 < y.1) ∨ ∀ e ∈ entries, bytewiseCompare e.1 target ≠ .lt) :
    ((Block.new b.finish).seek bytewiseCompare target).1 = entries.find? fun e => bytewiseCompare e.1 target ≠ .lt := by
  have hskip : Skips bytewiseCompare target items := by
    rcases horder with hsorted | hbefore
    · rw [← hentries, pairwise_map] at hsorted
      exact skips_of_sorted id target (fun a b => bytewiseCompare_lt_iff) hsorted
    · rintro A i B rfl hi
      refine absurd hi (hbefore i.entry ?_)
      rw [← hentries]
      exact mem_map_of_mem (mem_append_right _ mem_cons_self)
  rw [he.seek_skip bytewiseCompare target hb hskip, ← hentries, find?_map]
  rfl

lemma compare_filterKey (policy : FilterPolicy) : bytewiseCompare (filterKey policy) kvNumberKey = .lt ∧
    bytewiseCompare kvNumberKey (filterKey policy) ≠ .lt := by
  have hlt := (filterKey_lt policy).2
  refine ⟨bytewiseCompare_lt_iff.2 hlt, fun h => ?_⟩
  exact lt_asymm hlt (bytewiseCompare_lt_iff.1 h)

lemma compare_self (key : Slice) : bytewiseCompare key key ≠ .lt := by
  rw [bytewiseCompare_eq_iff.2 rfl]
  decide

/-! ## The number of entries -/

lemma digit_byte {c : Char} (h : c.isDigit = true) : (UInt8.ofNat c.toNat).toNat = c.toNat ∧ 48 ≤ c.toNat ∧ c.toNat ≤ 57 := by
  have hrange : 48 ≤ c.toNat ∧ c.toNat ≤ 57 := Char.isDigit_iff_toNat.1 h
  refine ⟨?_, hrange⟩
  rw [UInt8.toNat_ofNat', Nat.mod_eq_of_lt (by omega)]

lemma decimal_digits (n : Nat) : ∀ c ∈ decimal n, isDigit c = true ∧ isSpace c = false ∧ c ≠ 45 ∧ c ≠ 43 := by
  intro c hc
  obtain ⟨d, hd, rfl⟩ := mem_map.1 hc
  obtain ⟨hbyte, hlo, hhi⟩ := digit_byte (Nat.isDigit_of_mem_toDigits (by decide) (by decide) hd)
  generalize UInt8.ofNat d.toNat = c at hbyte
  rw [← hbyte] at hlo hhi
  refine ⟨?_, ?_, ?_, ?_⟩
  · simp only [isDigit, Bool.and_eq_true, decide_eq_true_eq, UInt8.le_iff_toNat_le]
    exact ⟨hlo, hhi⟩
  · simp only [isSpace, Bool.or_eq_false_iff, decide_eq_false_iff_not, Bool.and_eq_false_iff, UInt8.le_iff_toNat_le, ← UInt8.toNat_inj]
    exact ⟨fun h => by simp at h; omega, .inr fun h => by simp at h; omega⟩
  · rintro rfl
    simp at hlo
  · rintro rfl
    simp at hlo

lemma decimal_value (n : Nat) : (decimal n).foldl (fun n c => 10 * n + (c.toNat - 48)) 0 = n := by
  have hfold : ∀ (cs : List Char) (m : Nat), (∀ c ∈ cs, c.isDigit = true) →
      (cs.map fun c => UInt8.ofNat c.toNat).foldl (fun n c => 10 * n + (c.toNat - 48)) m = Nat.ofDigitChars 10 cs m := by
    intro cs
    induction cs with
    | nil => exact fun m _ => rfl
    | cons c cs ih =>
      intro m hcs
      rw [map_cons, foldl_cons, (digit_byte (hcs c mem_cons_self)).1]
      exact ih _ fun d hd => hcs d (mem_cons_of_mem _ hd)
  rw [decimal, hfold _ 0 fun c hc => Nat.isDigit_of_mem_toDigits (by decide) (by decide) hc]
  exact Nat.ofDigitChars_toDigits (by decide) (by decide)

lemma stoi_decimal {n : Nat} (h : n < 2 ^ 31) : stoi (decimal n) = some (n : Int) := by
  have hdigits := decimal_digits n
  have hvalue := decimal_value n
  have hne : decimal n ≠ [] := by
    simp [decimal, Nat.toDigits_ne_nil]
  generalize decimal n = s at hdigits hvalue hne
  cases s with
  | nil => exact absurd rfl hne
  | cons c s =>
    obtain ⟨-, hspace, hminus, hplus⟩ := hdigits c mem_cons_self
    have hdrop : (c :: s).dropWhile isSpace = c :: s := dropWhile_cons_of_neg (by rw [hspace]; decide)
    have hsign : takeSign (c :: s) = (false, c :: s) := by
      unfold takeSign
      split
      · rename_i heq
        cases heq
        exact absurd rfl hminus
      · rename_i heq
        cases heq
        exact absurd rfl hplus
      · rfl
    have htake : (c :: s).takeWhile isDigit = c :: s := by
      have happend := @takeWhile_append_of_pos _ isDigit (c :: s) [] fun d hd => (hdigits d hd).1
      simpa using happend
    unfold stoi
    rw [hdrop, hsign]
    dsimp only
    rw [htake, if_neg hne, hvalue]
    exact if_pos ⟨by simp only [Bool.false_eq_true, if_false]; omega, by simp only [Bool.false_eq_true, if_false]; omega⟩

def addCount (calls : List Call) : Nat := (calls.filter fun | .add _ _ => true | .flush => false).length

lemma flush_noFaults_numEntries (tb : FileBuilder) : (tb.flush noFaults crc options).numEntries = tb.numEntries := by
  by_cases hwrite : tb.ok = true ∧ tb.dataBlock.buffer ≠ []
  · rw [flush_of_none hwrite.1 hwrite.2 rfl rfl]
    rfl
  · rw [flush_idle hwrite]

lemma addEntry_numEntries (tb : FileBuilder) (key value : Slice) :
    (tb.addEntry options key value).numEntries = tb.numEntries + 1 := by
  unfold addEntry
  split_ifs <;> rfl

lemma apply_noFaults_numEntries {tb : FileBuilder} (h : tb.ok = true) (c : Call) :
    (tb.apply noFaults crc options c).numEntries = tb.numEntries + addCount [c] := by
  cases c with
  | flush => exact flush_noFaults_numEntries tb
  | add key value =>
    have hentry : (tb.addEntry options key value).numEntries = tb.numEntries + 1 := addEntry_numEntries tb key value
    rcases add_cases noFaults crc options tb key value with ⟨hfail, -⟩ | ⟨-, heq | heq⟩
    · rw [h] at hfail
      cases hfail
    · rw [apply, heq]
      exact hentry
    · rw [apply, heq, flush_noFaults_numEntries]
      exact hentry

section

variable (crc options) (calls : List Call)

lemma run_noFaults_numEntries : (run noFaults crc options calls).numEntries = addCount calls := by
  have hfold : ∀ tb : FileBuilder, tb.ok = true →
      (calls.foldl (apply noFaults crc options) tb).numEntries = tb.numEntries + addCount calls := by
    induction calls with
    | nil => exact fun _ _ => rfl
    | cons c calls ih =>
      intro tb h
      rw [foldl_cons, ih _ (apply_noFaults_ok c h), apply_noFaults_numEntries h, add_assoc]
      rw [addCount, addCount, addCount, ← length_append, ← filter_append, singleton_append]
  have hrun := hfold (new options) rfl
  rw [run, hrun]
  exact zero_add _

lemma filtered_numEntries : (filtered crc options calls).1.numEntries = addCount calls := by
  have hbefore : (beforeFilters noFaults crc options calls).numEntries = addCount calls := by
    rw [beforeFilters, flush_noFaults_numEntries, run_noFaults_numEntries]
  have hunits : ∀ (units : List Slice) (tb : FileBuilder), (tb.writeRawFilters noFaults crc units).numEntries = tb.numEntries := by
    intro units
    induction units with
    | nil => exact fun _ => rfl
    | cons unit units ih =>
      intro tb
      rw [writeRawFilters_cons, (clean_noFaults tb).writeRawBlock, ih]
      rfl
  rw [filtered, ← hbefore]
  unfold finishFilters
  cases (beforeFilters noFaults crc options calls).filterBlock with
  | none => rfl
  | some p => exact hunits _ _

lemma filtered_entry : (filtered crc options calls).2.map Prod.fst = options.filterPolicy.map filterKey := by
  have hfilter := (hasFilter_beforeFilters noFaults crc options calls).1
  rw [filtered, ← hfilter]
  unfold finishFilters
  cases (beforeFilters noFaults crc options calls).filterBlock with
  | none => rfl
  | some p => rfl

end

/-! ## The lookups -/

variable {calls : List Call}

def MetaFound (uncompress : Uncompress) (crc : Crc32c) (options : BuilderOptions) (calls : List Call)
    (file : RandomAccessFile) (uninit : FilterBlockReader) : Prop :=
  let size := (build noFaults crc options calls).file.length
  (∀ policy ∈ options.filterPolicy, ∃ footer entry,
    readFooter file size = .ok footer ∧ (filtered crc options calls).2 = some entry ∧
    readFilterEntry uncompress crc file options.paranoidChecks policy footer.metaindexHandle uninit = some (.new uninit entry.2)) ∧
  returnSstableKvNumber uncompress crc file options.paranoidChecks size = .ok (.ok (), some (addCount calls : Int))

lemma seek_metaBlock (hmeta : (metaBlock crc options calls).finish.length < 2 ^ 32) (target : Slice)
    (horder : ((metaEntries options (decimal (addCount calls)) (filtered crc options calls).2).Pairwise
        fun x y => x.1 < y.1) ∨
      ∀ e ∈ metaEntries options (decimal (addCount calls)) (filtered crc options calls).2,
        bytewiseCompare e.1 target ≠ .lt) :
    ((Block.new (metaBlock crc options calls).finish).seek bytewiseCompare target).1 =
      (metaEntries options (decimal (addCount calls)) (filtered crc options calls).2).find?
        fun e => bytewiseCompare e.1 target ≠ .lt := by
  obtain ⟨items, henc, hentries⟩ :=
    metaindexBlock_entries options (filtered crc options calls).1 (filtered crc options calls).2
  rw [filtered_numEntries] at hentries
  exact seek_entries henc hentries hmeta target horder

section

variable (hun : Uncompresses uncompress options) (hread : file.ReadsAll (build noFaults crc options calls).file)
include hun hread

lemma returnSstableKvNumber_found (hsize : (build noFaults crc options calls).file.length < 2 ^ 64) (hcount : addCount calls < 2 ^ 31)
    (verify : Bool) (hseek : ((Block.new (metaBlock crc options calls).finish).seek bytewiseCompare kvNumberKey).1 =
    some (kvNumberKey, decimal (addCount calls))) :
    returnSstableKvNumber uncompress crc file verify (build noFaults crc options calls).file.length =
    .ok (.ok (), some (addCount calls : Int)) := by
  unfold returnSstableKvNumber
  rw [readFooter_build hsize hread]
  simp only [bind, Except.bind, readStoredBlock_metaindex hun hread, hseek, stoi_decimal hcount]
  rfl

lemma readFilterEntry_eq (policy : FilterPolicy) (verify : Bool) (uninit : FilterBlockReader) {found : Slice × Slice}
    (hseek : ((Block.new (metaBlock crc options calls).finish).seek bytewiseCompare (filterKey policy)).1 = some found) :
    readFilterEntry uncompress crc file verify policy (tableFooter crc options calls).metaindexHandle uninit =
      if found.1 = filterKey policy then some (.new uninit found.2) else none := by
  unfold readFilterEntry
  rw [readStoredBlock_metaindex hun hread]
  dsimp only
  rw [hseek]

end

/-- Both meta entries of a finished table are found just when the table's comparator, like the order of bytes, puts the key of the
filter before the key of the number. -/
theorem metaFound_iff (uninit : FilterBlockReader) (hun : Uncompresses uncompress options)
    (hread : file.ReadsAll (build noFaults crc options calls).file)
    (hsize : (build noFaults crc options calls).file.length < 2 ^ 64)
    (hmeta : (metaBlock crc options calls).finish.length < 2 ^ 32) (hcount : addCount calls < 2 ^ 31) :
    MetaFound uncompress crc options calls file uninit ↔
    ∀ policy ∈ options.filterPolicy, options.compare (TableBuilder.filterKey policy) TableBuilder.kvNumberKey = .lt := by
  have hseek := seek_metaBlock hmeta
  have hentry := filtered_entry crc options calls
  have hfooter := readFooter_build hsize hread
  unfold MetaFound
  cases hpolicy : options.filterPolicy with
  | none =>
    rw [hpolicy, Option.map_none, Option.map_eq_none_iff] at hentry
    refine iff_of_true ⟨fun policy h => (by cases h), ?_⟩ fun policy h => by cases h
    refine returnSstableKvNumber_found hun hread hsize hcount _ ?_
    rw [hentry] at hseek
    rw [hseek _ (.inl (pairwise_singleton _ _)), metaEntries]
    exact find?_cons_of_pos (by simpa using compare_self _)
  | some policy =>
    rw [hpolicy, Option.map_some, Option.map_eq_some_iff] at hentry
    obtain ⟨⟨key, contents⟩, hfilter, hkey⟩ := hentry
    obtain rfl : key = TableBuilder.filterKey policy := hkey
    obtain ⟨hlt, hnot⟩ := compare_filterKey policy
    rw [hfilter] at hseek
    by_cases horder : options.compare (TableBuilder.filterKey policy) TableBuilder.kvNumberKey = .lt
    · rw [metaEntries, if_pos horder] at hseek
      have hsorted : [(TableBuilder.filterKey policy, contents), (TableBuilder.kvNumberKey, TableBuilder.decimal (addCount calls))].Pairwise
          fun x y : Slice × Slice => x.1 < y.1 := by simpa using (filterKey_lt policy).2
      refine iff_of_true ⟨?_, ?_⟩ ?_
      · intro policy' h
        obtain rfl := Option.mem_some_iff.1 h
        refine ⟨_, _, hfooter, hfilter, ?_⟩
        rw [readFilterEntry_eq hun hread policy _ uninit ((hseek _ (.inl hsorted)).trans
          (find?_cons_of_pos (by simpa using compare_self _)))]
        exact if_pos rfl
      · refine returnSstableKvNumber_found hun hread hsize hcount _ ?_
        rw [hseek _ (.inl hsorted), find?_cons_of_neg (by simpa using hlt)]
        exact find?_cons_of_pos (by simpa using compare_self _)
      · intro policy' h
        obtain rfl := Option.mem_some_iff.1 h
        exact horder
    · rw [metaEntries, if_neg horder] at hseek
      refine iff_of_false ?_ fun h => horder (h policy rfl)
      rintro ⟨hfound, -⟩
      obtain ⟨footer, entry, hfooter', -, hreader⟩ := hfound policy rfl
      cases hfooter.symm.trans hfooter'
      -- no key is before that of the filter, so the search stops at the first entry
      have hbefore : ∀ e ∈ [(TableBuilder.kvNumberKey, TableBuilder.decimal (addCount calls)), (TableBuilder.filterKey policy, contents)],
          bytewiseCompare e.1 (TableBuilder.filterKey policy) ≠ .lt := by
        intro e he
        rcases mem_cons.1 he with rfl | he
        · exact hnot
        · obtain rfl := mem_singleton.1 he
          exact compare_self _
      rw [readFilterEntry_eq hun hread policy _ uninit ((hseek _ (.inr hbefore)).trans
        (find?_cons_of_pos (by simpa using hnot))), if_neg] at hreader
      · cases hreader
      · intro heq
        exact absurd (filterKey_lt policy).2 (by rw [← heq]; exact lt_irrefl _)

def wholeFile (bytes : Slice) : RandomAccessFile := ⟨fun offset n => .ok ((bytes.drop offset).take n)⟩

def comparatorOptions (compare : Slice → Slice → Ordering) : BuilderOptions where
  blockSize := 4096
  blockRestartInterval := 1
  filterPolicy := some (bloomFilterPolicy 10)
  paranoidChecks := false
  compare := compare
  findShortestSeparator start _ := start
  findShortSuccessor := id
  compression := none

def uninitReader : FilterBlockReader := ⟨[], 0, 0, 0, 0, 0, 0, 0, 0, 0, []⟩

theorem metaFound_iff_bytewise : MetaFound noCompression .bitwise (comparatorOptions bytewiseCompare) [.add [1] [2]]
    (wholeFile (build noFaults .bitwise (comparatorOptions bytewiseCompare) [.add [1] [2]]).file) uninitReader :=
  (metaFound_iff uninitReader (fun c hc => by cases hc) (fun _ _ => rfl) (by decide +kernel) (by decide +kernel)
    (by decide)).2 fun policy _ => (compare_filterKey policy).1

/-- With the reverse order of bytes neither entry is found. -/
theorem metaEntries_missed :
    let options := comparatorOptions fun a b => bytewiseCompare b a
    let tb := build noFaults .bitwise options [.add [1] [2]]
    let file := wholeFile tb.file
    tb.ok = true ∧ ((readFooter file tb.file.length).toOption.map fun footer =>
        (readFilterEntry noCompression .bitwise file false (bloomFilterPolicy 10) footer.metaindexHandle uninitReader).isSome) =
        some false ∧
      (returnSstableKvNumber noCompression .bitwise file false tb.file.length).toOption.map Prod.snd = some (some (-1)) := by
  decide +kernel

end RallyDB.Table
