import RallyDB.Db.Lemmas.Inputs

/-!
# The order of the files of a version, and how flushes and compactions keep it
-/

namespace RallyDB.Db

open RallyDB.Lib List Version InternalKey VersionEdit

variable {κ : Type*} [LinearOrder κ]

def FileNewer (f g : FileMetaData κ) : Prop := Newer entryUser entrySeq f.entries g.entries

structure FilesOk (v : Version κ) : Prop where
  sorted : ∀ level, (v.files level).Pairwise FileLt
  disjoint : ∀ level, 0 < level → DisjointSorted (v.files level)
  numbers : ∀ i j, ∀ f ∈ v.files i, ∀ g ∈ v.files j, f.number = g.number → i = j ∧ f = g
  levels : ∀ level, kNumLevels ≤ level → v.files level = []
  newer0 : ∀ f ∈ v.files 0, ∀ g ∈ v.files 0, g.number < f.number → FileNewer f g
  newer : ∀ i j, i < j → ∀ f ∈ v.files i, ∀ g ∈ v.files j, FileNewer f g

def SeqInj (S : Set (Entry κ)) : Prop := ∀ a ∈ S, ∀ b ∈ S, a.1.sequence = b.1.sequence → a = b

def Version.entries (v : Version κ) : Set (Entry κ) := {e | ∃ level, ∃ f ∈ v.files level, e ∈ f.entries}

lemma disjointSorted_of_apart {files : List (FileMetaData κ)} (hs : files.Pairwise FileLt)
    (ha : ∀ f ∈ files, ∀ g ∈ files, f ≠ g → f.largest < g.smallest ∨ g.largest < f.smallest) : DisjointSorted files := by
  refine List.Pairwise.imp_of_mem (fun {f g} hf hg hlt => ?_) hs
  have hne : f ≠ g := fun he => FileLt.irrefl f (he ▸ hlt)
  rcases ha f hf g hg hne with h | h
  · exact h
  · exact absurd (g.smallest_le_largest.trans_lt h) hlt.smallest_le.not_gt

/-! ## The places of a version -/

lemma SortedEntries.newestFirst {l : List (Entry κ)} (hl : SortedEntries l) (hi : SeqInj {e | e ∈ l}) :
    NewestFirst entryUser entrySeq l := by
  refine List.Pairwise.imp_of_mem (fun {a b} ha hb hlt hu => ?_) hl
  have hle := sequence_le_of_le hlt.le hu
  exact lt_of_le_of_ne hle fun he => hlt.ne (by rw [hi a ha b hb he.symm])

variable {level : Nat}

lemma mem_upperLevels : level ∈ (List.range kNumLevels).tail ↔ 0 < level ∧ level < kNumLevels := by
  have h : (List.range kNumLevels).tail = [1, 2, 3, 4, 5, 6] := by decide
  rw [h]
  simp only [mem_cons, not_mem_nil, or_false, kNumLevels]
  omega

variable {v : Version κ}

lemma FilesOk.places_newer (h : FilesOk v) : v.places.Pairwise (Newer entryUser entrySeq) := by
  have hmem : ∀ f ∈ (v.files 0).insertionSort fun a b => b.number ≤ a.number, f ∈ v.files 0 :=
    fun f hf => (mem_insertionSort _).1 hf
  have hnodup : ((v.files 0).insertionSort fun a b => b.number ≤ a.number).Nodup := by
    refine (perm_insertionSort _ _).nodup_iff.2 ?_
    exact (h.sorted 0).imp fun {f g} hlt (he : f = g) => FileLt.irrefl f (he ▸ hlt)
  have hsorted := pairwise_insertionSort (fun a b : FileMetaData κ => b.number ≤ a.number) (v.files 0)
  rw [places, pairwise_append, pairwise_map, pairwise_map]
  refine ⟨?_, ?_, ?_⟩
  · refine List.Pairwise.imp_of_mem (fun {f g} hf hg hfg => ?_) (hsorted.and hnodup)
    refine h.newer0 f (hmem f hf) g (hmem g hg) (lt_of_le_of_ne hfg.1 fun he => hfg.2 ?_)
    exact (h.numbers 0 0 f (hmem f hf) g (hmem g hg) he.symm).2
  · have hlt : (List.range kNumLevels).tail.Pairwise (· < ·) := by decide
    refine hlt.imp fun {i j} hij a ha b hb => ?_
    obtain ⟨f, hf, haf⟩ := mem_fileEntries.1 ha
    obtain ⟨g, hg, hbg⟩ := mem_fileEntries.1 hb
    exact h.newer i j hij f hf g hg a haf b hbg
  · intro l hl m hm
    obtain ⟨f, hf, rfl⟩ := mem_map.1 hl
    obtain ⟨level, hlevel, rfl⟩ := mem_map.1 hm
    intro a ha b hb
    obtain ⟨g, hg, hbg⟩ := mem_fileEntries.1 hb
    exact h.newer 0 level (mem_upperLevels.1 hlevel).1 f (hmem f hf) g hg a ha b hbg

lemma FilesOk.places_newestFirst (h : FilesOk v) (hi : SeqInj v.entries) :
    NewestFirst entryUser entrySeq v.places.flatten := by
  refine newestFirst_flatten.2 ⟨fun l hl => ?_, h.places_newer⟩
  simp only [places, mem_append, mem_map] at hl
  rcases hl with ⟨f, hf, rfl⟩ | ⟨level, hlevel, rfl⟩
  · have hf : f ∈ v.files 0 := (mem_insertionSort _).1 hf
    exact SortedEntries.newestFirst f.sorted fun a ha b hb => hi a ⟨0, f, hf, ha⟩ b ⟨0, f, hf, hb⟩
  · refine (h.disjoint level (mem_upperLevels.1 hlevel).1).sortedEntries.newestFirst fun a ha b hb => ?_
    obtain ⟨f, hf, haf⟩ := mem_fileEntries.1 ha
    obtain ⟨g, hg, hbg⟩ := mem_fileEntries.1 hb
    exact hi a ⟨level, f, hf, haf⟩ b ⟨level, g, hg, hbg⟩

lemma FilesOk.mem_places (h : FilesOk v) {e : Entry κ} : e ∈ v.places.flatten ↔ e ∈ v.entries := by
  simp only [places, flatten_append, mem_append, mem_flatten, mem_map,
    exists_exists_and_eq_and, mem_insertionSort, mem_upperLevels, mem_fileEntries, entries,
    Set.mem_ofPred_eq]
  constructor
  · rintro (⟨f, hf, he⟩ | ⟨level, _, f, hf, he⟩)
    · exact ⟨0, f, hf, he⟩
    · exact ⟨level, f, hf, he⟩
  · rintro ⟨level, f, hf, he⟩
    rcases Nat.eq_zero_or_pos level with rfl | hpos
    · exact .inl ⟨f, hf, he⟩
    · have hlt : level < kNumLevels := by
        by_contra hge
        rw [h.levels level (not_lt.1 hge)] at hf
        cases hf
      exact .inr ⟨level, ⟨hpos, hlt⟩, f, hf, he⟩

def RangeFree (v : Version κ) (level : Nat) (lo hi : κ) : Prop :=
  ∀ f ∈ v.files level, f.largest.userKey < lo ∨ hi < f.smallest.userKey

section

variable (hd : ∀ level, 0 < level → DisjointSorted (v.files level))
include hd

lemma overlapInLevel_false (hseq : ∀ e ∈ v.entries, e.1.sequence ≤ kMaxSequenceNumber) {lo hi : κ}
    (h : v.overlapInLevel level (some lo) (some hi) = false) : RangeFree v level lo hi := by
  have hscan : someFileOverlapsRange false (v.files level) (some lo) (some hi) = false := by
    unfold overlapInLevel at h
    by_cases hpos : 0 < level
    · rw [decide_eq_true hpos, (hd level hpos).someFileOverlapsRange_eq] at h
      · exact h
      · intro f hf
        obtain ⟨e, he, hel⟩ := f.largest_mem
        exact hel ▸ hseq e ⟨level, f, hf, he⟩
    · rwa [decide_eq_false hpos] at h
  intro f hf
  have hout := any_eq_false.1 hscan f hf
  rw [Bool.not_eq_true, Bool.not_eq_false', Bool.or_eq_true] at hout
  simpa [afterFile, beforeFile] using hout

lemma pickLevel_rangeFree (hseq : ∀ e ∈ v.entries, e.1.sequence ≤ kMaxSequenceNumber) (o : Options κ) (lo hi : κ) :
    v.pickLevelForMemTableOutput o lo hi < kNumLevels ∧ (v.pickLevelForMemTableOutput o lo hi = 0 ∨
    ∀ level ≤ v.pickLevelForMemTableOutput o lo hi, RangeFree v level lo hi) := by
  unfold pickLevelForMemTableOutput
  split
  · exact ⟨by decide, .inl rfl⟩
  · rename_i h0
    have hzero := overlapInLevel_false hd hseq (Bool.not_eq_true _ ▸ h0)
    have hloop : ∀ start, start ≤ kMaxMemCompactLevel → (∀ level ≤ start, RangeFree v level lo hi) →
        v.pickLevelLoop o lo hi start ≤ kMaxMemCompactLevel ∧
          ∀ level ≤ v.pickLevelLoop o lo hi start, RangeFree v level lo hi := by
      intro start
      fun_induction pickLevelLoop v o lo hi start with
      | case1 level hlt hov | case2 level hlt hov hbig | case4 level hge => exact fun hle hfree => ⟨hle, hfree⟩
      | case3 level hlt hov hbig ih =>
        intro _ hfree
        refine ih hlt fun l hl => ?_
        rcases Nat.lt_or_eq_of_le hl with hl | rfl
        · exact hfree l (by omega)
        · exact overlapInLevel_false hd hseq (Bool.not_eq_true _ ▸ hov)
    obtain ⟨h1, h2⟩ := hloop 0 (Nat.zero_le _) fun level hl => Nat.le_zero.mp hl ▸ hzero
    exact ⟨lt_of_le_of_lt h1 (by decide), .inr h2⟩

end

variable {f x : FileMetaData κ}

lemma mem_flush (level : Nat) (hn : ∀ l, ∀ g ∈ v.files l, g.number < f.number) :
    EditOk v { newFiles := [(level, f)] } ∧ ∀ l g, g ∈ (v.logAndApply { newFiles := [(level, f)] }).files l ↔
    g ∈ v.files l ∨ l = level ∧ g = f := by
  have hmem : ∀ l g, g ∈ newAt { newFiles := [(level, f)] } l ↔ l = level ∧ g = f := by
    intro l g
    simp [mem_newAt]
  have hok : EditOk v { newFiles := [(level, f)] } := by
    refine ⟨fun l => ?_, fun l g hg x hx => ?_⟩
    · unfold newAt
      exact List.Pairwise.map _ (fun _ _ h => h)
        ((pairwise_singleton (fun a b : Nat × FileMetaData κ => a.2.number ≠ b.2.number) _).filter _)
    · rw [((hmem l x).1 hx).2]
      exact (hn l g hg).ne
  refine ⟨hok, fun l g => ?_⟩
  rw [hok.mem_files, hmem]
  simp

lemma FilesOk.flush (h : FilesOk v) (hn : ∀ l, ∀ g ∈ v.files l, g.number < f.number) (hlevel : level < kNumLevels)
    (hfree : level = 0 ∨ ∀ l ≤ level, RangeFree v l f.smallest.userKey f.largest.userKey)
    (hnew : ∀ l, ∀ g ∈ v.files l, FileNewer f g) : FilesOk (v.logAndApply { newFiles := [(level, f)] }) := by
  obtain ⟨hok, hmem⟩ := mem_flush level hn
  have hsorted := fun l => hok.sorted (h.sorted l)
  refine ⟨hsorted, fun l hl => ?_, fun i j x hx y hy hxy => ?_, fun l hl => ?_, fun x hx y hy hxy => ?_,
    fun i j hij x hx y hy => ?_⟩
  · refine disjointSorted_of_apart (hsorted l) fun x hx y hy hne => ?_
    -- The new file is apart from the others of its level because it shares no user key with them.
    have hapart : level = l → ∀ g ∈ v.files l, f.largest < g.smallest ∨ g.largest < f.smallest := by
      rintro rfl g hg
      rcases hfree with h0 | hfree
      · omega
      · rcases hfree level le_rfl g hg with h1 | h1
        · exact .inr (lt_of_user_lt h1)
        · exact .inl (lt_of_user_lt h1)
    rcases (hmem l x).1 hx with hx' | ⟨hxl, rfl⟩ <;> rcases (hmem l y).1 hy with hy' | ⟨hyl, rfl⟩
    · exact (h.disjoint l hl).apart hx' hy' hne
    · exact (hapart hyl.symm x hx').symm
    · exact hapart hxl.symm y hy'
    · exact absurd rfl hne
  · rcases (hmem i x).1 hx with hx' | ⟨hxl, rfl⟩ <;> rcases (hmem j y).1 hy with hy' | ⟨hyl, rfl⟩
    · exact h.numbers i j x hx' y hy' hxy
    · exact absurd hxy (hn i x hx').ne
    · exact absurd hxy (hn j y hy').ne'
    · exact ⟨hxl.trans hyl.symm, rfl⟩
  · rw [eq_nil_iff_forall_not_mem]
    intro x hx
    rcases (hmem l x).1 hx with hx | ⟨hxl, _⟩
    · rw [h.levels l hl] at hx
      cases hx
    · omega
  · rcases (hmem 0 x).1 hx with hx' | ⟨hxl, rfl⟩ <;> rcases (hmem 0 y).1 hy with hy' | ⟨hyl, rfl⟩
    · exact h.newer0 x hx' y hy' hxy
    · exact absurd (hn 0 x hx') hxy.not_gt
    · exact hnew 0 y hy'
    · exact absurd hxy (lt_irrefl _)
  · rcases (hmem i x).1 hx with hx' | ⟨hxl, rfl⟩ <;> rcases (hmem j y).1 hy with hy' | ⟨hyl, rfl⟩
    · exact h.newer i j hij x hx' y hy'
    · -- Above the level of the new file no file has one of its user keys.
      rcases hfree with h0 | hfree
      · omega
      intro a ha b hb hab
      have ha1 := user_le_of_le (FileMetaData.smallest_le ha)
      have ha2 := user_le_of_le (FileMetaData.le_largest ha)
      have hb1 := user_le_of_le (FileMetaData.smallest_le hb)
      have hb2 := user_le_of_le (FileMetaData.le_largest hb)
      have hab : a.1.userKey = b.1.userKey := hab
      rcases hfree i (by omega) x hx' with h1 | h1
      · exact absurd (ha2.trans_lt h1) (hab ▸ hb1).not_gt
      · exact absurd (h1.trans_le ha1) (hab ▸ hb2).not_gt
    · exact hnew j y hy'
    · omega

structure Compaction.Movable (c : Compaction κ) (v : Version κ) : Prop where
  level : c.level + 1 < kNumLevels
  mem0 : ∀ f ∈ c.inputs0, f ∈ v.files c.level
  mem1 : ∀ f ∈ c.inputs1, f ∈ v.files (c.level + 1)
  newer0 : ∀ f ∈ v.files c.level, f ∉ c.inputs0 → ∀ g ∈ c.inputs0, FileNewer f g
  newer1 : ∀ f ∈ v.files (c.level + 1), f ∉ c.inputs1 → ∀ g ∈ c.inputs, FileNewer f g
  beside : ∀ f ∈ v.files (c.level + 1), f ∉ c.inputs1 → Beside f c.inputs

structure Replaces (v : Version κ) (c : Compaction κ) (outs : List (FileMetaData κ)) (w : Version κ) : Prop where
  mem : ∀ l f, f ∈ w.files l ↔ f ∈ v.files l ∧ ¬ (l = c.level ∧ f ∈ c.inputs0) ∧ ¬ (l = c.level + 1 ∧ f ∈ c.inputs1) ∨
      l = c.level + 1 ∧ f ∈ outs
  sorted : ∀ l, (w.files l).Pairwise FileLt

structure OutputsOk (v : Version κ) (c : Compaction κ) (outs : List (FileMetaData κ)) : Prop where
  disjoint : DisjointSorted outs
  entries : ∀ f ∈ outs, ∀ e ∈ f.entries, ∃ g ∈ c.inputs, e ∈ g.entries
  distinct : outs.Pairwise fun f g => f.number ≠ g.number
  fresh : ∀ x ∈ outs, ∀ l, ∀ f ∈ v.files l, ¬ (l = c.level ∧ f ∈ c.inputs0) → f.number ≠ x.number

variable {c : Compaction κ} {outs : List (FileMetaData κ)}

lemma OutputsOk.lt_smallest (h : OutputsOk v c outs) (hx : x ∈ outs) (hf : Beside f c.inputs) :
    f.largest < x.smallest ∨ x.largest < f.smallest :=
  hf.apart (h.entries x hx)

lemma OutputsOk.eq_of_number
    (h : OutputsOk v c outs) {y : FileMetaData κ} (hx : x ∈ outs) (hy : y ∈ outs) (hn : x.number = y.number) : x = y := by
  by_contra hne
  rcases rel_or_rel_of_pairwise h.distinct hx hy hne with h | h
  · exact h hn
  · exact h hn.symm

lemma FilesOk.replace {w : Version κ} (h : FilesOk v) (hc : c.Movable v)
    (ho : OutputsOk v c outs) (hr : Replaces v c outs w) : FilesOk w := by
  refine ⟨hr.sorted, fun l hl => ?_, fun i j x hx y hy hxy => ?_, fun l hl => ?_, fun x hx y hy hxy => ?_,
    fun i j hij x hx y hy => ?_⟩
  · refine disjointSorted_of_apart (hr.sorted l) fun x hx y hy hne => ?_
    have hside : ∀ f, l = c.level + 1 → f ∈ v.files l → ¬ (l = c.level + 1 ∧ f ∈ c.inputs1) → Beside f c.inputs := by
      rintro f rfl hf hn
      exact hc.beside f hf fun h1 => hn ⟨rfl, h1⟩
    rcases (hr.mem l x).1 hx with ⟨hx', _, hx1⟩ | ⟨hxl, hxo⟩ <;>
      rcases (hr.mem l y).1 hy with ⟨hy', _, hy1⟩ | ⟨hyl, hyo⟩
    · exact (h.disjoint l hl).apart hx' hy' hne
    · exact ho.lt_smallest hyo (hside x hyl hx' hx1)
    · exact (ho.lt_smallest hxo (hside y hxl hy' hy1)).symm
    · exact ho.disjoint.apart hxo hyo hne
  · rcases (hr.mem i x).1 hx with ⟨hx', hx0, _⟩ | ⟨hxl, hxo⟩ <;>
      rcases (hr.mem j y).1 hy with ⟨hy', hy0, _⟩ | ⟨hyl, hyo⟩
    · exact h.numbers i j x hx' y hy' hxy
    · exact absurd hxy (ho.fresh y hyo i x hx' hx0)
    · exact absurd hxy.symm (ho.fresh x hxo j y hy' hy0)
    · exact ⟨hxl.trans hyl.symm, ho.eq_of_number hxo hyo hxy⟩
  · rw [eq_nil_iff_forall_not_mem]
    intro x hx
    rcases (hr.mem l x).1 hx with ⟨hx', _⟩ | ⟨hxl, _⟩
    · rw [h.levels l hl] at hx'
      cases hx'
    · have := hc.level
      omega
  · rcases (hr.mem 0 x).1 hx with ⟨hx', _⟩ | ⟨hxl, _⟩
    · rcases (hr.mem 0 y).1 hy with ⟨hy', _⟩ | ⟨hyl, _⟩
      · exact h.newer0 x hx' y hy' hxy
      · omega
    · omega
  · rcases (hr.mem i x).1 hx with ⟨hx', hx0, _⟩ | ⟨rfl, hxo⟩ <;>
      rcases (hr.mem j y).1 hy with ⟨hy', _⟩ | ⟨rfl, hyo⟩
    · exact h.newer i j hij x hx' y hy'
    · -- The entries of an output come from files at the two levels of the compaction.
      intro a ha b hb
      obtain ⟨g, hg, hbg⟩ := ho.entries y hyo b hb
      rcases mem_append.1 hg with hg | hg
      · rcases Nat.lt_or_eq_of_le (Nat.lt_succ_iff.1 hij) with hlt | rfl
        · exact h.newer i c.level hlt x hx' g (hc.mem0 g hg) a ha b hbg
        · exact hc.newer0 x hx' (fun h0 => hx0 ⟨rfl, h0⟩) g hg a ha b hbg
      · exact h.newer i (c.level + 1) hij x hx' g (hc.mem1 g hg) a ha b hbg
    · intro a ha b hb
      obtain ⟨g, hg, hag⟩ := ho.entries x hxo a ha
      rcases mem_append.1 hg with hg | hg
      · exact h.newer c.level j (by omega) g (hc.mem0 g hg) y hy' a hag b hb
      · exact h.newer (c.level + 1) j hij g (hc.mem1 g hg) y hy' a hag b hb
    · omega

lemma FilesOk.replaces_edit (h : FilesOk v) (hc : c.Movable v) (hd : outs.Pairwise fun f g => f.number ≠ g.number)
    (hf : ∀ f ∈ v.files (c.level + 1), ∀ x ∈ outs, f.number ≠ x.number) {edit : VersionEdit κ}
    (hdel : ∀ l n, (l, n) ∈ edit.deletedFiles ↔ l = c.level ∧ (∃ g ∈ c.inputs0, g.number = n) ∨
    l = c.level + 1 ∧ ∃ g ∈ c.inputs1, g.number = n)
    (hnew : edit.newFiles = outs.map fun f => (c.level + 1, f)) : Replaces v c outs (v.logAndApply edit) := by
  have hmem : ∀ l g, g ∈ edit.newAt l ↔ l = c.level + 1 ∧ g ∈ outs := by
    intro l g
    rw [mem_newAt, hnew]
    simp only [mem_map, Prod.mk.injEq]
    constructor
    · rintro ⟨f, hf, rfl, rfl⟩
      exact ⟨rfl, hf⟩
    · rintro ⟨rfl, hg⟩
      exact ⟨g, hg, rfl, rfl⟩
  have hok : EditOk v edit := by
    refine ⟨fun l => ?_, fun l f hfv x hx => ?_⟩
    · unfold newAt
      rw [hnew, filter_map, map_map]
      exact (hd.filter _).map _ fun _ _ hne => hne
    · obtain ⟨rfl, hxo⟩ := (hmem l x).1 hx
      exact hf f hfv x hxo
  -- A file of the version is deleted by its number exactly when it is an input.
  have hgone : ∀ l f, f ∈ v.files l → ((l, f.number) ∈ edit.deletedFiles ↔
      (l = c.level ∧ f ∈ c.inputs0) ∨ (l = c.level + 1 ∧ f ∈ c.inputs1)) := by
    intro l f hfv
    rw [hdel]
    constructor
    · rintro (⟨rfl, g, hg, hgn⟩ | ⟨rfl, g, hg, hgn⟩)
      · exact .inl ⟨rfl, (h.numbers _ _ g (hc.mem0 g hg) f hfv hgn).2 ▸ hg⟩
      · exact .inr ⟨rfl, (h.numbers _ _ g (hc.mem1 g hg) f hfv hgn).2 ▸ hg⟩
    · rintro (⟨rfl, hg⟩ | ⟨rfl, hg⟩)
      · exact .inl ⟨rfl, f, hg, rfl⟩
      · exact .inr ⟨rfl, f, hg, rfl⟩
  refine ⟨fun l f => ?_, fun l => hok.sorted (h.sorted l)⟩
  rw [hok.mem_files, hmem]
  constructor
  · rintro (⟨hfv, hn⟩ | hfo)
    · rw [hgone l f hfv, not_or] at hn
      exact .inl ⟨hfv, hn⟩
    · exact .inr hfo
  · rintro (⟨hfv, hn⟩ | hfo)
    · exact .inl ⟨hfv, (hgone l f hfv).not.2 (not_or.2 hn)⟩
    · exact .inr hfo

end RallyDB.Db
