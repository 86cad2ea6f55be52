import RallyDB.Db.Lemmas.Install
import RallyDB.Lib.Least

/-!
# Lookups return the newest entry, and compactions keep it
-/

namespace RallyDB.Db

/-! ## What a lookup should return -/

section

open RallyDB.Lib

variable {κ : Type*} [LinearOrder κ]

def visible (u : κ) (s : Nat) (e : Entry κ) : Bool := e.1.userKey = u ∧ e.1.sequence ≤ s

def newestEntry (u : κ) (s : Nat) (l : List (Entry κ)) : Option (Entry κ) := leastBy (·.1) (visible u s) l

def lookup (u : κ) (s : Nat) (l : List (Entry κ)) : Option Slice :=
  (newestEntry u s l).bind fun e => match e.1.type with
    | .value => some e.2
    | .deletion => none

variable {u : κ} {s : Nat} {l m : List (Entry κ)} {e : Entry κ}

lemma visible_iff : visible u s e = true ↔ e.1.userKey = u ∧ e.1.sequence ≤ s := by
  simp [visible]

lemma lookup_of_newest (h : newestEntry u s l = some e) : lookup u s l = match e.1.type with
      | .value => some e.2
      | .deletion => none := by
  rw [lookup, h, Option.bind_some]

lemma lookup_of_none (h : newestEntry u s l = none) : lookup u s l = none := by
  rw [lookup, h, Option.bind_none]

lemma InternalKey.lt_of_sequence_lt {a b : InternalKey κ} (hu : a.userKey = b.userKey)
    (hlt : b.sequence < a.sequence) : a < b := by
  by_contra hge
  exact absurd (InternalKey.sequence_le_of_le (not_lt.1 hge) hu.symm) (not_le.2 hlt)

def KeysInOrder (l : List (Entry κ)) : Prop := l.Pairwise fun a b => a.1.userKey = b.1.userKey → a.1 < b.1

lemma KeysInOrder.visible (h : KeysInOrder l) (u : κ) (s : Nat) :
    l.Pairwise fun a b => visible u s a = true → visible u s b = true → a.1 < b.1 :=
  h.imp fun hab ha hb => hab ((visible_iff.1 ha).1.trans (visible_iff.1 hb).1.symm)

lemma KeysInOrder.newestEntry_eq (h : KeysInOrder l) (u : κ) (s : Nat) : newestEntry u s l = entryRead u s l :=
  leastBy_eq_find? (h.visible u s)

lemma KeysInOrder.newestEntry_perm (h : KeysInOrder l) (hperm : l.Perm m) (u : κ) (s : Nat) :
    newestEntry u s m = newestEntry u s l :=
  leastBy_perm hperm (h.visible u s)

end

open RallyDB.Lib List

variable {κ : Type*} [LinearOrder κ]

/-! ## `Version::Get` -/

def Version.allEntries (v : Version κ) : List (Entry κ) :=
  (List.range kNumLevels).flatMap fun level => fileEntries (v.files level)

def NewerByNumber (f g : FileMetaData κ) : Prop :=
  f.number < g.number ∧ FileNewer g f ∨ g.number < f.number ∧ FileNewer f g

instance (f g : FileMetaData κ) : Decidable (FileNewer f g) :=
  inferInstanceAs (Decidable (∀ a ∈ f.entries, ∀ b ∈ g.entries, entryUser a = entryUser b → entrySeq b < entrySeq a))

instance (f g : FileMetaData κ) : Decidable (NewerByNumber f g) :=
  inferInstanceAs (Decidable (f.number < g.number ∧ FileNewer g f ∨ g.number < f.number ∧ FileNewer f g))

def SaverState.result : SaverState → Option Slice
  | .found value => some value
  | .deleted => none
  | .notFound => none

section Get

variable {v : Version κ}

lemma FileNewer.keys {f g : FileMetaData κ} (h : FileNewer f g) :
    ∀ a ∈ f.entries, ∀ b ∈ g.entries, a.1.userKey = b.1.userKey → a.1 < b.1 :=
  fun a ha b hb hu => InternalKey.lt_of_sequence_lt hu (h a ha b hb hu)

lemma SortedEntries.keysInOrder {l : List (Entry κ)} (h : SortedEntries l) : KeysInOrder l :=
  List.Pairwise.imp (fun {a b} hab (_ : a.1.userKey = b.1.userKey) => hab) h

lemma newest_level0_first (h0 : (v.files 0).Pairwise NewerByNumber) :
    ((v.files 0).insertionSort fun a b => b.number ≤ a.number).Pairwise FileNewer := by
  have hsorted := pairwise_insertionSort (fun a b : FileMetaData κ => b.number ≤ a.number) (v.files 0)
  have hnumbers : ((v.files 0).insertionSort fun a b => b.number ≤ a.number).Pairwise NewerByNumber :=
    (List.Perm.pairwise_iff (fun {f g} => Or.symm) (perm_insertionSort _ _)).2 h0
  refine (hsorted.and hnumbers).imp fun {f g} h => ?_
  obtain ⟨hle, ⟨hlt, -⟩ | ⟨-, hnewer⟩⟩ := h
  · exact absurd hlt (not_lt.2 hle)
  · exact hnewer

lemma eq_of_number (h0 : (v.files 0).Pairwise NewerByNumber) :
    ∀ f ∈ v.files 0, ∀ g ∈ v.files 0, f.number = g.number → f = g := by
  intro f hf g hg hnumber
  by_contra hne
  rcases rel_or_rel_of_pairwise h0 hf hg hne with (⟨h, -⟩ | ⟨h, -⟩) | ⟨h, -⟩ | ⟨h, -⟩ <;> omega

lemma places_keysInOrder (hd : ∀ level, 0 < level → DisjointSorted (v.files level)) (h0 : (v.files 0).Pairwise NewerByNumber)
    (hl : ∀ i j, i < j → j < kNumLevels → ∀ f ∈ v.files i, ∀ g ∈ v.files j, FileNewer f g) :
    KeysInOrder v.places.flatten := by
  have hmem : ∀ f ∈ (v.files 0).insertionSort fun a b => b.number ≤ a.number, f ∈ v.files 0 :=
    fun f hf => (mem_insertionSort _).1 hf
  refine pairwise_flatten.2 ⟨fun l hl => ?_, ?_⟩
  · simp only [Version.places, mem_append, mem_map] at hl
    rcases hl with ⟨f, -, rfl⟩ | ⟨level, hlevel, rfl⟩
    · exact SortedEntries.keysInOrder f.sorted
    · exact (hd level (mem_upperLevels.1 hlevel).1).sortedEntries.keysInOrder
  · rw [Version.places, pairwise_append, pairwise_map, pairwise_map]
    refine ⟨(newest_level0_first h0).imp fun {f g} => FileNewer.keys, ?_, fun l hl' m hm => ?_⟩
    · have hlt : (List.range kNumLevels).tail.Pairwise (· < ·) := by decide
      refine List.Pairwise.imp_of_mem (fun {i j} _ hj hij a ha b hb => ?_) hlt
      obtain ⟨f, hf, haf⟩ := mem_fileEntries.1 ha
      obtain ⟨g, hg, hbg⟩ := mem_fileEntries.1 hb
      exact (hl i j hij (mem_upperLevels.1 hj).2 f hf g hg).keys a haf b hbg
    · obtain ⟨f, hf, rfl⟩ := mem_map.1 hl'
      obtain ⟨level, hlevel, rfl⟩ := mem_map.1 hm
      intro a ha b hb
      obtain ⟨g, hg, hbg⟩ := mem_fileEntries.1 hb
      obtain ⟨hpos, hlt⟩ := mem_upperLevels.1 hlevel
      exact (hl 0 level hpos hlt f (hmem f hf) g hg).keys a ha b hbg

lemma places_perm (v : Version κ) : v.places.flatten.Perm v.allEntries := by
  have hrange : List.range kNumLevels = 0 :: (List.range kNumLevels).tail := by decide
  rw [Version.allEntries, hrange, flatMap_cons, Version.places, flatten_append, fileEntries, flatMap_def, flatMap_def]
  exact (((perm_insertionSort _ _).map _).flatten).append_right _

lemma result_saveValue {u : κ} {s : Nat} {l : List (Entry κ)} : (saveValue u (newestEntry u s l)).result = lookup u s l := by
  cases hn : newestEntry u s l with
  | none => rw [lookup_of_none hn]; rfl
  | some e =>
    have hu := (visible_iff.1 (leastBy_spec hn).2.1).1
    obtain ⟨⟨user, sequence, type⟩, value⟩ := e
    rw [lookup_of_newest hn]
    cases type <;> simp [saveValue, show user = u from hu, SaverState.result]

/-- A lookup in a version returns the newest entry that it can see in all files of all levels. -/
theorem get_result_eq_lookup (v : Version κ) (hd : ∀ level, 0 < level → DisjointSorted (v.files level))
    (h0 : (v.files 0).Pairwise NewerByNumber)
    (hl : ∀ i j, i < j → j < kNumLevels → ∀ f ∈ v.files i, ∀ g ∈ v.files j, FileNewer f g) (u : κ) (s : Nat) :
    (v.get u s).1.result = lookup u s v.allEntries := by
  have horder := places_keysInOrder hd h0 hl
  rw [Version.get_eq (eq_of_number h0) hd, ← horder.newestEntry_eq, ← horder.newestEntry_perm (places_perm v),
    result_saveValue]

def layeredVersion : Version Nat where
  files
    | 0 => [⟨8, 1, [(⟨1, 40, .value⟩, [4])], by simp, by simp⟩,
        ⟨9, 1, [(⟨1, 50, .deletion⟩, []), (⟨3, 51, .value⟩, [5])], by simp, by decide⟩]
    | 1 => [⟨3, 1, [(⟨1, 30, .value⟩, [3]), (⟨2, 20, .value⟩, [2])], by simp, by decide⟩,
        ⟨4, 1, [(⟨2, 10, .value⟩, [1])], by simp, by simp⟩]
    | _ => []

theorem get_result_layeredVersion : (layeredVersion.get 2 15).1.result = some [1] ∧
    (layeredVersion.get 1 60).1.result = none ∧ (layeredVersion.get 1 45).1.result = some [4] := by
  have hd : ∀ level, 0 < level → DisjointSorted (layeredVersion.files level) := fun level hpos => by
    cases level with
    | zero => exact absurd hpos (lt_irrefl 0)
    | succ n =>
      cases n with
      | zero => unfold DisjointSorted; decide
      | succ n => exact List.Pairwise.nil
  have h0 : (layeredVersion.files 0).Pairwise NewerByNumber := by decide
  have hl : ∀ i j, i < j → j < kNumLevels → ∀ f ∈ layeredVersion.files i, ∀ g ∈ layeredVersion.files j, FileNewer f g := by
    have hall : ∀ j < kNumLevels, ∀ i < j, ∀ f ∈ layeredVersion.files i, ∀ g ∈ layeredVersion.files j,
        FileNewer f g := by decide
    exact fun i j hij hj => hall j hj i hij
  refine ⟨?_, ?_, ?_⟩
  · exact (get_result_eq_lookup layeredVersion hd h0 hl 2 15).trans (by decide +kernel)
  · exact (get_result_eq_lookup layeredVersion hd h0 hl 1 60).trans (by decide +kernel)
  · exact (get_result_eq_lookup layeredVersion hd h0 hl 1 45).trans (by decide +kernel)

end Get

/-! ## `DoCompactionWork` -/

def Compaction.deeperEntries (c : Compaction κ) : List (Entry κ) :=
  c.deeperLevels.flatMap fun level => fileEntries (c.inputVersion.files level)

section Work

variable {c : Compaction κ} {u : κ} {s q : Nat} {e : Entry κ}

lemma SortedEntries.eq_of_key {l : List (Entry κ)} (h : SortedEntries l) {a b : Entry κ} (ha : a ∈ l) (hb : b ∈ l)
    (hk : a.1 = b.1) : a = b := by
  by_contra hne
  rcases rel_or_rel_of_pairwise h ha hb hne with hlt | hlt
  · exact hlt.ne hk
  · exact hlt.ne' hk

lemma BaseFor.user_ne (h : c.BaseFor u) : ∀ d ∈ c.deeperEntries, d.1.userKey ≠ u := by
  intro d hd hu
  obtain ⟨level, hlevel, hd⟩ := mem_flatMap.1 hd
  obtain ⟨f, hf, hdf⟩ := mem_fileEntries.1 hd
  refine h level hlevel ⟨f, hf, ?_, ?_⟩
  · exact hu ▸ InternalKey.user_le_of_le (FileMetaData.smallest_le hdf)
  · exact hu ▸ InternalKey.user_le_of_le (FileMetaData.le_largest hdf)

lemma newestEntry_append {l inputs older : List (Entry κ)} (hs : SortedEntries inputs)
    (hold : ∀ d ∈ older, ∀ e ∈ inputs, e.1.userKey = d.1.userKey → d.1.sequence < e.1.sequence)
    (hsub : ∀ a ∈ l, a ∈ inputs) (he : newestEntry u s inputs = some e) (hmem : e ∈ l) :
    newestEntry u s (l ++ older) = some e := by
  obtain ⟨hin, hvisible, hle⟩ := leastBy_spec he
  refine leastBy_eq_some (mem_append_left _ hmem) hvisible fun b hb hb' hne => ?_
  rcases mem_append.1 hb with hb | hb
  · exact lt_of_le_of_ne (hle b (hsub b hb) hb') fun hk => hne (hs.eq_of_key (hsub b hb) hin hk.symm)
  · have hu := (visible_iff.1 hvisible).1.trans (visible_iff.1 hb').1.symm
    exact InternalKey.lt_of_sequence_lt hu (hold b hb e hin hu)

lemma dropped_newest {outputs : List (Entry κ)} (hs : SortedEntries c.makeInputIterator) (hqs : q ≤ s)
    (hsub : ∀ a ∈ outputs, a ∈ c.makeInputIterator)
    (hkept : ∀ a ∈ c.makeInputIterator, a ∈ outputs ↔ ¬ c.Dropped c.makeInputIterator q a)
    (he : newestEntry u s c.makeInputIterator = some e) (hdropped : e ∉ outputs) :
    e.1.type = .deletion ∧ newestEntry u s (outputs ++ c.deeperEntries) = none := by
  obtain ⟨hin, hvisible, hle⟩ := leastBy_spec he
  obtain ⟨hu, hseq⟩ := visible_iff.1 hvisible
  rcases not_not.1 (mt (hkept e hin).2 hdropped) with ⟨p, hp, hlt, hpu, hpq⟩ | ⟨htype, heq, hbase⟩
  · -- an entry that hides it would be the newest one
    exact absurd (hle p hp (visible_iff.2 ⟨hpu.trans hu, hpq.trans hqs⟩)) (not_le.2 hlt)
  · refine ⟨htype, leastBy_eq_none.2 fun b hb => Bool.eq_false_iff.2 fun hb' => ?_⟩
    have hbu := (visible_iff.1 hb').1
    rcases mem_append.1 hb with hb | hb
    · -- it hides the older entries of its user key, so that they are dropped too
      have hbin := hsub b hb
      have hne : e ≠ b := fun heb => hdropped (heb ▸ hb)
      have hlt : e.1 < b.1 := lt_of_le_of_ne (hle b hbin hb') fun hk => hne (hs.eq_of_key hin hbin hk)
      exact (hkept b hbin).1 hb (.inl ⟨e, hin, hlt, hu.trans hbu.symm, heq⟩)
    · exact BaseFor.user_ne hbase b hb (hbu.trans hu.symm)

/-- A compaction keeps what lookups see at the smallest snapshot and later, and adds nothing. -/
theorem doCompactionWork_keeps_lookups (c : Compaction κ) (o : Options κ) (q : Nat) (hq : q < kMaxSequenceNumber)
    (hd : ∀ level ∈ c.deeperLevels, DisjointSorted (c.inputVersion.files level)) (hs : SortedEntries c.makeInputIterator)
    (hold : ∀ d ∈ c.deeperEntries, ∀ e ∈ c.makeInputIterator, e.1.userKey = d.1.userKey → d.1.sequence < e.1.sequence) :
    (∀ u s, q ≤ s → lookup u s ((c.doCompactionWork o q).flatten ++ c.deeperEntries) =
    lookup u s (c.makeInputIterator ++ c.deeperEntries)) ∧
    ∀ e ∈ (c.doCompactionWork o q).flatten, e ∈ c.makeInputIterator := by
  obtain ⟨hsublist, -, hkept⟩ := doCompactionWork_spec c o hq hd hs
  have hsub : ∀ a ∈ (c.doCompactionWork o q).flatten, a ∈ c.makeInputIterator := fun a ha => hsublist.mem ha
  refine ⟨fun u s hqs => ?_, hsub⟩
  cases hnew : newestEntry u s c.makeInputIterator with
  | none =>
    -- only deeper entries can be seen
    have hinvisible := leastBy_eq_none.1 hnew
    simp only [lookup, newestEntry]
    rw [leastBy_append_of_neg hinvisible, leastBy_append_of_neg fun a ha => hinvisible a (hsub a ha)]
  | some e =>
    have hin := (leastBy_spec hnew).1
    have hbefore := newestEntry_append hs hold (fun _ ha => ha) hnew hin
    by_cases hmem : e ∈ (c.doCompactionWork o q).flatten
    · rw [lookup, lookup, newestEntry_append hs hold hsub hnew hmem, hbefore]
    · obtain ⟨htype, hafter⟩ := dropped_newest hs hqs hsub hkept hnew hmem
      rw [lookup_of_none hafter, lookup_of_newest hbefore, htype]

def layeredCompaction : Compaction Nat where
  level := 1
  inputVersion := { files := fun level => if level = 3 then [⟨2, 1, [(⟨1, 5, .value⟩, [5])], by simp, by simp⟩] else [] }
  inputs0 := [⟨7, 1, [(⟨1, 40, .value⟩, [4]), (⟨1, 30, .deletion⟩, []), (⟨2, 33, .deletion⟩, [])], by simp, by decide⟩]
  inputs1 := [⟨6, 1, [(⟨1, 20, .value⟩, [2]), (⟨2, 21, .value⟩, [1])], by simp, by decide⟩]
  grandparents := []

def wideOptions : Options Nat where
  maxFileSize := 10
  builderFileSize := List.length
  tableFileSize := List.length

theorem doCompactionWork_keeps_layeredCompaction : (layeredCompaction.doCompactionWork wideOptions 35).flatten =
    [(⟨1, 40, .value⟩, [4]), (⟨1, 30, .deletion⟩, [])] ∧
    lookup 1 35 ((layeredCompaction.doCompactionWork wideOptions 35).flatten ++ layeredCompaction.deeperEntries) =
    lookup 1 35 (layeredCompaction.makeInputIterator ++ layeredCompaction.deeperEntries) := by
  have hd : ∀ level ∈ layeredCompaction.deeperLevels, DisjointSorted (layeredCompaction.inputVersion.files level) := by
    unfold DisjointSorted
    decide
  have hs : SortedEntries layeredCompaction.makeInputIterator := by
    unfold SortedEntries
    decide
  have hold : ∀ d ∈ layeredCompaction.deeperEntries, ∀ e ∈ layeredCompaction.makeInputIterator,
      e.1.userKey = d.1.userKey → d.1.sequence < e.1.sequence := by decide
  exact ⟨by decide +kernel,
    (doCompactionWork_keeps_lookups layeredCompaction wideOptions 35 (by decide) hd hs hold).1 1 35 (le_refl _)⟩

def loneCompaction : Compaction Nat where
  level := 1
  inputVersion := { files := fun _ => [] }
  inputs0 := [⟨7, 1, [(⟨1, 40, .value⟩, [4])], by simp, by simp⟩]
  inputs1 := []
  grandparents := []

/-- The loop takes the largest sequence number for a newer entry of the key: a smallest snapshot of that value hides
everything. -/
theorem max_snapshot_drops_all : SortedEntries loneCompaction.makeInputIterator ∧ loneCompaction.deeperEntries = [] ∧
    lookup 1 kMaxSequenceNumber (loneCompaction.makeInputIterator ++ loneCompaction.deeperEntries) = some [4] ∧
    lookup 1 kMaxSequenceNumber ((loneCompaction.doCompactionWork wideOptions kMaxSequenceNumber).flatten ++
    loneCompaction.deeperEntries) = none := by
  refine ⟨pairwise_singleton _ _, by decide, by decide +kernel, by decide +kernel⟩

/-! ## `IsBaseLevelForKey` from call to call -/

def Compaction.baseLevelAnswers (c : Compaction κ) : List κ → WorkState κ → List Bool
  | [], _ => []
  | u :: keys, w =>
    let (w, base) := c.isBaseLevelForKey u w
    base :: c.baseLevelAnswers keys w

def Compaction.freshScan (c : Compaction κ) (u : κ) : Bool :=
  c.deeperLevels.all fun level => (c.inputVersion.files level).all fun f =>
    !decide (f.smallest.userKey ≤ u ∧ u ≤ f.largest.userKey)

lemma Compaction.baseLevelAnswers_eq {c : Compaction κ}
    (hd : ∀ level ∈ c.deeperLevels, DisjointSorted (c.inputVersion.files level)) {keys : List κ} {w : WorkState κ}
    (hk : keys.Pairwise (· ≤ ·)) (hp : ∀ u ∈ keys, PassedBefore c.inputVersion u w.levelPtrs) :
    c.baseLevelAnswers keys w = keys.map c.freshScan := by
  induction keys generalizing w with
  | nil => rfl
  | cons u keys ih =>
    obtain ⟨hpassed, hanswer⟩ := isBaseLevelLoop_spec hd (hp u mem_cons_self)
    obtain ⟨hle, hk⟩ := pairwise_cons.1 hk
    have hscan := hanswer.trans (by simp [freshScan, InRange, imp_iff_not_or] : _ ↔ c.freshScan u = true)
    -- the files passed end before this key, and so before the keys to come
    exact congrArg₂ cons (Bool.eq_iff_iff.2 hscan)
      (ih hk fun u' hu' level i f hi hf => (hpassed level i f hi hf).trans_le (hle u' hu'))

/-- For keys that do not decrease, `IsBaseLevelForKey` answers each time as a scan of all the files at deeper levels. -/
theorem isBaseLevelForKey_eq_scan (c : Compaction κ)
    (hd : ∀ level ∈ c.deeperLevels, DisjointSorted (c.inputVersion.files level)) {keys : List κ}
    (hk : keys.Pairwise (· ≤ ·)) : c.baseLevelAnswers keys {} = keys.map c.freshScan :=
  c.baseLevelAnswers_eq hd hk fun _ _ _ _ _ hi => absurd hi (Nat.not_lt_zero _)

theorem isBaseLevelForKey_eq_scan_layered : layeredCompaction.baseLevelAnswers [0, 1, 1, 2] {} =
    [true, false, false, true] :=
  isBaseLevelForKey_eq_scan layeredCompaction (by unfold DisjointSorted; decide) (by decide)

end Work

end RallyDB.Db
