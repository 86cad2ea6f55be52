import RallyDB.Db.Version
import RallyDB.Lib.Versioned

/-!
# What lookups in sorted entries, in levels and in versions find
-/

namespace RallyDB.Db

open RallyDB.Lib List FileMetaData InternalKey Option

section

variable {α β : Type*} [LinearOrder β] (f : α → β)

instance instIsTransLe : IsTrans α fun a b => f a ≤ f b := ⟨fun _ _ _ => le_trans⟩

instance instTotalLe : Std.Total fun a b => f a ≤ f b := ⟨fun _ _ => le_total _ _⟩

instance instIsTransGe : IsTrans α fun a b => f b ≤ f a := ⟨fun _ _ _ h1 h2 => h2.trans h1⟩

instance instTotalGe : Std.Total fun a b => f b ≤ f a := ⟨fun _ _ => le_total _ _⟩

end

variable {κ : Type*} [LinearOrder κ]

def entryUser (e : Entry κ) : κ := e.1.userKey

def entrySeq (e : Entry κ) : Nat := e.1.sequence

def entryRead (u : κ) (s : Nat) (l : List (Entry κ)) : Option (Entry κ) := readAt entryUser entrySeq u s l

def SortedEntries (l : List (Entry κ)) : Prop := l.Pairwise fun a b => a.1 < b.1

@[simp] lemma entryRead_nil (u : κ) (s : Nat) : entryRead u s [] = none := rfl

lemma entryRead_append (u : κ) (s : Nat) (l m : List (Entry κ)) :
    entryRead u s (l ++ m) = (entryRead u s l).or (entryRead u s m) := by
  simp [entryRead, readAt]

variable {u : κ} {s : Nat} {l : List (Entry κ)}

lemma entryRead_user {e : Entry κ} (h : entryRead u s l = some e) : e ∈ l ∧ e.1.userKey = u ∧ e.1.sequence ≤ s := by
  unfold entryRead readAt at h
  have hp := find?_some h
  exact ⟨mem_of_find?_eq_some h, of_decide_eq_true hp⟩

lemma entryRead_eq_none : entryRead u s l = none ↔ ∀ e ∈ l, e.1.userKey = u → s < e.1.sequence :=
  readAt_eq_none

lemma saveValue_eq_notFound {r : Option (Entry κ)} : saveValue u r = .notFound ↔ ∀ e, r = some e → e.1.userKey ≠ u := by
  cases r with
  | none => simp [saveValue]
  | some e =>
    obtain ⟨k, v⟩ := e
    by_cases h : k.userKey = u
    · cases ht : k.type <;> simp [saveValue, h, ht]
    · simp [saveValue, h]

lemma saveValue_entryRead_eq_notFound : saveValue u (entryRead u s l) = .notFound ↔ entryRead u s l = none := by
  rw [saveValue_eq_notFound]
  constructor
  · intro h
    cases hr : entryRead u s l with
    | none => rfl
    | some e => exact absurd (entryRead_user hr).2.1 (h e hr)
  · intro h e he
    rw [h] at he
    cases he

lemma saveValue_seek (hl : SortedEntries l) (u : κ) (s : Nat) :
    saveValue u (seek l (lookupKey u s)) = saveValue u (entryRead u s l) := by
  induction l with
  | nil => rfl
  | cons e l ih =>
    have hrest := ih (List.Pairwise.of_cons hl)
    by_cases hk : lookupKey u s ≤ e.1
    · have hseek : seek (e :: l) (lookupKey u s) = some e := by simp [seek, hk]
      rcases lookupKey_le_iff.1 hk with hlt | ⟨hu, hs⟩
      · -- Every entry from here on has a larger user key.
        have hnone : entryRead u s (e :: l) = none := by
          rw [entryRead_eq_none]
          intro b hb hbu
          rcases mem_cons.1 hb with rfl | hb
          · exact absurd hbu hlt.ne'
          · have := user_le_of_le (rel_of_pairwise_cons hl hb).le
            exact absurd hbu (hlt.trans_le this).ne'
        rw [hseek, hnone, saveValue_eq_notFound.2 (by rintro _ ⟨⟩; exact hlt.ne')]
        rfl
      · have hread : entryRead u s (e :: l) = some e := by
          simp [entryRead, readAt, entryUser, entrySeq, hu, hs]
        rw [hseek, hread]
    · have hseek : seek (e :: l) (lookupKey u s) = seek l (lookupKey u s) := by simp [seek, hk]
      have hread : entryRead u s (e :: l) = entryRead u s l := by
        have : ¬ (e.1.userKey = u ∧ e.1.sequence ≤ s) := by
          rintro ⟨h1, h2⟩
          exact hk (lookupKey_le_iff.2 (.inr ⟨h1.symm, h2⟩))
        simp [entryRead, readAt, entryUser, entrySeq, this]
      rw [hseek, hread, hrest]

/-! ## A level of disjoint files -/

def DisjointSorted (files : List (FileMetaData κ)) : Prop := files.Pairwise fun f g => f.largest < g.smallest

def fileEntries (files : List (FileMetaData κ)) : List (Entry κ) := files.flatMap (·.entries)

@[simp] lemma fileEntries_nil : fileEntries ([] : List (FileMetaData κ)) = [] := rfl

@[simp] lemma fileEntries_cons (f : FileMetaData κ) (files : List (FileMetaData κ)) :
    fileEntries (f :: files) = f.entries ++ fileEntries files := rfl

variable {files : List (FileMetaData κ)}

lemma mem_fileEntries {e : Entry κ} : e ∈ fileEntries files ↔ ∃ f ∈ files, e ∈ f.entries := by simp [fileEntries]

section

variable (h : DisjointSorted files)
include h

lemma DisjointSorted.sortedEntries : SortedEntries (fileEntries files) := by
  rw [SortedEntries, fileEntries, pairwise_flatMap]
  refine ⟨fun f _ => f.sorted, h.imp ?_⟩
  intro f g hfg a ha b hb
  exact (le_largest ha).trans_lt (hfg.trans_le (smallest_le hb))

lemma DisjointSorted.largest_lt {i j : Nat}
    {f g : FileMetaData κ} (hij : i < j) (hf : files[i]? = some f) (hg : files[j]? = some g) : f.largest < g.smallest := by
  obtain ⟨hi, rfl⟩ := List.getElem?_eq_some_iff.1 hf
  obtain ⟨hj, rfl⟩ := List.getElem?_eq_some_iff.1 hg
  exact pairwise_iff_getElem.1 h i j hi hj hij

lemma findFile_spec (key : InternalKey κ) : (∀ i f, i < findFile files key → files[i]? = some f → f.largest < key) ∧
    ∀ f, files[findFile files key]? = some f → key ≤ f.largest := by
  let before : Nat → Bool := fun i => (files[i]?).elim false fun f => decide (f.largest < key)
  have hfind : findFile files key = lowerBound before 0 files.length := by
    unfold findFile
    congr 1
    funext i
    simp only [before]
    cases files[i]? with
    | none => rfl
    | some f => rfl
  have hmono : ∀ i j, i ≤ j → j < files.length → before j = true → before i = true := by
    intro i j hij hj hp
    have hi : i < files.length := by omega
    simp only [before, getElem?_eq_getElem hj, getElem?_eq_getElem hi, elim_some, decide_eq_true_eq]
      at hp ⊢
    rcases Nat.lt_or_eq_of_le hij with hlt | rfl
    · have hd := h.largest_lt hlt (getElem?_eq_getElem hi) (getElem?_eq_getElem hj)
      exact hd.trans (files[j].smallest_le_largest.trans_lt hp)
    · exact hp
  constructor
  · intro i f hi hf
    rw [hfind] at hi
    have hb := lowerBound_before hmono (Nat.zero_le i) hi
    simpa [before, hf] using hb
  · intro f hf
    rw [hfind] at hf
    have ha := lowerBound_at (List.getElem?_eq_some_iff.1 hf).1
    simpa [before, hf] using ha

lemma afterFile_findFile (hseq : ∀ f ∈ files, f.largest.sequence ≤ kMaxSequenceNumber) (u : κ) :
    (∀ i f, i < findFile files ⟨u, kMaxSequenceNumber, kValueTypeForSeek⟩ → files[i]? = some f → afterFile (some u) f) ∧
    ∀ f, files[findFile files ⟨u, kMaxSequenceNumber, kValueTypeForSeek⟩]? = some f → afterFile (some u) f = false := by
  obtain ⟨hbefore, hat⟩ := findFile_spec h ⟨u, kMaxSequenceNumber, kValueTypeForSeek⟩
  simp only [afterFile, decide_eq_true_eq, decide_eq_false_iff_not, not_lt]
  refine ⟨fun i f hi hf => ?_, fun f hf => user_le_of_le (hat f hf)⟩
  by_contra hge
  refine (hbefore i f hi hf).not_ge (lookupKey_le_iff.2 ?_)
  rcases (not_lt.1 hge).lt_or_eq with h1 | h1
  · exact .inl h1
  · exact .inr ⟨h1, hseq f (mem_of_getElem? hf)⟩

lemma DisjointSorted.beforeFile {limit : Option κ} {i j : Nat} {f g : FileMetaData κ}
    (hij : i ≤ j) (hf : files[i]? = some f) (hg : files[j]? = some g) (hb : Db.beforeFile limit f) : Db.beforeFile limit g := by
  rcases Nat.lt_or_eq_of_le hij with hlt | rfl
  · cases limit with
    | none => exact hb
    | some e =>
      have hle : f.smallest ≤ g.smallest := f.smallest_le_largest.trans (h.largest_lt hlt hf hg).le
      simp only [Db.beforeFile, decide_eq_true_eq] at hb ⊢
      exact hb.trans_le (user_le_of_le hle)
  · cases hf.symm.trans hg
    exact hb

lemma DisjointSorted.someFileOverlapsRange_eq
    (hseq : ∀ f ∈ files, f.largest.sequence ≤ kMaxSequenceNumber) (smallest largest : Option κ) :
    someFileOverlapsRange true files smallest largest = someFileOverlapsRange false files smallest largest := by
  obtain ⟨i, hi, hbefore, hat⟩ : ∃ i, someFileOverlapsRange true files smallest largest =
        (files[i]?).any (fun f => !Db.beforeFile largest f) ∧
      (∀ j f, j < i → files[j]? = some f → afterFile smallest f) ∧ ∀ f, files[i]? = some f → afterFile smallest f = false := by
    cases smallest with
    | none => exact ⟨0, by simp only [someFileOverlapsRange]; cases files[0]? <;> rfl, by simp, fun _ _ => rfl⟩
    | some u =>
      refine ⟨_, ?_, afterFile_findFile h hseq u⟩
      simp only [someFileOverlapsRange, if_true]
      cases files[findFile files ⟨u, kMaxSequenceNumber, kValueTypeForSeek⟩]? <;> rfl
  have hscan : someFileOverlapsRange false files smallest largest =
    files.any fun f => !(afterFile smallest f || Db.beforeFile largest f) := rfl
  rw [hi, hscan, eq_comm]
  cases hf : files[i]? with
  | none =>
    refine any_eq_false.2 fun g hg => ?_
    obtain ⟨j, hj⟩ := mem_iff_getElem?.1 hg
    have hji : j < i := (List.getElem?_eq_some_iff.1 hj).1.trans_le (List.getElem?_eq_none_iff.1 hf)
    simp [hbefore j g hji hj]
  | some f =>
    rw [any_some]
    cases hb : Db.beforeFile largest f with
    | false => exact any_eq_true.2 ⟨f, mem_of_getElem? hf, by simp [hat f hf, hb]⟩
    | true =>
      refine any_eq_false.2 fun g hg => ?_
      obtain ⟨j, hj⟩ := mem_iff_getElem?.1 hg
      rcases Nat.lt_or_ge j i with hji | hij
      · simp [hbefore j g hji hj]
      · simp [h.beforeFile hij hf hj hb]

lemma entryRead_drop_findFile (u : κ) (s : Nat) :
    entryRead u s (fileEntries (files.drop (findFile files (lookupKey u s)))) = entryRead u s (fileEntries files) := by
  have hbefore := (findFile_spec h (lookupKey u s)).1
  generalize findFile files (lookupKey u s) = i at hbefore ⊢
  have hskip : entryRead u s (fileEntries (files.take i)) = none := by
    rw [entryRead_eq_none]
    intro e he heu
    obtain ⟨f, hf, hef⟩ := mem_fileEntries.1 he
    obtain ⟨j, hj⟩ := mem_iff_getElem?.1 hf
    rw [getElem?_take] at hj
    obtain ⟨hji, hj⟩ := ite_none_right_eq_some.1 hj
    have hlt := (le_largest hef).trans_lt (hbefore j f hji hj)
    by_contra hs
    exact hlt.not_ge (lookupKey_le_iff.2 (.inr ⟨heu.symm, not_lt.1 hs⟩))
  have happend : fileEntries files = fileEntries (files.take i) ++ fileEntries (files.drop i) := by
    rw [fileEntries, fileEntries, fileEntries, ← flatMap_append, take_append_drop]
  rw [happend, entryRead_append, hskip, none_or]

end

variable {v : Version κ}

lemma entryRead_levelFile {level : Nat} (h : DisjointSorted (v.files level)) (u : κ) (s : Nat) :
    entryRead u s (fileEntries (v.levelFile level u (lookupKey u s)).toList) =
    entryRead u s (fileEntries (v.files level)) := by
  have hat := (findFile_spec h (lookupKey u s)).2
  rw [← entryRead_drop_findFile h, Version.levelFile]
  generalize findFile (v.files level) (lookupKey u s) = i at hat ⊢
  cases hf : (v.files level)[i]? with
  | none =>
    have : (v.files level).drop i = [] := drop_eq_nil_of_le (List.getElem?_eq_none_iff.1 hf)
    simp [this]
  | some f =>
    have hdrop : (v.files level).drop i = f :: (v.files level).drop (i + 1) := by
      obtain ⟨hlt, rfl⟩ := List.getElem?_eq_some_iff.1 hf
      exact drop_eq_getElem_cons hlt
    have hlater : ∀ e ∈ fileEntries ((v.files level).drop (i + 1)), f.largest < e.1 := by
      intro e he
      obtain ⟨g, hg, heg⟩ := mem_fileEntries.1 he
      have hfg := rel_of_pairwise_cons (hdrop ▸ List.Pairwise.drop h) hg
      exact hfg.trans_le (smallest_le heg)
    rw [hdrop, fileEntries_cons, entryRead_append]
    by_cases hu : u < f.smallest.userKey
    · -- The user key falls into the gap before the file.
      have hnone : ∀ e ∈ f.entries ++ fileEntries ((v.files level).drop (i + 1)), e.1.userKey ≠ u := by
        intro e he
        have hle : f.smallest ≤ e.1 := by
          rcases mem_append.1 he with he | he
          · exact smallest_le he
          · exact f.smallest_le_largest.trans (hlater e he).le
        exact (hu.trans_le (user_le_of_le hle)).ne'
      rw [← entryRead_append, entryRead_eq_none.2 fun e he heu => absurd heu (hnone e he)]
      simp [hu]
    · simp only [hu, ↓reduceIte, toList_some, fileEntries_cons, fileEntries_nil, append_nil]
      cases hread : entryRead u s f.entries with
      | some e => rw [some_or]
      | none =>
        -- Then the lookup key lies before a later user key of this file.
        have hgt : u < f.largest.userKey := by
          rcases lookupKey_le_iff.1 (hat f hf) with hlt | ⟨hu', hs⟩
          · exact hlt
          · obtain ⟨e, he, hel⟩ := f.largest_mem
            have := entryRead_eq_none.1 hread e he (by rw [hel, hu'])
            rw [hel] at this
            omega
        have hrest : entryRead u s (fileEntries ((v.files level).drop (i + 1))) = none := by
          rw [entryRead_eq_none]
          intro e he heu
          exact absurd heu (hgt.trans_le (user_le_of_le (hlater e he).le)).ne'
        rw [hrest, none_or]

def Version.places (v : Version κ) : List (List (Entry κ)) :=
  ((v.files 0).insertionSort fun a b => b.number ≤ a.number).map (·.entries) ++
    (List.range kNumLevels).tail.map fun level => fileEntries (v.files level)

lemma visitFiles_saver (u : κ) (s : Nat) (files : List (Nat × FileMetaData κ)) (st : GetState κ)
    (hst : st.saver = .notFound) :
    (visitFiles (GetState.match u (lookupKey u s)) files st).saver =
      saveValue u (entryRead u s (files.flatMap (·.2.entries))) := by
  induction files generalizing st with
  | nil => simpa [visitFiles, entryRead, readAt, saveValue] using hst
  | cons p files ih =>
    obtain ⟨level, f⟩ := p
    have hf := saveValue_seek f.sorted u s
    rw [flatMap_cons, entryRead_append]
    cases hr : entryRead u s f.entries with
    | none =>
      have hnf : saveValue u (seek f.entries (lookupKey u s)) = .notFound := by rw [hf, hr]; rfl
      simp only [visitFiles, GetState.match, hnf, decide_true, none_or]
      exact ih _ rfl
    | some e =>
      have hne : saveValue u (seek f.entries (lookupKey u s)) ≠ .notFound := by
        rw [hf, Ne, saveValue_entryRead_eq_notFound, hr]
        simp
      simp only [visitFiles, GetState.match, hne, decide_false, some_or]
      rw [hf, hr]

lemma entryRead_filter {p : FileMetaData κ → Bool} (h : ∀ f ∈ files, p f = false → ∀ e ∈ f.entries, e.1.userKey ≠ u) :
    entryRead u s (fileEntries (files.filter p)) = entryRead u s (fileEntries files) := by
  induction files with
  | nil => rfl
  | cons f files ih =>
    have hrest := ih fun g hg => h g (by simp [hg])
    cases hp : p f with
    | true =>
      rw [filter_cons_of_pos hp, fileEntries_cons, fileEntries_cons, entryRead_append, entryRead_append, hrest]
    | false =>
      have hnone : entryRead u s f.entries = none :=
        entryRead_eq_none.2 fun e he heu => absurd heu (h f (by simp) hp e he)
      rw [filter_cons_of_neg (by simp [hp]), fileEntries_cons, entryRead_append, hnone, none_or, hrest]

variable (hn : ∀ f ∈ v.files 0, ∀ g ∈ v.files 0, f.number = g.number → f = g)
include hn

lemma level0Files_eq (u : κ) : v.level0Files u = ((v.files 0).insertionSort fun a b => b.number ≤ a.number).filter
      fun f => f.smallest.userKey ≤ u ∧ u ≤ f.largest.userKey := by
  have hl := pairwise_insertionSort (fun a b : FileMetaData κ => b.number ≤ a.number)
  refine List.Perm.eq_of_pairwise ?_ (hl _) ((hl _).filter _) ?_
  · intro a b ha hb hab hba
    have ha' := (mem_filter.1 ((mem_insertionSort _).1 ha)).1
    have hb' := (mem_insertionSort _).1 (mem_filter.1 hb).1
    exact hn a ha' b hb' (le_antisymm hba hab)
  · exact (perm_insertionSort _ _).trans ((perm_insertionSort _ _).filter _).symm

lemma Version.get_eq (hd : ∀ level, 0 < level → DisjointSorted (v.files level)) (u : κ) (s : Nat) :
    (v.get u s).1 = saveValue u (entryRead u s v.places.flatten) := by
  rw [Version.get, Version.forEachOverlapping, visitFiles_saver _ _ _ _ rfl]
  have hlevels : ∀ levels : List Nat, (∀ level ∈ levels, 0 < level) → entryRead u s ((levels.filterMap fun level =>
        (v.levelFile level u (lookupKey u s)).map fun f => (level, f)).flatMap (·.2.entries)) =
      entryRead u s (levels.map fun level => fileEntries (v.files level)).flatten := by
    intro levels hpos
    induction levels with
    | nil => rfl
    | cons level levels ih =>
      have hl := entryRead_levelFile (hd level (hpos level (by simp))) u s
      rw [map_cons, flatten_cons, entryRead_append, ← ih fun l hl => hpos l (by simp [hl]), ← hl]
      cases hf : v.levelFile level u (lookupKey u s) with
      | none => simp [hf]
      | some f => simp [hf, entryRead_append]
  have hzero : entryRead u s (fileEntries (v.level0Files u)) = entryRead u s
      (((v.files 0).insertionSort fun a b => b.number ≤ a.number).map (·.entries)).flatten := by
    rw [level0Files_eq hn, entryRead_filter, fileEntries, flatMap_def]
    intro f _ hf e he heu
    have h1 := user_le_of_le (smallest_le he)
    have h2 := user_le_of_le (le_largest he)
    rw [heu] at h1 h2
    simp [h1, h2] at hf
  rw [Version.overlappingFiles, Version.places, flatMap_append, flatten_append, entryRead_append,
    entryRead_append, hlevels _ (by decide), ← hzero, flatMap_map]
  rfl

end RallyDB.Db
