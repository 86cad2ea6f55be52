import RallyDB.Db.CompactionWork
import RallyDB.Db.Lemmas.Lookup

/-!
# What a compaction keeps
-/

namespace RallyDB.Db

open RallyDB.Lib List InternalKey Compaction WorkState

variable {κ : Type*} [LinearOrder κ]

def InRange (files : List (FileMetaData κ)) (u : κ) : Prop :=
  ∃ f ∈ files, f.smallest.userKey ≤ u ∧ u ≤ f.largest.userKey

def PassedBefore (v : Version κ) (u : κ) (ptrs : Nat → Nat) : Prop :=
  ∀ lvl i f, i < ptrs lvl → (v.files lvl)[i]? = some f → f.largest.userKey < u

variable {ptr q : Nat}

lemma skipFiles_spec {files : List (FileMetaData κ)} (hd : DisjointSorted files) {u : κ}
    (hp : ∀ i f, i < ptr → files[i]? = some f → f.largest.userKey < u) :
    (∀ i f, i < (skipFiles files u ptr).1 → files[i]? = some f → f.largest.userKey < u) ∧
    ((skipFiles files u ptr).2 = true ↔ InRange files u) := by
  fun_induction skipFiles files u ptr with
  | case1 ptr f hf hle =>
    refine ⟨hp, ?_⟩
    rw [decide_eq_true_eq]
    refine ⟨fun h => ⟨f, mem_of_getElem? hf, h, hle⟩, ?_⟩
    rintro ⟨g, hg, hgs, hgl⟩
    obtain ⟨j, hj⟩ := mem_iff_getElem?.1 hg
    rcases Nat.lt_trichotomy j ptr with hlt | rfl | hgt
    · exact absurd hgl (hp j g hlt hj).not_ge
    · rw [hf, Option.some.injEq] at hj
      exact hj ▸ hgs
    · -- A later file starts after this one ends.
      have hfg := f.smallest_le_largest.trans (hd.largest_lt hgt hf hj).le
      exact (user_le_of_le hfg).trans hgs
  | case2 ptr f hf hlt ih =>
    refine ih fun i g hi hg => ?_
    rcases Nat.lt_succ_iff_lt_or_eq.1 hi with hi | rfl
    · exact hp i g hi hg
    · rw [hf, Option.some.injEq] at hg
      exact hg ▸ not_le.1 hlt
  | case3 ptr hf =>
    refine ⟨hp, by simp, ?_⟩
    rintro ⟨g, hg, _, hgl⟩
    obtain ⟨j, hj⟩ := mem_iff_getElem?.1 hg
    have hlen := List.getElem?_eq_none_iff.1 hf
    have hjlen := (List.getElem?_eq_some_iff.1 hj).1
    exact absurd hgl (hp j g (by omega) hj).not_ge

lemma PassedBefore.update {v : Version κ} {u : κ} {ptrs : Nat → Nat} (h : PassedBefore v u ptrs) {lvl : Nat}
    (hp : ∀ i f, i < ptr → (v.files lvl)[i]? = some f → f.largest.userKey < u) :
    PassedBefore v u (Function.update ptrs lvl ptr) := by
  intro l i f hi hf
  by_cases hl : l = lvl
  · subst hl
    rw [Function.update_self] at hi
    exact hp i f hi hf
  · rw [Function.update_of_ne hl] at hi
    exact h l i f hi hf

lemma isBaseLevelLoop_spec {v : Version κ} {u : κ} {levels : List Nat}
    (hd : ∀ lvl ∈ levels, DisjointSorted (v.files lvl)) {ptrs : Nat → Nat} (hp : PassedBefore v u ptrs) :
    PassedBefore v u (isBaseLevelLoop v u levels ptrs).1 ∧
    ((isBaseLevelLoop v u levels ptrs).2 = true ↔ ∀ lvl ∈ levels, ¬ InRange (v.files lvl) u) := by
  induction levels generalizing ptrs with
  | nil => exact ⟨hp, by simp [isBaseLevelLoop]⟩
  | cons lvl levels ih =>
    obtain ⟨h1, h2⟩ := skipFiles_spec (hd lvl (by simp)) (hp lvl)
    have hp' := hp.update h1
    obtain ⟨h3, h4⟩ := ih (fun l hl => hd l (by simp [hl])) hp'
    simp only [isBaseLevelLoop]
    by_cases hin : (skipFiles (v.files lvl) u (ptrs lvl)).2 = true
    · simp only [hin, ↓reduceIte]
      exact ⟨hp', by simp [h2.1 hin]⟩
    · simp only [hin, Bool.false_eq_true, ↓reduceIte]
      refine ⟨h3, h4.trans ?_⟩
      rw [h2] at hin
      simp [hin]

/-! ## The parts of the loop state -/

variable (w : WorkState κ)

@[simp] lemma WorkState.enterKey_builder (u : κ) : (w.enterKey u).builder = w.builder := by
  unfold enterKey
  split <;> rfl

@[simp] lemma WorkState.enterKey_outputs (u : κ) : (w.enterKey u).outputs = w.outputs := by
  unfold enterKey
  split <;> rfl

@[simp] lemma WorkState.enterKey_levelPtrs (u : κ) : (w.enterKey u).levelPtrs = w.levelPtrs := by
  unfold enterKey
  split <;> rfl

@[simp] lemma WorkState.enterKey_currentUserKey (u : κ) : (w.enterKey u).currentUserKey = some u := by
  unfold enterKey
  split
  · assumption
  · rfl

def WorkState.emitted : List (Entry κ) := w.outputs.flatten ++ w.builder.getD []

def WorkState.NoEmpty : Prop := (∀ l ∈ w.outputs, l ≠ []) ∧ w.builder ≠ some []

lemma WorkState.finishOutput_emitted : w.finishOutput.emitted = w.emitted := by
  cases hb : w.builder with
  | none | some entries => simp [finishOutput, emitted, hb]

variable {w : WorkState κ}

lemma WorkState.NoEmpty.finishOutput (h : w.NoEmpty) : w.finishOutput.NoEmpty := by
  cases hb : w.builder with
  | none => simpa [WorkState.finishOutput, hb] using h
  | some entries =>
    have hne : entries ≠ [] := by
      rintro rfl
      exact h.2 hb
    refine ⟨fun l hl => ?_, by simp [WorkState.finishOutput, hb]⟩
    simp only [WorkState.finishOutput, hb, mem_append, mem_singleton] at hl
    rcases hl with hl | rfl
    · exact h.1 l hl
    · exact hne

lemma WorkState.finishOutput_builder (w : WorkState κ) : w.finishOutput.builder = none := by
  cases hb : w.builder with
  | none | some entries => simp [finishOutput, hb]

lemma WorkState.addEntry_emitted (w : WorkState κ) (o : Options κ) (e : Entry κ) :
    (w.addEntry o e).emitted = w.emitted ++ [e] := by
  have h : ({ w with builder := some (w.builder.getD [] ++ [e]) } : WorkState κ).emitted = w.emitted ++ [e] := by
    simp [emitted]
  simp only [addEntry]
  split
  · rw [finishOutput_emitted, h]
  · exact h

lemma WorkState.NoEmpty.addEntry (h : w.NoEmpty) (o : Options κ) (e : Entry κ) : (w.addEntry o e).NoEmpty := by
  have h' : ({ w with builder := some (w.builder.getD [] ++ [e]) } : WorkState κ).NoEmpty := ⟨h.1, by simp⟩
  simp only [WorkState.addEntry]
  split
  · exact h'.finishOutput
  · exact h'

def Compaction.BaseFor (c : Compaction κ) (u : κ) : Prop :=
  ∀ lvl ∈ c.deeperLevels, ¬ InRange (c.inputVersion.files lvl) u

def HiddenIn (m : List (Entry κ)) (q : Nat) (e : Entry κ) : Prop :=
  ∃ p ∈ m, p.1 < e.1 ∧ p.1.userKey = e.1.userKey ∧ p.1.sequence ≤ q

def Compaction.Dropped (c : Compaction κ) (m : List (Entry κ)) (q : Nat) (e : Entry κ) : Prop :=
  HiddenIn m q e ∨ e.1.type = .deletion ∧ e.1.sequence ≤ q ∧ c.BaseFor e.1.userKey

structure Tracks (c : Compaction κ) (done : List (Entry κ)) (w : WorkState κ) : Prop where
  current : w.currentUserKey = done.getLast?.map (·.1.userKey)
  last : ∀ e, done.getLast? = some e → w.lastSequenceForKey = e.1.sequence
  passed : ∀ lvl i f, i < w.levelPtrs lvl → (c.inputVersion.files lvl)[i]? = some f →
    ∃ e ∈ done, f.largest.userKey < e.1.userKey

variable {e : Entry κ}

lemma SortedEntries.le_last {l : List (Entry κ)} (hl : SortedEntries l) {p : Entry κ}
    (hp : l.getLast? = some p) (he : e ∈ l) : e.1 ≤ p.1 := by
  obtain ⟨front, rfl⟩ := getLast?_eq_some_iff.1 hp
  rcases mem_append.1 he with he | he
  · exact ((pairwise_append.1 hl).2.2 e he p (by simp)).le
  · rw [mem_singleton.1 he]

variable {c : Compaction κ} {done rest m : List (Entry κ)}

lemma Tracks.enterKey_le (h : Tracks c done w) (hs : SortedEntries (done ++ e :: rest)) (hq : q < kMaxSequenceNumber) :
    (w.enterKey e.1.userKey).lastSequenceForKey ≤ q ↔ HiddenIn (done ++ e :: rest) q e := by
  obtain ⟨hdone, hcons, hbefore⟩ := pairwise_append.1 hs
  have hhidden : HiddenIn (done ++ e :: rest) q e ↔ ∃ p ∈ done, p.1.userKey = e.1.userKey ∧ p.1.sequence ≤ q := by
    constructor
    · rintro ⟨p, hp, hlt, hu, hpq⟩
      rcases mem_append.1 hp with hp | hp
      · exact ⟨p, hp, hu, hpq⟩
      · rcases mem_cons.1 hp with rfl | hp
        · exact absurd hlt (lt_irrefl _)
        · exact absurd hlt (rel_of_pairwise_cons hcons hp).not_gt
    · rintro ⟨p, hp, hu, hpq⟩
      exact ⟨p, mem_append_left _ hp, hbefore p hp e (by simp), hu, hpq⟩
  rw [hhidden, enterKey, h.current]
  cases hl : done.getLast? with
  | none =>
    obtain rfl := getLast?_eq_none_iff.1 hl
    simpa using hq
  | some p =>
    have hpm : p ∈ done := mem_of_getLast? hl
    by_cases hu : p.1.userKey = e.1.userKey
    · simp only [Option.map_some, hu, ↓reduceIte, h.last p hl]
      refine ⟨fun hle => ⟨p, hpm, hu, hle⟩, ?_⟩
      rintro ⟨p', hp', hu', hle⟩
      have hpp : p'.1 ≤ p.1 := SortedEntries.le_last hdone hl hp'
      exact (sequence_le_of_le hpp (hu'.trans hu.symm)).trans hle
    · simp only [Option.map_some, Option.some.injEq, hu, ↓reduceIte]
      refine ⟨fun hle => absurd hle (not_le.2 hq), ?_⟩
      rintro ⟨p', hp', hu', _⟩
      -- The last entry lies between `p'` and `e`, which have the same user key.
      have h1 : p'.1 ≤ p.1 := SortedEntries.le_last hdone hl hp'
      have h2 := (hbefore p hpm e (by simp)).le
      have h3 := user_le_of_le h1
      rw [hu'] at h3
      exact absurd (le_antisymm (user_le_of_le h2) h3) hu

lemma Tracks.dropEntry (h : Tracks c done w) (hd : ∀ lvl ∈ c.deeperLevels, DisjointSorted (c.inputVersion.files lvl))
    (hs : SortedEntries (done ++ e :: rest)) (hq : q < kMaxSequenceNumber) :
    ((c.dropEntry q e.1 w).2 = true ↔ c.Dropped (done ++ e :: rest) q e) ∧ Tracks c (done ++ [e]) (c.dropEntry q e.1 w).1 ∧
    (c.dropEntry q e.1 w).1.builder = w.builder ∧ (c.dropEntry q e.1 w).1.outputs = w.outputs := by
  have hhidden := h.enterKey_le hs hq
  have hpassed : PassedBefore c.inputVersion e.1.userKey w.levelPtrs := by
    intro lvl i f hi hf
    obtain ⟨p, hp, hlt⟩ := h.passed lvl i f hi hf
    have hpe := (pairwise_append.1 hs).2.2 p hp e (by simp)
    exact hlt.trans_le (InternalKey.user_le_of_le hpe.le)
  -- Whatever the decision, the state records the entry as the last one.
  have htracks : ∀ ptrs, (∀ lvl i f, i < ptrs lvl → (c.inputVersion.files lvl)[i]? = some f →
        ∃ p ∈ done ++ [e], f.largest.userKey < p.1.userKey) →
      Tracks c (done ++ [e]) { w.enterKey e.1.userKey with levelPtrs := ptrs, lastSequenceForKey := e.1.sequence } := by
    intro ptrs hptrs
    refine ⟨?_, by simp, hptrs⟩
    simp
  have hsame : Tracks c (done ++ [e]) { w.enterKey e.1.userKey with lastSequenceForKey := e.1.sequence } := by
    refine htracks _ fun lvl i f hi hf => ?_
    obtain ⟨p, hp, hlt⟩ := h.passed lvl i f (by simpa using hi) hf
    exact ⟨p, mem_append_left _ hp, hlt⟩
  simp only [Compaction.dropEntry, Compaction.Dropped]
  by_cases hA : (w.enterKey e.1.userKey).lastSequenceForKey ≤ q
  · simp only [hA, ↓reduceIte, true_iff]
    exact ⟨.inl (hhidden.1 hA), hsame, by simp, by simp⟩
  · by_cases hB : e.1.type = .deletion ∧ e.1.sequence ≤ q
    · obtain ⟨h1, h2⟩ := isBaseLevelLoop_spec hd (w.enterKey_levelPtrs e.1.userKey ▸ hpassed)
      simp only [hA, hB, and_self, ↓reduceIte, Compaction.isBaseLevelForKey, h2, ← hhidden, false_or, true_and]
      refine ⟨Iff.rfl, htracks _ fun lvl i f hi hf => ⟨e, by simp, h1 lvl i f hi hf⟩, by simp, by simp⟩
    · simp only [hA, hB, ↓reduceIte, Bool.false_eq_true, ← hhidden, false_or, false_iff]
      exact ⟨fun hd => hB ⟨hd.1, hd.2.1⟩, hsame, by simp, by simp⟩

/-! ## The whole loop -/

structure Processed (c : Compaction κ) (m : List (Entry κ)) (q : Nat) (done : List (Entry κ)) (w : WorkState κ) :
    Prop where
  tracks : Tracks c done w
  noEmpty : w.NoEmpty
  sublist : w.emitted.Sublist done
  kept : ∀ e ∈ done, e ∈ w.emitted ↔ ¬ c.Dropped m q e

lemma Tracks.of_eq {w' : WorkState κ} (h : Tracks c done w)
    (h1 : w'.currentUserKey = w.currentUserKey) (h2 : w'.lastSequenceForKey = w.lastSequenceForKey)
    (h3 : w'.levelPtrs = w.levelPtrs) : Tracks c done w' :=
  ⟨h1 ▸ h.current, h2 ▸ h.last, h3 ▸ h.passed⟩

lemma Tracks.finishOutput (h : Tracks c done w) : Tracks c done w.finishOutput := by
  unfold WorkState.finishOutput
  split <;> exact h.of_eq rfl rfl rfl

lemma Tracks.addEntry (h : Tracks c done w) (o : Options κ) (e : Entry κ) : Tracks c done (w.addEntry o e) := by
  have h' : Tracks c done { w with builder := some (w.builder.getD [] ++ [e]) } := h.of_eq rfl rfl rfl
  simp only [WorkState.addEntry]
  split
  · exact h'.finishOutput
  · exact h'

lemma Processed.finishOutput (h : Processed c m q done w) : Processed c m q done w.finishOutput := by
  have hem := w.finishOutput_emitted
  exact ⟨h.tracks.finishOutput, h.noEmpty.finishOutput, hem ▸ h.sublist, hem ▸ h.kept⟩

lemma Processed.stopBefore (h : Processed c m q done w) (o : Options κ) (key : InternalKey κ) :
    Processed c m q done (if (c.shouldStopBefore o key w).2 then (c.shouldStopBefore o key w).1.finishOutput
      else (c.shouldStopBefore o key w).1) := by
  have h1 : Processed c m q done (c.shouldStopBefore o key w).1 := by
    simp only [shouldStopBefore]
    split <;> exact ⟨h.tracks.of_eq rfl rfl rfl, h.noEmpty, h.sublist, h.kept⟩
  split
  · exact h1.finishOutput
  · exact h1

lemma Processed.processEntry (h : Processed c (done ++ e :: rest) q done w)
    (hd : ∀ lvl ∈ c.deeperLevels, DisjointSorted (c.inputVersion.files lvl))
    (hs : SortedEntries (done ++ e :: rest)) (hq : q < kMaxSequenceNumber) (o : Options κ) :
    Processed c (done ++ e :: rest) q (done ++ [e]) (c.processEntry o q w e) := by
  have h1 := h.stopBefore o e.1
  simp only [Compaction.processEntry]
  generalize (if (c.shouldStopBefore o e.1 w).2 = true then (c.shouldStopBefore o e.1 w).1.finishOutput
    else (c.shouldStopBefore o e.1 w).1) = w1 at h1 ⊢
  obtain ⟨hdrop, htracks, hb, ho⟩ := h1.tracks.dropEntry hd hs hq
  generalize c.dropEntry q e.1 w1 = r at hdrop htracks hb ho ⊢
  have hem : r.1.emitted = w1.emitted := by simp [WorkState.emitted, hb, ho]
  have hne : r.1.NoEmpty := ⟨ho ▸ h1.noEmpty.1, hb ▸ h1.noEmpty.2⟩
  have hnew : e ∉ done := fun he =>
    lt_irrefl _ ((pairwise_append.1 hs).2.2 e he e (by simp))
  have hnotyet : e ∉ w1.emitted := fun he => hnew (h1.sublist.mem he)
  by_cases hr : r.2 = true
  · rw [if_pos hr]
    refine ⟨htracks, hne, hem ▸ h1.sublist.trans (sublist_append_left _ _), fun x hx => ?_⟩
    rw [hem]
    rcases mem_append.1 hx with hx | hx
    · exact h1.kept x hx
    · rw [mem_singleton.1 hx]
      exact iff_of_false hnotyet (not_not.2 (hdrop.1 hr))
  · rw [if_neg hr]
    have hem' : (r.1.addEntry o e).emitted = w1.emitted ++ [e] := by rw [WorkState.addEntry_emitted, hem]
    refine ⟨htracks.addEntry o e, hne.addEntry o e, hem' ▸ h1.sublist.append_right [e], fun x hx => ?_⟩
    rw [hem']
    rcases mem_append.1 hx with hx | hx
    · have hxe : x ≠ e := fun hxe => hnew (hxe ▸ hx)
      simp [hxe, h1.kept x hx]
    · rw [mem_singleton.1 hx]
      exact iff_of_true (by simp) (hdrop.not.1 hr)

lemma Processed.foldl (hm : done ++ rest = m) (h : Processed c m q done w)
    (hd : ∀ lvl ∈ c.deeperLevels, DisjointSorted (c.inputVersion.files lvl))
    (hs : SortedEntries m) (hq : q < kMaxSequenceNumber) (o : Options κ) :
    Processed c m q m (rest.foldl (c.processEntry o q) w) := by
  induction rest generalizing done w with
  | nil =>
    rw [append_nil] at hm
    exact hm ▸ h
  | cons e rest ih =>
    have hstep : Processed c m q (done ++ [e]) (c.processEntry o q w e) := by
      subst hm
      exact h.processEntry hd hs hq o
    exact ih (by simp [← hm]) hstep

lemma doCompactionWork_spec (c : Compaction κ) (o : Options κ) (hq : q < kMaxSequenceNumber)
    (hd : ∀ lvl ∈ c.deeperLevels, DisjointSorted (c.inputVersion.files lvl)) (hs : SortedEntries c.makeInputIterator) :
    (c.doCompactionWork o q).flatten.Sublist c.makeInputIterator ∧ (∀ l ∈ c.doCompactionWork o q, l ≠ []) ∧
    ∀ e ∈ c.makeInputIterator, e ∈ (c.doCompactionWork o q).flatten ↔ ¬ c.Dropped c.makeInputIterator q e := by
  have h0 : Processed c c.makeInputIterator q [] ({} : WorkState κ) :=
    ⟨⟨rfl, by simp, by simp⟩, ⟨by simp, by simp⟩, by simp [emitted], by simp⟩
  have h := (Processed.foldl (nil_append _) h0 hd hs hq o).finishOutput
  have hem : (c.doCompactionWork o q).flatten =
      (c.makeInputIterator.foldl (c.processEntry o q) {}).finishOutput.emitted := by
    simp [doCompactionWork, emitted, finishOutput_builder]
  rw [hem]
  exact ⟨h.sublist, h.noEmpty.1, h.kept⟩

end RallyDB.Db
