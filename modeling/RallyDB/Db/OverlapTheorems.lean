import RallyDB.Db.Lemmas.Inputs

/-!
# Main results about the files that overlap a range
-/

namespace RallyDB.Db

open List

variable {κ : Type*} [LinearOrder κ]

/-- The range of `f` does not end before `[smallest, largest]` begins, nor begins after it ends; a bound that is absent has
no key beyond it. -/
def FileMetaData.Meets (smallest largest : Option κ) (f : FileMetaData κ) : Prop :=
  (∀ s ∈ smallest, s ≤ f.largest.userKey) ∧ ∀ l ∈ largest, f.smallest.userKey ≤ l

lemma overlaps_iff_meets {smallest largest : Option κ} {f : FileMetaData κ} :
    overlaps smallest largest f = true ↔ f.Meets smallest largest := by
  cases smallest <;> cases largest <;> simp [overlaps, afterFile, beforeFile, FileMetaData.Meets]

/-- Ranges meet when they have a user key in common. -/
lemma FileMetaData.meets_iff_common {smallest largest : Option κ} (hrange : ∀ s ∈ smallest, ∀ l ∈ largest, s ≤ l)
    (f : FileMetaData κ) : f.Meets smallest largest ↔ ∃ u, f.smallest.userKey ≤ u ∧ u ≤ f.largest.userKey ∧
    (∀ s ∈ smallest, s ≤ u) ∧ ∀ l ∈ largest, u ≤ l := by
  have hf : f.smallest.userKey ≤ f.largest.userKey := InternalKey.user_le_of_le f.smallest_le_largest
  constructor
  · rintro ⟨hs, hl⟩
    cases smallest with
    | none => exact ⟨f.smallest.userKey, le_rfl, hf, by simp, hl⟩
    | some s =>
      refine ⟨max s f.smallest.userKey, le_max_right _ _, max_le (hs s rfl) hf, ?_, fun l h => ?_⟩
      · rintro _ ⟨⟩
        exact le_max_left _ _
      · exact max_le (hrange s rfl l h) (hl l h)
  · rintro ⟨u, hsu, hul, hs, hl⟩
    exact ⟨fun s h => (hs s h).trans hul, fun l h => hsu.trans (hl l h)⟩

/-- On disjoint sorted files the binary search and the scan give one answer: whether some file meets the range. -/
theorem someFileOverlapsRange_iff (files : List (FileMetaData κ)) (hd : DisjointSorted files)
    (hseq : ∀ f ∈ files, f.largest.sequence ≤ kMaxSequenceNumber) (smallest largest : Option κ) :
    someFileOverlapsRange true files smallest largest = someFileOverlapsRange false files smallest largest ∧
    (someFileOverlapsRange false files smallest largest = true ↔ ∃ f ∈ files, f.Meets smallest largest) ∧
    ((∀ s ∈ smallest, ∀ l ∈ largest, s ≤ l) →
    (someFileOverlapsRange false files smallest largest = true ↔ ∃ f ∈ files, ∃ u, f.smallest.userKey ≤ u ∧
    u ≤ f.largest.userKey ∧ (∀ s ∈ smallest, s ≤ u) ∧ ∀ l ∈ largest, u ≤ l)) := by
  have hscan : someFileOverlapsRange false files smallest largest = true ↔ ∃ f ∈ files, f.Meets smallest largest := by
    simp only [← overlaps_iff_meets]
    exact any_eq_true
  refine ⟨hd.someFileOverlapsRange_eq hseq smallest largest, hscan, fun hrange => ?_⟩
  simp only [hscan, FileMetaData.meets_iff_common hrange]

def rangeFile (number : Nat) (smallest largest : InternalKey Nat) (h : smallest < largest) : FileMetaData Nat where
  number := number
  fileSize := 1
  entries := [(smallest, []), (largest, [])]
  nonempty := by simp
  sorted := by simpa using h

def sharedBoundary : List (FileMetaData Nat) :=
  [rangeFile 1 ⟨3, 1, .value⟩ ⟨5, 9, .value⟩ (by decide), rangeFile 2 ⟨5, 4, .value⟩ ⟨8, 2, .value⟩ (by decide)]

theorem someFileOverlapsRange_iff_shared : someFileOverlapsRange true sharedBoundary (some 5) (some 5) = true ∧
    someFileOverlapsRange false sharedBoundary (some 5) (some 5) = true := by
  have h := someFileOverlapsRange_iff sharedBoundary (by unfold DisjointSorted; decide) (by decide) (some 5) (some 5)
  have hscan : someFileOverlapsRange false sharedBoundary (some 5) (some 5) = true := by decide
  exact ⟨h.1.trans hscan, hscan⟩

/-- The range of `f` meets the one that is spanned by `[begin, limit]` and the files of `s`. -/
structure FileMetaData.MeetsSpan (begin limit : Option κ) (s : Set (FileMetaData κ)) (f : FileMetaData κ) : Prop where
  lower : ∀ b ∈ begin, b ≤ f.largest.userKey ∨ ∃ g ∈ s, g.smallest.userKey ≤ f.largest.userKey
  upper : ∀ l ∈ limit, f.smallest.userKey ≤ l ∨ ∃ g ∈ s, f.smallest.userKey ≤ g.largest.userKey

structure SpanClosed (files : List (FileMetaData κ)) (begin limit : Option κ) (s : Set (FileMetaData κ)) : Prop where
  meets : ∀ f ∈ files, f.Meets begin limit → f ∈ s
  spanned : ∀ f ∈ files, f.MeetsSpan begin limit s → f ∈ s

variable {files inputs : List (FileMetaData κ)} {begin limit userBegin userEnd : Option κ} {s : Set (FileMetaData κ)}

structure InSpan (begin limit : Option κ) (s : Set (FileMetaData κ)) (userBegin userEnd : Option κ) : Prop where
  lower : ∀ f, afterFile userBegin f = false →
    ∀ b ∈ begin, b ≤ f.largest.userKey ∨ ∃ g ∈ s, g.smallest.userKey ≤ f.largest.userKey
  upper : ∀ f, beforeFile userEnd f = false →
    ∀ l ∈ limit, f.smallest.userKey ≤ l ∨ ∃ g ∈ s, f.smallest.userKey ≤ g.largest.userKey

lemma SpanClosed.mem (h : SpanClosed files begin limit s) (hr : InSpan begin limit s userBegin userEnd) {f : FileMetaData κ}
    (hf : f ∈ files) (hout : ¬ (afterFile userBegin f || beforeFile userEnd f) = true) : f ∈ s := by
  rw [Bool.or_eq_true, not_or, Bool.not_eq_true, Bool.not_eq_true] at hout
  exact h.spanned f hf ⟨hr.lower f hout.1, hr.upper f hout.2⟩

-- The range of the scan grows only by files of `s`.
lemma SpanClosed.overlapScan (h : SpanClosed files begin limit s) (i : Nat) (hr : InSpan begin limit s userBegin userEnd)
    (hs : ∀ f ∈ inputs, f ∈ s) : ∀ f ∈ overlapScan 0 files userBegin userEnd i inputs, f ∈ s := by
  fun_induction Db.overlapScan 0 files userBegin userEnd i inputs with
  | case1 userBegin userEnd i inputs hlt f hout ih => exact ih hr hs
  | case2 userBegin userEnd i inputs hlt f hout hbelow ih =>
    have hf : f ∈ s := h.mem hr (getElem_mem hlt) hout
    exact ih ⟨fun g hg _ _ => .inr ⟨f, hf, by simpa [afterFile] using hg⟩, hr.upper⟩ (by simp)
  | case3 userBegin userEnd i inputs hlt f hout hbelow habove ih =>
    have hf : f ∈ s := h.mem hr (getElem_mem hlt) hout
    exact ih ⟨hr.lower, fun g hg _ _ => .inr ⟨f, hf, by simpa [beforeFile] using hg⟩⟩ (by simp)
  | case4 userBegin userEnd i inputs hlt f hout hbelow habove ih =>
    refine ih hr fun g hg => ?_
    rcases mem_append.1 hg with hg | hg
    · exact hs g hg
    · exact mem_singleton.1 hg ▸ h.mem hr (getElem_mem hlt) hout
  | case5 userBegin userEnd i inputs hge => exact hs

lemma spanClosed_overlapScan (files : List (FileMetaData κ)) (begin limit : Option κ) :
    SpanClosed files begin limit {f | f ∈ overlapScan 0 files begin limit 0 []} := by
  have h0 : ([] : List (FileMetaData κ)) = (files.take 0).filter (overlaps begin limit) := by simp
  obtain ⟨b, e, hfilter, hwithin, -, hafter, hbefore⟩ := overlapScan_spec 0 h0 (by simp)
  have hspanned : ∀ f ∈ files, f.MeetsSpan begin limit {f | f ∈ overlapScan 0 files begin limit 0 []} →
      f ∈ overlapScan 0 files begin limit 0 [] := by
    rintro f hf ⟨hb, hl⟩
    simp only [hfilter, Set.mem_ofPred_eq] at hb hl ⊢
    refine mem_filter.2 ⟨hf, ?_⟩
    rw [overlaps, Bool.not_eq_true', Bool.or_eq_false_iff, ← Bool.not_eq_true, ← Bool.not_eq_true]
    constructor
    · intro ha
      have ha' := hafter f ha
      cases b with
      | none => cases ha
      | some b =>
        cases begin with
        | none => cases ha'
        | some b0 =>
          simp only [afterFile, decide_eq_true_eq] at ha ha'
          rcases hb b0 rfl with hle | ⟨g, hg, hle⟩
          · exact hle.not_gt ha'
          · exact (hle.trans_lt ha).not_ge (by simpa [startsBelow] using (hwithin rfl g hg).1)
    · intro ha
      have ha' := hbefore f ha
      cases e with
      | none => cases ha
      | some e =>
        cases limit with
        | none => cases ha'
        | some e0 =>
          simp only [beforeFile, decide_eq_true_eq] at ha ha'
          rcases hl e0 rfl with hle | ⟨g, hg, hle⟩
          · exact hle.not_gt ha'
          · exact (ha.trans_le hle).not_ge (by simpa [endsAbove] using (hwithin rfl g hg).2)
  refine ⟨fun f hf hmeets => hspanned f hf ?_, hspanned⟩
  exact ⟨fun b hb => .inl (hmeets.1 b hb), fun l hl => .inl (hmeets.2 l hl)⟩

/-- At level 0 the files returned, each once and in the order of the level, are the least set that has every file meeting
`[begin, limit]` and every file meeting the range spanned by `[begin, limit]` and the set. -/
theorem getOverlappingInputs_least (v : Version κ) (begin limit : Option (InternalKey κ)) :
    (v.getOverlappingInputs 0 begin limit).Sublist (v.files 0) ∧
    IsLeast {s | SpanClosed (v.files 0) (begin.map (·.userKey)) (limit.map (·.userKey)) s}
    {f | f ∈ v.getOverlappingInputs 0 begin limit} := by
  refine ⟨?_, spanClosed_overlapScan _ _ _, fun s hs f hf => ?_⟩
  · obtain ⟨b, e, hfilter, -, -⟩ := getOverlappingInputs_spec v 0 begin limit
    exact hfilter ▸ filter_sublist
  · refine hs.overlapScan 0 ⟨fun f hf b hb => .inl ?_, fun f hf l hl => .inl ?_⟩ (by simp) f hf
    · rw [hb] at hf
      simpa [afterFile] using hf
    · rw [hl] at hf
      simpa [beforeFile] using hf

/-- `AddBoundaryInputs` adds files of the level, each once and none that was there, until no file of the level begins
after the largest key with the same user key. -/
theorem addBoundaryInputs_closed (levelFiles compactionFiles : List (FileMetaData κ)) : ∃ added,
    addBoundaryInputs levelFiles compactionFiles = compactionFiles ++ added ∧ added.Nodup ∧
    (∀ f ∈ added, f ∈ levelFiles ∧ f ∉ compactionFiles) ∧ ∀ k, findLargestKey (compactionFiles ++ added) = some k →
    ∀ f ∈ levelFiles, ¬ (k < f.smallest ∧ f.smallest.userKey = k.userKey) := by
  unfold addBoundaryInputs
  cases hk : findLargestKey compactionFiles with
  | none =>
    obtain rfl := findLargestKey_eq_none hk
    exact ⟨[], by simp [findLargestKey]⟩
  | some k =>
    obtain ⟨hle, hkm⟩ := findLargestKey_spec hk
    obtain ⟨added, hloop, hn, hmem, hnone⟩ := boundaryLoop_added levelFiles hle hkm
    refine ⟨added, hloop, hn, hmem, fun k' hk' => ?_⟩
    exact hnone k' (findLargestKey_spec hk').1 (findLargestKey_spec hk').2

end RallyDB.Db
