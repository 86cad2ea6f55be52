import RallyDB.Db.Lemmas.Install

/-!
# The inputs of a compaction can be replaced by its outputs
-/

namespace RallyDB.Db

open RallyDB.Lib List

variable {κ : Type*} [LinearOrder κ]

inductive BuiltOn (v : Version κ) (o : Options κ) (c : Compaction κ) : Prop
  | pick (compactPointer : Nat → Option (InternalKey κ)) (hint : CompactionHint κ) (pointer : InternalKey κ)
      (h : v.pickCompaction o compactPointer hint = some (c, pointer))
  | range (level : Nat) (begin limit : Option (InternalKey κ)) (pointer : InternalKey κ)
      (h : v.compactRange o level begin limit = some (c, pointer))

def Compaction.nextLevel (c : Compaction κ) (outs : List (FileMetaData κ)) : List (FileMetaData κ) :=
  ((c.inputVersion.files (c.level + 1)).filter (· ∉ c.inputs1) ++ outs).insertionSort fun f g => f.smallest ≤ g.smallest

instance (files : List (FileMetaData κ)) : Decidable (DisjointSorted files) :=
  inferInstanceAs (Decidable (files.Pairwise fun f g => f.largest < g.smallest))

instance (l : List (Entry κ)) : Decidable (SortedEntries l) :=
  inferInstanceAs (Decidable (l.Pairwise fun a b => a.1 < b.1))

variable {v : Version κ} {o : Options κ} {c : Compaction κ}

/-! ## The first choice -/

structure Start (v : Version κ) (level : Nat) (first : List (FileMetaData κ)) : Prop where
  closed : level = 0 → UserClosed (v.files level) first
  choice : 0 < level → FirstChoice level (v.files level) first

lemma Start.getOverlappingInputs (hd : ∀ level, 0 < level → DisjointSorted (v.files level)) (level : Nat)
    (begin limit : Option (InternalKey κ)) : Start v level (v.getOverlappingInputs level begin limit) where
  closed h0 := by
    subst h0
    exact userClosed_getOverlappingInputs v begin limit
  choice hpos := firstChoice_getOverlappingInputs (hd level hpos).nodup (hd level) begin limit

variable {level : Nat}

section

variable (hd : ∀ level, 0 < level → DisjointSorted (v.files level))
include hd

lemma Start.takeUntilLimit (hpos : 0 < level) (begin limit : Option (InternalKey κ)) (size : Nat) :
    Start v level (takeUntilLimit size 0 (v.getOverlappingInputs level begin limit)) where
  closed h0 := absurd h0 (Nat.ne_of_gt hpos)
  choice _ := firstChoice_takeUntilLimit hpos (hd level hpos) begin limit size

lemma Start.singleton (hpos : 0 < level) {f : FileMetaData κ} (hf : f ∈ v.files level) : Start v level [f] where
  closed h0 := absurd h0 (Nat.ne_of_gt hpos)
  choice _ := firstChoice_singleton hpos (hd level hpos) hf

lemma BuiltOn.setup (hc : BuiltOn v o c) :
    ∃ level first pointer, v.setupOtherInputs o level first = some (c, pointer) ∧ Start v level first := by
  cases hc with
  | pick compactPointer hint pointer h =>
    simp only [Version.pickCompaction, Option.bind_eq_bind, Option.bind_eq_some_iff] at h
    obtain ⟨f, hf, h⟩ := h
    have hmem := pickFirstInput_mem hf
    by_cases h0 : hint.level = 0
    · rw [if_pos h0] at h
      exact ⟨0, _, pointer, h, Start.getOverlappingInputs hd 0 _ _⟩
    · rw [if_neg h0] at h
      exact ⟨hint.level, _, pointer, h, Start.singleton hd (Nat.pos_of_ne_zero h0) hmem⟩
  | range level begin limit pointer h =>
    simp only [Version.compactRange, Option.ite_none_left_eq_some] at h
    obtain ⟨_, h⟩ := h
    by_cases hpos : 0 < level
    · rw [if_pos hpos] at h
      exact ⟨level, _, pointer, h, Start.takeUntilLimit hd hpos begin limit _⟩
    · rw [if_neg hpos] at h
      exact ⟨level, _, pointer, h, Start.getOverlappingInputs hd level begin limit⟩

end

variable {first chosen outs files : List (FileMetaData κ)}

section

variable (hd : ∀ level, 0 < level → DisjointSorted (v.files level))
include hd

lemma Start.chosenFrom (h : Start v level first) (hchosen : ChosenFrom v level first chosen) : Start v level chosen := by
  rcases hchosen with rfl | ⟨_, _, lo, hi, _, _, rfl⟩
  · exact h
  · exact Start.getOverlappingInputs hd level (some lo) (some hi)

lemma Start.noOlder (h : Start v level first) : NoOlder (v.files level) (addBoundaryInputs (v.files level) first) := by
  rcases Nat.eq_zero_or_pos level with h0 | hpos
  · rw [(h.closed h0).addBoundaryInputs_eq]
    exact (h.closed h0).noOlder
  · exact ((h.choice hpos).addBoundaryInputs (hd level)).2.1

end

lemma disjointSorted_of_fileEntries (h : SortedEntries (fileEntries outs)) : DisjointSorted outs := by
  refine (pairwise_flatMap.1 h).2.imp fun {f g} hfg => ?_
  obtain ⟨a, ha, hal⟩ := f.largest_mem
  obtain ⟨b, hb, hbs⟩ := g.smallest_mem
  exact hal ▸ hbs ▸ hfg a ha b hb

lemma disjointSorted_insertionSort (h : files.Pairwise Apart) :
    DisjointSorted (files.insertionSort fun f g => f.smallest ≤ g.smallest) := by
  have hsorted := pairwise_insertionSort (fun f g : FileMetaData κ => f.smallest ≤ g.smallest) files
  have hapart : (files.insertionSort fun f g => f.smallest ≤ g.smallest).Pairwise Apart :=
    (List.Perm.pairwise_iff (fun {f g} => Or.symm) (perm_insertionSort _ _)).2 h
  refine (hsorted.and hapart).imp fun {f g} hfg => ?_
  obtain ⟨hle, hlt | hlt⟩ := hfg
  · exact hlt
  · exact absurd (hle.trans g.smallest_le_largest) (not_le.2 hlt)

lemma nextLevel_disjointSorted (hd : DisjointSorted (c.inputVersion.files (c.level + 1)))
    (hbeside : ∀ f ∈ c.inputVersion.files (c.level + 1), f ∉ c.inputs1 → Beside f c.inputs)
    (hs : SortedEntries (fileEntries outs)) (hin : ∀ e ∈ fileEntries outs, ∃ g ∈ c.inputs, e ∈ g.entries) :
    DisjointSorted (c.nextLevel outs) := by
  refine disjointSorted_insertionSort (pairwise_append.2 ⟨?_, ?_, fun f hf x hx => ?_⟩)
  · exact (List.Pairwise.filter _ hd).imp .inl
  · exact (disjointSorted_of_fileEntries hs).imp .inl
  · obtain ⟨hf, hfn⟩ := mem_filter.1 hf
    exact (hbeside f hf (by simpa using hfn)).apart fun e he => hin e (mem_fileEntries.2 ⟨x, hx, he⟩)

/-! ## Both guarantees -/

lemma NoOlder.not_sequence_lt (h : NoOlder files chosen) {f g : FileMetaData κ}
    (hf : f ∈ files) (hfn : f ∉ chosen) (hg : g ∈ chosen) {a b : Entry κ} (ha : a ∈ f.entries) (hb : b ∈ g.entries)
    (hu : a.1.userKey = b.1.userKey) : ¬ a.1.sequence < b.1.sequence := by
  rcases h f hf hfn g hg with hlt | hlt
  · have hab : a.1 < b.1 := ((FileMetaData.le_largest ha).trans_lt hlt).trans_le (FileMetaData.smallest_le hb)
    exact not_lt.2 (InternalKey.sequence_le_of_le hab.le hu)
  · have hle := InternalKey.user_le_of_le (FileMetaData.le_largest hb)
    have hge := InternalKey.user_le_of_le (FileMetaData.smallest_le ha)
    exact absurd hu (hle.trans_lt (hlt.trans_le hge)).ne'

/-- However the merged entries of the inputs, or those of them that are kept, are split into files, the next level stays
sorted and disjoint, as long as no internal key is there twice. -/
theorem inputs_replaced_safely (v : Version κ) (hd : ∀ level, 0 < level → DisjointSorted (v.files level)) (o : Options κ)
    (c : Compaction κ) (hc : BuiltOn v o c) : (SortedEntries c.makeInputIterator → ∀ outs : List (FileMetaData κ),
    (fileEntries outs).Sublist c.makeInputIterator → DisjointSorted (c.nextLevel outs)) ∧
    ∀ f ∈ v.files c.level, f ∉ c.inputs0 → ∀ g ∈ c.inputs0, ∀ a ∈ f.entries, ∀ b ∈ g.entries,
    a.1.userKey = b.1.userKey → ¬ a.1.sequence < b.1.sequence := by
  obtain ⟨level, first, pointer, h, hstart⟩ := hc.setup hd
  have hd1 := hd (level + 1) (Nat.succ_pos level)
  have hsides := setupOtherInputs_sides hd1 h
  obtain ⟨rfl, rfl, chosen, hchosen, h0, -⟩ := setupOtherInputs_cases h
  refine ⟨fun hs outs hsub => ?_, fun f hf hfn g hg a ha b hb hu => ?_⟩
  · refine nextLevel_disjointSorted hd1 (fun f hf hfn => ?_) (List.Pairwise.sublist hsub hs) fun e he => ?_
    · rcases hsides f hf hfn with hlt | hlt
      · exact .inl hlt
      · exact .inr fun g hg => InternalKey.lt_of_user_lt (hlt g hg)
    · exact mem_makeInputIterator.1 (hsub.mem he)
  · have hno := (hstart.chosenFrom hd hchosen).noOlder hd
    rw [← h0] at hno
    exact hno.not_sequence_lt hf hfn hg ha hb hu

def boundaryVersion : Version Nat where
  files
    | 1 => [⟨3, 1, [(⟨1, 30, .value⟩, [1]), (⟨3, 33, .value⟩, [3])], by simp, by decide⟩,
        ⟨4, 1, [(⟨3, 22, .deletion⟩, [])], by simp, by simp⟩, ⟨5, 1, [(⟨8, 25, .value⟩, [8])], by simp, by simp⟩]
    | 2 => [⟨6, 1, [(⟨2, 10, .value⟩, [2]), (⟨4, 11, .value⟩, [4])], by simp, by decide⟩,
        ⟨7, 1, [(⟨6, 12, .value⟩, [6])], by simp, by simp⟩]
    | _ => []

def boundaryOutputs : List (FileMetaData Nat) :=
  [⟨9, 1, [(⟨1, 30, .value⟩, [1]), (⟨2, 10, .value⟩, [2]), (⟨3, 33, .value⟩, [3])], by simp, by decide⟩,
    ⟨10, 1, [(⟨3, 22, .deletion⟩, []), (⟨4, 11, .value⟩, [4])], by simp, by decide⟩]

def tightOptions : Options Nat where
  maxFileSize := 0
  builderFileSize := List.length
  tableFileSize := List.length

theorem inputs_replaced_boundaryVersion : ∃ c pointer,
    boundaryVersion.compactRange tightOptions 1 none none = some (c, pointer) ∧
    c.inputs0.map (·.number) = [3, 4] ∧ c.inputs1.map (·.number) = [6] ∧ DisjointSorted (c.nextLevel boundaryOutputs) := by
  have hd : ∀ level, 0 < level → DisjointSorted (boundaryVersion.files level) := fun level hpos => by
    rcases Nat.lt_or_ge level 3 with hlt | hge
    · have hall : ∀ level < 3, 0 < level → DisjointSorted (boundaryVersion.files level) := by decide
      exact hall level hlt hpos
    · obtain ⟨n, rfl⟩ := Nat.exists_eq_add_of_le' hge
      exact List.Pairwise.nil
  have hex : (boundaryVersion.compactRange tightOptions 1 none none).any (fun r =>
      decide (r.1.inputs0.map (·.number) = [3, 4] ∧ r.1.inputs1.map (·.number) = [6] ∧
        SortedEntries r.1.makeInputIterator ∧ (fileEntries boundaryOutputs).Sublist r.1.makeInputIterator)) = true := by
    decide +kernel
  obtain ⟨⟨c, pointer⟩, hr, hc⟩ := (Option.any_eq_true _ _).1 hex
  obtain ⟨h0, h1, hs, hsub⟩ := of_decide_eq_true hc
  exact ⟨c, pointer, hr, h0, h1,
    (inputs_replaced_safely boundaryVersion hd tightOptions c (.range 1 none none pointer hr)).1 hs _ hsub⟩

def twoCopies : Version Nat where
  files
    | 0 => [⟨3, 1, [(⟨1, 5, .value⟩, [7])], by simp, by simp⟩, ⟨4, 1, [(⟨1, 5, .value⟩, [7])], by simp, by simp⟩]
    | _ => []

/-- When the inputs hold an internal key twice, a split between its copies makes files that are not disjoint. -/
theorem copies_split : (∀ level, 0 < level → DisjointSorted (twoCopies.files level)) ∧ ∃ c pointer,
    twoCopies.compactRange tightOptions 0 none none = some (c, pointer) ∧
    ∃ outs : List (FileMetaData Nat), fileEntries outs = c.makeInputIterator ∧ ¬ DisjointSorted (c.nextLevel outs) := by
  refine ⟨fun level hpos => ?_, ?_⟩
  · obtain ⟨n, rfl⟩ := Nat.exists_eq_add_of_le' hpos
    exact List.Pairwise.nil
  · have hex : (twoCopies.compactRange tightOptions 0 none none).any (fun r =>
        decide (fileEntries (twoCopies.files 0) = r.1.makeInputIterator ∧
          ¬ DisjointSorted (r.1.nextLevel (twoCopies.files 0)))) = true := by
      decide +kernel
    obtain ⟨⟨c, pointer⟩, hr, hc⟩ := (Option.any_eq_true _ _).1 hex
    obtain ⟨h1, h2⟩ := of_decide_eq_true hc
    exact ⟨c, pointer, hr, twoCopies.files 0, h1, h2⟩

end RallyDB.Db
