import RallyDB.Table.Lemmas.FileBuilder

/-!
# Filter units and runs of the builder
-/

namespace RallyDB.Table.FileBuilder

open Util List FilterBlockBuilder

variable {faults : Faults} {crc : Crc32c} {options : BuilderOptions} {tb : FileBuilder}

/-! ## The filter block -/

variable {b : FilterBlockBuilder}

lemma generateFilter_units_length {policy : FilterPolicy}
    (h : b.filterUnits.length = kAllFilterUnitsNumber) : (b.generateFilter policy).filterUnits.length = kAllFilterUnitsNumber := by
  unfold generateFilter
  split_ifs
  · exact h
  · simp [h]

lemma startBlock_units_length {policy : FilterPolicy} (blockOffset : Nat)
    (h : b.filterUnits.length = kAllFilterUnitsNumber) :
    (b.startBlock policy blockOffset).filterUnits.length = kAllFilterUnitsNumber := by
  unfold startBlock
  generalize blockOffset / kFilterBase = filterIndex
  fun_induction generateUpTo policy filterIndex b with
  | case1 b hlt ih => exact ih (generateFilter_units_length h)
  | case2 b hlt => exact h

lemma returnFilters_units_length (policy : FilterPolicy)
    (h : b.filterUnits.length = kAllFilterUnitsNumber) : (b.returnFilters policy).filterUnits.length = kAllFilterUnitsNumber := by
  unfold returnFilters
  split_ifs
  · exact h
  · exact generateFilter_units_length h

def HasFilter (policy : Option FilterPolicy) (tb : FileBuilder) : Prop :=
  tb.filterBlock.map Prod.fst = policy ∧ ∀ p ∈ tb.filterBlock, p.2.filterUnits.length = kAllFilterUnitsNumber

variable {policy : Option FilterPolicy} {tb' : FileBuilder}

lemma HasFilter.map (h : tb.HasFilter policy) {f : FilterPolicy × FilterBlockBuilder → FilterBlockBuilder}
    (hf : ∀ p, p.2.filterUnits.length = kAllFilterUnitsNumber → (f p).filterUnits.length = kAllFilterUnitsNumber)
    (heq : tb'.filterBlock = tb.filterBlock.map fun p => (p.1, f p)) : tb'.HasFilter policy := by
  refine ⟨?_, ?_⟩
  · rw [heq, ← h.1, Option.map_map]
    rfl
  · intro p hp
    rw [heq, Option.mem_def, Option.map_eq_some_iff] at hp
    obtain ⟨q, hq, rfl⟩ := hp
    exact hf q (h.2 q hq)

lemma HasFilter.of_eq (h : tb.HasFilter policy) (heq : tb'.filterBlock = tb.filterBlock) : tb'.HasFilter policy := by
  unfold HasFilter at h ⊢
  rw [heq]
  exact h

lemma HasFilter.startFilterBlock (h : tb.HasFilter policy) : tb.startFilterBlock.HasFilter policy :=
  h.map (f := fun p => p.2.startBlock p.1 tb.offset) (fun _ hp => startBlock_units_length _ hp) rfl

lemma hasFilter_new (options : BuilderOptions) : (new options).HasFilter options.filterPolicy := by
  refine HasFilter.startFilterBlock ⟨?_, ?_⟩
  · cases options.filterPolicy <;> rfl
  · intro p hp
    cases hpolicy : options.filterPolicy with
    | none => simp [hpolicy] at hp
    | some policy =>
      simp only [hpolicy, Option.map_some, Option.mem_some_iff] at hp
      subst hp
      rfl

lemma writeRawBlock_filterBlock (contents : Slice) (type : UInt8) :
    (tb.writeRawBlock faults crc contents type).1.filterBlock = tb.filterBlock := by
  have happend : ∀ (tb : FileBuilder) data, (tb.append faults data).filterBlock = tb.filterBlock := by
    intro tb data
    unfold append
    split <;> rfl
  unfold writeRawBlock
  dsimp only
  split_ifs <;> simp only [happend]

lemma HasFilter.flush (h : tb.HasFilter policy) : (tb.flush faults crc options).HasFilter policy := by
  unfold FileBuilder.flush
  by_cases hok : tb.ok = true
  · rw [if_pos hok]
    by_cases hempty : tb.dataBlock.buffer = []
    · rw [if_pos hempty]
      exact h
    · rw [if_neg hempty]
      have hsame : (tb.writeBlock faults crc options tb.dataBlock).1.filterBlock = tb.filterBlock := writeRawBlock_filterBlock _ _
      generalize tb.writeBlock faults crc options tb.dataBlock = r at hsame
      obtain ⟨tb', handle⟩ := r
      refine HasFilter.startFilterBlock ?_
      dsimp only at hsame ⊢
      split_ifs
      · exact h.of_eq hsame
      · exact h.of_eq hsame
  · rw [if_neg hok]
    exact h

lemma HasFilter.addEntry (h : tb.HasFilter policy) (key value : Slice) :
    (tb.addEntry options key value).HasFilter policy := by
  refine h.map (f := fun p => p.2.addKey key) (fun _ hp => hp) ?_
  unfold FileBuilder.addEntry
  split_ifs <;> rfl

lemma HasFilter.add (h : tb.HasFilter policy) (key value : Slice) :
    (tb.add faults crc options key value).HasFilter policy := by
  rcases add_cases faults crc options tb key value with ⟨-, heq⟩ | ⟨-, heq | heq⟩
  · rw [heq]
    exact h
  · rw [heq]
    exact h.addEntry key value
  · rw [heq]
    exact (h.addEntry key value).flush

lemma hasFilter_run (faults : Faults) (crc : Crc32c) (options : BuilderOptions) (calls : List Call) :
    (run faults crc options calls).HasFilter options.filterPolicy := by
  have hfold : ∀ tb : FileBuilder, tb.HasFilter options.filterPolicy →
      (calls.foldl (apply faults crc options) tb).HasFilter options.filterPolicy := by
    induction calls with
    | nil => exact fun _ h => h
    | cons c calls ih =>
      intro tb h
      cases c with
      | add key value => exact ih _ (h.add key value)
      | flush => exact ih _ h.flush
  exact hfold _ (hasFilter_new options)

lemma writeRawFilters_cons (unit : Slice) (units : List Slice) : tb.writeRawFilters faults crc (unit :: units) =
    (tb.writeRawBlock faults crc unit kNoCompression).1.writeRawFilters faults crc units := rfl

section

variable (faults crc tb)

lemma writeRawBlock_appends (contents : Slice) (type : UInt8) :
    tb.appends <+: (tb.writeRawBlock faults crc contents type).1.appends := by
  rcases writeRawBlock_cases faults crc tb contents type with ⟨heq, -⟩ | ⟨-, outcomes, heq, -⟩
  · rw [heq]
    exact prefix_append _ _
  · rw [heq]
    exact prefix_append _ _

lemma writeRawFilters_appends (units : List Slice) : tb.appends <+: (tb.writeRawFilters faults crc units).appends := by
  induction units generalizing tb with
  | nil => exact prefix_rfl
  | cons unit units ih => exact (writeRawBlock_appends faults crc tb unit kNoCompression).trans (ih _)

end

lemma Good.writeRawFilters (h : Good crc tb) {units : List Slice}
    (hall : ∀ a ∈ (tb.writeRawFilters faults crc units).appends, a = true) : Good crc (tb.writeRawFilters faults crc units) ∧
    (∀ b ∈ tb.written, b ∈ (tb.writeRawFilters faults crc units).written) ∧
    ∀ unit ∈ units.head?, ∃ b ∈ (tb.writeRawFilters faults crc units).written, b.handle = ⟨tb.offset, unit.length⟩ := by
  induction units generalizing tb with
  | nil => exact ⟨h, fun b hb => hb, fun unit hunit => by cases hunit⟩
  | cons unit units ih =>
    rw [writeRawFilters_cons] at hall ⊢
    rcases writeRawBlock_cases faults crc tb unit kNoCompression with ⟨heq, -⟩ | ⟨-, outcomes, heq, hfalse⟩
    · rw [heq] at hall ⊢
      obtain ⟨hgood, hkept, -⟩ := ih (h.withBlock unit kNoCompression) hall
      refine ⟨hgood, fun b hb => hkept b (mem_append_left _ hb), ?_⟩
      intro first hfirst
      obtain rfl := Option.mem_some_iff.1 hfirst
      exact ⟨_, hkept _ (mem_append_right _ (mem_singleton_self _)), rfl⟩
    · have hmem := (writeRawFilters_appends faults crc _ units).subset (heq ▸ mem_append_right tb.appends hfalse)
      cases hall false hmem

lemma Good.finishFilters (h : Good crc tb) (hfilter : tb.HasFilter policy)
    (hall : ∀ a ∈ (tb.finishFilters faults crc).1.appends, a = true) : Good crc (tb.finishFilters faults crc).1 := by
  unfold FileBuilder.finishFilters at hall ⊢
  cases hb : tb.filterBlock with
  | none => exact h
  | some p =>
    obtain ⟨policy', b⟩ := p
    rw [hb] at hall
    have hlen := returnFilters_units_length policy' (hfilter.2 _ hb)
    dsimp only at hall ⊢
    generalize (b.returnFilters policy').filterUnits = units at hall hlen ⊢
    obtain ⟨hgood, -, hfirst⟩ := h.writeRawFilters hall
    refine ⟨hgood.appends, hgood.offset, hgood.written, ?_, hgood.pending⟩
    intro x hx
    rcases mem_append.1 hx with hx | hx
    · exact hgood.handles x hx
    · obtain rfl := mem_singleton.1 hx
      cases units with
      | nil => cases hlen
      | cons unit units => exact hfirst unit rfl

/-! ## When no `Append` fails -/

def noFaults : Faults := fun _ => none

lemma flush_of_none (hok : tb.ok = true) (hne : tb.dataBlock.buffer ≠ []) (h1 : faults tb.appends.length = none)
    (h2 : faults (tb.appends.length + 1) = none) : tb.flush faults crc options = tb.flushed crc options := by
  unfold flush
  rw [if_pos hok, if_neg hne, writeBlock_of_none h1 h2]
  rfl

lemma flush_idle (h : ¬ (tb.ok = true ∧ tb.dataBlock.buffer ≠ [])) : tb.flush faults crc options = tb := by
  unfold flush
  by_cases hok : tb.ok = true
  · rw [if_pos hok, if_pos (by_contra fun hne => h ⟨hok, hne⟩)]
  · rw [if_neg hok]

lemma flush_congr (h : ∀ n < (tb.flush noFaults crc options).appends.length, faults n = none) :
    tb.flush faults crc options = tb.flush noFaults crc options := by
  by_cases hwrite : tb.ok = true ∧ tb.dataBlock.buffer ≠ []
  · have heq : tb.flush noFaults crc options = tb.flushed crc options := flush_of_none hwrite.1 hwrite.2 rfl rfl
    have hlen : (tb.flushed crc options).appends.length = tb.appends.length + 2 := length_append
    rw [heq, hlen] at h
    rw [heq]
    exact flush_of_none hwrite.1 hwrite.2 (h _ (by omega)) (h _ (by omega))
  · rw [flush_idle hwrite, flush_idle hwrite]

section

variable (faults crc options tb)

lemma flush_appends : tb.appends <+: (tb.flush faults crc options).appends := by
  rcases flush_cases faults crc options tb with heq | ⟨-, heq, -⟩ | ⟨-, outcomes, heq, -⟩
  · simp only [heq, prefix_rfl]
  · rw [heq]
    exact prefix_append _ _
  · rw [heq]
    exact prefix_append _ _

end

lemma flush_noFaults_ok (h : tb.ok = true) : (tb.flush noFaults crc options).ok = true := by
  by_cases hne : tb.dataBlock.buffer = []
  · rw [flush_idle fun hw => hw.2 hne]
    exact h
  · rw [flush_of_none h hne rfl rfl]
    rfl

section

variable (faults crc options tb)

lemma apply_appends (c : Call) : tb.appends <+: (tb.apply faults crc options c).appends := by
  cases c with
  | flush => exact flush_appends faults crc options tb
  | add key value =>
    have hentry : (tb.addEntry options key value).appends = tb.appends := addEntry_appends key value
    rcases add_cases faults crc options tb key value with ⟨-, heq⟩ | ⟨-, heq | heq⟩
    · simp only [apply, heq, prefix_rfl]
    · simp only [apply, heq, hentry, prefix_rfl]
    · rw [apply, heq, ← hentry]
      exact flush_appends faults crc options _

end

lemma apply_congr (c : Call) (h : ∀ n < (tb.apply noFaults crc options c).appends.length, faults n = none) :
    tb.apply faults crc options c = tb.apply noFaults crc options c := by
  cases c with
  | flush => exact flush_congr h
  | add key value =>
    simp only [apply, add] at h ⊢
    split_ifs at h ⊢
    · exact flush_congr h
    · rfl
    · rfl

lemma apply_noFaults_ok (c : Call) (h : tb.ok = true) : (tb.apply noFaults crc options c).ok = true := by
  cases c with
  | flush => exact flush_noFaults_ok h
  | add key value =>
    have hentry : (tb.addEntry options key value).ok = true := by rw [addEntry_ok, h]
    rcases add_cases noFaults crc options tb key value with ⟨-, heq⟩ | ⟨-, heq | heq⟩
    · rw [apply, heq, h]
    · rw [apply, heq, hentry]
    · rw [apply, heq]
      exact flush_noFaults_ok hentry

section

variable (faults crc options tb)

lemma foldl_appends (calls : List Call) : tb.appends <+: (calls.foldl (apply faults crc options) tb).appends := by
  induction calls generalizing tb with
  | nil => exact prefix_rfl
  | cons c calls ih => exact (apply_appends faults crc options tb c).trans (ih _)

end

lemma foldl_congr (calls : List Call)
    (h : ∀ n < (calls.foldl (apply noFaults crc options) tb).appends.length, faults n = none) :
    calls.foldl (apply faults crc options) tb = calls.foldl (apply noFaults crc options) tb := by
  induction calls generalizing tb with
  | nil => rfl
  | cons c calls ih =>
    rw [foldl_cons] at h ⊢
    have hle := (foldl_appends noFaults crc options (tb.apply noFaults crc options c) calls).length_le
    rw [apply_congr c fun n hn => h n (by omega)]
    exact ih h

lemma run_noFaults_ok (crc : Crc32c) (options : BuilderOptions) (calls : List Call) :
    (run noFaults crc options calls).ok = true := by
  have hfold : ∀ tb : FileBuilder, tb.ok = true → (calls.foldl (apply noFaults crc options) tb).ok = true := by
    induction calls with
    | nil => exact fun _ h => h
    | cons c calls ih => exact fun tb h => ih _ (apply_noFaults_ok c h)
  exact hfold _ rfl

/-! ## Writing on after a fault -/

def Clean (faults : Faults) (tb : FileBuilder) : Prop := ∀ n, tb.appends.length ≤ n → faults n = none

section

variable (h : Clean faults tb)
include h

lemma Clean.of_appends (happends : tb.appends <+: tb'.appends) : Clean faults tb' :=
  fun n hn => h n (happends.length_le.trans hn)

lemma Clean.writeRawBlock (contents : Slice) (type : UInt8) :
    tb.writeRawBlock faults crc contents type = (tb.withBlock crc contents type, ⟨tb.offset, contents.length⟩) :=
  writeRawBlock_of_none (h _ (by omega)) (h _ (by omega)) contents type

lemma Clean.writeBlock (block : BlockBuilder) :
    tb.writeBlock faults crc options block = (tb.withStored crc options block, tb.nextHandle options block) :=
  h.writeRawBlock _ _

lemma Clean.writeRawFilters_ok (hok : tb.ok = true) (units : List Slice) :
    (tb.writeRawFilters faults crc units).ok = true := by
  induction units generalizing tb with
  | nil => exact hok
  | cons unit units ih =>
    rw [writeRawFilters_cons, h.writeRawBlock]
    exact ih (h.of_appends (prefix_append _ _)) rfl

end

lemma lastIndexEntry_appends (options : BuilderOptions) (tb : FileBuilder) : (tb.lastIndexEntry options).appends = tb.appends := by
  unfold lastIndexEntry
  split_ifs <;> rfl

section

variable (crc options tb)

lemma withIndex_appends (filter : Option (Slice × Slice)) :
    (tb.withIndex crc options filter).appends = tb.appends ++ [true, true] ++ [true, true] := by
  show (tb.withMetaindex crc options filter).appends ++ [true, true] = _
  rw [withMetaindex, lastIndexEntry_appends]
  rfl

end

lemma Clean.finishIndex_eq (h : Clean faults tb) (crc : Crc32c) (options : BuilderOptions) (filter : Option (Slice × Slice)) :
    tb.finishIndex faults crc options filter =
    (tb.withIndex crc options filter).writeFooter faults (tb.footerOf crc options filter) := by
  have hmeta : Clean faults (tb.withMetaindex crc options filter) := by
    refine h.of_appends ?_
    rw [withMetaindex, lastIndexEntry_appends]
    exact prefix_append _ _
  unfold FileBuilder.finishIndex
  rw [h.writeBlock]
  dsimp only
  rw [if_pos (withStored_ok _), ← withMetaindex, hmeta.writeBlock]
  exact if_pos (withStored_ok _)

lemma Clean.finishIndex (h : Clean faults tb) (crc : Crc32c) (options : BuilderOptions) (filter : Option (Slice × Slice)) :
    (tb.finishIndex faults crc options filter).ok = true ∧ tb.appends <+: (tb.finishIndex faults crc options filter).appends := by
  have hindex : faults (tb.withIndex crc options filter).appends.length = none := by
    refine h _ ?_
    rw [withIndex_appends]
    simp
  rw [h.finishIndex_eq, writeFooter, append_of_none hindex]
  refine ⟨rfl, ?_⟩
  show tb.appends <+: (tb.withIndex crc options filter).appends ++ [true]
  rw [withIndex_appends, append_assoc, append_assoc]
  exact prefix_append _ _

section

variable (faults crc options)

def beforeFilters (calls : List Call) : FileBuilder :=
  (run faults crc options calls).flush faults crc options

lemma hasFilter_beforeFilters (calls : List Call) :
    (beforeFilters faults crc options calls).HasFilter options.filterPolicy := (hasFilter_run faults crc options calls).flush

end

lemma finishFilters_appends (faults : Faults) (crc : Crc32c) (tb : FileBuilder) :
    tb.appends <+: (tb.finishFilters faults crc).1.appends := by
  unfold finishFilters
  cases tb.filterBlock with
  | none => exact prefix_rfl
  | some p => exact writeRawFilters_appends faults crc tb _

lemma Clean.writeRawFilters_good (h : Clean faults tb) (hgood : Good crc tb) (units : List Slice) :
    Good crc (tb.writeRawFilters faults crc units) := by
  refine (hgood.writeRawFilters ?_).1
  have hall := hgood.appends
  clear hgood
  induction units generalizing tb with
  | nil => exact hall
  | cons unit units ih =>
    rw [writeRawFilters_cons, h.writeRawBlock]
    refine ih (h.of_appends (prefix_append _ _)) ?_
    intro a ha
    rcases mem_append.1 ha with ha | ha
    · exact hall a ha
    · simpa using ha

variable (crc options)

def filtered (calls : List Call) : FileBuilder × Option (Slice × Slice) :=
  (beforeFilters noFaults crc options calls).finishFilters noFaults crc

lemma clean_noFaults (tb : FileBuilder) : Clean noFaults tb := fun _ _ => rfl

lemma beforeFilters_good (calls : List Call) :
    Good crc (beforeFilters noFaults crc options calls) ∧ (beforeFilters noFaults crc options calls).ok = true := by
  have hok : (beforeFilters noFaults crc options calls).ok = true := flush_noFaults_ok (run_noFaults_ok crc options calls)
  exact ⟨(sound_run noFaults crc options calls).flush noFaults options hok, hok⟩

lemma filtered_good (calls : List Call) :
    Good crc (filtered crc options calls).1 ∧ (filtered crc options calls).1.ok = true := by
  obtain ⟨hgood, hok⟩ := beforeFilters_good crc options calls
  have hfilter := hasFilter_beforeFilters noFaults crc options calls
  unfold filtered
  generalize beforeFilters noFaults crc options calls = tb at hgood hok hfilter
  refine ⟨hgood.finishFilters hfilter ?_, ?_⟩
  · unfold finishFilters
    cases tb.filterBlock with
    | none => exact hgood.appends
    | some p => exact ((clean_noFaults tb).writeRawFilters_good hgood _).appends
  · unfold finishFilters
    cases tb.filterBlock with
    | none => exact hok
    | some p => exact (clean_noFaults tb).writeRawFilters_ok hok _

lemma build_noFaults (calls : List Call) :
    build noFaults crc options calls = (filtered crc options calls).1.finishIndex noFaults crc options (filtered crc options calls).2 := by
  unfold build finish
  rw [← beforeFilters]
  dsimp only
  rw [if_pos (beforeFilters_good crc options calls).2, ← filtered, if_pos (filtered_good crc options calls).2]

end RallyDB.Table.FileBuilder
