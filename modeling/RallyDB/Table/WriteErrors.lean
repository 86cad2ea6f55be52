import RallyDB.Table.Lemmas.FileRuns
import RallyDB.Util.Bloom

/-!
# Which write errors a table builder reports
-/

namespace RallyDB.Table.FileBuilder

open Util List

variable {faults : Faults} {crc : Crc32c} {options : BuilderOptions} {tb : FileBuilder}

/-! ## What `Finish` reports -/

section

variable (faults crc options)

/-- If `Finish` returns OK then every `Append` succeeded, `FileSize` is the size of the file and the handles point to the blocks. -/
def Reports (calls : List Call) : Prop :=
  (build faults crc options calls).ok = true → Faithful crc (build faults crc options calls)

/-- Each `Append` for the filter units, whose results `Finish` does not look at, succeeds. -/
def UnitsWritten (calls : List Call) : Prop :=
  let tb := beforeFilters faults crc options calls
  ∀ a ∈ (tb.finishFilters faults crc).1.appends.drop tb.appends.length, a = true

end

variable {calls : List Call}

lemma UnitsWritten.reports (h : UnitsWritten faults crc options calls) : Reports faults crc options calls := by
  intro hok
  unfold build finish at hok ⊢
  rw [← beforeFilters] at hok ⊢
  have hsound : Sound crc (beforeFilters faults crc options calls) := (sound_run faults crc options calls).flush faults options
  have hfilter := hasFilter_beforeFilters faults crc options calls
  unfold UnitsWritten at h
  generalize beforeFilters faults crc options calls = tb at h hsound hfilter hok ⊢
  dsimp only at hok h ⊢
  by_cases hflush : tb.ok = true
  · rw [if_pos hflush] at hok ⊢
    have hgood := hsound hflush
    have hall : ∀ a ∈ (tb.finishFilters faults crc).1.appends, a = true := by
      intro a ha
      obtain ⟨outcomes, heq⟩ := finishFilters_appends faults crc tb
      rw [← heq] at h ha
      rw [drop_left] at h
      rcases mem_append.1 ha with ha | ha
      · exact hgood.appends a ha
      · exact h a ha
    have hgood' := hgood.finishFilters hfilter hall
    by_cases hunits : (tb.finishFilters faults crc).1.ok = true
    · rw [if_pos hunits] at hok ⊢
      exact hgood'.finishIndex _ hok
    · rw [if_neg hunits]
      exact hgood'.faithful
  · rw [if_neg hflush] at hok
    exact absurd hok hflush

lemma unitsWritten_of_noPolicy (h : options.filterPolicy = none) : UnitsWritten faults crc options calls := by
  have hfilter := (hasFilter_beforeFilters faults crc options calls).1
  rw [h, Option.map_eq_none_iff] at hfilter
  unfold UnitsWritten
  generalize beforeFilters faults crc options calls = tb at hfilter
  dsimp only
  rw [finishFilters, hfilter]
  simp

section

variable (crc options calls)

def firstUnitFails : Faults :=
  fun n => if n = (beforeFilters noFaults crc options calls).appends.length then some 0 else none

lemma beforeFilters_firstUnitFails :
    beforeFilters (firstUnitFails crc options calls) crc options calls = beforeFilters noFaults crc options calls := by
  have hnone : ∀ n < (beforeFilters noFaults crc options calls).appends.length, firstUnitFails crc options calls n = none := by
    intro n hn
    exact if_neg (by omega)
  have hle := (flush_appends noFaults crc options (run noFaults crc options calls)).length_le
  have hrun : run (firstUnitFails crc options calls) crc options calls = run noFaults crc options calls :=
    foldl_congr calls fun n hn => hnone n (lt_of_lt_of_le hn hle)
  unfold beforeFilters
  rw [hrun]
  exact flush_congr hnone

end

lemma writeRawFilters_loses (hfail : faults tb.appends.length = some 0) (hlater : ∀ n, tb.appends.length < n → faults n = none)
    (first second : Slice) (units : List Slice) : (tb.writeRawFilters faults crc (first :: second :: units)).ok = true ∧
    false ∈ (tb.writeRawFilters faults crc (first :: second :: units)).appends ∧
    tb.appends.length < (tb.writeRawFilters faults crc (first :: second :: units)).appends.length := by
  rw [writeRawFilters_cons]
  rcases writeRawBlock_cases faults crc tb first kNoCompression with ⟨-, hnone, -⟩ | ⟨-, outcomes, heq, hfalse⟩
  · rw [hfail] at hnone
    cases hnone
  · have hpos := length_pos_of_mem hfalse
    have hlen := congrArg List.length heq
    rw [length_append] at hlen
    have hclean : Clean faults (tb.writeRawBlock faults crc first kNoCompression).1 := fun n hn => hlater n (by omega)
    have hmem : false ∈ (tb.writeRawBlock faults crc first kNoCompression).1.appends := by
      rw [heq]
      exact mem_append_right _ hfalse
    have happends := writeRawFilters_appends faults crc (tb.writeRawBlock faults crc first kNoCompression).1 (second :: units)
    refine ⟨?_, happends.subset hmem, lt_of_lt_of_le (by omega) happends.length_le⟩
    rw [writeRawFilters_cons, hclean.writeRawBlock]
    exact (hclean.of_appends (prefix_append _ _)).writeRawFilters_ok rfl units

lemma finishFilters_loses (crc : Crc32c) {policy : FilterPolicy} (hfilter : tb.HasFilter (some policy))
    (hfail : faults tb.appends.length = some 0) (hlater : ∀ n, tb.appends.length < n → faults n = none) :
    (tb.finishFilters faults crc).1.ok = true ∧ false ∈ (tb.finishFilters faults crc).1.appends ∧
    tb.appends.length < (tb.finishFilters faults crc).1.appends.length := by
  unfold finishFilters
  cases hb : tb.filterBlock with
  | none =>
    have hsome := hfilter.1
    rw [hb] at hsome
    cases hsome
  | some p =>
    obtain ⟨policy', b⟩ := p
    have hlen := returnFilters_units_length policy' (hfilter.2 _ hb)
    dsimp only
    generalize (b.returnFilters policy').filterUnits = units at hlen
    cases units with
    | nil => cases hlen
    | cons first units =>
      cases units with
      | nil => cases hlen
      | cons second units => exact writeRawFilters_loses hfail hlater first second units

lemma build_loses (crc : Crc32c) (calls : List Call) {policy : FilterPolicy} (h : options.filterPolicy = some policy) :
    (build (firstUnitFails crc options calls) crc options calls).ok = true ∧
    false ∈ (build (firstUnitFails crc options calls) crc options calls).appends := by
  have hfail : firstUnitFails crc options calls (beforeFilters noFaults crc options calls).appends.length = some 0 := if_pos rfl
  have hlater : ∀ n, (beforeFilters noFaults crc options calls).appends.length < n → firstUnitFails crc options calls n = none :=
    fun n hn => if_neg (by omega)
  have hok : (beforeFilters noFaults crc options calls).ok = true := flush_noFaults_ok (run_noFaults_ok crc options calls)
  have hfilter := hasFilter_beforeFilters noFaults crc options calls
  rw [h] at hfilter
  unfold build finish
  rw [← beforeFilters, beforeFilters_firstUnitFails]
  generalize beforeFilters noFaults crc options calls = tb at hfail hlater hok hfilter
  generalize firstUnitFails crc options calls = faults at hfail hlater
  obtain ⟨hok', hfalse, hlt⟩ := finishFilters_loses crc hfilter hfail hlater
  have hclean : Clean faults (tb.finishFilters faults crc).1 := fun n hn => hlater n (lt_of_lt_of_le hlt hn)
  obtain ⟨hdone, happends⟩ := hclean.finishIndex crc options (tb.finishFilters faults crc).2
  dsimp only
  rw [if_pos hok, if_pos hok']
  exact ⟨hdone, happends.subset hfalse⟩

/-- Every write error is reported, whatever else happens, just when there is no filter policy; with one, an error is reported
if it is not one of a filter unit. -/
theorem finish_reports_iff (crc : Crc32c) (options : BuilderOptions) (calls : List Call) :
    ((∀ faults, Reports faults crc options calls) ↔ options.filterPolicy = none) ∧
      ∀ faults, UnitsWritten faults crc options calls → Reports faults crc options calls := by
  refine ⟨⟨?_, ?_⟩, fun faults h => h.reports⟩
  · intro h
    cases hpolicy : options.filterPolicy with
    | none => rfl
    | some policy =>
      obtain ⟨hok, hfalse⟩ := build_loses crc calls hpolicy
      cases (h _ hok).appends false hfalse
  · intro hpolicy faults
    exact (unitsWritten_of_noPolicy hpolicy).reports

def bloomOptions : BuilderOptions where
  blockSize := 4096
  blockRestartInterval := 16
  filterPolicy := some (bloomFilterPolicy 10)
  paranoidChecks := false
  compare := bytewiseCompare
  findShortestSeparator := bytewiseFindShortestSeparator
  findShortSuccessor := bytewiseFindShortSuccessor
  compression := none

/-- The disk is full for a moment: one byte of the first filter unit is written, and then all other blocks. -/
theorem finish_loses_error :
    let tb := build (fun n => if n = 2 then some 1 else none) .bitwise bloomOptions [.add [1] [2]]
    tb.ok = true ∧ false ∈ tb.appends ∧ tb.offset ≠ tb.file.length := by
  decide +kernel

end RallyDB.Table.FileBuilder
