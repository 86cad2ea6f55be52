import RallyDB.Table.Theorems

/-!
# Going back to the units a reader had
-/

namespace RallyDB.Table

open Util List FilterBlockReader

variable {crc : Crc32c} {bytes : Slice} {r : FilterBlockReader} {b : FilterBlockBuilder} {offset : Nat}

/-- The number of units just before the last `CleanFilter` of the calls, or `n` when there is none. -/
def unitsToRestore (crc : Crc32c) (r : FilterBlockReader) (n : Nat) : List (ReaderCall bytes) → Nat
  | [] => n
  | .clean :: calls => unitsToRestore crc r.cleanFilter.1 r.filterUnits.length calls
  | call :: calls => unitsToRestore crc (call.apply crc r) n calls

lemma loadFilter_reload (file : RandomAccessFile) (r : FilterBlockReader) :
    (r.loadFilter crc file).1.reloadUnitsNumber = r.reloadUnitsNumber := by
  rcases loadFilter_cases crc file r with ⟨e, he⟩ | ⟨data, -, he⟩ <;> rw [he]

lemma evictFilter_reload : r.evictFilter.1.reloadUnitsNumber = r.reloadUnitsNumber := by
  obtain ⟨n, hn⟩ := r.evictFilter_take
  rw [hn]

lemma ReaderOk.units_le (hb : b.filterUnits.length = kAllFilterUnitsNumber) (h : ReaderOk b offset r) :
    r.filterUnits.length ≤ kAllFilterUnitsNumber := hb ▸ h.units.length_le

lemma ReaderOk.reload_run (hf : HoldsUnits crc b offset bytes) (hb : b.filterUnits.length = kAllFilterUnitsNumber)
    (h : ReaderOk b offset r) (calls : List (ReaderCall bytes)) {n : Nat} (hn : r.reloadUnitsNumber = n)
    (hle : n ≤ kAllFilterUnitsNumber) : (r.run crc calls).reloadUnitsNumber = unitsToRestore crc r n calls ∧
    unitsToRestore crc r n calls ≤ kAllFilterUnitsNumber := by
  induction calls generalizing r n with
  | nil => exact ⟨hn, hle⟩
  | cons call calls ih =>
    have h' := h.apply hf hb call
    cases call with
    | load file => exact ih h' ((loadFilter_reload _ r).trans hn) hle
    | evict => exact ih h' (evictFilter_reload.trans hn) hle
    | clean => exact ih h' (congrArg (fun p => p.1.reloadUnitsNumber) r.cleanFilter_eq) (h.units_le hb)
    | goBackToInit file =>
      refine ih h' (goBackToInitFilter_induction (P := fun r => r.reloadUnitsNumber = n) ?_ (fun _ _ h => h) hn) hle
      exact fun r h => (loadFilter_reload _ r).trans h
    | updateState sn => exact ih h' hn hle

/-- After `InitLoadFilter` and any calls the units loaded are the first ones of the file, a load that fails changes
nothing, and a `GoBackToInitFilter` whose reads succeed leaves as many units as before the last `CleanFilter`, or the
initial number. -/
theorem goBackToInitFilter_restores (hf : HoldsUnits crc b offset bytes)
    (hb : b.filterUnits.length = kAllFilterUnitsNumber) (hsize : b.unitSize < 2 ^ 32) (hoffset : offset < 2 ^ 64)
    (uninit : FilterBlockReader) (first : HonestFile bytes) (calls : List (ReaderCall bytes)) {r0 r : FilterBlockReader}
    (hr0 : r0 = openFilter crc first uninit b offset) (hr : r = r0.run crc calls) :
    r.filterUnits <+: b.filterUnits ∧ (∀ file, (r.loadFilter crc file).2 ≠ .ok () → (r.loadFilter crc file).1 = r) ∧
    ∀ n file, n = unitsToRestore crc r0 kLoadFilterUnitsNumber calls →
    (∀ i, r.filterUnits.length ≤ i → i < n → r.ReadsUnit crc file i) →
    (r.goBackToInitFilter crc file).2 = .ok () ∧ (r.goBackToInitFilter crc file).1.filterUnits.length = n := by
  subst hr0 hr
  have hopen : ReaderOk b offset (openFilter crc first uninit b offset) :=
    (readerOk_new uninit hsize hoffset).loadUpTo hf hb first _
  have hreload : (openFilter crc first uninit b offset).reloadUnitsNumber = kLoadFilterUnitsNumber :=
    loadUpTo_induction (P := fun r => r.reloadUnitsNumber = _) (fun r h => (loadFilter_reload _ r).trans h) _
      (congrArg reloadUnitsNumber (new_finish uninit hsize hoffset))
  obtain ⟨hn, hle⟩ := hopen.reload_run hf hb calls hreload (by decide)
  have hrun := hopen.run hf hb calls
  refine ⟨hrun.units, fun file hfail => ?_, fun n file hn' hreads => ?_⟩
  · rcases loadFilter_cases crc file ((openFilter crc first uninit b offset).run crc calls) with ⟨e, he⟩ | ⟨data, -, he⟩
    · rw [he]
    · exact absurd (congrArg Prod.snd he) hfail
  · rw [hn', ← hn] at hreads ⊢
    rw [← hn] at hle
    obtain ⟨units, hgo, hlen⟩ := goBackToInitFilter_reads hreads (hrun.allUnitsNumber ▸ hle) hrun.allUnitsNumber.le
    rw [hgo]
    exact ⟨rfl, hlen⟩

theorem goBackToInitFilter_restores_sample :
    (((openFilter .bitwise sampleFile sampleUninit (buildFilters bytePolicy sampleCalls) 2).run .bitwise
    sampleReaderCalls).goBackToInitFilter .bitwise sampleFile.toRandomAccessFile).1.filterUnits.length = 3 := by
  obtain ⟨gs, hb, -⟩ := buildFilters_builds bytePolicy (by decide : (startOffsets sampleCalls).Pairwise (· ≤ ·))
  have hunits := hb.holdsUnits bytePolicy_sound.soundFor .bitwise [9, 9] [8]
  refine ((goBackToInitFilter_restores hunits hb.filterUnits_length (by decide +kernel) (by decide) sampleUninit sampleFile
    sampleReaderCalls rfl rfl).2.2 3 sampleFile.toRandomAccessFile (by decide +kernel) fun i _ hi => ?_).2
  exact (by unfold ReadsUnit; decide +kernel : ∀ i < 3, ReadsUnit .bitwise sampleFile.toRandomAccessFile
    ((openFilter .bitwise sampleFile sampleUninit (buildFilters bytePolicy sampleCalls) 2).run .bitwise
      sampleReaderCalls) i) i hi

end RallyDB.Table
