import RallyDB.Util.Theorems

/-!
# The filter reader that the open tables of one file share
-/

namespace RallyDB.Util

open Table Lib List MultiQueue Option

structure SharedReader where
  mq : MultiQueue
  -- the open objects, by number, with `rep_->handle`
  tables : List (Nat × Nat)
  -- the object whose file `file_` of the reader points to
  file : Option Nat
  -- units were removed by a close and not loaded again
  cleaned : Bool
  nextTable : Nat

namespace SharedReader

inductive Action where
  | openTable (file : RandomAccessFile) (reader : FilterBlockReader)
  | closeTable (table : Nat)
  -- a lookup in any table, with the adjustment it may cause
  | get (io : Nat → RandomAccessFile) (h blockOffset : Nat) (internalKey : Slice)

variable (worth : WorthAdjusting) (crc : Crc32c) (policy : FilterPolicy) (key : Slice)

variable (s : SharedReader)

def readMeta (file : RandomAccessFile) (reader : FilterBlockReader) : Option SharedReader :=
  match s.mq.lookup key with
  | none => (s.mq.step worth crc policy (.insert key reader file)).map fun mq =>
    { mq
      tables := (s.nextTable, s.mq.nextAddress) :: s.tables
      file := some s.nextTable
      cleaned := false
      nextTable := s.nextTable + 1 }
  | some h => (s.mq.step worth crc policy (.goBackToInitFilter file h)).map fun mq =>
    { mq
      tables := (s.nextTable, h) :: s.tables
      file := some s.nextTable
      cleaned := s.cleaned && !(mq.value h).all fun r => r.filterUnitsNumber = r.reloadUnitsNumber
      nextTable := s.nextTable + 1 }

def close (table : Nat) : Option SharedReader :=
  match s.tables.lookup table with
  | none => none
  | some h => (s.mq.step worth crc policy (.release h)).map fun mq =>
    { s with
      mq
      tables := Lib.remove s.tables table
      cleaned := s.cleaned || (s.mq.value h).any fun r => r.filterUnits ≠ [] }

def step (s : SharedReader) : Action → Option SharedReader
  | .openTable file reader => s.readMeta worth crc policy key file reader
  | .closeTable table => s.close worth crc policy table
  | .get io h blockOffset internalKey =>
    (s.mq.step worth crc policy (.updateHandle io h blockOffset internalKey)).map fun mq => { s with mq }

def Usable : Prop :=
  s.tables ≠ [] → (∃ table ∈ s.tables.map Prod.fst, s.file = some table) ∧ s.cleaned = false

def ClosesAlone : Action → Prop
  | .closeTable table => (∀ p ∈ s.tables, p.1 = table) ∨
      s.file ≠ some table ∧ ∀ h ∈ s.tables.lookup table, ∀ r ∈ s.mq.value h, r.filterUnits = []
  | _ => True

instance (s : SharedReader) (a : Action) : Decidable (s.ClosesAlone a) := by
  cases a <;> unfold ClosesAlone <;> infer_instance

variable {worth crc policy key} {s s' : SharedReader} {a : Action}

lemma step_ok (hok : s.mq.Ok MultiQueue.Anywhere) (hs : s.step worth crc policy key a = some s') :
    s'.mq.Ok MultiQueue.Anywhere := by
  cases a with
  | openTable file reader =>
    simp only [step, readMeta] at hs
    split at hs
    all_goals
      obtain ⟨mq, hmq, rfl⟩ := map_eq_some_iff.1 hs
      exact step_ok hok hmq
  | closeTable table =>
    simp only [step, close] at hs
    split at hs
    · cases hs
    · obtain ⟨mq, hmq, rfl⟩ := map_eq_some_iff.1 hs
      exact step_ok hok hmq
  | get io h blockOffset internalKey =>
    obtain ⟨mq, hmq, rfl⟩ := map_eq_some_iff.1 hs
    exact step_ok hok hmq

variable {file : RandomAccessFile}

lemma units_of_goBack {mq mq' : MultiQueue} {h : Nat} (hok : mq.Ok MultiQueue.Anywhere)
    (hs : mq.step worth crc policy (.goBackToInitFilter file h) = some mq') :
    (mq'.value h).all (fun r => r.filterUnitsNumber = r.reloadUnitsNumber) = true := by
  unfold MultiQueue.step at hs
  split_ifs at hs with hen
  obtain ⟨r, hv⟩ := isSome_iff_exists.1 hen.1
  obtain ⟨units, hunits, hlength⟩ := FilterBlockReader.goBackToInitFilter_readable (hen.2 r hv) (hok.readers h r hv)
  have hvalue : mq'.value h = some { r with filterUnits := units } := by
    rw [← some.inj hs, MultiQueue.apply, MultiQueue.goBackToInitFilter_eq hv]
    show ((mq.move h r.initUnitsNumber).modifyReader h fun r => (r.goBackToInitFilter crc file).1).value h = _
    rw [MultiQueue.value_modifyReader_self, MultiQueue.value_move, hv, map_some, hunits]
  rw [hvalue]
  exact decide_eq_true hlength

lemma open_usable {reader : FilterBlockReader} (hok : s.mq.Ok MultiQueue.Anywhere)
    (hs : s.step worth crc policy key (.openTable file reader) = some s') : s'.Usable := by
  simp only [step, readMeta] at hs
  split at hs
  all_goals obtain ⟨mq, hmq, rfl⟩ := map_eq_some_iff.1 hs
  · exact fun _ => ⟨⟨s.nextTable, mem_cons_self, rfl⟩, rfl⟩
  · refine fun _ => ⟨⟨s.nextTable, mem_cons_self, rfl⟩, ?_⟩
    rw [units_of_goBack hok hmq]
    exact Bool.and_false _

lemma close_usable_iff {table : Nat} (hu : s.Usable) (hs : s.step worth crc policy key (.closeTable table) = some s') :
    s'.Usable ↔ s.ClosesAlone (.closeTable table) := by
  simp only [step, close] at hs
  split at hs
  · cases hs
  · rename_i h hl
    obtain ⟨mq, hmq, rfl⟩ := map_eq_some_iff.1 hs
    obtain ⟨⟨other, hother, hfile⟩, hclean⟩ := hu (ne_nil_of_mem (Lib.mem_of_lookup hl))
    unfold Usable ClosesAlone
    dsimp only
    by_cases halone : ∀ p ∈ s.tables, p.1 = table
    · have hnil : Lib.remove s.tables table = [] := filter_eq_nil_iff.2 fun p hp => by simp [halone p hp]
      exact iff_of_true (fun hne => absurd hnil hne) (.inl halone)
    · have hne : Lib.remove s.tables table ≠ [] := fun hnil => halone fun p hp => by
        simpa using filter_eq_nil_iff.1 hnil p hp
      have hfile' : (∃ t ∈ (Lib.remove s.tables table).map Prod.fst, s.file = some t) ↔ s.file ≠ some table := by
        constructor
        · rintro ⟨t, ht, he⟩ hself
          obtain ⟨p, hp, rfl⟩ := mem_map.1 ht
          exact absurd (some.inj (he.symm.trans hself)) (by simpa using (mem_filter.1 hp).2)
        · intro hself
          obtain ⟨p, hp, rfl⟩ := mem_map.1 hother
          have hp' : p.1 ≠ table := fun he => hself (he ▸ hfile)
          exact ⟨p.1, mem_map_of_mem (mem_filter.2 ⟨hp, decide_eq_true hp'⟩), hfile⟩
      have hunits : (s.cleaned || (s.mq.value h).any fun r => r.filterUnits ≠ []) = false ↔
          ∀ h' ∈ s.tables.lookup table, ∀ r ∈ s.mq.value h', r.filterUnits = [] := by
        rw [hclean, hl, Bool.false_or]
        cases hv : s.mq.value h <;> simp [hv]
      constructor
      · intro hu'
        exact .inr ⟨hfile'.1 (hu' hne).1, hunits.1 (hu' hne).2⟩
      · intro hc _
        obtain ⟨hself, hempty⟩ := hc.resolve_left halone
        exact ⟨hfile'.2 hself, hunits.2 hempty⟩

lemma step_usable_iff (hok : s.mq.Ok MultiQueue.Anywhere) (hu : s.Usable) (hs : s.step worth crc policy key a = some s') :
    s'.Usable ↔ s.ClosesAlone a := by
  cases a with
  | openTable file reader => exact iff_of_true (open_usable hok hs) trivial
  | closeTable table => exact close_usable_iff hu hs
  | get io h blockOffset internalKey =>
    obtain ⟨mq, -, rfl⟩ := map_eq_some_iff.1 hs
    exact iff_of_true hu trivial

def unopened (mq : MultiQueue) : SharedReader where
  mq
  tables := []
  file := none
  cleaned := false
  nextTable := 0

/-- In all states of a sequence of opens, closes and lookups the reader is usable, just when every table closes alone. -/
theorem usable_iff (worth : WorthAdjusting) (crc : Crc32c) (policy : FilterPolicy) (key : Slice) (mq : MultiQueue)
    (hok : mq.Ok MultiQueue.Anywhere) (as : List Action) (s : SharedReader)
    (hr : run (step worth crc policy key) (unopened mq) as = some s) :
    StepsMeet (step worth crc policy key) ClosesAlone (unopened mq) as ↔
    ∀ pre rest t, as = pre ++ rest → run (step worth crc policy key) (unopened mq) pre = some t → t.Usable :=
  stepsMeet_iff_reached (I := fun s => s.mq.Ok MultiQueue.Anywhere) (fun _ _ _ h hs => step_ok h hs)
    (fun _ _ _ h hu hs => step_usable_iff h hu hs) hok (fun hne => absurd rfl hne) hr

abbrev sampleStep : SharedReader → Action → Option SharedReader :=
  step MultiQueue.fewerIOs .bitwise MultiQueue.anyPolicy [1]

def openSample : Action := .openTable MultiQueue.unitsFile MultiQueue.unitsReader

theorem usable_iff_sample :
    ∃ s, run sampleStep (unopened .new) [openSample, openSample] = some s ∧ s.Usable ∧ s.tables = [(1, 0), (0, 0)] ∧
    s.file = some 1 := by
  obtain ⟨s, hr, htables, hfile⟩ : ∃ s, run sampleStep (unopened .new) [openSample, openSample] = some s ∧
      s.tables = [(1, 0), (0, 0)] ∧ s.file = some 1 := exists_run (by decide +kernel)
  have hmeet : StepsMeet sampleStep ClosesAlone (unopened .new) [openSample, openSample] := by decide +kernel
  exact ⟨s, hr, (usable_iff _ _ _ [1] .new ok_new _ s hr).1 hmeet _ [] s (append_nil _).symm hr, htables, hfile⟩

/-- A table is opened again while its first object is pinned, and the second object is closed: the first one is left with a
reader without units, on a file that is gone. -/
theorem pinned_table_unusable :
    ∃ s, run sampleStep (unopened .new) [openSample, openSample, .closeTable 1] = some s ∧ ¬ s.Usable ∧
    s.tables = [(0, 0)] ∧ s.file = some 1 ∧ (s.mq.value 0).map FilterBlockReader.filterUnits = some [] := by
  obtain ⟨s, hr, htables, hfile, hunits⟩ : ∃ s,
      run sampleStep (unopened .new) [openSample, openSample, .closeTable 1] = some s ∧ s.tables = [(0, 0)] ∧
        s.file = some 1 ∧ (s.mq.value 0).map FilterBlockReader.filterUnits = some [] := exists_run (by decide +kernel)
  refine ⟨s, hr, fun hu => ?_, htables, hfile, hunits⟩
  obtain ⟨⟨table, hmem, he⟩, -⟩ := hu (by simp [htables])
  rw [hfile] at he
  cases he
  simp [htables] at hmem

end SharedReader

end RallyDB.Util
