import RallyDB.Db.Lemmas.Builder
import RallyDB.Db.Lemmas.LogRecovery
import RallyDB.Db.Lemmas.VersionEdit
import RallyDB.Lib.Machine

/-!
# What is recovered is what was there
-/

namespace RallyDB.Db.Descriptor

/-! ## What is recovered from a manifest -/

section

open Util Table Lib List Log.Writer

variable {crc : Crc32c} {name : Slice}

/-! ## The records of a manifest -/

structure Readable (name : Slice) (edit : VersionEdit) : Prop where
  valid : edit.Valid
  comparator : ∀ c ∈ edit.comparator, c = name

lemma Readable.decodeRecord {edit : VersionEdit} (h : Readable name edit) : decodeRecord name edit.encodeTo = .ok edit := by
  unfold Descriptor.decodeRecord
  rw [decodeFrom_encodeTo h.valid]
  have hc := h.comparator
  dsimp only
  cases hcomparator : edit.comparator with
  | none => rfl
  | some c =>
    rw [hcomparator] at hc
    exact if_pos (hc c rfl)

lemma reported_of_nil {r : Log.Reader} (h : r.reports = []) : reported r = .ok () := by
  unfold reported
  rw [h]
  rfl

lemma recoverLoop_of_replay {contents : Slice} {es : List VersionEdit} (hes : ∀ e ∈ es, Readable name e) :
    ∀ {r : Log.Reader} {q : Nat} (s : Recovery), r.At contents q → r.reports = [] →
    Log.replay crc contents q none = es.map (fun e => some e.encodeTo) →
    recoverLoop crc name r s = .ok (es.foldl Recovery.apply s) := by
  induction es with
  | nil =>
    intro r q s hat hreports hreplay
    have hgives := Log.Reader.readRecord_gives crc hat
    rw [hreplay] at hgives
    obtain ⟨hnone, hsame⟩ := hgives.nil
    rw [recoverLoop]
    split
    · rename_i r' hread
      rw [hread] at hsame
      rw [reported_of_nil (hsame.trans hreports)]
      rfl
    · simp_all
  | cons e es ih =>
    intro r q s hat hreports hreplay
    have hgives := Log.Reader.readRecord_gives crc hat
    rw [hreplay] at hgives
    obtain ⟨hsome, hsame, q', hat', hreplay'⟩ := hgives.some_cons
    obtain ⟨he, hes⟩ := forall_mem_cons.1 hes
    rw [recoverLoop]
    split
    · simp_all
    · rename_i r' record hread
      rw [hread] at hsome hsame hat'
      cases hsome
      rw [reported_of_nil (hsame.trans hreports), he.decodeRecord]
      exact ih hes (s.apply e) hat' (hsame.trans hreports) hreplay'

structure Describes (crc : Crc32c) (name : Slice) (w : Log.Writer) (es : List VersionEdit) (v : Version)
    (removed : List (Nat × Nat)) : Prop where
  written : ∃ rs, Log.Written crc 0 w rs ∧ rs.map Prod.fst = es.map VersionEdit.encodeTo
  readable : ∀ e ∈ es, Readable name e
  collects : Collects (es.foldl Recovery.apply .new).builder v removed

variable {w : Log.Writer} {es : List VersionEdit} {v : Version} {removed : List (Nat × Nat)}

section

variable (h : Describes crc name w es v removed)
include h

lemma Describes.sound : w.dest.faults = [] := by
  obtain ⟨rs, hwritten, -⟩ := h.written
  exact hwritten.sound

lemma Describes.replay : Log.replay crc w.dest.contents 0 none = es.map fun e => some e.encodeTo := by
  obtain ⟨rs, hwritten, hrs⟩ := h.written
  rw [hwritten.replay_eq prefix_rfl, hwritten.records.completeIn_of_le le_rfl, hrs, map_map]
  rfl

lemma Describes.recoverLoop :
    recoverLoop crc name (.new ⟨w.dest.contents, []⟩ true 0) .new = .ok (es.foldl Recovery.apply .new) :=
  recoverLoop_of_replay h.readable .new (Log.Reader.at_new _) rfl h.replay

lemma Describes.recovered : (Log.recovered crc w.dest.contents).1 = es.map VersionEdit.encodeTo := by
  have hmap : (es.map fun e => some e.encodeTo) = (es.map VersionEdit.encodeTo).map some := by rw [map_map]; rfl
  rw [Log.recovered_records, h.replay, hmap, Log.reduceOption_map_some]

lemma Describes.reopen : Describes crc name (.reopen w.dest w.size) es v removed := by
  obtain ⟨rs, hwritten, hrs⟩ := h.written
  exact ⟨⟨rs, hwritten.reopen, hrs⟩, h.readable, h.collects⟩

lemma Describes.addRecord {edit : VersionEdit} (hedit : Readable name edit) (hfresh : Fresh v removed edit) :
    Describes crc name (w.addRecord crc edit.encodeTo).1 (es ++ [edit]) ((Builder.new v).apply edit).saveTo
    (removed ++ edit.deletedFiles) := by
  obtain ⟨rs, hwritten, hrs⟩ := h.written
  refine ⟨⟨_, hwritten.addRecord edit.encodeTo, ?_⟩, ?_, ?_⟩
  · rw [map_append, hrs, map_append]
    rfl
  · intro e he
    rcases mem_append.1 he with he | he
    · exact h.readable e he
    · cases mem_singleton.1 he
      exact hedit
  · rw [foldl_append]
    exact h.collects.apply hfresh

end

lemma describes_snapshot {edit : VersionEdit} (hedit : Readable name edit) (hdeleted : edit.deletedFiles = [])
    (hnew : ∀ level, edit.newAt level = v level) (hv : ∀ level, Ascending fileRank (v level)) :
    Describes crc name ((new ⟨[], []⟩).addRecord crc edit.encodeTo).1 [edit] v removed := by
  refine ⟨⟨_, Log.written_new.addRecord edit.encodeTo, rfl⟩, ?_, collects_snapshot hdeleted hnew hv⟩
  intro e he
  cases mem_singleton.1 he
  exact hedit

lemma clear_faults (h : w.dest.faults = []) : { w with dest := { w.dest with faults := [] } } = w := by
  rw [← h]

lemma addRecordWith_nil (h : w.dest.faults = []) (record : Slice) :
    addRecordWith crc w [] record = w.addRecord crc record := by
  unfold addRecordWith
  rw [clear_faults h]
  exact Prod.ext (clear_faults (addFragments_of_sound crc true record h).2) rfl

variable {vs : VersionSet} {edit : VersionEdit}

def VersionSet.descriptor (crc : Crc32c) (name : Slice) (vs : VersionSet) : Log.Writer :=
  match vs.descriptorLog with
  | some w => w
  | none => ((Log.Writer.new ⟨[], []⟩).addRecord crc (vs.snapshotEdit name).encodeTo).1

lemma descriptor_sound (h : ∀ w ∈ vs.descriptorLog, w.dest.faults = []) : (vs.descriptor crc name).dest.faults = [] := by
  unfold VersionSet.descriptor
  cases hlog : vs.descriptorLog with
  | some w => exact h w hlog
  | none => exact (addFragments_of_sound crc true _ rfl).2

lemma openDescriptor_of_sound : vs.openDescriptor crc name {} = (some (vs.descriptor crc name), .ok ()) := by
  unfold VersionSet.openDescriptor VersionSet.descriptor
  cases vs.descriptorLog with
  | some w => rfl
  | none =>
    have hok := (addFragments_of_sound crc true (vs.snapshotEdit name).encodeTo (w := new ⟨[], []⟩) rfl).1
    simp only [addRecordWith_nil (w := new ⟨[], []⟩) rfl]
    exact congrArg (Prod.mk _) hok

lemma writeEdit_of_sound (h : w.dest.faults = []) : writeEdit crc w {} edit = ((w.addRecord crc edit.encodeTo).1, .ok ()) := by
  unfold writeEdit
  have hok : w.addRecord crc edit.encodeTo = ((w.addRecord crc edit.encodeTo).1, .ok ()) :=
    Prod.ext rfl (addFragments_of_sound crc true edit.encodeTo h).1
  rw [addRecordWith_nil h, hok]
  rfl

lemma logAndApply_of_sound (h : ∀ w ∈ vs.descriptorLog, w.dest.faults = []) (disk : Disk) :
    vs.logAndApply crc name {} disk edit =
      let w := ((vs.descriptor crc name).addRecord crc (vs.complete edit).encodeTo).1
      ({ vs with
          descriptorLog := some w
          compactPointer := applyPointers vs.compactPointer edit
          current := ((Builder.new vs.current).apply edit).saveTo
          logNumber := edit.logNumber.getD vs.logNumber
          prevLogNumber := edit.prevLogNumber.getD vs.prevLogNumber },
        { current := if vs.descriptorLog.isNone then vs.manifestFileNumber else disk.current
          manifest := Function.update disk.manifest vs.manifestFileNumber w.dest.contents }, .ok ()) := by
  unfold VersionSet.logAndApply
  dsimp only
  rw [openDescriptor_of_sound]
  dsimp only
  rw [writeEdit_of_sound (descriptor_sound h)]
  simp only [Bool.and_false]
  rfl

end

open Util Table Lib List
open VersionSet (complete snapshotEdit)

/-! ## Runs -/

structure Session where
  vs : VersionSet
  disk : Disk
  removed : List (Nat × Nat)

inductive SessionOp where
  | logAndApply (nextFileNumber lastSequence : Nat) (edit : VersionEdit)
  | reopen (reuse : Bool)

def Session.fresh (crc : Crc32c) (name : Slice) : Session := ⟨.new, newDB crc name, []⟩

def Session.step (crc : Crc32c) (name : Slice) (s : Session) : SessionOp → Option Session
  | .logAndApply nextFileNumber lastSequence edit =>
    match VersionSet.logAndApply crc name {} { s.vs with nextFileNumber, lastSequence } s.disk edit with
    | (vs, disk, .ok _) => some ⟨vs, disk, s.removed ++ edit.deletedFiles⟩
    | (_, _, .error _) => none
  | .reopen reuse =>
    match recover crc name s.disk reuse with
    | .ok vs => some ⟨vs, s.disk, s.removed⟩
    | .error _ => none

def VersionEdit.numbers (edit : VersionEdit) : List Nat :=
  edit.logNumber.toList ++ edit.prevLogNumber.toList ++ edit.deletedFiles.map (·.2) ++ edit.newFiles.map (·.2.number)

/-- What an edit has to be: the counters have grown and fit in their types, the log number is as `LogAndApply` asserts,
only files that are there are deleted, and what was deleted from a level never comes back to it. -/
structure Session.Applicable (s : Session) (nextFileNumber lastSequence : Nat) (edit : VersionEdit) : Prop where
  nextFileNumber_le : s.vs.nextFileNumber ≤ nextFileNumber
  nextFileNumber_lt : nextFileNumber + 1 < 2 ^ 64
  lastSequence_le : s.vs.lastSequence ≤ lastSequence
  lastSequence_lt : lastSequence < 2 ^ 64
  valid : edit.Valid
  logNumber : ∀ n ∈ edit.logNumber, s.vs.logNumber ≤ n ∧ n < nextFileNumber
  present : ∀ p ∈ edit.deletedFiles, ∃ f ∈ s.vs.current p.1, f.number = p.2
  gone : ∀ p ∈ edit.newFiles, (p.1, p.2.number) ∉ s.removed

/-- An edit as the database makes them: it names no other comparator, the numbers that it names have been handed out, and
no level gets a second file of one number. -/
structure Session.Ordinary (name : Slice) (s : Session) (nextFileNumber : Nat) (edit : VersionEdit) : Prop where
  comparator : ∀ c ∈ edit.comparator, c = name
  numbers : ∀ n ∈ edit.numbers, n < nextFileNumber
  added : ∀ p ∈ edit.newFiles, ∀ f ∈ s.vs.current p.1, f.number ≠ p.2.number

def Session.Applies (s : Session) : SessionOp → Prop
  | .logAndApply nextFileNumber lastSequence edit => s.Applicable nextFileNumber lastSequence edit
  | .reopen _ => True

def Session.AppliesOrdinary (name : Slice) (s : Session) : SessionOp → Prop
  | .logAndApply nextFileNumber lastSequence edit =>
    s.Applicable nextFileNumber lastSequence edit ∧ s.Ordinary name nextFileNumber edit
  | .reopen _ => True

instance (s : Session) (nextFileNumber lastSequence : Nat) (edit : VersionEdit) :
    Decidable (s.Applicable nextFileNumber lastSequence edit) :=
  decidable_of_iff (s.vs.nextFileNumber ≤ nextFileNumber ∧ nextFileNumber + 1 < 2 ^ 64 ∧ s.vs.lastSequence ≤ lastSequence ∧
      lastSequence < 2 ^ 64 ∧ edit.Valid ∧ (∀ n ∈ edit.logNumber, s.vs.logNumber ≤ n ∧ n < nextFileNumber) ∧
      (∀ p ∈ edit.deletedFiles, ∃ f ∈ s.vs.current p.1, f.number = p.2) ∧
      ∀ p ∈ edit.newFiles, (p.1, p.2.number) ∉ s.removed)
    ⟨fun ⟨h1, h2, h3, h4, h5, h6, h7, h8⟩ => ⟨h1, h2, h3, h4, h5, h6, h7, h8⟩,
      fun ⟨h1, h2, h3, h4, h5, h6, h7, h8⟩ => ⟨h1, h2, h3, h4, h5, h6, h7, h8⟩⟩

instance (name : Slice) (s : Session) (nextFileNumber : Nat) (edit : VersionEdit) :
    Decidable (s.Ordinary name nextFileNumber edit) :=
  decidable_of_iff ((∀ c ∈ edit.comparator, c = name) ∧ (∀ n ∈ edit.numbers, n < nextFileNumber) ∧
      ∀ p ∈ edit.newFiles, ∀ f ∈ s.vs.current p.1, f.number ≠ p.2.number)
    ⟨fun ⟨h1, h2, h3⟩ => ⟨h1, h2, h3⟩, fun ⟨h1, h2, h3⟩ => ⟨h1, h2, h3⟩⟩

instance (s : Session) : (op : SessionOp) → Decidable (s.Applies op)
  | .logAndApply _ _ _ => inferInstanceAs (Decidable (s.Applicable _ _ _))
  | .reopen _ => .isTrue trivial

instance (name : Slice) (s : Session) : (op : SessionOp) → Decidable (s.AppliesOrdinary name op)
  | .logAndApply _ _ _ => inferInstanceAs (Decidable (_ ∧ _))
  | .reopen _ => .isTrue trivial

/-! ## Version sets -/

structure VersionSet.Sound (vs : VersionSet) (n : Nat) : Prop where
  files : ∀ level, ∀ f ∈ vs.current level, (Field.newFile level f).Valid ∧ f.number < n
  logNumber_lt : vs.logNumber < n
  prevLogNumber_lt : vs.prevLogNumber < n
  pointers : ∀ level, (vs.compactPointer level).length < 2 ^ 32

variable {crc : Crc32c} {name : Slice} {vs : VersionSet} {edit : VersionEdit} {v : Version} {level n : Nat}

lemma mem_of_mem_saveTo {f : FileMetaData} (h : f ∈ ((Builder.new v).apply edit).saveTo level) :
    f ∈ v level ∨ (level, f) ∈ edit.newFiles := by
  obtain ⟨hmem, -⟩ := mem_filter.1 h
  rcases mem_setMerge.1 hmem with hold | hnew
  · exact .inl hold
  · have hadded : f ∈ (LevelState.apply ⟨[], []⟩ (edit.deletedAt level) (edit.newAt level)).addedFiles := hnew
    rw [addedFiles_apply] at hadded
    rcases mem_of_mem_foldl_setInsert bySmallestKey_iff _ (.nil : Ascending fileRank []) hadded with hno | hnew
    · exact absurd hno not_mem_nil
    · exact .inr (mem_newAt.1 hnew)

lemma length_applyPointers {pointers : Nat → Slice} (hedit : edit.Valid) (h : ∀ level, (pointers level).length < 2 ^ 32)
    (level : Nat) : (applyPointers pointers edit level).length < 2 ^ 32 := by
  have hall : ∀ p ∈ edit.compactPointers, p.2.length < 2 ^ 32 := fun p hp => ((forall_mem_fields.1 hedit.fields).2.2.2.2.2.1 p hp).2.2
  unfold applyPointers
  generalize edit.compactPointers = ps at hall
  induction ps generalizing pointers with
  | nil => exact h level
  | cons p ps ih =>
    obtain ⟨hp, hps⟩ := forall_mem_cons.1 hall
    refine ih (fun level => ?_) hps
    by_cases hlevel : level = p.1
    · simpa [hlevel] using hp
    · simpa [hlevel] using h level

lemma length_pointers_foldl {es : List VersionEdit} (hes : ∀ e ∈ es, e.Valid) (level : Nat) :
    ((es.foldl Recovery.apply .new).compactPointer level).length < 2 ^ 32 := by
  suffices H : ∀ s : Recovery, (∀ level, (s.compactPointer level).length < 2 ^ 32) →
      ∀ level, ((es.foldl Recovery.apply s).compactPointer level).length < 2 ^ 32 from
    H .new (fun _ => by simp [Recovery.new]) level
  induction es with
  | nil => exact fun s hs => hs
  | cons e es ih =>
    obtain ⟨he, hes⟩ := forall_mem_cons.1 hes
    exact fun s hs => ih hes (s.apply e) (length_applyPointers he hs)

lemma mem_snapshotEdit (h : vs.Sound n) {p : Nat × FileMetaData} :
    p ∈ (vs.snapshotEdit name).newFiles ↔ p.2 ∈ vs.current p.1 := by
  obtain ⟨level, f⟩ := p
  simp only [snapshotEdit, mem_flatMap, mem_range, mem_map, Prod.mk.injEq]
  constructor
  · rintro ⟨level, -, f, hf, rfl, rfl⟩
    exact hf
  · intro hf
    exact ⟨level, (h.files level f hf).1.1, f, hf, rfl, rfl⟩

lemma flatMap_range_ite {α : Type*} (l : Nat → List α) (level n : Nat) :
    ((List.range n).flatMap fun m => if m = level then l m else []) = if level < n then l level else [] := by
  induction n with
  | zero => rfl
  | succ n ih =>
    rw [range_succ, flatMap_append, ih, flatMap_singleton]
    rcases lt_trichotomy level n with hlt | rfl | hgt
    · simp [hlt, hlt.ne', hlt.trans n.lt_succ_self]
    · simp
    · simp [hgt.ne, not_lt.2 hgt.le, not_lt.2 (Nat.succ_le_of_lt hgt)]

lemma newAt_snapshotEdit (h : vs.Sound n) (level : Nat) : (vs.snapshotEdit name).newAt level = vs.current level := by
  have hlevel : ∀ m, (((vs.current m).map fun f => (m, f)).filter (·.1 = level)).map (·.2) =
      if m = level then vs.current m else [] := fun m => by
    rw [filter_map, map_map]
    by_cases hm : m = level <;> simp [hm, Function.comp_def]
  have hflat : (vs.snapshotEdit name).newAt level =
      (List.range kNumLevels).flatMap fun m => if m = level then vs.current m else [] := by
    simp only [VersionEdit.newAt, snapshotEdit, filter_flatMap, map_flatMap, hlevel]
  rw [hflat, flatMap_range_ite, ite_eq_left_iff]
  intro hge
  refine (eq_nil_iff_forall_not_mem.2 fun f hf => hge ?_).symm
  exact (h.files level f hf).1.1

lemma readable_snapshotEdit (hname : name.length < 2 ^ 32) (h : vs.Sound n) : Readable name (vs.snapshotEdit name) := by
  refine ⟨⟨forall_mem_fields.2 ⟨?_, ?_, ?_, ?_, ?_, ?_, ?_, ?_⟩, .nil⟩, ?_⟩
  · intro c hc
    cases hc
    exact hname
  · intro n hn
    cases hn
  · intro n hn
    cases hn
  · intro n hn
    cases hn
  · intro n hn
    cases hn
  · intro p hp
    simp only [snapshotEdit, mem_map, mem_filter, mem_range, decide_eq_true_eq] at hp
    obtain ⟨level, ⟨hlevel, hkey⟩, rfl⟩ := hp
    exact ⟨hlevel, hkey, h.pointers level⟩
  · intro p hp
    cases hp
  · intro p hp
    exact (h.files p.1 p.2 ((mem_snapshotEdit h).1 hp)).1
  · intro c hc
    cases hc
    rfl

lemma numbers_snapshotEdit (h : vs.Sound n) : ∀ m ∈ (vs.snapshotEdit name).numbers, m < n := by
  intro m hm
  have hnew : m ∈ (vs.snapshotEdit name).newFiles.map (·.2.number) := by
    simpa [VersionEdit.numbers, snapshotEdit] using hm
  obtain ⟨p, hp, rfl⟩ := mem_map.1 hnew
  exact (h.files p.1 p.2 ((mem_snapshotEdit h).1 hp)).2

/-! ## The invariant -/

/-- The manifest that `CURRENT` names holds the edits `es`, and they lead to the state of the version set; `n` is the next
file number in the last of them. -/
structure Session.Consistent (crc : Crc32c) (name : Slice) (s : Session) (w : Log.Writer) (es : List VersionEdit) (n : Nat) :
    Prop where
  describes : Describes crc name w es s.vs.current s.removed
  contents : s.disk.manifest s.disk.current = w.dest.contents
  opened : ∀ w' ∈ s.vs.descriptorLog, w' = w ∧ s.vs.manifestFileNumber = s.disk.current
  logNumber : (es.foldl Recovery.apply .new).logNumber = some s.vs.logNumber
  prevLogNumber : (es.foldl Recovery.apply .new).prevLogNumber.getD 0 = s.vs.prevLogNumber
  lastSequence : (es.foldl Recovery.apply .new).lastSequence = some s.vs.lastSequence
  nextFile : (es.foldl Recovery.apply .new).nextFile = some n
  le : n ≤ s.vs.nextFileNumber
  lt : n + 1 < 2 ^ 64
  numbers : ∀ e ∈ es, ∀ m ∈ e.numbers, m < n
  sound : s.vs.Sound n

variable {s : Session} {w : Log.Writer} {es : List VersionEdit}

lemma consistent_fresh (hname : name.length < 2 ^ 32) : ∃ w es n, (Session.fresh crc name).Consistent crc name w es n := by
  have hread : Readable name { comparator := some name, logNumber := some 0, nextFileNumber := some 2, lastSequence := some 0 } := by
    refine ⟨⟨forall_mem_fields.2 ?_, .nil⟩, ?_⟩
    · simpa [Field.Valid] using hname
    · simp
  have hdescribes := @describes_snapshot crc name _ [] _ hread rfl (fun _ => rfl) fun _ => .nil
  exact ⟨_, _, 2, {
    describes := hdescribes
    contents := by simp [Session.fresh, newDB]
    opened := by simp [Session.fresh, VersionSet.new]
    logNumber := rfl
    prevLogNumber := rfl
    lastSequence := rfl
    nextFile := rfl
    le := le_rfl
    lt := by decide
    numbers := by simp [VersionEdit.numbers]
    sound := ⟨by simp [Session.fresh, VersionSet.new], by simp [Session.fresh, VersionSet.new],
      by simp [Session.fresh, VersionSet.new], by simp [Session.fresh, VersionSet.new]⟩ }⟩

section

variable (s w es)

def Session.recovered (n : Nat) (reuse : Bool) : VersionSet :=
  { s.vs with
    nextFileNumber := n + 1
    manifestFileNumber := if reuse then s.disk.current else n
    descriptorLog := if reuse then some (.reopen w.dest w.size) else none
    compactPointer := (es.foldl Recovery.apply .new).compactPointer }

end

lemma Session.Consistent.recover_eq (h : s.Consistent crc name w es n) (reuse : Bool) :
    recover crc name s.disk reuse = .ok (s.recovered w es n reuse) := by
  have hdest : (⟨w.dest.contents, []⟩ : WritableFile) = w.dest := by rw [← h.describes.sound]
  unfold Descriptor.recover
  rw [h.contents, h.describes.recoverLoop]
  dsimp only
  unfold Recovery.install Session.recovered
  rw [h.nextFile, h.logNumber, h.lastSequence, h.prevLogNumber, h.contents, h.describes.collects.saveTo, hdest]
  dsimp only
  rw [Nat.mod_eq_of_lt h.lt]

lemma Session.Consistent.reopen (h : s.Consistent crc name w es n) (reuse : Bool) :
    ∃ w', (Session.mk (s.recovered w es n reuse) s.disk s.removed).Consistent crc name w' es n := by
  have hsound : (s.recovered w es n reuse).Sound n :=
    ⟨h.sound.files, h.sound.logNumber_lt, h.sound.prevLogNumber_lt,
      length_pointers_foldl fun e he => (h.describes.readable e he).valid⟩
  cases reuse with
  | false =>
    exact ⟨w, h.describes, h.contents, by simp [Session.recovered], h.logNumber, h.prevLogNumber, h.lastSequence,
      h.nextFile, n.le_succ, h.lt, h.numbers, hsound⟩
  | true =>
    exact ⟨.reopen w.dest w.size, h.describes.reopen, h.contents, by simp [Session.recovered], h.logNumber,
      h.prevLogNumber, h.lastSequence, h.nextFile, n.le_succ, h.lt, h.numbers, hsound⟩

lemma Session.Consistent.descriptor (hname : name.length < 2 ^ 32) (h : s.Consistent crc name w es n) :
    ∃ es', Describes crc name (s.vs.descriptor crc name) es' s.vs.current s.removed ∧ ∀ e ∈ es', ∀ m ∈ e.numbers, m < n := by
  unfold VersionSet.descriptor
  cases hlog : s.vs.descriptorLog with
  | some w' =>
    obtain ⟨rfl, -⟩ := h.opened w' hlog
    exact ⟨es, h.describes, h.numbers⟩
  | none =>
    refine ⟨[s.vs.snapshotEdit name], describes_snapshot (readable_snapshotEdit hname h.sound) rfl
      (newAt_snapshotEdit h.sound) h.describes.collects.ascending_files, ?_⟩
    intro e he
    cases mem_singleton.1 he
    exact numbers_snapshotEdit h.sound

variable {nextFileNumber lastSequence : Nat}

lemma Session.Applicable.readable_complete
    (h : s.Applicable nextFileNumber lastSequence edit) (ho : s.Ordinary name nextFileNumber edit) (hs : s.vs.Sound n)
    (hn : n ≤ nextFileNumber) : Readable name (complete { s.vs with nextFileNumber, lastSequence } edit) := by
  obtain ⟨hcomparator, hlog, hprev, -, -, hpointers, hdeleted, hnew⟩ := forall_mem_fields.1 h.valid.fields
  have hfits : ∀ {m}, m < n → m < 2 ^ 64 := fun hm => by
    have := h.nextFileNumber_lt
    omega
  refine ⟨⟨forall_mem_fields.2 ⟨hcomparator, ?_, ?_, ?_, ?_, hpointers, hdeleted, hnew⟩, h.valid.deletedFiles⟩, ho.comparator⟩
  · rintro m ⟨⟩
    cases hedit : edit.logNumber with
    | none => exact hfits hs.logNumber_lt
    | some m => exact hlog m hedit
  · rintro m ⟨⟩
    cases hedit : edit.prevLogNumber with
    | none => exact hfits hs.prevLogNumber_lt
    | some m => exact hprev m hedit
  · rintro m ⟨⟩
    exact (lt_add_one _).trans h.nextFileNumber_lt
  · rintro m ⟨⟩
    exact h.lastSequence_lt

section

variable (ho : s.Ordinary name nextFileNumber edit)
include ho

lemma Session.Ordinary.getD_lt {x : Option Nat}
    (hx : ∀ m ∈ x, m ∈ edit.numbers) {m : Nat} (hm : m < nextFileNumber) : x.getD m < nextFileNumber := by
  cases x with
  | none => exact hm
  | some k => exact ho.numbers k (hx k rfl)

lemma Session.Ordinary.logNumber_lt
    (hs : s.vs.Sound n) (hn : n ≤ nextFileNumber) : edit.logNumber.getD s.vs.logNumber < nextFileNumber :=
  ho.getD_lt (fun m hm => by simp [VersionEdit.numbers, Option.mem_def.1 hm]) (hs.logNumber_lt.trans_le hn)

lemma Session.Ordinary.prevLogNumber_lt
    (hs : s.vs.Sound n) (hn : n ≤ nextFileNumber) : edit.prevLogNumber.getD s.vs.prevLogNumber < nextFileNumber :=
  ho.getD_lt (fun m hm => by simp [VersionEdit.numbers, Option.mem_def.1 hm]) (hs.prevLogNumber_lt.trans_le hn)

end

lemma Session.Ordinary.numbers_complete
    (ho : s.Ordinary name nextFileNumber edit) (hs : s.vs.Sound n) (hn : n ≤ nextFileNumber) :
    ∀ m ∈ (complete { s.vs with nextFileNumber, lastSequence } edit).numbers, m < nextFileNumber := by
  intro m hm
  simp only [VersionEdit.numbers, complete, Option.toList_some, mem_append, mem_singleton] at hm
  rcases hm with ((rfl | rfl) | hm) | hm
  · exact ho.logNumber_lt hs hn
  · exact ho.prevLogNumber_lt hs hn
  · exact ho.numbers m (mem_append_left _ (mem_append_right _ hm))
  · exact ho.numbers m (mem_append_right _ hm)

lemma Session.Applicable.sound
    (h : s.Applicable nextFileNumber lastSequence edit) (ho : s.Ordinary name nextFileNumber edit) (hs : s.vs.Sound n)
    (hn : n ≤ nextFileNumber) {vs : VersionSet} (hcurrent : vs.current = ((Builder.new s.vs.current).apply edit).saveTo)
    (hpointers : vs.compactPointer = applyPointers s.vs.compactPointer edit)
    (hlog : vs.logNumber = edit.logNumber.getD s.vs.logNumber)
    (hprev : vs.prevLogNumber = edit.prevLogNumber.getD s.vs.prevLogNumber) : vs.Sound nextFileNumber := by
  refine ⟨fun level f hf => ?_, hlog ▸ ho.logNumber_lt hs hn, hprev ▸ ho.prevLogNumber_lt hs hn, fun level => ?_⟩
  · rw [hcurrent] at hf
    rcases mem_of_mem_saveTo hf with hold | hnew
    · exact ⟨(hs.files level f hold).1, (hs.files level f hold).2.trans_le hn⟩
    · refine ⟨(forall_mem_fields.1 h.valid.fields).2.2.2.2.2.2.2 _ hnew, ho.numbers _ ?_⟩
      exact mem_append_right _ (mem_map_of_mem hnew)
  · rw [hpointers]
    exact length_applyPointers h.valid hs.pointers level

lemma Session.Consistent.logAndApply (hname : name.length < 2 ^ 32) (h : s.Consistent crc name w es n)
    (ha : s.Applicable nextFileNumber lastSequence edit) (ho : s.Ordinary name nextFileNumber edit) {s' : Session}
    (hstep : s.step crc name (.logAndApply nextFileNumber lastSequence edit) = some s') :
    ∃ w' es', s'.Consistent crc name w' es' nextFileNumber := by
  obtain ⟨es', hes', hnumbers'⟩ := h.descriptor hname
  have hle : n ≤ nextFileNumber := h.le.trans ha.nextFileNumber_le
  have hsound : ∀ w' ∈ s.vs.descriptorLog, w'.dest.faults = [] := fun w' hw' => by
    rw [(h.opened w' hw').1]
    exact h.describes.sound
  have hread := ha.readable_complete ho h.sound hle
  have hfresh : Fresh s.vs.current s.removed (complete { s.vs with nextFileNumber, lastSequence } edit) :=
    fun p hp => ⟨ho.added p hp, ha.gone p hp⟩
  have hdescribes := hes'.addRecord hread hfresh
  have hcurrent : (if s.vs.descriptorLog.isNone then s.vs.manifestFileNumber else s.disk.current) =
      s.vs.manifestFileNumber := by
    cases hlog : s.vs.descriptorLog with
    | none => rfl
    | some w' => exact (h.opened w' hlog).2.symm
  have happly := @logAndApply_of_sound crc name { s.vs with nextFileNumber, lastSequence } edit hsound s.disk
  simp only [Session.step, happly] at hstep
  cases hstep
  refine ⟨_, _, ⟨hdescribes, ?_, ?_, ?_, ?_, ?_, ?_, le_rfl, ha.nextFileNumber_lt, ?_,
    ha.sound ho h.sound hle rfl rfl rfl rfl⟩⟩
  · dsimp only
    rw [hcurrent]
    exact Function.update_self ..
  · rintro w' ⟨⟩
    exact ⟨rfl, hcurrent.symm⟩
  · simp [foldl_append, Recovery.apply, complete]
  · simp [foldl_append, Recovery.apply, complete]
  · simp [foldl_append, Recovery.apply, complete]
  · simp [foldl_append, Recovery.apply, complete]
  · intro e he
    rcases mem_append.1 he with he | he
    · exact fun m hm => (hnumbers' e he m hm).trans_le hle
    · cases mem_singleton.1 he
      exact ho.numbers_complete h.sound hle

lemma Session.step_consistent (hname : name.length < 2 ^ 32) {op : SessionOp} {s' : Session}
    (h : ∃ w es n, s.Consistent crc name w es n) (ha : s.AppliesOrdinary name op) (hstep : s.step crc name op = some s') :
    ∃ w es n, s'.Consistent crc name w es n := by
  obtain ⟨w, es, n, h⟩ := h
  cases op with
  | logAndApply nextFileNumber lastSequence edit =>
    obtain ⟨w', es', h'⟩ := h.logAndApply hname ha.1 ha.2 hstep
    exact ⟨w', es', nextFileNumber, h'⟩
  | reopen reuse =>
    simp only [Session.step, h.recover_eq reuse] at hstep
    cases hstep
    obtain ⟨w', h'⟩ := h.reopen reuse
    exact ⟨w', es, n, h'⟩

/-- After any sequence of edits and reopenings, the files of each level, the log numbers and the last sequence are
recovered as they are, and the next file number is above all that the manifest names. -/
theorem recover_of_run (crc : Crc32c) (name : Slice) (hname : name.length < 2 ^ 32) (ops : List SessionOp) (s : Session)
    (hops : StepsMeet (Session.step crc name) (Session.AppliesOrdinary name) (.fresh crc name) ops)
    (hrun : run (Session.step crc name) (.fresh crc name) ops = some s) (reuse : Bool) :
    ∃ vs, recover crc name s.disk reuse = .ok vs ∧ (∀ level, vs.current level = s.vs.current level) ∧
    vs.logNumber = s.vs.logNumber ∧ vs.prevLogNumber = s.vs.prevLogNumber ∧ vs.lastSequence = s.vs.lastSequence ∧
    ∀ record ∈ (Log.recovered crc (s.disk.manifest s.disk.current)).1, ∀ n ∈ (decodeFrom record).1.numbers,
    n < vs.nextFileNumber := by
  obtain ⟨w, es, n, h⟩ := run_invariant (fun s op s' hs ha hstep => Session.step_consistent hname hs ha hstep)
    (consistent_fresh hname) hops hrun
  refine ⟨_, h.recover_eq reuse, fun _ => rfl, rfl, rfl, rfl, ?_⟩
  rw [h.contents, h.describes.recovered]
  intro record hrecord m hm
  obtain ⟨e, he, rfl⟩ := mem_map.1 hrecord
  rw [decodeFrom_encodeTo (h.describes.readable e he).valid] at hm
  exact (h.numbers e he m hm).trans n.lt_succ_self

def sampleFile (number : Nat) : FileMetaData :=
  ⟨number, 100, [107, 1, 1, 0, 0, 0, 0, 0, 0], [107, 1, 1, 0, 0, 0, 0, 0, 0]⟩

theorem recover_of_run_sample :
    let ops : List SessionOp := [.logAndApply 4 1 { newFiles := [(0, sampleFile 2)] }, .reopen false,
      .logAndApply 6 1 { deletedFiles := [(0, 2)], newFiles := [(1, sampleFile 2)] }]
    StepsMeet (Session.step .bitwise [98]) (Session.AppliesOrdinary [98]) (.fresh .bitwise [98]) ops ∧
      ∃ s, run (Session.step .bitwise [98]) (.fresh .bitwise [98]) ops = some s ∧ s.vs.current 1 = [sampleFile 2] ∧
        ∃ vs, recover .bitwise [98] s.disk true = .ok vs ∧ vs.current 1 = [sampleFile 2] := by
  intro ops
  have hmeet : StepsMeet (Session.step .bitwise [98]) (Session.AppliesOrdinary [98]) (.fresh .bitwise [98]) ops := by
    decide +kernel
  obtain ⟨s, hrun, hs⟩ : ∃ s, run (Session.step .bitwise [98]) (.fresh .bitwise [98]) ops = some s ∧
      s.vs.current 1 = [sampleFile 2] := exists_run (by decide +kernel)
  obtain ⟨vs, hvs, hcurrent, -⟩ := recover_of_run .bitwise [98] (by decide) ops s hmeet hrun true
  exact ⟨hmeet, s, hrun, hs, vs, hvs, (hcurrent 1).trans hs⟩

/-- With a number that was not handed out the next file number is too small, a second file of one number at a level is not
recovered, and with another comparator nothing is. -/
theorem recover_of_other_edits :
    let ops1 : List SessionOp := [.logAndApply 4 1 { newFiles := [(0, sampleFile 100)] }]
    let ops2 : List SessionOp := [.logAndApply 4 1 { newFiles := [(0, sampleFile 2)] },
      .logAndApply 4 1 { newFiles := [(0, sampleFile 2)] }]
    let ops3 : List SessionOp := [.logAndApply 4 1 { comparator := some [97] }]
    (StepsMeet (Session.step .bitwise [98]) Session.Applies (.fresh .bitwise [98]) ops1 ∧
      ∃ s, run (Session.step .bitwise [98]) (.fresh .bitwise [98]) ops1 = some s ∧
        ∃ vs ∈ (recover .bitwise [98] s.disk false).toOption,
          ∃ record ∈ (Log.recovered .bitwise (s.disk.manifest s.disk.current)).1,
            ∃ n ∈ (decodeFrom record).1.numbers, vs.nextFileNumber ≤ n) ∧
    (StepsMeet (Session.step .bitwise [98]) Session.Applies (.fresh .bitwise [98]) ops2 ∧
      ∃ s, run (Session.step .bitwise [98]) (.fresh .bitwise [98]) ops2 = some s ∧
        ∃ vs ∈ (recover .bitwise [98] s.disk false).toOption, vs.current 0 ≠ s.vs.current 0) ∧
    StepsMeet (Session.step .bitwise [98]) Session.Applies (.fresh .bitwise [98]) ops3 ∧
      ∃ s, run (Session.step .bitwise [98]) (.fresh .bitwise [98]) ops3 = some s ∧
        (recover .bitwise [98] s.disk false).toOption.isNone = true := by
  intro ops1 ops2 ops3
  refine ⟨⟨by decide +kernel, exists_run (by decide +kernel)⟩, ⟨by decide +kernel, exists_run (by decide +kernel)⟩,
    by decide +kernel, exists_run (by decide +kernel)⟩

end RallyDB.Db.Descriptor
