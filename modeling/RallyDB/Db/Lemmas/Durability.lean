import RallyDB.Db.Durability

/-!
# Where the operations of a write are while the database runs
-/

namespace RallyDB.Db.Durability

open List Function State LogFile

variable {ε : Type}

/-! ## Log files -/

namespace LogFile

variable {α : Type} {f : LogFile α} {record : α} {n m : Nat} {x : α}

lemma wholeIn_of_length_le (h : f.length ≤ n) : f.wholeIn n = f.read := by
  have hall : f.records.filter (·.2 ≤ n) = f.records :=
    filter_eq_self.2 fun r hr => decide_eq_true (Nat.le_trans (f.le_length r hr) h)
  rw [wholeIn, hall, read]

lemma wholeIn_mono (h : n ≤ m) (hx : x ∈ f.wholeIn n) : x ∈ f.wholeIn m := by
  obtain ⟨r, hr, hrx⟩ := mem_map.1 hx
  obtain ⟨hmem, hle⟩ := mem_filter.1 hr
  exact mem_map.2 ⟨r, mem_filter.2 ⟨hmem, decide_eq_true (Nat.le_trans (of_decide_eq_true hle) h)⟩, hrx⟩

lemma wholeIn_addRecord :
    (f.addRecord record n).wholeIn m = f.wholeIn m ∨ (f.addRecord record n).wholeIn m = f.read ++ [record] := by
  rcases Nat.lt_or_ge m (f.length + n) with hlt | hle
  · left
    simp [wholeIn, addRecord, filter_append, Nat.not_le.2 hlt]
  · right
    have hwhole : f.wholeIn m = f.read := wholeIn_of_length_le (Nat.le_trans (Nat.le_add_right _ _) hle)
    rw [← hwhole]
    simp [wholeIn, addRecord, filter_append, hle]

lemma read_addRecord : (f.addRecord record n).read = f.read ++ [record] := by
  simp [read, addRecord]

lemma safe_sync : f.sync.safe = f.read := wholeIn_of_length_le (Nat.le_refl f.length)

end LogFile

structure Part (part : LogFile (List (ε × Nat)) → List (List (ε × Nat))) : Prop where
  addRecord : ∀ f record n, ∀ x ∈ part f, x ∈ part (f.addRecord record n)
  sync : ∀ f, ∀ x ∈ part f, x ∈ part f.sync
  read : ∀ f, ∀ x ∈ part f, x ∈ f.read

lemma part_read : @Part ε read where
  addRecord f record n x hx := by
    rw [read_addRecord]
    exact mem_append_left _ hx
  sync _ _ hx := hx
  read _ _ hx := hx

lemma part_safe : @Part ε LogFile.safe where
  addRecord f record n x hx := by
    rw [LogFile.safe, LogFile.wholeIn, LogFile.addRecord, filter_append, map_append]
    exact mem_append_left _ hx
  sync f x hx := by
    rw [LogFile.safe_sync, ← LogFile.wholeIn_of_length_le (Nat.le_max_right f.synced f.length)]
    exact LogFile.wholeIn_mono (Nat.le_max_left _ _) hx
  read f x hx := by
    rw [← LogFile.wholeIn_of_length_le (Nat.le_max_right f.synced f.length)]
    exact LogFile.wholeIn_mono (Nat.le_max_left _ _) hx

def State.candidates (s : State ε) : List Version :=
  match s.job with
  | .logged edit => [s.version, s.version.apply edit]
  | _ => [s.version]

variable {part : LogFile (List (ε × Nat)) → List (List (ε × Nat))} {d d' : Disk ε} {v : Version} {e : ε × Nat}
  {s s' : State ε}

section

variable (part)

def Held (d : Disk ε) (v : Version) (e : ε × Nat) : Prop :=
  (∃ n ∈ v.tables, n ∈ d.tables ∧ e ∈ (d.table n).entries) ∨ ∃ n ∈ d.logs, v.logNumber ≤ n ∧ e ∈ (part (d.log n)).flatten

def Stays (s : State ε) (e : ε × Nat) : Prop :=
  ∀ v ∈ s.candidates, Held part s.disk v e

end

lemma mem_flatten_of_subset {xs ys : List (List (ε × Nat))} (h : ∀ x ∈ xs, x ∈ ys) (he : e ∈ xs.flatten) :
    e ∈ ys.flatten := by
  obtain ⟨x, hx, hex⟩ := mem_flatten.1 he
  exact mem_flatten.2 ⟨x, h x hx, hex⟩

lemma Held.mono (h : Held part d v e)
    (ht : ∀ n ∈ v.tables, n ∈ d.tables → n ∈ d'.tables ∧ (d'.table n).entries = (d.table n).entries)
    (hl : ∀ n ∈ d.logs, v.logNumber ≤ n → n ∈ d'.logs ∧ ∀ x ∈ part (d.log n), x ∈ part (d'.log n)) : Held part d' v e := by
  rcases h with ⟨n, hn, hmem, he⟩ | ⟨n, hmem, hle, he⟩
  · obtain ⟨hmem', hentries⟩ := ht n hn hmem
    exact .inl ⟨n, hn, hmem', hentries ▸ he⟩
  · obtain ⟨hmem', hpart⟩ := hl n hmem hle
    exact .inr ⟨n, hmem', hle, mem_flatten_of_subset hpart he⟩

/-! ## The invariant -/

def FileOk (d : Disk ε) (next : Nat) (imm : List (ε × Nat)) : Option Nat → Prop
  | none => imm = []
  | some n => n ∈ d.tables ∧ (d.table n).synced ∧ (d.table n).entries = imm ∧ n < next

def JobOk (s : State ε) : Prop :=
  match s.job with
  | .idle => True
  | .building n => n ∉ s.version.tables ∧ n < s.nextFileNumber
  | .built n =>
    n < s.nextFileNumber ∧ n ∈ s.disk.tables ∧ ∃ m, s.imm = some m ∧ (s.disk.table n).entries = m
  | .ready newFile => ∃ m, s.imm = some m ∧ FileOk s.disk s.nextFileNumber m newFile
  | .logged edit =>
    edit.logNumber = s.logfileNumber ∧ ∃ m, s.imm = some m ∧ FileOk s.disk s.nextFileNumber m edit.newFile

namespace Phase

def group : Phase ε → Numbered ε
  | .waiting | .switched => []
  | .logged g _ | .synced g | .inserted g _ => g

def pending : Phase ε → List (ε × Nat)
  | .logged g _ | .synced g => g.entries
  | _ => []

def leaderSync : Phase ε → Bool
  | .logged _ sync | .inserted _ sync => sync
  | .synced _ => true
  | _ => false

def isSynced : Phase ε → Bool
  | .inserted _ sync => sync
  | .synced _ => true
  | _ => false

end Phase

structure Inv (s : State ε) : Prop where
  whole : s.disk.manifest.read.foldl Version.apply s.disk.snapshot ∈ s.candidates.getLast?
  readings : ∀ n, s.disk.manifest.synced ≤ n → (s.disk.manifest.wholeIn n).foldl Version.apply s.disk.snapshot ∈ s.candidates
  tables : ∀ n ∈ s.version.tables, n ∈ s.disk.tables ∧ (s.disk.table n).synced ∧ n < s.nextFileNumber
  job : JobOk s
  log_mem : s.logfileNumber ∈ s.disk.logs
  logs_le : ∀ n ∈ s.disk.logs, n ≤ s.logfileNumber
  log_lt : s.logfileNumber < s.nextFileNumber
  logNumber_le : s.version.logNumber ≤ s.logfileNumber
  mem_imm : ∀ n ∈ s.disk.logs, s.version.logNumber ≤ n → n ≠ s.logfileNumber →
    ∃ m, s.imm = some m ∧ ∀ e ∈ (s.disk.log n).read.flatten, e ∈ m
  mem_mem : ∀ e ∈ (s.disk.log s.logfileNumber).read.flatten, e ∈ s.mem ∨ e ∈ s.phase.pending

lemma Opened.inv (h : Opened s) : Inv s where
  whole := by
    rw [h.manifest, h.snapshot, candidates, h.job]
    rfl
  readings := by
    intro n _
    rw [h.manifest, h.snapshot, candidates, h.job]
    exact mem_singleton_self _
  tables := h.tables
  job := by
    rw [JobOk, h.job]
    trivial
  log_mem := h.log_mem
  logs_le := h.logs_le
  log_lt := h.log_lt
  logNumber_le := Nat.le_of_eq h.logNumber
  mem_imm := by
    intro n hn hle hne
    exact absurd (Nat.le_antisymm (h.logs_le n hn) (h.logNumber ▸ hle)) hne
  mem_mem := by
    intro e he
    rw [h.log] at he
    cases he

variable {n bytes : Nat}

lemma State.addRecord_some (hs : s.addRecord n bytes = some s') :
    ∃ w ws, s.writers = w :: ws ∧ (∀ w' ∈ s.writers.take n, w'.sync → w.sync) ∧
      let g := number (s.lastSequence + 1) (s.writers.take n)
      s' = { s with
        disk := { s.disk with
          log := update s.disk.log s.logfileNumber ((s.disk.log s.logfileNumber).addRecord g.entries bytes) }
        phase := .logged g w.sync } := by
  unfold addRecord at hs
  split at hs
  · cases hs
  · rename_i w ws hw
    dsimp only at hs
    split_ifs at hs with hc
    cases hs
    refine ⟨w, ws, hw, ?_, ?_⟩
    · rw [hw]
      exact hc.2.2
    · rw [hw]

inductive Step (s : State ε) : Action ε → State ε → Prop where
  | write {batch : Option (List ε)} {sync : Bool} :
      Step s (.write batch sync) { s with writers := s.writers ++ [⟨batch, sync, s.returned.entries⟩] }
  | switchMemTable (hphase : s.phase = .waiting ∨ s.phase = .switched) (himm : s.imm = none) :
      Step s .switchMemTable s.switchMemTable
  | pass {sync : Bool} {before : List (ε × Nat)} {ws : List (Writer ε)} (hphase : s.phase = .switched)
      (hwriters : s.writers = ⟨none, sync, before⟩ :: ws) :
      Step s .pass { s with
        writers := ws
        phase := .waiting
        returned := s.returned ++ [(⟨none, sync, before⟩, [])] }
  | addRecord {n bytes : Nat} {s' : State ε} (hphase : s.phase = .waiting ∨ s.phase = .switched)
      (hadd : s.addRecord n bytes = some s') : Step s (.addRecord n bytes) s'
  | sync {g : Numbered ε} (hphase : s.phase = .logged g true) : Step s .sync (s.syncLog g)
  | insertUnsynced {g : Numbered ε} (hphase : s.phase = .logged g false) : Step s .insert (s.insert g false)
  | insert {g : Numbered ε} (hphase : s.phase = .synced g) : Step s .insert (s.insert g true)
  | finish {g : Numbered ε} {sync : Bool} (hphase : s.phase = .inserted g sync) : Step s .finish (s.finish g)
  | flushBegin (hjob : s.job = .idle) :
      Step s .flushBegin { s with
        job := .building s.nextFileNumber
        nextFileNumber := s.nextFileNumber + 1 }
  | buildTable {n : Nat} {imm : List (ε × Nat)} (hjob : s.job = .building n) (himm : s.imm = some imm) :
      Step s .buildTable (s.buildTable n imm)
  | syncTable {n : Nat} (hjob : s.job = .built n) : Step s .syncTable (s.syncTable n)
  | logEdit {newFile : Option Nat} {bytes : Nat} (hjob : s.job = .ready newFile) :
      Step s (.logEdit bytes) (s.logEdit newFile bytes)
  | install {edit : VersionEdit} (hjob : s.job = .logged edit) : Step s .install (s.install edit)
  | removeLog {n : Nat} (hjob : s.job = .idle) (hn : n < s.version.logNumber) :
      Step s (.removeLog n) { s with disk := { s.disk with logs := s.disk.logs.filter (· ≠ n) } }
  | removeTable {n : Nat} (hjob : s.job = .idle) (hn : n ∉ s.version.tables) :
      Step s (.removeTable n) { s with disk := { s.disk with tables := s.disk.tables.filter (· ≠ n) } }

variable {a : Action ε}

lemma Step.of_step (hs : step s a = some s') : Step s a s' := by
  cases a with
  | write batch sync =>
    cases hs
    exact .write
  | addRecord n bytes =>
    simp only [step] at hs
    split at hs
    · exact .addRecord (.inl ‹_›) hs
    · exact .addRecord (.inr ‹_›) hs
    · cases hs
  | removeLog n =>
    simp only [step] at hs
    split_ifs at hs with hc
    cases hs
    exact .removeLog hc.1 hc.2
  | removeTable n =>
    simp only [step] at hs
    split_ifs at hs with hc
    cases hs
    exact .removeTable hc.1 hc.2
  | switchMemTable =>
    simp only [step] at hs
    split at hs
    · cases hs
      exact .switchMemTable (.inl ‹_›) ‹_›
    · cases hs
      exact .switchMemTable (.inr ‹_›) ‹_›
    · cases hs
  | insert =>
    simp only [step] at hs
    split at hs
    · cases hs
      exact .insertUnsynced ‹_›
    · cases hs
      exact .insert ‹_›
    · cases hs
  | _ =>
    simp only [step] at hs
    split at hs
    · cases hs
      constructor <;> assumption
    · cases hs

lemma pending_of_waiting {phase : Phase ε} (h : phase = .waiting ∨ phase = .switched) : phase.pending = [] := by
  rcases h with h | h <;> rw [h] <;> rfl

/-! ## Steps that keep the invariant -/

lemma Inv.whole_of (h : Inv s) {vs : List Version} (hc : s.candidates = vs) :
    s.disk.manifest.read.foldl Version.apply s.disk.snapshot ∈ vs.getLast? :=
  hc ▸ h.whole

lemma Inv.readings_of (h : Inv s) {vs : List Version} (hc : s.candidates = vs) (n : Nat)
    (hn : s.disk.manifest.synced ≤ n) : (s.disk.manifest.wholeIn n).foldl Version.apply s.disk.snapshot ∈ vs :=
  hc ▸ h.readings n hn

lemma not_mem_logs_of_next (h : Inv s) : s.nextFileNumber ∉ s.disk.logs :=
  fun hn => absurd (h.logs_le _ hn) (Nat.not_le.2 h.log_lt)

lemma Inv.switchMemTable (h : Inv s) (himm : s.imm = none) (hphase : s.phase.pending = []) : Inv s.switchMemTable := by
  have hne : ∀ n ∈ s.disk.logs, n ≠ s.nextFileNumber := fun n hn he => not_mem_logs_of_next h (he ▸ hn)
  have hlog : ∀ n ∈ s.disk.logs, s.switchMemTable.disk.log n = s.disk.log n :=
    fun n hn => update_of_ne (hne n hn) _ _
  exact {
    whole := h.whole
    readings := h.readings
    tables := fun n hn => ⟨(h.tables n hn).1, (h.tables n hn).2.1, Nat.lt_succ_of_lt (h.tables n hn).2.2⟩
    job := by
      have hjob := h.job
      unfold JobOk at hjob ⊢
      change match s.job with
        | .idle => True
        | .building n => _
        | .built n => _
        | .ready newFile => _
        | .logged edit => _
      cases hj : s.job with
      | idle => trivial
      | building n =>
        rw [hj] at hjob
        exact ⟨hjob.1, Nat.lt_succ_of_lt hjob.2⟩
      | built n =>
        rw [hj] at hjob
        obtain ⟨-, -, m, hm, -⟩ := hjob
        exact absurd (himm.symm.trans hm) nofun
      | ready newFile =>
        rw [hj] at hjob
        obtain ⟨m, hm, -⟩ := hjob
        exact absurd (himm.symm.trans hm) nofun
      | logged edit =>
        rw [hj] at hjob
        obtain ⟨-, m, hm, -⟩ := hjob
        exact absurd (himm.symm.trans hm) nofun
    log_mem := mem_cons_self
    logs_le := by
      intro n hn
      rcases mem_cons.1 hn with rfl | hn
      · exact Nat.le_refl _
      · exact Nat.le_trans (h.logs_le n hn) (Nat.le_of_lt h.log_lt)
    log_lt := Nat.lt_succ_self _
    logNumber_le := Nat.le_trans h.logNumber_le (Nat.le_of_lt h.log_lt)
    mem_imm := by
      intro n hn hle hnew
      rcases mem_cons.1 hn with rfl | hn
      · exact absurd rfl hnew
      · refine ⟨s.mem, rfl, ?_⟩
        intro e he
        rw [hlog n hn] at he
        by_cases hcur : n = s.logfileNumber
        · rcases h.mem_mem e (hcur ▸ he) with he | he
          · exact he
          · rw [hphase] at he
            cases he
        · obtain ⟨m, hm, -⟩ := h.mem_imm n hn hle hcur
          exact absurd (himm.symm.trans hm) nofun
    mem_mem := by
      intro e he
      have hempty : s.switchMemTable.disk.log s.nextFileNumber = .empty := update_self _ _ _
      change e ∈ (s.switchMemTable.disk.log s.nextFileNumber).read.flatten at he
      rw [hempty] at he
      cases he }

variable {f : LogFile (List (ε × Nat))}

lemma Inv.setLog (h : Inv s) {phase : Phase ε} (hf : ∀ e ∈ f.read.flatten, e ∈ s.mem ∨ e ∈ phase.pending) : Inv { s with
    disk := { s.disk with log := update s.disk.log s.logfileNumber f }
    phase := phase } :=
  { h with
    mem_imm := by
      intro n hn hle hne
      obtain ⟨m, hm, hread⟩ := h.mem_imm n hn hle hne
      refine ⟨m, hm, ?_⟩
      intro e he
      dsimp only at he
      rw [update_of_ne hne] at he
      exact hread e he
    mem_mem := by
      intro e he
      dsimp only at he
      rw [update_self] at he
      exact hf e he }

lemma Inv.insert (h : Inv s) {g : Numbered ε} {sync : Bool} (hphase : s.phase.pending = g.entries) : Inv (s.insert g sync) :=
  { h with
    mem_mem := by
      intro e he
      rcases h.mem_mem e he with hmem | hg
      · exact .inl (mem_append_left _ hmem)
      · exact .inl (mem_append_right _ (hphase ▸ hg)) }

lemma Inv.flushBegin (h : Inv s) (hjob : s.job = .idle) : Inv { s with
    job := .building s.nextFileNumber
    nextFileNumber := s.nextFileNumber + 1 } := by
  have hcand : s.candidates = [s.version] := by rw [candidates, hjob]
  exact { h with
    whole := h.whole_of hcand
    readings := h.readings_of hcand
    tables := fun n hn => ⟨(h.tables n hn).1, (h.tables n hn).2.1, Nat.lt_succ_of_lt (h.tables n hn).2.2⟩
    job := ⟨fun hn => absurd (h.tables _ hn).2.2 (Nat.lt_irrefl _), Nat.lt_succ_self _⟩
    log_lt := Nat.lt_succ_of_lt h.log_lt }

variable {imm : List (ε × Nat)}

lemma Inv.buildTable (h : Inv s) (hjob : s.job = .building n) (himm : s.imm = some imm) : Inv (s.buildTable n imm) := by
  have hcand : s.candidates = [s.version] := by rw [State.candidates, hjob]
  have hok := h.job
  rw [JobOk, hjob] at hok
  unfold State.buildTable
  cases imm with
  | nil =>
    exact { h with
      whole := h.whole_of hcand
      readings := h.readings_of hcand
      job := ⟨[], himm, rfl⟩ }
  | cons e es =>
    exact { h with
      whole := h.whole_of hcand
      readings := h.readings_of hcand
      tables := by
        intro t ht
        have hne : t ≠ n := fun he => hok.1 (he ▸ ht)
        refine ⟨mem_cons_of_mem _ (h.tables t ht).1, ?_, (h.tables t ht).2.2⟩
        change (Function.update s.disk.table n _ t).synced = true
        rw [Function.update_of_ne hne]
        exact (h.tables t ht).2.1
      job := by
        refine ⟨hok.2, mem_cons_self, e :: es, himm, ?_⟩
        change (Function.update s.disk.table n _ n).entries = _
        rw [Function.update_self] }

lemma table_syncTable (s : State ε) (n t : Nat) : ((s.syncTable n).disk.table t).entries = (s.disk.table t).entries ∧
    ((s.disk.table t).synced → ((s.syncTable n).disk.table t).synced) := by
  by_cases ht : t = n
  · subst ht
    simp [syncTable]
  · simp [syncTable, update_of_ne ht]

section

variable (h : Inv s)
include h

lemma Inv.syncTable (hjob : s.job = .built n) : Inv (s.syncTable n) := by
  have hcand : s.candidates = [s.version] := by rw [State.candidates, hjob]
  have hok := h.job
  rw [JobOk, hjob] at hok
  obtain ⟨hlt, hmem, m, himm, hentries⟩ := hok
  exact { h with
    whole := h.whole_of hcand
    readings := h.readings_of hcand
    tables := fun t ht => ⟨(h.tables t ht).1, (table_syncTable s n t).2 (h.tables t ht).2.1, (h.tables t ht).2.2⟩
    job := by
      refine ⟨m, himm, hmem, ?_, (table_syncTable s n n).1.trans hentries, hlt⟩
      simp [State.syncTable] }

lemma Inv.logEdit {newFile : Option Nat} (hjob : s.job = .ready newFile) : Inv (s.logEdit newFile bytes) := by
  have hcand : s.candidates = [s.version] := by rw [candidates, hjob]
  have hok := h.job
  rw [JobOk, hjob] at hok
  have hwhole := (Option.mem_some_iff.1 (h.whole_of hcand)).symm
  exact { h with
    whole := by
      change (s.disk.manifest.addRecord _ _).read.foldl Version.apply s.disk.snapshot ∈ some _
      rw [read_addRecord, foldl_append, hwhole]
      rfl
    readings := by
      intro n hn
      change ((s.disk.manifest.addRecord _ _).wholeIn n).foldl Version.apply s.disk.snapshot ∈ [s.version, _]
      rcases @LogFile.wholeIn_addRecord _ s.disk.manifest ⟨newFile, s.logfileNumber⟩ bytes n with heq | heq
      · rw [heq]
        exact mem_cons.2 (.inl (mem_singleton.1 (h.readings_of hcand n hn)))
      · rw [heq, foldl_append, hwhole]
        exact mem_cons_of_mem _ (mem_singleton_self _)
    job := ⟨rfl, hok⟩ }

lemma Inv.install {edit : VersionEdit} (hjob : s.job = .logged edit) : Inv (s.install edit) := by
  have hcand : s.candidates = [s.version, s.version.apply edit] := by rw [candidates, hjob]
  have hok := h.job
  rw [JobOk, hjob] at hok
  obtain ⟨hlog, m, himm, hfile⟩ := hok
  have hwhole := h.whole_of hcand
  have hread := (Option.mem_some_iff.1 hwhole).symm
  exact { h with
    whole := hwhole
    readings := by
      intro n hn
      change (s.disk.manifest.sync.wholeIn n).foldl Version.apply s.disk.snapshot ∈ [_]
      rw [wholeIn_of_length_le (show s.disk.manifest.sync.length ≤ n from hn)]
      exact mem_singleton.2 hread
    tables := by
      intro n hn
      rcases mem_append.1 hn with hn | hn
      · cases hnew : edit.newFile with
        | none =>
          rw [hnew] at hn
          cases hn
        | some t =>
          rw [hnew] at hn hfile
          cases mem_singleton.1 hn
          exact ⟨hfile.1, hfile.2.1, hfile.2.2.2⟩
      · exact h.tables n hn
    job := trivial
    logNumber_le := Nat.le_of_eq hlog
    mem_imm := by
      intro n hn hle hne
      exact absurd (Nat.le_antisymm (h.logs_le n hn) (hlog ▸ hle)) hne }

lemma Inv.removeLog (hn : n < s.version.logNumber) :
    Inv { s with disk := { s.disk with logs := s.disk.logs.filter (· ≠ n) } } :=
  { h with
    log_mem := mem_filter.2 ⟨h.log_mem, decide_eq_true (Nat.ne_of_gt (Nat.lt_of_lt_of_le hn h.logNumber_le))⟩
    logs_le := fun m hm => h.logs_le m (mem_of_mem_filter hm)
    mem_imm := fun m hm => h.mem_imm m (mem_of_mem_filter hm) }

lemma Inv.removeTable (hjob : s.job = .idle) (hn : n ∉ s.version.tables) :
    Inv { s with disk := { s.disk with tables := s.disk.tables.filter (· ≠ n) } } :=
  { h with
    tables := by
      intro t ht
      obtain ⟨hmem, hrest⟩ := h.tables t ht
      exact ⟨mem_filter.2 ⟨hmem, decide_eq_true fun he => hn (he ▸ ht)⟩, hrest⟩
    job := by
      unfold JobOk
      rw [hjob]
      trivial }

lemma Inv.step (hs : Step s a s') : Inv s' := by
  cases hs with
  | write => exact { h with }
  | switchMemTable hphase himm => exact h.switchMemTable himm (pending_of_waiting hphase)
  | pass hphase | finish hphase =>
    have hmem := h.mem_mem
    rw [hphase] at hmem
    exact { h with mem_mem := hmem }
  | addRecord hphase hadd =>
    obtain ⟨w, ws, -, -, rfl⟩ := addRecord_some hadd
    refine h.setLog ?_
    intro e he
    rw [read_addRecord, flatten_append, mem_append] at he
    rcases he with he | he
    · rcases h.mem_mem e he with he | he
      · exact .inl he
      · rw [pending_of_waiting hphase] at he
        cases he
    · rw [flatten_singleton] at he
      exact .inr he
  | sync hphase =>
    have hmem := h.mem_mem
    rw [hphase] at hmem
    exact h.setLog hmem
  | insertUnsynced hphase | insert hphase => exact h.insert (by rw [hphase]; rfl)
  | flushBegin hjob => exact h.flushBegin hjob
  | buildTable hjob himm => exact h.buildTable hjob himm
  | syncTable hjob => exact h.syncTable hjob
  | logEdit hjob => exact h.logEdit hjob
  | install hjob => exact h.install hjob
  | removeLog _ hn => exact h.removeLog hn
  | removeTable hjob hn => exact h.removeTable hjob hn

end

/-! ## Operations stay -/

lemma Held.setLog (hf : ∀ x ∈ part (d.log n), x ∈ part f)
    (h : Held part d v e) : Held part { d with log := update d.log n f } v e := by
  refine h.mono (fun t _ ht => ⟨ht, rfl⟩) ?_
  intro m hm _
  refine ⟨hm, ?_⟩
  intro x hx
  by_cases hmn : m = n
  · subst hmn
    dsimp only
    rw [update_self]
    exact hf x hx
  · dsimp only
    rw [update_of_ne hmn]
    exact hx

lemma Held.switchMemTable (h : Inv s) (he : Held part s.disk v e) : Held part s.switchMemTable.disk v e := by
  refine he.mono (fun t _ ht => ⟨ht, rfl⟩) ?_
  intro m hm _
  refine ⟨mem_cons_of_mem _ hm, ?_⟩
  intro x hx
  have hne : m ≠ s.nextFileNumber := fun heq => not_mem_logs_of_next h (heq ▸ hm)
  change x ∈ part (update s.disk.log s.nextFileNumber .empty m)
  rw [update_of_ne hne]
  exact hx

lemma Held.buildTable (hn : n ∉ v.tables) (he : Held part s.disk v e) : Held part (s.buildTable n imm).disk v e := by
  unfold State.buildTable
  split_ifs
  · exact he
  · refine he.mono ?_ (fun m hm _ => ⟨hm, fun x hx => hx⟩)
    intro t ht hmem
    have hne : t ≠ n := fun heq => hn (heq ▸ ht)
    refine ⟨mem_cons_of_mem _ hmem, ?_⟩
    dsimp only
    rw [Function.update_of_ne hne]

lemma Held.apply (hp : Part part) (h : Inv s) {newFile : Option Nat} (hjob : s.job = .ready newFile)
    (he : Held part s.disk s.version e) : Held part s.disk (s.version.apply ⟨newFile, s.logfileNumber⟩) e := by
  have hok := h.job
  rw [JobOk, hjob] at hok
  obtain ⟨m, himm, hfile⟩ := hok
  rcases he with ⟨n, hn, hmem, he⟩ | ⟨n, hmem, hle, he⟩
  · exact .inl ⟨n, mem_append_right _ hn, hmem, he⟩
  · by_cases hcur : n = s.logfileNumber
    · exact .inr ⟨n, hmem, Nat.le_of_eq hcur.symm, he⟩
    · obtain ⟨m', himm', hread⟩ := h.mem_imm n hmem hle hcur
      cases himm.symm.trans himm'
      have hem := hread e (mem_flatten_of_subset (hp.read _) he)
      cases newFile with
      | none =>
        rw [show m = [] from hfile] at hem
        cases hem
      | some t => exact .inl ⟨t, mem_append_left _ (mem_singleton_self t), hfile.1, hfile.2.2.1 ▸ hem⟩

lemma Stays.mono (h : Stays part s e) (hc : ∀ v ∈ s'.candidates, v ∈ s.candidates)
    (hd : ∀ v ∈ s'.candidates, Held part s.disk v e → Held part s'.disk v e) : Stays part s' e :=
  fun v hv => hd v hv (h v (hc v hv))

lemma candidates_eq (hjob : ∀ edit, s.job ≠ .logged edit) : s.candidates = [s.version] := by
  unfold candidates
  cases hj : s.job with
  | logged edit => exact absurd hj (hjob edit)
  | _ => rfl

lemma mem_candidates_version : s.version ∈ s.candidates := by
  unfold candidates
  cases s.job with
  | logged edit => exact mem_cons_self
  | _ => exact mem_singleton_self _

lemma Stays.quiet (h : Stays part s e) (hjob : ∀ edit, s'.job ≠ .logged edit) (hv : s'.version = s.version)
    (hd : Held part s.disk s.version e → Held part s'.disk s.version e) : Stays part s' e := by
  intro v hmem
  rw [candidates_eq hjob, mem_singleton, hv] at hmem
  subst hmem
  exact hd (h _ mem_candidates_version)

lemma Stays.step (hp : Part part) (hi : Inv s) (hs : Step s a s') (h : Stays part s e) : Stays part s' e := by
  cases hs with
  | write => exact h
  | switchMemTable => exact fun v hv => (h v hv).switchMemTable hi
  | pass => exact h
  | addRecord _ hadd =>
    obtain ⟨w, ws, -, -, rfl⟩ := addRecord_some hadd
    exact fun v hv => (h v hv).setLog (hp.addRecord _ _ _)
  | sync => exact fun v hv => (h v hv).setLog (hp.sync _)
  | insertUnsynced => exact h
  | insert => exact h
  | finish => exact h
  | flushBegin => exact h.quiet nofun rfl id
  | @buildTable n imm hjob =>
    have hok := hi.job
    rw [JobOk, hjob] at hok
    have hjob' : ∀ edit, (s.buildTable n imm).job ≠ .logged edit := by
      unfold buildTable
      split_ifs <;> nofun
    have hv : (s.buildTable n imm).version = s.version := by
      unfold buildTable
      split_ifs <;> rfl
    exact h.quiet hjob' hv (Held.buildTable hok.1)
  | @syncTable n =>
    refine h.quiet nofun rfl fun he => he.mono ?_ fun m hm _ => ⟨hm, fun x hx => hx⟩
    exact fun t _ ht => ⟨ht, (table_syncTable s n t).1⟩
  | logEdit hjob =>
    have hver := h _ mem_candidates_version
    intro v hv
    rcases mem_cons.1 hv with rfl | hv
    · exact hver
    · cases mem_singleton.1 hv
      exact hver.apply hp hi hjob
  | install hjob =>
    refine h.mono ?_ fun v _ he => he
    intro v hv
    cases mem_singleton.1 hv
    rw [candidates, hjob]
    exact mem_cons_of_mem _ (mem_singleton_self _)
  | removeLog hjob hn =>
    refine h.quiet (fun edit he => absurd (hjob.symm.trans he) nofun) rfl fun he =>
      he.mono (fun t _ ht => ⟨ht, rfl⟩) ?_
    intro m hm hle
    exact ⟨mem_filter.2 ⟨hm, decide_eq_true (Nat.ne_of_gt (Nat.lt_of_lt_of_le hn hle))⟩, fun x hx => hx⟩
  | removeTable hjob hn =>
    refine h.quiet (fun edit he => absurd (hjob.symm.trans he) nofun) rfl fun he =>
      he.mono ?_ fun m hm _ => ⟨hm, fun x hx => hx⟩
    intro t ht hmem
    exact ⟨mem_filter.2 ⟨hmem, decide_eq_true fun heq => hn (heq ▸ ht)⟩, rfl⟩

lemma Inv.logNumber_bounds (h : Inv s) (hv : v ∈ s.candidates) :
    s.version.logNumber ≤ v.logNumber ∧ v.logNumber ≤ s.logfileNumber := by
  have hok := h.job
  unfold candidates at hv
  unfold JobOk at hok
  cases hj : s.job with
  | logged edit =>
    rw [hj] at hv hok
    rcases mem_cons.1 hv with rfl | hv
    · exact ⟨Nat.le_refl _, h.logNumber_le⟩
    · cases mem_singleton.1 hv
      have hlog : (s.version.apply edit).logNumber = s.logfileNumber := hok.1
      rw [hlog]
      exact ⟨h.logNumber_le, Nat.le_refl _⟩
  | _ =>
    rw [hj] at hv
    cases mem_singleton.1 hv
    exact ⟨Nat.le_refl _, h.logNumber_le⟩

lemma Inv.candidate_tables (h : Inv s) (hv : v ∈ s.candidates) (hn : n ∈ v.tables) :
    n ∈ s.disk.tables ∧ (s.disk.table n).synced := by
  have hok := h.job
  have hversion : n ∈ s.version.tables → n ∈ s.disk.tables ∧ (s.disk.table n).synced :=
    fun hn => ⟨(h.tables n hn).1, (h.tables n hn).2.1⟩
  unfold candidates at hv
  unfold JobOk at hok
  cases hj : s.job with
  | logged edit =>
    rw [hj] at hv hok
    obtain ⟨-, m, -, hfile⟩ := hok
    rcases mem_cons.1 hv with rfl | hv
    · exact hversion hn
    · cases mem_singleton.1 hv
      rcases mem_append.1 hn with hn | hn
      · rw [Option.mem_toList] at hn
        rw [Option.mem_def.1 hn] at hfile
        exact ⟨hfile.1, hfile.2.1⟩
      · exact hversion hn
  | _ =>
    rw [hj] at hv
    cases mem_singleton.1 hv
    exact hversion hn

lemma Inv.stays_of_log (h : Inv s) (he : e ∈ (part (s.disk.log s.logfileNumber)).flatten) : Stays part s e :=
  fun _ hv => .inr ⟨s.logfileNumber, h.log_mem, (h.logNumber_bounds hv).2, he⟩

lemma Stays.safe_of_synced (hi : Inv s)
    (hsynced : ∀ n ∈ s.disk.logs, s.version.logNumber ≤ n → (s.disk.log n).length ≤ (s.disk.log n).synced)
    (h : Stays read s e) : Stays safe s e := by
  intro v hv
  rcases h v hv with htable | ⟨n, hn, hle, he⟩
  · exact .inl htable
  · refine .inr ⟨n, hn, hle, ?_⟩
    rw [safe, wholeIn_of_length_le (hsynced n hn (Nat.le_trans (hi.logNumber_bounds hv).1 hle))]
    exact he

lemma Inv.recover (h : Inv s) (c : Crash) :
    ∃ entries, s.disk.recover c = some entries ∧ ∀ e, Stays safe s e → e ∈ entries := by
  have hv : s.disk.recoverVersion c ∈ s.candidates := h.readings _ (Nat.le_max_left _ _)
  have htables : ∀ n ∈ (s.disk.recoverVersion c).tables, s.disk.tableLeft c n := by
    intro n hn
    obtain ⟨hmem, hsynced⟩ := h.candidate_tables hv hn
    exact ⟨hmem, .inl hsynced⟩
  refine ⟨_, if_pos htables, ?_⟩
  intro e he
  rcases he _ hv with ⟨n, hn, -, he⟩ | ⟨n, hn, hle, he⟩
  · exact mem_append_left _ (mem_flatMap.2 ⟨n, hn, he⟩)
  · refine mem_append_right _ (mem_flatMap.2 ⟨n, mem_filter.2 ⟨hn, decide_eq_true hle⟩, ?_⟩)
    exact mem_flatten_of_subset (fun x hx => wholeIn_mono (Nat.le_max_left _ _) hx) he

end RallyDB.Db.Durability
