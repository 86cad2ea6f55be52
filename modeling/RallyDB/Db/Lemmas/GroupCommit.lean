import RallyDB.Db.Lemmas.State
import RallyDB.Db.Lemmas.WriteQueue
import RallyDB.Db.System

/-!
# The queue of writers over a run
-/

namespace RallyDB.Db.System

/-! ## What a step of the process does to the queue of writers -/

section

open Util Table Descriptor List Process Option

variable {c : Config} {p p' : Process} {disk disk' : Disk} {calls : Nat} {a : Action} {events : List Event}

structure SameQueue (p p' : Process) : Prop where
  mem : p'.mem = p.mem
  writers : p'.writers = p.writers
  phase : p'.phase = p.phase
  tmpBatch : p'.tmpBatch = p.tmpBatch
  done : p'.done = p.done
  lastSequence : p'.vs.lastSequence = p.vs.lastSequence

def Process.group (p : Process) (w : Writer) (first : Batch) (ws : List Writer) : Group :=
  let g := buildBatchGroup p.tmpBatch w.sync first.writeBatch ws
  { g with batch := g.batch.setSequence (p.vs.lastSequence + 1) }

inductive Step (c : Config) (p : Process) (disk : Disk) (calls : Nat) :
    Action → Process → Disk → List Event → Prop where
  | write (batch : Option Batch) (sync : Bool) :
      Step c p disk calls (.write batch sync) { p with writers := p.writers ++ [⟨calls, batch, sync⟩] } disk
        [.began ⟨calls, batch, sync⟩]
  | begin {w : Writer} {ws : List Writer} (hphase : p.phase = .waiting) (hwriters : p.writers = w :: ws) :
      Step c p disk calls .begin { p with phase := .makeRoom w.batch.isNone (!w.batch.isNone) } disk []
  | noRoom {force allowDelay newFileFails closeFails : Bool} {w : Writer} {ws : List Writer} {e : Error}
      (hphase : p.phase = .makeRoom force allowDelay) (hwriters : p.writers = w :: ws)
      (herror : p.bgError = some e ∨ newFileFails = true) :
      Step c p disk calls (.makeRoom newFileFails closeFails) (p.pop 1 (.error e)).1 disk (p.pop 1 (.error e)).2
  | delay {force allowDelay newFileFails closeFails : Bool} (hphase : p.phase = .makeRoom force allowDelay) :
      Step c p disk calls (.makeRoom newFileFails closeFails) { p with phase := .makeRoom force false } disk []
  | wait {force allowDelay newFileFails closeFails : Bool} (hphase : p.phase = .makeRoom force allowDelay) :
      Step c p disk calls (.makeRoom newFileFails closeFails) p disk []
  | switch {force allowDelay newFileFails closeFails : Bool} {w : Writer} {ws : List Writer}
      (hphase : p.phase = .makeRoom force allowDelay) (hwriters : p.writers = w :: ws) (herror : p.bgError = none)
      (himm : p.imm = none) :
      Step c p disk calls (.makeRoom newFileFails closeFails) (p.switchMemTable disk allowDelay closeFails).1
        (p.switchMemTable disk allowDelay closeFails).2.1 [.switched]
  | roomForNone {allowDelay newFileFails closeFails : Bool} {w : Writer} {ws : List Writer}
      (hphase : p.phase = .makeRoom false allowDelay) (hwriters : p.writers = w :: ws) (hbatch : w.batch = none) :
      Step c p disk calls (.makeRoom newFileFails closeFails) (p.pop 1 (.ok ())).1 disk (p.pop 1 (.ok ())).2
  | room {allowDelay newFileFails closeFails : Bool} {w : Writer} {ws : List Writer} {first : Batch}
      (hphase : p.phase = .makeRoom false allowDelay) (hwriters : p.writers = w :: ws) (hbatch : w.batch = some first)
      (hmax : p.vs.lastSequence + (p.group w first ws).batch.count ≤ kMaxSequenceNumber) :
      Step c p disk calls (.makeRoom newFileFails closeFails)
        { p with
          tmpBatch := if (p.group w first ws).usesTmp then (p.group w first ws).batch else p.tmpBatch
          phase := .addRecord (p.group w first ws) (p.vs.lastSequence + (p.group w first ws).batch.count) } disk []
  | addRecordFails {faults : List (Option Nat)} {g : Group} {lastSequence : Nat} {w : Writer} {ws : List Writer}
      {blockOffset : Nat} {disk' : Disk} {e : Error}
      (hphase : p.phase = .addRecord g lastSequence) (hwriters : p.writers = w :: ws)
      (herror : (Log.Writer.addRecord c.crc ⟨⟨(disk.logs.file p.logfileNumber).bytes, faults⟩, p.blockOffset⟩
        g.batch.rep).2 = .error e) :
      Step c p disk calls (.addRecord faults) { p with blockOffset, phase := .finish g lastSequence (.error e) false }
        disk' []
  | addRecord {faults : List (Option Nat)} {g : Group} {lastSequence : Nat} {w : Writer} {ws : List Writer}
      {blockOffset : Nat} {disk' : Disk} (hphase : p.phase = .addRecord g lastSequence) (hwriters : p.writers = w :: ws) :
      Step c p disk calls (.addRecord faults)
        { p with blockOffset, phase := if w.sync then .sync g lastSequence else .insert g lastSequence } disk'
        [.appended g.batch]
  | syncFails {g : Group} {lastSequence : Nat} (hphase : p.phase = .sync g lastSequence) :
      Step c p disk calls (.sync true) { p with phase := .finish g lastSequence (.error (.ioError "sync")) true } disk []
  | sync {g : Group} {lastSequence : Nat} {disk' : Disk} (hphase : p.phase = .sync g lastSequence) :
      Step c p disk calls (.sync false) { p with phase := .insert g lastSequence } disk' []
  | insert {g : Group} {lastSequence : Nat} (hphase : p.phase = .insert g lastSequence) :
      Step c p disk calls .insert
        { p with mem := (g.batch.insertInto p.mem).1, phase := .finish g lastSequence (g.batch.insertInto p.mem).2 false }
        disk [.inserted (batchEntries g.batch.sequence g.batch.iterate.1)]
  | finish {g : Group} {lastSequence : Nat} {status : Status} {syncError : Bool} {bgError : Option Error}
      (hphase : p.phase = .finish g lastSequence status syncError) (hbg : syncError = false → bgError = p.bgError) :
      Step c p disk calls .finish
        { (p.pop g.writers status).1 with
          vs := { p.vs with lastSequence }
          tmpBatch := if g.usesTmp then .clear else p.tmpBatch
          bgError } disk (p.pop g.writers status).2
  | ret {id : Nat} {q : Writer × Status} (hq : q ∈ p.done) :
      Step c p disk calls (.ret id) { p with done := p.done.filter fun q => q.1.id ≠ id } disk [.returned q.1 q.2]
  | background {a : Action} {p' : Process} {disk' : Disk} {events : List Event} (hsame : SameQueue p p')
      (hbg : (∀ e, a ≠ .backgroundFails e) → p'.bgError = p.bgError)
      (hevents : (events = [] ∧ p'.imm = p.imm) ∨ (events = [.flushed (p.imm.getD [])] ∧ p'.imm = none)) :
      Step c p disk calls a p' disk' events

lemma Process.roomMade_some {w : Writer} {ws : List Writer} {first : Batch} (hbatch : w.batch = some first) :
    p.roomMade w ws =
      if p.vs.lastSequence + (p.group w first ws).batch.count ≤ kMaxSequenceNumber then
        some ({ p with
          tmpBatch := if (p.group w first ws).usesTmp then (p.group w first ws).batch else p.tmpBatch
          phase := .addRecord (p.group w first ws) (p.vs.lastSequence + (p.group w first ws).batch.count) }, [])
      else none := by
  unfold roomMade
  rw [hbatch]
  rfl

lemma step_makeRoom {newFileFails closeFails : Bool}
    (h : p.makeRoom c disk newFileFails closeFails = some (p', disk', events)) :
    Step c p disk calls (.makeRoom newFileFails closeFails) p' disk' events := by
  unfold makeRoom at h
  split at h
  · rename_i force allowDelay w ws hphase hwriters
    split at h
    · rename_i e he
      cases h
      exact .noRoom hphase hwriters (.inl he)
    · rename_i hbg
      dsimp only at h
      split_ifs at h with h1 h2 h3 h4 h5
      · cases h
        exact .delay hphase
      · have hforce : force = false := by
          simp only [Bool.and_eq_true, Bool.not_eq_true'] at h2
          exact h2.1
        subst hforce
        cases hbatch : w.batch with
        | none =>
          unfold roomMade at h
          rw [hbatch] at h
          cases h
          exact .roomForNone hphase hwriters hbatch
        | some first =>
          rw [roomMade_some hbatch] at h
          by_cases hmax : p.vs.lastSequence + (p.group w first ws).batch.count ≤ kMaxSequenceNumber
          · rw [if_pos hmax] at h
            cases h
            exact .room hphase hwriters hbatch hmax
          · rw [if_neg hmax] at h
            cases h
      · cases h
        exact .wait hphase
      · cases h
        exact .wait hphase
      · cases h
        exact .noRoom hphase hwriters (.inr h5)
      · cases h
        refine .switch hphase hwriters hbg ?_
        simpa using h3
  · cases h

lemma step_addRecord {faults : List (Option Nat)} (h : p.addRecord c disk faults = some (p', disk', events)) :
    Step c p disk calls (.addRecord faults) p' disk' events := by
  unfold addRecord at h
  split at h
  · rename_i g lastSequence w ws hphase hwriters
    dsimp only at h
    split at h
    · rename_i e he
      cases h
      exact .addRecordFails hphase hwriters he
    · cases h
      exact .addRecord hphase hwriters
  · cases h

lemma step_sync {fails : Bool} (h : p.sync disk fails = some (p', disk', events)) :
    Step c p disk calls (.sync fails) p' disk' events := by
  unfold sync at h
  split at h
  · rename_i g lastSequence hphase
    cases fails with
    | true =>
      cases h
      exact .syncFails hphase
    | false =>
      cases h
      exact .sync hphase
  · cases h

lemma step_insert (h : p.insert = some (p', events)) : Step c p disk calls .insert p' disk events := by
  unfold Process.insert at h
  split at h
  · rename_i g lastSequence hphase
    cases h
    exact .insert hphase
  · cases h

lemma step_finish (h : p.finish = some (p', events)) : Step c p disk calls .finish p' disk events := by
  unfold finish at h
  split at h
  · rename_i g lastSequence status syncError hphase
    cases h
    refine .finish hphase fun hno => ?_
    rw [hno]
  · cases h

lemma step_ret {id : Nat} (h : p.ret id = some (p', events)) : Step c p disk calls (.ret id) p' disk events := by
  unfold ret at h
  obtain ⟨q, hq, h⟩ := map_eq_some_iff.1 h
  cases h
  exact .ret (mem_of_find?_eq_some hq)

/-! ## The background thread leaves the writers alone -/

structure Untouched (p p' : Process) : Prop extends SameQueue p p' where
  bgError : p'.bgError = p.bgError
  imm : p'.imm = p.imm

lemma Untouched.step (h : Untouched p p') : Step c p disk calls a p' disk' [] :=
  .background h.toSameQueue (fun _ => h.bgError) (.inl ⟨rfl, h.imm⟩)

lemma sameQueue_flushBegin (h : p.flushBegin = some p') : Untouched p p' := by
  unfold flushBegin at h
  split_ifs at h
  cases h
  repeat' constructor

lemma sameQueue_flushWrite (h : p.flushWrite c disk = some (p', disk')) : Untouched p p' := by
  unfold flushWrite at h
  split at h
  · split at h
    · cases h
      repeat' constructor
    · cases h
      repeat' constructor
  · cases h

variable {level : Nat}

lemma sameQueue_flushReady (h : p.flushReady level = some p') : Untouched p p' := by
  unfold flushReady at h
  split at h
  · split_ifs at h
    cases h
    repeat' constructor
  · cases h

lemma sameQueue_compactBegin {inputs : List (Nat × Descriptor.FileMetaData)}
    (h : p.compactBegin level inputs = some p') : Untouched p p' := by
  unfold compactBegin at h
  split_ifs at h
  cases h
  repeat' constructor

lemma sameQueue_compactOutput {entries : List (Entry Slice)} (h : p.compactOutput c disk entries = some (p', disk')) :
    Untouched p p' := by
  unfold compactOutput at h
  split at h
  · split_ifs at h
    cases h
    repeat' constructor
  · cases h

variable {pointers : List (Nat × Slice)}

lemma sameQueue_compactReady (h : p.compactReady pointers = some p') : Untouched p p' := by
  unfold compactReady at h
  split at h
  · cases h
    repeat' constructor
  · cases h

lemma sameQueue_trivialMove {f : Descriptor.FileMetaData}
    (h : p.trivialMove level f pointers = some p') : Untouched p p' := by
  unfold trivialMove at h
  split_ifs at h
  cases h
  repeat' constructor

lemma sameQueue_logEdit (h : p.logEdit c disk = some (p', disk')) : Untouched p p' := by
  unfold logEdit at h
  split at h
  · split at h
    · cases h
      repeat' constructor
    · cases h
  · cases h

lemma sameQueue_install (h : p.install disk = some (p', disk', events)) : SameQueue p p' ∧ p'.bgError = p.bgError ∧
    ((events = [] ∧ p'.imm = p.imm) ∨ (events = [.flushed (p.imm.getD [])] ∧ p'.imm = none)) := by
  unfold install at h
  split at h
  · rename_i kind _ _ _
    cases kind with
    | flush =>
      cases h
      exact ⟨⟨rfl, rfl, rfl, rfl, rfl, rfl⟩, rfl, .inr ⟨rfl, rfl⟩⟩
    | compact | opening =>
      cases h
      exact ⟨⟨rfl, rfl, rfl, rfl, rfl, rfl⟩, rfl, .inl ⟨rfl, rfl⟩⟩
  · cases h

lemma sameQueue_backgroundFails {e : Error} (h : p.backgroundFails e = some p') : SameQueue p p' ∧ p'.imm = p.imm := by
  unfold backgroundFails at h
  cases hbackground : p.background with
  | building _ | written _ | ready _ _ =>
    simp only [hbackground] at h
    split_ifs at h
    cases h
    exact ⟨⟨rfl, rfl, rfl, rfl, rfl, rfl⟩, rfl⟩
  | idle | recovered _ | logged _ _ _ =>
    simp [hbackground] at h

lemma sameQueue_openLog (h : p.openLog disk = some (p', disk')) : Untouched p p' := by
  unfold openLog at h
  split at h
  · cases h
    repeat' constructor
  · cases h

lemma SameQueue.refl (p : Process) : SameQueue p p := ⟨rfl, rfl, rfl, rfl, rfl, rfl⟩

lemma step_of_eq (h : p.step c disk calls a = some (p', disk', events)) : Step c p disk calls a p' disk' events := by
  cases a with
  | write batch sync =>
    simp only [step] at h
    split_ifs at h
    cases h
    exact .write batch sync
  | begin =>
    simp only [step] at h
    split at h
    · rename_i hphase hwriters
      cases h
      exact .begin hphase hwriters
    · cases h
  | makeRoom newFileFails closeFails => exact step_makeRoom h
  | addRecord faults => exact step_addRecord h
  | sync fails => exact step_sync h
  | insert =>
    obtain ⟨r, hr, ⟨⟩⟩ := map_eq_some_iff.1 h
    exact step_insert hr
  | finish =>
    obtain ⟨r, hr, ⟨⟩⟩ := map_eq_some_iff.1 h
    exact step_finish hr
  | ret id =>
    obtain ⟨r, hr, ⟨⟩⟩ := map_eq_some_iff.1 h
    exact step_ret hr
  | flushBegin =>
    obtain ⟨r, hr, ⟨⟩⟩ := map_eq_some_iff.1 h
    exact (sameQueue_flushBegin hr).step
  | flushWrite =>
    obtain ⟨r, hr, ⟨⟩⟩ := map_eq_some_iff.1 h
    exact (sameQueue_flushWrite hr).step
  | flushReady level =>
    obtain ⟨r, hr, ⟨⟩⟩ := map_eq_some_iff.1 h
    exact (sameQueue_flushReady hr).step
  | compactBegin level inputs =>
    obtain ⟨r, hr, ⟨⟩⟩ := map_eq_some_iff.1 h
    exact (sameQueue_compactBegin hr).step
  | compactOutput entries =>
    obtain ⟨r, hr, ⟨⟩⟩ := map_eq_some_iff.1 h
    exact (sameQueue_compactOutput hr).step
  | compactReady pointers =>
    obtain ⟨r, hr, ⟨⟩⟩ := map_eq_some_iff.1 h
    exact (sameQueue_compactReady hr).step
  | trivialMove level f pointers =>
    obtain ⟨r, hr, ⟨⟩⟩ := map_eq_some_iff.1 h
    exact (sameQueue_trivialMove hr).step
  | syncTable n =>
    cases h
    exact .background (.refl p) (fun _ => rfl) (.inl ⟨rfl, rfl⟩)
  | logEdit =>
    obtain ⟨r, hr, ⟨⟩⟩ := map_eq_some_iff.1 h
    exact (sameQueue_logEdit hr).step
  | install =>
    obtain ⟨hsame, hbg, hevents⟩ := sameQueue_install h
    exact .background hsame (fun _ => hbg) hevents
  | backgroundFails e =>
    obtain ⟨r, hr, ⟨⟩⟩ := map_eq_some_iff.1 h
    obtain ⟨hsame, himm⟩ := sameQueue_backgroundFails hr
    exact .background hsame (fun hno => absurd rfl (hno e)) (.inl ⟨rfl, himm⟩)
  | removeLog n | removeManifest n | removeTable n =>
    obtain ⟨r, -, h⟩ := map_eq_some_iff.1 h
    cases h
    exact .background (.refl p) (fun _ => rfl) (.inl ⟨rfl, rfl⟩)
  | openLog =>
    obtain ⟨r, hr, ⟨⟩⟩ := map_eq_some_iff.1 h
    exact (sameQueue_openLog hr).step
  | crash logs tables manifests => cases h
  | recover => cases h

def nextCalls (calls : Nat) : Action → Nat
  | .write _ _ => calls + 1
  | _ => calls

variable {s s' : Sys}

lemma Sys.step_of_process (hp : s.process = some p) (h : s.step c a = some s') :
    (∃ logs tables manifests, a = .crash logs tables manifests ∧
    s' = { s with disk := s.disk.cut logs tables manifests, process := none }) ∨
    ∃ p' disk' events, p.step c s.disk s.calls a = some (p', disk', events) ∧
    s' = { disk := disk', process := some p', calls := nextCalls s.calls a, trace := s.trace ++ events } := by
  unfold Sys.step at h
  rw [hp] at h
  cases a with
  | crash logs tables manifests =>
    cases h
    exact .inl ⟨logs, tables, manifests, rfl, rfl⟩
  | recover => cases h
  | _ =>
    obtain ⟨⟨p', disk', events⟩, hr, h⟩ := map_eq_some_iff.1 h
    cases h
    exact .inr ⟨p', disk', events, hr, rfl⟩

lemma Sys.step_of_down (hp : s.process = none) (h : s.step c a = some s') :
    (∃ logs tables manifests, a = .crash logs tables manifests ∧
    s' = { s with disk := s.disk.cut logs tables manifests, process := none }) ∨
    ∃ r, a = .recover ∧ c.recover s.disk = .ok r ∧
    s' = { s with disk := { s.disk with tables := r.tables }, process := some (.ofRecovering r) } := by
  unfold Sys.step at h
  rw [hp] at h
  cases a with
  | crash logs tables manifests =>
    cases h
    exact .inl ⟨logs, tables, manifests, rfl, rfl⟩
  | recover =>
    dsimp only at h
    split at h
    · cases h
    · rename_i r hr
      cases h
      exact .inr ⟨r, rfl, hr, rfl⟩
  | _ => cases h

lemma Sys.trace_isPrefix (h : s.step c a = some s') : s.trace <+: s'.trace := by
  cases hp : s.process with
  | none =>
    rcases Sys.step_of_down hp h with ⟨-, -, -, -, rfl⟩ | ⟨-, -, -, rfl⟩ <;> exact prefix_rfl
  | some p =>
    rcases Sys.step_of_process hp h with ⟨-, -, -, -, rfl⟩ | ⟨-, -, events, -, rfl⟩
    · exact prefix_rfl
    · exact prefix_append _ _

lemma Sys.trace_write {batch : Option Batch} {sync : Bool}
    (h : s.step c (.write batch sync) = some s') : s'.trace = s.trace ++ [.began ⟨s.calls, batch, sync⟩] := by
  cases hp : s.process with
  | none => rcases Sys.step_of_down hp h with ⟨_, _, _, hno, -⟩ | ⟨_, hno, -⟩ <;> cases hno
  | some p =>
    rcases Sys.step_of_process hp h with ⟨_, _, _, hno, -⟩ | ⟨_, _, events, hstep, rfl⟩
    · cases hno
    · unfold Process.step at hstep
      split_ifs at hstep
      cases hstep
      rfl

lemma Sys.trace_isPrefix_run {as : List Action} (h : Lib.run (Sys.step c) s as = some s') : s.trace <+: s'.trace := by
  refine Lib.run_invariant (C := fun _ _ => True) (I := fun s' => s.trace <+: s'.trace) ?_ prefix_rfl
    (Lib.stepsMeet_of_forall (P := fun _ => True) fun _ _ => trivial) h
  intro s1 a s2 hle _ hstep
  exact hle.trans (Sys.trace_isPrefix hstep)

end

open Util Table Descriptor List
open Writer (ops)

lemma storable_ops (w : Writer) : ∀ op ∈ w.ops, op.Storable := by
  intro op hop
  unfold ops at hop
  split at hop
  · cases hop
  · rename_i b hb
    exact b.storable op hop

lemma map_fst_withSequences (sequence : Nat) (ws : List Writer) : (withSequences sequence ws).map Prod.fst = ws := by
  induction ws generalizing sequence with
  | nil => rfl
  | cons w ws ih => rw [withSequences, map_cons, ih]

lemma withSequences_append (sequence : Nat) (ws ws' : List Writer) : withSequences sequence (ws ++ ws') =
    withSequences sequence ws ++ withSequences (sequence + (ws.flatMap ops).length) ws' := by
  induction ws generalizing sequence with
  | nil => rfl
  | cons w ws ih => simp [withSequences, ih, add_assoc]

/-! ## The group of the leader -/

structure Process.GroupOk (p : Process) (g : Group) (lastSequence : Nat) : Prop where
  joins : g.Joins p.writers
  holds : g.batch.Holds (p.vs.lastSequence + 1) ((p.writers.take g.writers).flatMap Writer.ops)
  last : lastSequence = p.vs.lastSequence + ((p.writers.take g.writers).flatMap Writer.ops).length
  le : lastSequence ≤ kMaxSequenceNumber
  tmp : g.usesTmp = false → p.tmpBatch = .clear

def Phase.group? : Phase → Option (Group × Nat)
  | .waiting | .makeRoom _ _ => none
  | .addRecord g lastSequence | .sync g lastSequence | .insert g lastSequence | .finish g lastSequence _ _ =>
    some (g, lastSequence)

structure Process.PhaseOk (p : Process) : Prop where
  idle : p.phase.group? = none → p.tmpBatch = .clear
  group : ∀ g lastSequence, p.phase.group? = some (g, lastSequence) → p.GroupOk g lastSequence

variable {c : Config} {p p' : Process} {disk disk' : Disk} {calls : Nat} {a : Action} {events t : List Event}
  {g : Group} {lastSequence : Nat}

lemma storable_flatMap (ws : List Writer) : ∀ op ∈ ws.flatMap ops, op.Storable := by
  intro op hop
  obtain ⟨w, -, hop⟩ := mem_flatMap.1 hop
  exact storable_ops w op hop

section

variable (h : p.GroupOk g lastSequence)
include h

lemma Process.GroupOk.iterate : g.batch.iterate = ((p.writers.take g.writers).flatMap ops, .ok ()) :=
  h.holds.iterate (fun op hop => (storable_flatMap _ op hop).fits) (by have := h.joins.count_lt; omega)

lemma Process.GroupOk.sequence : g.batch.sequence = p.vs.lastSequence + 1 := by
  refine h.holds.sequence ?_
  have hle := h.le
  have hlast := h.last
  unfold kMaxSequenceNumber at hle
  omega

lemma Process.GroupOk.insertInto (mem : MemTable Slice) : g.batch.insertInto mem =
    (Db.insertInto mem (p.vs.lastSequence + 1) ((p.writers.take g.writers).flatMap ops), .ok ()) := by
  unfold WriteBatch.insertInto
  rw [h.iterate, h.sequence]

lemma Process.GroupOk.congr (hwriters : p'.writers = p.writers)
    (hlast : p'.vs.lastSequence = p.vs.lastSequence) (htmp : p'.tmpBatch = p.tmpBatch) : p'.GroupOk g lastSequence := by
  obtain ⟨h1, h2, h3, h4, h5⟩ := h
  rw [← hwriters] at h1 h2 h3
  rw [← hlast] at h2 h3
  rw [← htmp] at h5
  exact ⟨h1, h2, h3, h4, h5⟩

lemma Process.GroupOk.enqueue (w : Writer) : { p with writers := p.writers ++ [w] }.GroupOk g lastSequence := by
  have htake : (p.writers ++ [w]).take g.writers = p.writers.take g.writers :=
    take_append_of_le_length h.joins.le
  refine ⟨⟨h.joins.pos, ?_, ?_, ?_⟩, ?_, ?_, h.le, h.tmp⟩
  · rw [length_append]
    exact Nat.le_add_right_of_le h.joins.le
  · rw [htake]
    exact h.joins.holds
  · rw [htake]
    exact h.joins.count_lt
  · dsimp only
    rw [htake]
    exact h.holds
  · dsimp only
    rw [htake]
    exact h.last

end

lemma groupOk_group {w : Writer} {ws : List Writer} {first : Batch} (hwriters : p.writers = w :: ws)
    (hbatch : w.batch = some first) (htmp : p.tmpBatch = .clear)
    (hmax : p.vs.lastSequence + (p.group w first ws).batch.count ≤ kMaxSequenceNumber) :
    { p with
    tmpBatch := if (p.group w first ws).usesTmp then (p.group w first ws).batch else p.tmpBatch
    phase := .addRecord (p.group w first ws) (p.vs.lastSequence + (p.group w first ws).batch.count) }.GroupOk
    (p.group w first ws) (p.vs.lastSequence + (p.group w first ws).batch.count) := by
  have hjoins := buildBatchGroup_joins hbatch ws
  obtain ⟨seq, hholds⟩ := hjoins.holds
  have hgroup : (p.group w first ws).writers = (buildBatchGroup .clear w.sync first.writeBatch ws).writers ∧
      (p.group w first ws).batch =
        (buildBatchGroup .clear w.sync first.writeBatch ws).batch.setSequence (p.vs.lastSequence + 1) := by
    unfold Process.group
    rw [htmp]
    exact ⟨rfl, rfl⟩
  have hset := hholds.setSequence (p.vs.lastSequence + 1)
  have hcount : (p.group w first ws).batch.count =
      (((w :: ws).take (buildBatchGroup .clear w.sync first.writeBatch ws).writers).flatMap ops).length := by
    rw [hgroup.2]
    exact hset.count (by have := hjoins.count_lt; omega)
  refine ⟨⟨?_, ?_, ?_, ?_⟩, ?_, ?_, hmax, ?_⟩
  · rw [hgroup.1]
    exact hjoins.pos
  · dsimp only
    rw [hgroup.1, hwriters]
    exact hjoins.le
  · dsimp only
    rw [hgroup.1, hgroup.2, hwriters]
    exact ⟨_, hset⟩
  · dsimp only
    rw [hgroup.1, hwriters]
    exact hjoins.count_lt
  · dsimp only
    rw [hgroup.1, hgroup.2, hwriters]
    exact hset
  · dsimp only
    rw [hcount, hgroup.1, hwriters]
  · intro hno
    dsimp only
    rw [if_neg (by simp [hno])]
    exact htmp

lemma Process.PhaseOk.congr (h : p.PhaseOk) (hphase : p'.phase.group? = p.phase.group?)
    (hwriters : p'.writers = p.writers) (hlast : p'.vs.lastSequence = p.vs.lastSequence)
    (htmp : p'.tmpBatch = p.tmpBatch) : p'.PhaseOk := by
  refine ⟨fun hnone => ?_, fun g lastSequence hsome => ?_⟩
  · rw [htmp]
    exact h.idle (hphase ▸ hnone)
  · exact (h.group g lastSequence (hphase ▸ hsome)).congr hwriters hlast htmp

lemma Step.phaseOk (h : Step c p disk calls a p' disk' events) (hp : p.PhaseOk) : p'.PhaseOk := by
  cases h with
  | write batch sync => exact ⟨hp.idle, fun g lastSequence hg => (hp.group g lastSequence hg).enqueue _⟩
  | begin hphase hwriters | delay hphase | switch hphase hwriters herror himm =>
    exact hp.congr (by rw [hphase]; rfl) rfl rfl rfl
  | wait hphase => exact hp
  | noRoom hphase hwriters herror | roomForNone hphase hwriters hbatch =>
    refine ⟨fun _ => hp.idle (by rw [hphase]; rfl), ?_⟩
    rintro g lastSequence ⟨⟩
  | room hphase hwriters hbatch hmax =>
    refine ⟨?_, ?_⟩
    · rintro ⟨⟩
    · rintro g lastSequence ⟨⟩
      exact groupOk_group hwriters hbatch (hp.idle (by rw [hphase]; rfl)) hmax
  | addRecordFails hphase hwriters herror | syncFails hphase | sync hphase =>
    exact hp.congr (by rw [hphase]; rfl) rfl rfl rfl
  | @addRecord _ _ _ w _ _ _ hphase hwriters =>
    refine hp.congr ?_ rfl rfl rfl
    rw [hphase]
    cases hsync : w.sync <;> simp [Phase.group?]
  | insert hphase => exact hp.congr (by rw [hphase]; rfl) rfl rfl rfl
  | @finish g lastSequence _ _ _ hphase hbg =>
    refine ⟨fun _ => ?_, ?_⟩
    · have htmp := (hp.group g lastSequence (by rw [hphase]; rfl)).tmp
      cases huses : g.usesTmp with
      | true => simp
      | false =>
        simp only [Bool.false_eq_true, if_false]
        exact htmp huses
    · rintro g lastSequence ⟨⟩
  | ret hq => exact hp.congr rfl rfl rfl rfl
  | background hsame hbg hevents =>
    exact hp.congr (by rw [hsame.phase]) hsame.writers hsame.lastSequence hsame.tmpBatch

/-! ## The writers that have been in the queue -/

section

variable (t t' : List Event)

lemma entered_append : entered (t ++ t') = entered t ++ entered t' := filterMap_append

lemma finished_append : finished (t ++ t') = finished t ++ finished t' := filterMap_append

lemma returned_append : returned (t ++ t') = returned t ++ returned t' := filterMap_append

lemma insertedEntries_append : insertedEntries (t ++ t') = insertedEntries t ++ insertedEntries t' := flatMap_append

lemma appendedEntries_append : appendedEntries (t ++ t') = appendedEntries t ++ appendedEntries t' := flatMap_append

end

lemma events_pop (p : Process) (n : Nat) (status : Status) :
    entered (p.pop n status).2 = [] ∧ returned (p.pop n status).2 = [] ∧ insertedEntries (p.pop n status).2 = [] ∧
    appendedEntries (p.pop n status).2 = [] ∧ flushedEntries (p.pop n status).2 = [] ∧ .switched ∉ (p.pop n status).2 ∧
    finished (p.pop n status).2 =
    (withSequences (p.vs.lastSequence + 1) (p.writers.take n)).map fun q => (q.1, q.2, status) := by
  unfold Process.pop
  dsimp only
  generalize withSequences (p.vs.lastSequence + 1) (p.writers.take n) = qs
  induction qs with
  | nil => simp [entered, returned, insertedEntries, appendedEntries, flushedEntries, finished]
  | cons q qs ih =>
    simp only [entered, returned, insertedEntries, appendedEntries, flushedEntries, finished, map_cons,
      filterMap_cons, flatMap_cons, nil_append, mem_cons] at ih ⊢
    obtain ⟨h1, h2, h3, h4, h5, h6, h7⟩ := ih
    refine ⟨h1, h2, h3, h4, h5, ?_, by rw [h7]⟩
    rintro (hno | hno)
    · cases hno
    · exact h6 hno

structure Queue (t : List Event) (p : Process) (calls : Nat) : Prop where
  phase : p.PhaseOk
  entered : entered t = (finished t).map Prod.fst ++ p.writers
  fresh : ∀ w ∈ System.entered t, w.id < calls
  nodup : ((System.entered t).map (·.id)).Nodup
  done : ∀ q ∈ p.done, ∃ sequence, (q.1, sequence, q.2) ∈ finished t
  returned : ∀ q ∈ returned t, ∃ sequence, (q.1, sequence, q.2) ∈ finished t

lemma le_nextCalls (calls : Nat) (a : Action) : calls ≤ nextCalls calls a := by
  cases a <;> simp [nextCalls]

lemma Queue.mono (h : Queue t p calls) {calls' : Nat} (hle : calls ≤ calls') : Queue t p calls' :=
  { h with fresh := fun w hw => (h.fresh w hw).trans_le hle }

lemma Queue.quiet (h : Queue t p calls) (hp : p'.PhaseOk) (hwriters : p'.writers = p.writers)
    (hdone : ∀ q ∈ p'.done, q ∈ p.done) (hentered : System.entered events = []) (hfinished : finished events = [])
    (hreturned : ∀ q ∈ System.returned events, q ∈ p.done) : Queue (t ++ events) p' calls := by
  refine ⟨hp, ?_, ?_, ?_, ?_, ?_⟩
  · rw [entered_append, finished_append, hentered, hfinished, append_nil, append_nil, hwriters]
    exact h.entered
  · rw [entered_append, hentered, append_nil]
    exact h.fresh
  · rw [entered_append, hentered, append_nil]
    exact h.nodup
  · rw [finished_append, hfinished, append_nil]
    exact fun q hq => h.done q (hdone q hq)
  · rw [returned_append, finished_append, hfinished, append_nil]
    intro q hq
    rcases mem_append.1 hq with hq | hq
    · exact h.returned q hq
    · exact h.done q (hreturned q hq)

lemma Queue.pop (h : Queue t p calls) {n : Nat} {status : Status} (hp : p'.PhaseOk)
    (hwriters : p'.writers = (p.pop n status).1.writers) (hdone : p'.done = (p.pop n status).1.done) :
    Queue (t ++ (p.pop n status).2) p' calls := by
  obtain ⟨hentered, hreturned, -, -, -, -, hfinished⟩ := events_pop p n status
  have hfst : (finished (p.pop n status).2).map Prod.fst = p.writers.take n := by
    rw [hfinished, map_map]
    exact map_fst_withSequences _ _
  refine ⟨hp, ?_, ?_, ?_, ?_, ?_⟩
  · rw [entered_append, finished_append, hentered, append_nil, map_append, hfst, hwriters, append_assoc]
    refine h.entered.trans (congrArg _ ?_)
    exact (take_append_drop n p.writers).symm
  · rw [entered_append, hentered, append_nil]
    exact h.fresh
  · rw [entered_append, hentered, append_nil]
    exact h.nodup
  · rw [hdone, finished_append]
    intro q hq
    rcases mem_append.1 hq with hq | hq
    · obtain ⟨sequence, hmem⟩ := h.done q hq
      exact ⟨sequence, mem_append_left _ hmem⟩
    · obtain ⟨w, hw, rfl⟩ := mem_map.1 hq
      rw [← hfst, hfinished, map_map] at hw
      obtain ⟨q, hmem, rfl⟩ := mem_map.1 hw
      refine ⟨q.2, mem_append_right _ ?_⟩
      rw [hfinished]
      exact mem_map.2 ⟨q, hmem, rfl⟩
  · rw [returned_append, hreturned, append_nil, finished_append]
    intro q hq
    obtain ⟨sequence, hmem⟩ := h.returned q hq
    exact ⟨sequence, mem_append_left _ hmem⟩

lemma Step.queue (h : Step c p disk calls a p' disk' events) (hq : Queue t p calls) :
    Queue (t ++ events) p' (nextCalls calls a) := by
  have hp := h.phaseOk hq.phase
  cases h with
  | write batch sync =>
    refine ⟨hp, ?_, ?_, ?_, ?_, ?_⟩
    · rw [entered_append, finished_append]
      refine (congrArg (· ++ _) hq.entered).trans ?_
      simp [entered, finished]
    · rw [entered_append]
      intro w hw
      rcases mem_append.1 hw with hw | hw
      · exact (hq.fresh w hw).trans (lt_add_one _)
      · cases mem_singleton.1 hw
        exact lt_add_one _
    · rw [entered_append, map_append]
      refine hq.nodup.append (nodup_singleton _) ?_
      intro id hid hmem
      obtain ⟨w, hw, rfl⟩ := mem_map.1 hid
      have hlt := hq.fresh w hw
      have heq : w.id = calls := by simpa [entered] using hmem
      omega
    · intro q hmem
      obtain ⟨sequence, hfin⟩ := hq.done q hmem
      exact ⟨sequence, by rw [finished_append]; exact mem_append_left _ hfin⟩
    · rw [returned_append]
      intro q hmem
      obtain ⟨sequence, hfin⟩ := hq.returned q (by simpa [returned] using hmem)
      exact ⟨sequence, by rw [finished_append]; exact mem_append_left _ hfin⟩
  | begin hphase hwriters | delay hphase | wait hphase | switch hphase hwriters herror himm =>
    exact hq.quiet hp rfl (fun _ h => h) rfl rfl (by simp [returned])
  | noRoom hphase hwriters herror | roomForNone hphase hwriters hbatch | finish hphase hbg => exact hq.pop hp rfl rfl
  | room hphase hwriters hbatch hmax | addRecordFails hphase hwriters herror =>
    exact hq.quiet hp rfl (fun _ h => h) rfl rfl (by simp [returned])
  | addRecord hphase hwriters | syncFails hphase | sync hphase =>
    exact hq.quiet hp rfl (fun _ h => h) rfl rfl (by simp [returned])
  | insert hphase => exact hq.quiet hp rfl (fun _ h => h) rfl rfl (by simp [returned])
  | ret hmem =>
    refine hq.quiet hp rfl (fun _ h => mem_of_mem_filter h) rfl rfl ?_
    simpa [returned] using hmem
  | background hsame hbg hevents =>
    refine Queue.mono ?_ (le_nextCalls calls a)
    rcases hevents with ⟨rfl, -⟩ | ⟨rfl, -⟩
    · exact hq.quiet hp hsame.writers (fun q h => hsame.done ▸ h) rfl rfl (by simp [returned])
    · exact hq.quiet hp hsame.writers (fun q h => hsame.done ▸ h) rfl rfl (by simp [returned])

end RallyDB.Db.System
