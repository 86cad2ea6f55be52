import RallyDB.Db.FlatTable
import RallyDB.Db.Lemmas.ForcedFlush
import RallyDB.Db.Lemmas.LogWriter

/-!
# Concurrent writes
-/

namespace RallyDB.Db.System

open Util Table Descriptor Lib List Process
open Prod (fst)
open Writer (ops)

/-! ## Group commit -/

structure Process.Quiet (p : Process) : Prop where
  opened : p.opened = true
  writers : p.writers = []
  phase : p.phase = .waiting
  tmpBatch : p.tmpBatch = .clear
  done : p.done = []
  bgError : p.bgError = none

instance (p : Process) : Decidable p.Quiet :=
  decidable_of_iff (p.opened = true ∧ p.writers.isEmpty = true ∧ (p.phase matches .waiting) = true ∧
      p.tmpBatch = .clear ∧ p.done.isEmpty = true ∧ p.bgError.isNone = true) <| by
    constructor
    · rintro ⟨h1, h2, h3, h4, h5, h6⟩
      refine ⟨h1, List.isEmpty_iff.1 h2, ?_, h4, List.isEmpty_iff.1 h5, Option.isNone_iff_eq_none.1 h6⟩
      cases hphase : p.phase <;> simp [hphase] at h3 ⊢
    · rintro ⟨h1, h2, h3, h4, h5, h6⟩
      exact ⟨h1, List.isEmpty_iff.2 h2, by rw [h3], h4, List.isEmpty_iff.2 h5, Option.isNone_iff_eq_none.2 h6⟩

def openSteps : List Action := [.recover, .openLog, .logEdit, .install]

def samplePut (key value : UInt8) : Batch := ⟨[.put [key] [value]], by simp [BatchOp.Storable, BatchOp.key, BatchOp.value], by simp⟩

def Action.Sound : Action → Prop
  | .makeRoom newFileFails closeFails => newFileFails = false ∧ closeFails = false
  | .addRecord faults => faults = []
  | .sync fails => fails = false
  | .backgroundFails _ | .crash _ _ _ => False
  | _ => True

def Action.HasBatch : Action → Prop
  | .write batch _ => batch.isSome
  | _ => True

def Process.appendedGroup (p : Process) : List Writer :=
  match p.phase with
  | .sync g _ | .insert g _ | .finish g _ _ _ => p.writers.take g.writers
  | _ => []

def Process.insertedGroup (p : Process) : List Writer :=
  match p.phase with
  | .finish g _ _ _ => p.writers.take g.writers
  | _ => []

/-- Without errors, the batches that were written are those of the first writers, under the sequence numbers from
`base + 1` on. -/
structure Committed (base : Nat) (t : List Event) (p : Process) : Prop where
  batches : ∀ w ∈ p.writers, w.batch.isSome
  bgError : p.bgError = none
  status : ∀ g lastSequence status syncError, p.phase = .finish g lastSequence status syncError →
    status = .ok () ∧ syncError = false
  last : p.vs.lastSequence = base + (((finished t).map Prod.fst).flatMap Writer.ops).length
  finished : finished t = (withSequences (base + 1) ((finished t).map Prod.fst)).map fun q => (q.1, q.2, .ok ())
  appended : appendedEntries t =
    batchEntries (base + 1) (((System.finished t).map Prod.fst ++ p.appendedGroup).flatMap Writer.ops)
  inserted : insertedEntries t =
    batchEntries (base + 1) (((System.finished t).map Prod.fst ++ p.insertedGroup).flatMap Writer.ops)

variable {c : Config} {p p' : Process} {disk disk' : Disk} {calls base : Nat} {a : Action} {events t : List Event}
  {mem0 : MemTable Slice}

lemma Committed.next (h : Committed base t p) (hbatches : ∀ w ∈ p'.writers, w.batch.isSome)
    (hbg : p'.bgError = none) (hstatus : ∀ g lastSequence status syncError,
    p'.phase = .finish g lastSequence status syncError → status = .ok () ∧ syncError = false)
    (hlast : p'.vs.lastSequence = p.vs.lastSequence) (hfinished : System.finished events = [])
    (happ : appendedEntries t ++ appendedEntries events =
    batchEntries (base + 1) (((System.finished t).map fst ++ p'.appendedGroup).flatMap ops))
    (hins : insertedEntries t ++ insertedEntries events =
    batchEntries (base + 1) (((System.finished t).map fst ++ p'.insertedGroup).flatMap ops)) :
    Committed base (t ++ events) p' := by
  have hfin : System.finished (t ++ events) = System.finished t := by
    rw [finished_append, hfinished, append_nil]
  refine ⟨hbatches, hbg, hstatus, ?_, ?_, ?_, ?_⟩
  · rw [hfin, hlast]
    exact h.last
  · rw [hfin]
    exact h.finished
  · rw [hfin, appendedEntries_append]
    exact happ
  · rw [hfin, insertedEntries_append]
    exact hins

lemma Committed.quiet (h : Committed base t p) (hbatches : ∀ w ∈ p'.writers, w.batch.isSome)
    (hbg : p'.bgError = none) (hstatus : ∀ g lastSequence status syncError,
    p'.phase = .finish g lastSequence status syncError → status = .ok () ∧ syncError = false)
    (hlast : p'.vs.lastSequence = p.vs.lastSequence) (happ : p'.appendedGroup = p.appendedGroup)
    (hins : p'.insertedGroup = p.insertedGroup) (hfinished : System.finished events = [])
    (happended : appendedEntries events = []) (hinserted : insertedEntries events = []) :
    Committed base (t ++ events) p' := by
  refine h.next hbatches hbg hstatus hlast hfinished ?_ ?_
  · rw [happended, append_nil, happ]
    exact h.appended
  · rw [hinserted, append_nil, hins]
    exact h.inserted

lemma Process.GroupOk.entries {g : Group} {lastSequence : Nat} (h : p.GroupOk g lastSequence) (hc : Committed base t p) :
    batchEntries (base + 1) (((System.finished t).map fst ++ []).flatMap ops) ++
    batchEntries g.batch.sequence g.batch.iterate.1 =
    batchEntries (base + 1) (((System.finished t).map fst ++ p.writers.take g.writers).flatMap ops) := by
  rw [h.iterate, h.sequence, hc.last, append_nil, flatMap_append, batchEntries_append, add_right_comm]

lemma Step.committed (h : Step c p disk calls a p' disk' events) (hq : p.PhaseOk) (hc : Committed base t p)
    (hsound : a.Sound) (hbatch : a.HasBatch) : Committed base (t ++ events) p' := by
  cases h with
  | write batch sync =>
    have htake : ∀ g lastSequence, p.phase.group? = some (g, lastSequence) →
        (p.writers ++ [(⟨calls, batch, sync⟩ : Writer)]).take g.writers = p.writers.take g.writers := fun g lastSequence hg =>
      take_append_of_le_length (hq.group g lastSequence hg).joins.le
    refine hc.quiet ?_ hc.bgError hc.status rfl ?_ ?_ rfl rfl rfl
    · intro w hw
      rcases mem_append.1 hw with hw | hw
      · exact hc.batches w hw
      · cases mem_singleton.1 hw
        exact hbatch
    · unfold appendedGroup
      dsimp only
      cases hphase : p.phase with
      | waiting | makeRoom _ _ | addRecord _ _ => rfl
      | sync g _ | insert g _ | finish g _ _ _ => exact htake g _ (by rw [hphase]; rfl)
    · unfold insertedGroup
      dsimp only
      cases hphase : p.phase with
      | waiting | makeRoom _ _ | addRecord _ _ | sync _ _ | insert _ _ => rfl
      | finish g _ _ _ => exact htake g _ (by rw [hphase]; rfl)
  | begin hphase hwriters | delay hphase | room hphase hwriters hbatch hmax | sync hphase =>
    refine hc.quiet hc.batches hc.bgError (by simp) rfl ?_ ?_ rfl rfl rfl
    · simp [appendedGroup, hphase]
    · simp [insertedGroup, hphase]
  | wait hphase | ret hmem => exact hc.quiet hc.batches hc.bgError hc.status rfl rfl rfl rfl rfl rfl
  | switch hphase hwriters herror himm =>
    refine hc.quiet hc.batches ?_ (by simp [switchMemTable]) rfl ?_ ?_ rfl rfl rfl
    · simp [switchMemTable, hsound.2, herror]
    · simp [appendedGroup, switchMemTable, hphase]
    · simp [insertedGroup, switchMemTable, hphase]
  | noRoom hphase hwriters herror =>
    rcases herror with herror | hfails
    · rw [hc.bgError] at herror
      cases herror
    · rw [hsound.1] at hfails
      cases hfails
  | roomForNone hphase hwriters hnone =>
    have := hc.batches _ (hwriters ▸ mem_cons_self)
    rw [hnone] at this
    cases this
  | @addRecordFails faults g _ _ _ _ _ _ hphase hwriters herror =>
    cases (show faults = [] from hsound)
    have hok := (Log.Writer.addFragments_of_sound (w := ⟨⟨(disk.logs.file p.logfileNumber).bytes, []⟩, p.blockOffset⟩)
      c.crc true g.batch.rep rfl).1
    cases hok.symm.trans herror
  | @addRecord _ g lastSequence w _ _ _ hphase hwriters =>
    have hgroup := hq.group g lastSequence (by rw [hphase]; rfl)
    refine hc.next hc.batches hc.bgError ?_ rfl rfl ?_ ?_
    · intro g' lastSequence' status syncError hno
      cases hsync : w.sync <;> simp [hsync] at hno
    · have hnone : p.appendedGroup = [] := by simp [appendedGroup, hphase]
      rw [hc.appended, hnone]
      refine Eq.trans ?_ ((hgroup.entries hc).trans ?_)
      · simp [appendedEntries]
      · cases hsync : w.sync <;> simp [appendedGroup]
    · rw [hc.inserted]
      cases hsync : w.sync <;> simp [insertedGroup, insertedEntries, hphase]
  | syncFails hphase => cases hsound
  | @insert g lastSequence hphase =>
    have hgroup := hq.group g lastSequence (by rw [hphase]; rfl)
    refine hc.next hc.batches hc.bgError ?_ rfl rfl ?_ ?_
    · rintro g' lastSequence' status syncError ⟨⟩
      exact ⟨by rw [hgroup.insertInto], rfl⟩
    · rw [hc.appended]
      simp [appendedGroup, appendedEntries, hphase]
    · have hnone : p.insertedGroup = [] := by simp [insertedGroup, hphase]
      rw [hc.inserted, hnone]
      refine Eq.trans ?_ (hgroup.entries hc)
      simp [insertedEntries]
  | @finish g lastSequence status syncError _ hphase hbg =>
    have hgroup := hq.group g lastSequence (by rw [hphase]; rfl)
    obtain ⟨rfl, rfl⟩ := hc.status _ _ _ _ hphase
    obtain ⟨-, -, hinserted, happended, -, -, hfinished⟩ := events_pop p g.writers (.ok ())
    have hfst : (System.finished (p.pop g.writers (.ok ())).2).map fst = p.writers.take g.writers := by
      rw [hfinished, map_map]
      exact map_fst_withSequences _ _
    have hall : (System.finished (t ++ (p.pop g.writers (.ok ())).2)).map fst =
        (System.finished t).map fst ++ p.writers.take g.writers := by
      rw [finished_append, map_append, hfst]
    refine ⟨fun w hw => hc.batches w (mem_of_mem_drop hw), ?_, ?_, ?_, ?_, ?_, ?_⟩
    · rw [← hc.bgError]
      exact hbg rfl
    · rintro g' lastSequence' status syncError ⟨⟩
    · rw [hall, flatMap_append, length_append, ← add_assoc, ← hc.last]
      exact hgroup.last
    · rw [hall, finished_append, withSequences_append, map_append, ← hc.finished, hfinished, hc.last, add_right_comm]
    · rw [hall, appendedEntries_append, happended, append_nil, hc.appended]
      simp [appendedGroup, pop, hphase]
    · rw [hall, insertedEntries_append, hinserted, append_nil, hc.inserted]
      simp [insertedGroup, pop, hphase]
  | background hsame hbg hevents =>
    have hgroups : p'.appendedGroup = p.appendedGroup ∧ p'.insertedGroup = p.insertedGroup := by
      unfold appendedGroup insertedGroup
      rw [hsame.phase, hsame.writers]
      exact ⟨rfl, rfl⟩
    have hnone : p'.bgError = none := by
      rw [hbg fun e he => by rw [he] at hsound; exact hsound]
      exact hc.bgError
    have hempty : System.finished events = [] ∧ appendedEntries events = [] ∧ insertedEntries events = [] := by
      rcases hevents with ⟨rfl, -⟩ | ⟨rfl, -⟩ <;> exact ⟨rfl, rfl, rfl⟩
    exact hc.quiet (hsame.writers ▸ hc.batches) hnone (hsame.phase ▸ hc.status) hsame.lastSequence hgroups.1 hgroups.2
      hempty.1 hempty.2.1 hempty.2.2

lemma Process.Quiet.queue (h : p.Quiet) : Queue [] p calls := by
  refine ⟨⟨fun _ => h.tmpBatch, ?_⟩, ?_, ?_, ?_, ?_, ?_⟩
  · intro g lastSequence hg
    rw [h.phase] at hg
    cases hg
  · rw [h.writers]
    rfl
  · intro w hw
    cases hw
  · exact .nil
  · intro q hq
    rw [h.done] at hq
    cases hq
  · intro q hq
    cases hq

lemma Process.Quiet.committed (h : p.Quiet) : Committed p.vs.lastSequence [] p := by
  refine ⟨?_, h.bgError, ?_, rfl, rfl, ?_, ?_⟩
  · rw [h.writers]
    intro w hw
    cases hw
  · intro g lastSequence status syncError hphase
    rw [h.phase] at hphase
    cases hphase
  · simp [appendedGroup, h.phase, appendedEntries, System.finished, batchEntries]
  · simp [insertedGroup, h.phase, insertedEntries, System.finished, batchEntries]

lemma isPrefix_groups (h : Queue t p calls) :
    (System.finished t).map fst ++ p.insertedGroup <+: (System.finished t).map fst ++ p.appendedGroup ∧
    (System.finished t).map fst ++ p.appendedGroup <+: entered t := by
  have hle : p.appendedGroup <+: p.writers := by
    unfold appendedGroup
    split <;> first | exact ⟨_, take_append_drop _ _⟩ | exact ⟨_, nil_append _⟩
  refine ⟨(prefix_append_right_inj _).2 ?_, ?_⟩
  · unfold insertedGroup appendedGroup
    cases p.phase <;> first | exact prefix_rfl | exact ⟨_, nil_append _⟩
  · rw [h.entered]
    exact (prefix_append_right_inj _).2 hle

/-- At any time the batches of the first writers that entered the queue are in the log and, of those, the batches of the
first ones are in the memtable, each once and in this order, under contiguous sequence numbers. -/
theorem writes_in_order (c : Config) (s0 s : Sys) (p0 : Process) (as : List Action) (hp : s0.process = some p0)
    (hquiet : p0.Quiet) (ht : s0.trace = [])
    (hc : StepsMeet (Sys.step c) (fun _ a => a.Sound ∧ a.HasBatch) s0 as) (hr : run (Sys.step c) s0 as = some s) :
    ((entered s.trace).map (·.id)).Nodup ∧
    ∃ done inserted appended : List Writer, done <+: inserted ∧ inserted <+: appended ∧ appended <+: entered s.trace ∧
    appendedEntries s.trace = batchEntries (p0.vs.lastSequence + 1) (appended.flatMap Writer.ops) ∧
    insertedEntries s.trace = batchEntries (p0.vs.lastSequence + 1) (inserted.flatMap Writer.ops) ∧
    finished s.trace = (withSequences (p0.vs.lastSequence + 1) done).map (fun q => (q.1, q.2, .ok ())) ∧
    ∀ q ∈ returned s.trace, q.1 ∈ done ∧ ∃ sequence, (q.1, sequence, q.2) ∈ finished s.trace := by
  have hinv : ∃ p, s.process = some p ∧ Queue s.trace p s.calls ∧ Committed p0.vs.lastSequence s.trace p := by
    refine run_invariant (I := fun s => ∃ p, s.process = some p ∧ Queue s.trace p s.calls ∧
      Committed p0.vs.lastSequence s.trace p) ?_ ⟨p0, hp, ?_, ?_⟩ hc hr
    · rintro s a s' ⟨p, hp, hq, hcom⟩ ⟨hsound, hbatch⟩ hstep
      rcases Sys.step_of_process hp hstep with ⟨logs, tables, manifests, rfl, -⟩ | ⟨p', disk', events, hpstep, rfl⟩
      · cases hsound
      · exact ⟨p', rfl, (step_of_eq hpstep).queue hq, (step_of_eq hpstep).committed hq.phase hcom hsound hbatch⟩
    · rw [ht]
      exact hquiet.queue
    · rw [ht]
      exact hquiet.committed
  obtain ⟨p, -, hq, hcom⟩ := hinv
  obtain ⟨hins, happ⟩ := isPrefix_groups hq
  refine ⟨hq.nodup, _, _, _, prefix_append _ _, hins, happ, hcom.appended, hcom.inserted, hcom.finished, ?_⟩
  intro q hmem
  obtain ⟨sequence, hfin⟩ := hq.returned q hmem
  exact ⟨mem_map.2 ⟨_, hfin, rfl⟩, sequence, hfin⟩

theorem writes_in_order_sample :
    let as : List Action := [.write (some (samplePut 1 2)) false, .write (some (samplePut 3 4)) false, .begin,
      .makeRoom false false, .addRecord [], .insert, .finish, .ret 1, .ret 0]
    ∃ s0 p0 s, run (Sys.step (.sample 9)) (.fresh (.sample 9)) openSteps = some s0 ∧ s0.process = some p0 ∧ p0.Quiet ∧
      run (Sys.step (.sample 9)) s0 as = some s ∧ (returned s.trace).map (·.1.id) = [1, 0] ∧
      ∃ inserted : List Writer, inserted <+: entered s.trace ∧
        insertedEntries s.trace = batchEntries (p0.vs.lastSequence + 1) (inserted.flatMap Writer.ops) := by
  intro as
  obtain ⟨s0, hs0, ht, s, hs, hret, p0, hp0, hquiet⟩ : ∃ s0,
      run (Sys.step (.sample 9)) (.fresh (.sample 9)) openSteps = some s0 ∧ s0.trace.isEmpty = true ∧
        ∃ s ∈ run (Sys.step (.sample 9)) s0 as, (returned s.trace).map (·.1.id) = [1, 0] ∧
          ∃ p0 ∈ s0.process, p0.Quiet := exists_run (by decide +kernel)
  have hmeet : StepsMeet (Sys.step (.sample 9)) (fun _ a => a.Sound ∧ a.HasBatch) s0 as :=
    stepsMeet_of_forall (P := fun a : Action => a.Sound ∧ a.HasBatch) (by simp [as, Action.Sound, Action.HasBatch])
  obtain ⟨-, done, inserted, appended, -, hins, happ, -, hentries, -⟩ :=
    writes_in_order (.sample 9) s0 s p0 as hp0 hquiet (List.isEmpty_iff.1 ht) hmeet hs
  exact ⟨s0, p0, s, hs0, hp0, hquiet, hs, hret, inserted, hins.trans happ, hentries⟩

/-! ## Forced flushes -/

def Action.NoCrash : Action → Prop
  | .crash _ _ _ => False
  | _ => True

instance (a : Action) : Decidable a.NoCrash := by
  unfold Action.NoCrash
  split <;> infer_instance

instance (trace : List Event) (id : Nat) (sync : Bool) : Decidable ((⟨id, none, sync⟩, .ok ()) ∈ returned trace) :=
  decidable_of_iff (∃ r ∈ returned trace, r.1.id = id ∧ r.1.batch.isNone = true ∧ r.1.sync = sync ∧ r.2.isOk = true) <| by
    constructor
    · rintro ⟨⟨⟨id, batch, sync⟩, status⟩, hret, rfl, hbatch, rfl, hok⟩
      obtain rfl := Option.isNone_iff_eq_none.1 hbatch
      cases status with
      | ok _ => exact hret
      | error _ => cases hok
    · intro h
      exact ⟨_, h, rfl, rfl, rfl, rfl⟩

lemma inserts_nil (p : Process) : Inserts p.vs.lastSequence p.mem [] p := by
  refine ⟨le_rfl, .nil, ?_, ⟨[], [], rfl, .inl rfl, not_mem_nil, fun e he => .inr ⟨rfl, he⟩⟩, ?_⟩
  · intro e he
    cases he
  · rintro e (he | he)
    · exact .inl he
    · cases he

lemma Process.Quiet.forces (h : p.Quiet) : Forces [] p := by
  refine ⟨?_, ?_, ?_, ?_⟩
  · rw [h.phase]
    rintro force allowDelay ⟨⟩
  · rw [h.phase]
    rintro g lastSequence ⟨⟩
  · rw [h.phase]
    rintro w ws allowDelay - - ⟨⟩
  · intro w sequence _ hw
    cases hw

lemma Inserts.notMem (h : Inserts base mem0 t p) (hmem0 : ∀ e ∈ mem0, e.1.sequence ≤ base) {pre post : List Event}
    {w : Writer} (ht : t = pre ++ .began w :: post) (hswitched : .switched ∈ post) {e : Entry Slice}
    (he : e ∈ mem0 ∨ e ∈ insertedEntries pre) : e ∉ p.mem := by
  intro hmem
  obtain ⟨t1, t2, hparts, h1, h2, hin⟩ := h.parts
  -- the last switch is behind the call
  obtain ⟨x, hx⟩ : ∃ x, t1 = pre ++ .began w :: x := by
    rcases append_eq_append_iff.1 (hparts.symm.trans ht) with ⟨x, hx, hpost⟩ | ⟨x, hx, hpost⟩
    · have : Event.switched ∈ t2 := by
        rw [hpost]
        exact mem_append_right _ (mem_cons_of_mem _ hswitched)
      exact absurd this h2
    · cases x with
      | nil =>
        have : t2 = .began w :: post := hpost.symm
        exact absurd (this ▸ mem_cons_of_mem _ hswitched) h2
      | cons y x =>
        cases hpost
        exact ⟨x, hx⟩
  rcases hin e hmem with hnew | ⟨hnil, -⟩
  · have hsorted := h.sorted
    have hbounds := (h.bounds e (by rw [hparts, insertedEntries_append]; exact mem_append_right _ hnew)).1
    rcases he with he | he
    · exact absurd (hmem0 e he) (not_le.2 hbounds)
    · rw [hparts, insertedEntries_append] at hsorted
      refine lt_irrefl _ ((pairwise_append.1 hsorted).2.2 e ?_ e hnew)
      rw [hx, insertedEntries_append]
      exact mem_append_left _ he
  · rw [hx] at hnil
    simp at hnil

/-- When a writer without a batch is never in the group of another one, its call returns without an error only after
what had been inserted before the call has left the memtable. -/
theorem forced_flush (c : Config) (s0 s1 s : Sys) (p0 p : Process) (as1 as2 : List Action) (sync : Bool)
    (hp0 : s0.process = some p0) (hquiet : p0.Quiet) (hmem0 : ∀ e ∈ p0.mem, e.1.sequence ≤ p0.vs.lastSequence)
    (ht : s0.trace = [])
    (hc : StepsMeet (Sys.step c) (fun s a => a.NoCrash ∧ NullLeads s a) s0 (as1 ++ .write none sync :: as2))
    (hr1 : run (Sys.step c) s0 as1 = some s1) (hr : run (Sys.step c) s1 (.write none sync :: as2) = some s)
    (hp : s.process = some p) (hret : (⟨s1.calls, none, sync⟩, .ok ()) ∈ returned s.trace) (e : Entry Slice)
    (he : e ∈ p0.mem ∨ e ∈ insertedEntries s1.trace) : e ∉ p.mem ∧ (p.imm = none → e ∈ flushedEntries s.trace) := by
  have hinv : ∃ p, s.process = some p ∧ Queue s.trace p s.calls ∧ Inserts p0.vs.lastSequence p0.mem s.trace p ∧
      Forces s.trace p := by
    refine run_invariant (I := fun s => ∃ p, s.process = some p ∧ Queue s.trace p s.calls ∧
      Inserts p0.vs.lastSequence p0.mem s.trace p ∧ Forces s.trace p) ?_ ⟨p0, hp0, ?_, ?_, ?_⟩ hc
      (run_append.2 ⟨s1, hr1, hr⟩)
    · rintro s a s' ⟨p, hp, hq, hi, hf⟩ ⟨hcrash, hnull⟩ hstep
      rcases Sys.step_of_process hp hstep with ⟨logs, tables, manifests, rfl, -⟩ | ⟨p', disk', events, hpstep, rfl⟩
      · cases hcrash
      · have hstep' := step_of_eq hpstep
        refine ⟨p', rfl, hstep'.queue hq, hstep'.inserts hq.phase hi, hstep'.forces hq hf ?_⟩
        rintro newFileFails closeFails rfl
        exact hnull p hp
    · rw [ht]
      exact hquiet.queue
    · rw [ht]
      exact inserts_nil p0
    · rw [ht]
      exact hquiet.forces
  obtain ⟨p', hp', hq, hi, hf⟩ := hinv
  cases hp.symm.trans hp'
  obtain ⟨post, htrace⟩ : ∃ post, s.trace = s1.trace ++ .began ⟨s1.calls, none, sync⟩ :: post := by
    obtain ⟨s2, hstep, hrest⟩ := run_cons.1 hr
    obtain ⟨post, hpost⟩ := Sys.trace_isPrefix_run hrest
    refine ⟨post, ?_⟩
    rw [← hpost, Sys.trace_write hstep, append_assoc]
    rfl
  obtain ⟨sequence, hfin⟩ := hq.returned _ hret
  have hnot : e ∉ p.mem := hi.notMem hmem0 htrace (hf.finished _ sequence rfl hfin _ post htrace) he
  refine ⟨hnot, fun himm => ?_⟩
  have hall : e ∈ p0.mem ∨ e ∈ insertedEntries s.trace := by
    rw [htrace, insertedEntries_append]
    exact he.imp id fun h => mem_append_left _ h
  rcases hi.kept e hall with h | h | h
  · exact absurd h hnot
  · rw [himm] at h
    cases h
  · exact h

set_option synthInstance.maxSize 512 in
theorem forced_flush_sample :
    let e : Entry Slice := (⟨[1], 1, .value⟩, [2])
    let as1 : List Action := [.write (some (samplePut 1 2)) false, .begin, .makeRoom false false, .addRecord [], .insert,
      .finish]
    let as2 : List Action := [.begin, .makeRoom false false, .makeRoom false false, .ret 1, .flushBegin, .flushWrite,
      .syncTable 5, .flushReady 0, .logEdit, .install]
    ∃ s0 s1 s p, run (Sys.step (.sample 9)) (.fresh (.sample 9)) openSteps = some s0 ∧
      run (Sys.step (.sample 9)) s0 as1 = some s1 ∧ e ∈ insertedEntries s1.trace ∧
      run (Sys.step (.sample 9)) s1 (.write none false :: as2) = some s ∧ s.process = some p ∧
      e ∉ p.mem ∧ e ∈ flushedEntries s.trace := by
  intro e as1 as2
  obtain ⟨s0, hs0, ht, hmeet, p0, hp0, hquiet, hmem, s1, hs1, he, s, hs, hret, p, hp, himm⟩ : ∃ s0,
      run (Sys.step (.sample 9)) (.fresh (.sample 9)) openSteps = some s0 ∧ s0.trace.isEmpty = true ∧
        StepsMeet (Sys.step (.sample 9)) (fun s a => a.NoCrash ∧ NullLeads s a) s0 (as1 ++ .write none false :: as2) ∧
        ∃ p0 ∈ s0.process, p0.Quiet ∧ p0.mem = [] ∧ ∃ s1 ∈ run (Sys.step (.sample 9)) s0 as1, e ∈ insertedEntries s1.trace ∧
            ∃ s ∈ run (Sys.step (.sample 9)) s1 (.write none false :: as2),
              (⟨s1.calls, none, false⟩, .ok ()) ∈ returned s.trace ∧
                ∃ p ∈ s.process, p.imm.isNone = true := exists_run (by decide +kernel)
  obtain ⟨hnot, hin⟩ := forced_flush (.sample 9) s0 s1 s p0 p as1 as2 false hp0 hquiet (by simp [hmem])
    (List.isEmpty_iff.1 ht) hmeet hs1 hs hp hret e (.inr he)
  exact ⟨s0, s1, s, p, hs0, hs1, he, hs, hp, hnot, hin (Option.isNone_iff_eq_none.1 himm)⟩

set_option synthInstance.maxSize 512 in
/-- A writer without a batch that waits behind another one is done with the group of that one. -/
theorem forced_flush_grouped :
    let e : Entry Slice := (⟨[1], 1, .value⟩, [2])
    let as1 : List Action := [.write (some (samplePut 1 2)) false, .begin, .makeRoom false false, .addRecord [], .insert,
      .finish, .ret 0, .write (some (samplePut 3 4)) false]
    let as2 : List Action := [.begin, .makeRoom false false, .addRecord [], .insert, .finish, .ret 2]
    ∃ s0 s1 s p, run (Sys.step (.sample 9)) (.fresh (.sample 9)) openSteps = some s0 ∧
      (∃ p0, s0.process = some p0 ∧ p0.Quiet ∧ p0.mem = []) ∧
      run (Sys.step (.sample 9)) s0 as1 = some s1 ∧ e ∈ insertedEntries s1.trace ∧
      run (Sys.step (.sample 9)) s1 (.write none false :: as2) = some s ∧
      (⟨s1.calls, none, false⟩, .ok ()) ∈ returned s.trace ∧ s.process = some p ∧ e ∈ p.mem := by
  intro e as1 as2
  obtain ⟨s0, hs0, hp0, s1, hs1, he, s, hs, hret, p, hp, hmem⟩ : ∃ s0,
      run (Sys.step (.sample 9)) (.fresh (.sample 9)) openSteps = some s0 ∧ (∃ p0 ∈ s0.process, p0.Quiet ∧ p0.mem = []) ∧
        ∃ s1 ∈ run (Sys.step (.sample 9)) s0 as1, e ∈ insertedEntries s1.trace ∧
          ∃ s ∈ run (Sys.step (.sample 9)) s1 (.write none false :: as2),
            (⟨s1.calls, none, false⟩, .ok ()) ∈ returned s.trace ∧
              ∃ p ∈ s.process, e ∈ p.mem := exists_run (by decide +kernel)
  exact ⟨s0, s1, s, p, hs0, hp0, hs1, he, hs, hret, hp, hmem⟩

end RallyDB.Db.System
