import RallyDB.Db.Lemmas.GroupCommit

/-!
# What a write without a batch forces
-/

namespace RallyDB.Db.System

open Util Table Descriptor List Process

variable {c : Config} {p p' : Process} {disk disk' : Disk} {calls base : Nat} {a : Action} {events t : List Event}
  {mem0 : MemTable Slice}

def Process.givenOut (p : Process) : Nat :=
  match p.phase with
  | .finish _ lastSequence _ _ => lastSequence
  | _ => p.vs.lastSequence

structure Inserts (base : Nat) (mem0 : MemTable Slice) (t : List Event) (p : Process) : Prop where
  base_le : base ≤ p.vs.lastSequence
  sorted : (insertedEntries t).Pairwise fun a b => a.1.sequence < b.1.sequence
  bounds : ∀ e ∈ insertedEntries t, base < e.1.sequence ∧ e.1.sequence ≤ p.givenOut
  parts : ∃ t1 t2, t = t1 ++ t2 ∧ (t1 = [] ∨ .switched ∈ t1) ∧ .switched ∉ t2 ∧
    ∀ e ∈ p.mem, e ∈ insertedEntries t2 ∨ t1 = [] ∧ e ∈ mem0
  kept : ∀ e, e ∈ mem0 ∨ e ∈ insertedEntries t → e ∈ p.mem ∨ e ∈ p.imm.getD [] ∨ e ∈ flushedEntries t

lemma flushedEntries_append (t t' : List Event) :
    flushedEntries (t ++ t') = flushedEntries t ++ flushedEntries t' := flatMap_append

lemma Inserts.quiet (h : Inserts base mem0 t p) (hlast : p.vs.lastSequence ≤ p'.vs.lastSequence)
    (hgiven : p.givenOut ≤ p'.givenOut) (hmem : p'.mem = p.mem) (himm : p'.imm = p.imm)
    (hinserted : insertedEntries events = []) (hswitched : .switched ∉ events) : Inserts base mem0 (t ++ events) p' := by
  obtain ⟨t1, t2, rfl, h1, h2, hmem2⟩ := h.parts
  refine ⟨h.base_le.trans hlast, ?_, ?_, ⟨t1, t2 ++ events, append_assoc _ _ _, h1, ?_, ?_⟩, ?_⟩
  · rw [insertedEntries_append, hinserted, append_nil]
    exact h.sorted
  · rw [insertedEntries_append, hinserted, append_nil]
    exact fun e he => ⟨(h.bounds e he).1, (h.bounds e he).2.trans hgiven⟩
  · rw [mem_append, not_or]
    exact ⟨h2, hswitched⟩
  · rw [hmem, insertedEntries_append, hinserted, append_nil]
    exact hmem2
  · rw [hmem, himm, insertedEntries_append, hinserted, append_nil, flushedEntries_append]
    intro e he
    rcases h.kept e he with h | h | h
    · exact .inl h
    · exact .inr (.inl h)
    · exact .inr (.inr (mem_append_left _ h))

lemma Step.inserts (h : Step c p disk calls a p' disk' events) (hq : p.PhaseOk) (hi : Inserts base mem0 t p) :
    Inserts base mem0 (t ++ events) p' := by
  cases h with
  | write batch sync | wait hphase | ret hmem => exact hi.quiet le_rfl le_rfl rfl rfl rfl (by simp)
  | begin hphase hwriters | delay hphase | sync hphase | room hphase hwriters hbatch hmax =>
    exact hi.quiet le_rfl (by simp [givenOut, hphase]) rfl rfl rfl (by simp)
  | @switch _ allowDelay _ closeFails _ _ hphase hwriters herror himm =>
    refine ⟨hi.base_le, ?_, ?_, ⟨t ++ [.switched], [], (append_nil _).symm, .inr (by simp), by simp, ?_⟩, ?_⟩
    · rw [insertedEntries_append]
      simpa [insertedEntries] using hi.sorted
    · rw [insertedEntries_append]
      have : (p.switchMemTable disk allowDelay closeFails).1.givenOut = p.givenOut := by
        simp [givenOut, switchMemTable, hphase]
      rw [this]
      simpa [insertedEntries] using hi.bounds
    · intro e he
      cases he
    · intro e he
      rw [flushedEntries_append]
      have hold : e ∈ mem0 ∨ e ∈ insertedEntries t := by
        rw [insertedEntries_append] at he
        simpa [insertedEntries] using he
      rcases hi.kept e hold with h | h | h
      · exact .inr (.inl h)
      · rw [himm] at h
        cases h
      · exact .inr (.inr (mem_append_left _ h))
  | noRoom hphase hwriters _ | roomForNone hphase hwriters _ =>
    have hpop := events_pop p 1
    exact hi.quiet le_rfl (by simp [givenOut, pop, hphase]) rfl rfl (hpop _).2.2.1 (hpop _).2.2.2.2.2.1
  | @addRecordFails _ g lastSequence _ _ _ _ _ hphase hwriters herror | @syncFails g lastSequence hphase =>
    have hgroup := hq.group g lastSequence (by rw [hphase]; rfl)
    refine hi.quiet le_rfl ?_ rfl rfl rfl (by simp)
    simp only [givenOut, hphase]
    rw [hgroup.last]
    exact Nat.le_add_right _ _
  | @addRecord _ _ _ w _ _ _ hphase hwriters =>
    refine hi.quiet le_rfl ?_ rfl rfl rfl (by simp)
    cases hsync : w.sync <;> simp [givenOut, hphase]
  | @insert g lastSequence hphase =>
    have hgroup := hq.group g lastSequence (by rw [hphase]; rfl)
    have hbefore : p.givenOut = p.vs.lastSequence := by simp [givenOut, hphase]
    have hnew : ∀ e ∈ batchEntries g.batch.sequence g.batch.iterate.1,
        p.vs.lastSequence < e.1.sequence ∧ e.1.sequence ≤ lastSequence := by
      rw [hgroup.iterate, hgroup.sequence, hgroup.last]
      intro e he
      have := batchEntries_sequence he
      dsimp only at this
      omega
    have hins : insertedEntries [.inserted (batchEntries g.batch.sequence g.batch.iterate.1)] =
        batchEntries g.batch.sequence g.batch.iterate.1 := by simp [insertedEntries]
    have hmem : ∀ e, e ∈ (g.batch.insertInto p.mem).1 ↔
        e ∈ p.mem ∨ e ∈ batchEntries g.batch.sequence g.batch.iterate.1 := fun e => mem_insertInto.trans or_comm
    have hbase := hi.base_le
    obtain ⟨t1, t2, rfl, h1, h2, hmem2⟩ := hi.parts
    refine ⟨hi.base_le, ?_, ?_, ⟨t1, t2 ++ _, append_assoc _ _ _, h1, ?_, ?_⟩, ?_⟩
    · rw [insertedEntries_append, hins]
      refine pairwise_append.2 ⟨hi.sorted, batchEntries_increasing _ _, fun e he e' he' => ?_⟩
      exact ((hi.bounds e he).2.trans hbefore.le).trans_lt (hnew e' he').1
    · rw [insertedEntries_append, hins]
      intro e he
      rcases mem_append.1 he with he | he
      · have := hi.bounds e he
        have hlast := hgroup.last
        exact ⟨this.1, by show _ ≤ lastSequence; omega⟩
      · exact ⟨hbase.trans_lt (hnew e he).1, (hnew e he).2⟩
    · simpa using h2
    · intro e he
      rw [insertedEntries_append, hins, mem_append]
      rcases (hmem e).1 he with he | he
      · rcases hmem2 e he with h | h
        · exact .inl (.inl h)
        · exact .inr h
      · exact .inl (.inr he)
    · intro e he
      rw [insertedEntries_append, hins, mem_append, ← or_assoc] at he
      rw [flushedEntries_append]
      rcases he with he | he
      · rcases hi.kept e he with h | h | h
        · exact .inl ((hmem e).2 (.inl h))
        · exact .inr (.inl h)
        · exact .inr (.inr (mem_append_left _ h))
      · exact .inl ((hmem e).2 (.inr he))
  | @finish g lastSequence status _ _ hphase hbg =>
    have hgroup := hq.group g lastSequence (by rw [hphase]; rfl)
    obtain ⟨-, -, hinserted, -, -, hswitched, -⟩ := events_pop p g.writers status
    refine hi.quiet ?_ (by simp [givenOut, pop, hphase]) rfl rfl hinserted hswitched
    rw [hgroup.last]
    exact Nat.le_add_right _ _
  | background hsame hbg hevents =>
    have hgiven : p.givenOut ≤ p'.givenOut := by
      unfold givenOut
      rw [hsame.phase, hsame.lastSequence]
    rcases hevents with ⟨rfl, himm⟩ | ⟨rfl, himm⟩
    · exact hi.quiet hsame.lastSequence.ge hgiven hsame.mem himm rfl (by simp)
    · have hq' : Inserts base mem0 (t ++ [.flushed (p.imm.getD [])]) { p' with imm := p.imm } :=
        hi.quiet hsame.lastSequence.ge hgiven hsame.mem rfl rfl (by simp)
      refine ⟨hq'.base_le, hq'.sorted, hq'.bounds, hq'.parts, fun e he => ?_⟩
      rcases hq'.kept e he with h | h | h
      · exact .inl h
      · refine .inr (.inr ?_)
        rw [flushedEntries_append]
        exact mem_append_right _ (by simpa [flushedEntries] using h)
      · exact .inr (.inr h)

/-! ## Writers without a batch -/

def Process.followers (p : Process) : List Writer :=
  match p.writers with
  | [] => []
  | w :: ws =>
    match w.batch with
    | none => []
    | some first => ws.take ((p.group w first ws).writers - 1)

def NullLeads (s : Sys) : Action → Prop
  | .makeRoom _ _ => ∀ p ∈ s.process, ∀ w ∈ p.followers, w.batch.isSome = true
  | _ => True

instance (s : Sys) (a : Action) : Decidable (NullLeads s a) := by
  unfold NullLeads
  split <;> infer_instance

def SwitchedSince (t : List Event) (w : Writer) : Prop := ∀ pre post, t = pre ++ .began w :: post → .switched ∈ post

structure Forces (t : List Event) (p : Process) : Prop where
  head : ∀ force allowDelay, p.phase = .makeRoom force allowDelay → p.writers ≠ []
  group : ∀ g lastSequence, p.phase.group? = some (g, lastSequence) → ∀ w ∈ p.writers.take g.writers, w.batch.isSome = true
  room : ∀ w ws allowDelay, p.writers = w :: ws → w.batch = none → p.phase = .makeRoom false allowDelay → SwitchedSince t w
  finished : ∀ w sequence, w.batch = none → (w, sequence, .ok ()) ∈ finished t → SwitchedSince t w

variable {w : Writer}

lemma SwitchedSince.append (h : SwitchedSince t w) (hno : .began w ∉ events) : SwitchedSince (t ++ events) w := by
  intro pre post heq
  rcases append_eq_append_iff.1 heq with ⟨x, hx, hevents⟩ | ⟨x, hx, hpost⟩
  · exact absurd (hevents ▸ by simp) hno
  · cases x with
    | nil =>
      have hevents : events = .began w :: post := hpost.symm
      exact absurd (hevents ▸ mem_cons_self) hno
    | cons y x =>
      cases hpost
      exact mem_append_left _ (h pre x (by rw [hx]))

lemma Forces.quiet (h : Forces t p) (hbegan : ∀ w, .began w ∉ events)
    (hhead : ∀ force allowDelay, p'.phase = .makeRoom force allowDelay → p'.writers ≠ [])
    (hgroup : ∀ g lastSequence, p'.phase.group? = some (g, lastSequence) →
    ∀ w ∈ p'.writers.take g.writers, w.batch.isSome = true)
    (hroom : ∀ w ws allowDelay, p'.writers = w :: ws → w.batch = none → p'.phase = .makeRoom false allowDelay →
    SwitchedSince t w)
    (hfinished : ∀ w sequence, w.batch = none → (w, sequence, .ok ()) ∈ System.finished events → SwitchedSince t w) :
    Forces (t ++ events) p' := by
  refine ⟨hhead, hgroup, fun w ws allowDelay hw hnone hphase => ?_, fun w sequence hnone hw => ?_⟩
  · exact (hroom w ws allowDelay hw hnone hphase).append (hbegan w)
  · rw [finished_append] at hw
    rcases mem_append.1 hw with hw | hw
    · exact (h.finished w sequence hnone hw).append (hbegan w)
    · exact (hfinished w sequence hnone hw).append (hbegan w)

lemma Forces.sameGroup (h : Forces t p) (hbegan : ∀ w, .began w ∉ events) (hwriters : p'.writers = p.writers)
    (hgroup : p'.phase.group? = p.phase.group?) (hroom : ∀ force allowDelay, p'.phase ≠ .makeRoom force allowDelay)
    (hfinished : System.finished events = []) : Forces (t ++ events) p' := by
  refine h.quiet hbegan (fun _ _ hno => absurd hno (hroom _ _)) ?_ (fun _ _ _ _ _ hno => absurd hno (hroom _ _)) ?_
  · rw [hgroup, hwriters]
    exact h.group
  · intro w sequence _ hw
    rw [hfinished] at hw
    cases hw

lemma began_notMem_pop (n : Nat) (status : Status) (w : Writer) : .began w ∉ (p.pop n status).2 := by
  intro hmem
  have : w ∈ entered (p.pop n status).2 := mem_filterMap.2 ⟨_, hmem, rfl⟩
  rw [(events_pop p n status).1] at this
  cases this

lemma mem_of_finished_pop {n : Nat} {status : Status} {sequence : Nat}
    (h : (w, sequence, .ok ()) ∈ finished (p.pop n status).2) : w ∈ p.writers.take n ∧ status = .ok () := by
  rw [(events_pop p n status).2.2.2.2.2.2] at h
  obtain ⟨q, hq, heq⟩ := mem_map.1 h
  cases heq
  refine ⟨?_, rfl⟩
  rw [← map_fst_withSequences (p.vs.lastSequence + 1) (p.writers.take n)]
  exact mem_map.2 ⟨q, hq, rfl⟩

lemma followers_eq {ws : List Writer} {first : Batch} (hwriters : p.writers = w :: ws)
    (hbatch : w.batch = some first) : p.followers = ws.take ((p.group w first ws).writers - 1) := by
  unfold followers
  rw [hwriters]
  dsimp only
  rw [hbatch]

lemma Step.forces (h : Step c p disk calls a p' disk' events) (hq : Queue t p calls) (hf : Forces t p)
    (hnull : ∀ newFileFails closeFails, a = .makeRoom newFileFails closeFails →
    ∀ w ∈ p.followers, w.batch.isSome = true) : Forces (t ++ events) p' := by
  cases h with
  | write batch sync =>
    have hne : ∀ w ∈ entered t, Event.began w ∉ [Event.began (⟨calls, batch, sync⟩ : Writer)] := fun w hw hmem => by
      have hlt := hq.fresh w hw
      cases mem_singleton.1 hmem
      exact absurd hlt (lt_irrefl _)
    have hqueue : ∀ w ∈ p.writers, w ∈ entered t := fun w hw => by
      rw [hq.entered]
      exact mem_append_right _ hw
    have hdone : ∀ w sequence status, (w, sequence, status) ∈ System.finished t → w ∈ entered t := fun w _ _ hw => by
      rw [hq.entered]
      exact mem_append_left _ (mem_map.2 ⟨_, hw, rfl⟩)
    refine ⟨?_, ?_, ?_, ?_⟩
    · intro force allowDelay _ hno
      simp at hno
    · intro g lastSequence hg w hw
      dsimp only at hw
      rw [take_append_of_le_length (hq.phase.group g lastSequence hg).joins.le] at hw
      exact hf.group g lastSequence hg w hw
    · intro w ws allowDelay hw hnone hphase
      obtain ⟨w', ws', hw'⟩ := exists_cons_of_ne_nil (hf.head _ _ hphase)
      dsimp only at hw
      rw [hw'] at hw
      cases hw
      exact (hf.room w ws' allowDelay hw' hnone hphase).append (hne w (hqueue w (hw' ▸ mem_cons_self)))
    · intro w sequence hnone hw
      rw [finished_append] at hw
      have hold : (w, sequence, .ok ()) ∈ System.finished t := by simpa [System.finished] using hw
      exact (hf.finished w sequence hnone hold).append (hne w (hdone w _ _ hold))
  | @begin w ws hphase hwriters =>
    refine hf.quiet (by simp) ?_ ?_ ?_ (by simp [System.finished])
    · intro force allowDelay _
      rw [hwriters]
      exact cons_ne_nil _ _
    · rintro g lastSequence ⟨⟩
    · intro w' ws' allowDelay hw' hnone hphase'
      dsimp only at hw' hphase'
      rw [hwriters] at hw'
      cases hw'
      rw [hnone] at hphase'
      cases hphase'
  | @delay force allowDelay _ _ hphase =>
    refine hf.quiet (by simp) (fun _ _ _ => hf.head _ _ hphase) ?_ ?_ (by simp [System.finished])
    · rintro g lastSequence ⟨⟩
    · intro w ws allowDelay' hw hnone hphase'
      cases hphase'
      exact hf.room w ws allowDelay hw hnone hphase
  | wait hphase | ret hmem => exact hf.quiet (by simp) hf.head hf.group hf.room (by simp [System.finished])
  | @switch force allowDelay _ closeFails w ws hphase hwriters herror himm =>
    refine ⟨?_, ?_, ?_, ?_⟩
    · intro force allowDelay _
      show p.writers ≠ []
      rw [hwriters]
      exact cons_ne_nil _ _
    · rintro g lastSequence ⟨⟩
    · intro w' ws' allowDelay' hw' hnone hphase' pre post heq
      rcases append_eq_append_iff.1 heq with ⟨x, hx, hevents⟩ | ⟨x, hx, hpost⟩
      · cases x <;> simp at hevents
      · cases x with
        | nil => cases hpost
        | cons y x =>
          cases hpost
          simp
    · intro w' sequence hnone hw
      rw [finished_append] at hw
      have hold : (w', sequence, .ok ()) ∈ System.finished t := by simpa [System.finished] using hw
      exact (hf.finished w' sequence hnone hold).append (by simp)
  | noRoom hphase hwriters herror =>
    refine hf.quiet (began_notMem_pop 1 _) ?_ ?_ ?_ ?_
    · rintro force allowDelay ⟨⟩
    · rintro g lastSequence ⟨⟩
    · rintro w ws allowDelay - - ⟨⟩
    · intro w sequence hnone hw
      cases (mem_of_finished_pop hw).2
  | @roomForNone allowDelay _ _ w ws hphase hwriters hbatch =>
    refine hf.quiet (began_notMem_pop 1 _) ?_ ?_ ?_ ?_
    · rintro force allowDelay ⟨⟩
    · rintro g lastSequence ⟨⟩
    · rintro w ws allowDelay - - ⟨⟩
    · intro w' sequence hnone hw
      have hmem := (mem_of_finished_pop hw).1
      rw [hwriters] at hmem
      cases mem_singleton.1 hmem
      exact hf.room w ws allowDelay hwriters hbatch hphase
  | @room _ newFileFails closeFails w ws first hphase hwriters hbatch hmax =>
    refine hf.quiet (by simp) ?_ ?_ ?_ (by simp [System.finished])
    · rintro force allowDelay ⟨⟩
    · rintro g lastSequence ⟨⟩ w' hw'
      dsimp only at hw'
      rw [hwriters] at hw'
      have hpos := (groupOk_group hwriters hbatch (hq.phase.idle (by rw [hphase]; rfl)) hmax).joins.pos
      obtain ⟨n, hn⟩ := Nat.exists_eq_succ_of_ne_zero hpos.ne'
      rw [hn, take_succ_cons] at hw'
      rcases mem_cons.1 hw' with rfl | hw'
      · rw [hbatch]
        rfl
      · refine hnull newFileFails closeFails rfl w' ?_
        rw [followers_eq hwriters hbatch, hn]
        exact hw'
    · rintro w ws allowDelay - - ⟨⟩
  | addRecordFails hphase hwriters herror | syncFails hphase | sync hphase | insert hphase =>
    exact hf.sameGroup (by simp) rfl (by rw [hphase]; rfl) (fun _ _ hno => by cases hno) rfl
  | @addRecord _ g lastSequence w _ _ _ hphase hwriters =>
    cases w.sync <;> exact hf.sameGroup (by simp) rfl (by rw [hphase]; rfl) (fun _ _ hno => by cases hno) rfl
  | @finish g lastSequence status _ _ hphase hbg =>
    refine hf.quiet (began_notMem_pop g.writers status) ?_ ?_ ?_ ?_
    · rintro force allowDelay ⟨⟩
    · rintro g' lastSequence' ⟨⟩
    · rintro w ws allowDelay - - ⟨⟩
    · intro w sequence hnone hw
      have hsome := hf.group g lastSequence (by rw [hphase]; rfl) w (mem_of_finished_pop hw).1
      rw [hnone] at hsome
      cases hsome
  | background hsame hbg hevents =>
    have hempty : (∀ w, .began w ∉ events) ∧ System.finished events = [] := by
      rcases hevents with ⟨rfl, -⟩ | ⟨rfl, -⟩ <;> exact ⟨by simp, rfl⟩
    refine hf.quiet hempty.1 ?_ ?_ ?_ (by simp [hempty.2])
    · rw [hsame.phase, hsame.writers]
      exact hf.head
    · rw [hsame.phase, hsame.writers]
      exact hf.group
    · rw [hsame.phase, hsame.writers]
      exact hf.room

end RallyDB.Db.System
