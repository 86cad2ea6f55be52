import RallyDB.Db.Lemmas.Durability
import RallyDB.Db.LogTheorems

/-!
# What is there after a crash
-/

namespace RallyDB.Db.Durability

open List Function LogFile

variable {ε : Type} {s s' s0 : State ε} {e : ε × Nat}

lemma mem_entries_append {g g' : Numbered ε} : e ∈ (g ++ g').entries ↔ e ∈ g.entries ∨ e ∈ g'.entries := by
  rw [Numbered.entries, flatMap_append, mem_append]
  rfl

lemma number_batch (sequence : Nat) (ws : List (Writer ε)) :
    ∀ q ∈ number sequence ws, q.1 ∈ ws ∧ ∃ n, q.2 = (q.1.batch.getD []).zipIdx n := by
  induction ws generalizing sequence with
  | nil => nofun
  | cons w ws ih =>
    intro q hq
    rcases mem_cons.1 hq with rfl | hq
    · exact ⟨mem_cons_self, sequence, rfl⟩
    · obtain ⟨hmem, hn⟩ := ih _ q hq
      exact ⟨mem_cons_of_mem _ hmem, hn⟩

/-! ## Writes that are synced -/

structure Tracked (s : State ε) : Prop where
  pending : ∀ e ∈ s.phase.pending, e ∈ (s.disk.log s.logfileNumber).read.flatten
  group_read : ∀ e ∈ s.phase.group.entries, Stays LogFile.read s e
  group_sync : ∀ q ∈ s.phase.group, q.1.sync → s.phase.leaderSync
  group_safe : s.phase.isSynced → ∀ e ∈ s.phase.group.entries, Stays LogFile.safe s e
  returned_read : ∀ e ∈ s.returned.entries, Stays LogFile.read s e
  returned_safe : ∀ q ∈ s.returned, q.1.sync → ∀ e ∈ q.2, Stays LogFile.safe s e
  batch : ∀ q ∈ s.phase.group ++ s.returned, ∃ n, q.2 = (q.1.batch.getD []).zipIdx n

lemma Opened.tracked (h : Opened s) : Tracked s where
  pending := by
    rw [h.phase]
    nofun
  group_read := by
    rw [h.phase]
    nofun
  group_sync := by
    rw [h.phase]
    nofun
  group_safe := by
    rw [h.phase]
    nofun
  returned_read := by
    rw [h.returned]
    nofun
  returned_safe := by
    rw [h.returned]
    nofun
  batch := by
    rw [h.phase, h.returned]
    nofun

section Step

variable (hread : ∀ e, Stays LogFile.read s e → Stays LogFile.read s' e)
  (hsafe : ∀ e, Stays LogFile.safe s e → Stays LogFile.safe s' e)

include hread hsafe

lemma Tracked.quiet (h : Tracked s) (hphase : s'.phase = s.phase) (hreturned : s'.returned = s.returned)
    (hlog : s'.disk.log s'.logfileNumber = s.disk.log s.logfileNumber) : Tracked s' where
  pending := by
    rw [hphase, hlog]
    exact h.pending
  group_read e he := hread e (h.group_read e (hphase ▸ he))
  group_sync := by
    rw [hphase]
    exact h.group_sync
  group_safe hs e he := hsafe e (h.group_safe (hphase ▸ hs) e (hphase ▸ he))
  returned_read e he := hread e (h.returned_read e (hreturned ▸ he))
  returned_safe q hq hs e he := hsafe e (h.returned_safe q (hreturned ▸ hq) hs e he)
  batch := by
    rw [hphase, hreturned]
    exact h.batch

lemma Tracked.waiting (h : Tracked s) (hphase : s'.phase = .waiting ∨ s'.phase = .switched)
    {g : Numbered ε} (hreturned : s'.returned = s.returned ++ g)
    (hg : ∀ e ∈ g.entries, Stays read s e) (hsync : ∀ q ∈ g, q.1.sync → ∀ e ∈ q.2, Stays safe s e)
    (hbatch : ∀ q ∈ g, ∃ n, q.2 = (q.1.batch.getD []).zipIdx n) : Tracked s' := by
  have hgroup : s'.phase.group = [] ∧ s'.phase.pending = [] := by
    rcases hphase with hphase | hphase <;> rw [hphase] <;> exact ⟨rfl, rfl⟩
  obtain ⟨hgroup, hpending⟩ := hgroup
  exact {
    pending := by
      intro e he
      rw [hpending] at he
      cases he
    group_read := by
      intro e he
      rw [hgroup] at he
      cases he
    group_sync := by
      intro q hq
      rw [hgroup] at hq
      cases hq
    group_safe := by
      intro _ e he
      rw [hgroup] at he
      cases he
    returned_read := by
      intro e he
      rw [hreturned, mem_entries_append] at he
      exact hread e (he.elim (h.returned_read e) (hg e))
    returned_safe := by
      intro q hq hs e he
      rw [hreturned, mem_append] at hq
      exact hsafe e (hq.elim (fun hq => h.returned_safe q hq hs e he) (fun hq => hsync q hq hs e he))
    batch := by
      intro q hq
      rw [hgroup, hreturned, nil_append, mem_append] at hq
      exact hq.elim (fun hq => h.batch q (mem_append_right _ hq)) (hbatch q) }

lemma Tracked.leads (h : Tracked s)
    (hpending : ∀ e ∈ s'.phase.pending, e ∈ (s'.disk.log s'.logfileNumber).read.flatten) (hgroup : s'.phase.group = s.phase.group)
    (hsync : s'.phase.leaderSync = s.phase.leaderSync) (hreturned : s'.returned = s.returned)
    (hgroupSafe : s'.phase.isSynced → ∀ e ∈ s.phase.group.entries, Stays safe s' e) : Tracked s' where
  pending := hpending
  group_read e he := hread e (h.group_read e (hgroup ▸ he))
  group_sync := by
    rw [hgroup, hsync]
    exact h.group_sync
  group_safe hs e he := hgroupSafe hs e (hgroup ▸ he)
  returned_read e he := hread e (h.returned_read e (hreturned ▸ he))
  returned_safe q hq hs e he := hsafe e (h.returned_safe q (hreturned ▸ hq) hs e he)
  batch := by
    rw [hgroup, hreturned]
    exact h.batch

end Step

lemma Tracked.addRecord (h : Tracked s) (hi' : Inv s') (hread : ∀ e, Stays read s e → Stays read s' e)
    (hsafe : ∀ e, Stays safe s e → Stays safe s' e) {n bytes : Nat}
    (hs : s.addRecord n bytes = some s') : Tracked s' := by
  obtain ⟨w, ws, -, hsync, rfl⟩ := State.addRecord_some hs
  have hnew : ∀ e ∈ (number (s.lastSequence + 1) (s.writers.take n)).entries, e ∈ (update s.disk.log s.logfileNumber
        ((s.disk.log s.logfileNumber).addRecord (number (s.lastSequence + 1) (s.writers.take n)).entries bytes)
          s.logfileNumber).read.flatten := by
    intro e he
    rw [update_self, read_addRecord, flatten_append, mem_append]
    right
    rw [flatten_singleton]
    exact he
  exact {
    pending := hnew
    group_read := fun e he => hi'.stays_of_log (hnew e he)
    group_sync := fun q hq hq' => hsync q.1 (number_batch _ _ q hq).1 hq'
    group_safe := nofun
    returned_read := fun e he => hread e (h.returned_read e he)
    returned_safe := fun q hq hq' e he => hsafe e (h.returned_safe q hq hq' e he)
    batch := by
      intro q hq
      rcases mem_append.1 hq with hq | hq
      · exact (number_batch _ _ q hq).2
      · exact h.batch q (mem_append_right _ hq) }

lemma buildTable_frame (s : State ε) (n : Nat) (imm : List (ε × Nat)) :
    (s.buildTable n imm).phase = s.phase ∧ (s.buildTable n imm).returned = s.returned ∧
    (s.buildTable n imm).writers = s.writers ∧
    (s.buildTable n imm).disk.log (s.buildTable n imm).logfileNumber = s.disk.log s.logfileNumber := by
  unfold State.buildTable
  split_ifs <;> exact ⟨rfl, rfl, rfl, rfl⟩

lemma Tracked.step (h : Tracked s) (hi : Inv s) {a : Action ε} (hs : Step s a s') : Tracked s' := by
  have hi' := hi.step hs
  have hread : ∀ e, Stays read s e → Stays read s' e := fun e => Stays.step part_read hi hs
  have hsafe : ∀ e, Stays safe s e → Stays safe s' e := fun e => Stays.step part_safe hi hs
  cases hs with
  | switchMemTable => exact h.waiting hread hsafe (.inr rfl) (append_nil _).symm nofun nofun nofun
  | pass =>
    refine h.waiting hread hsafe (.inl rfl) rfl nofun ?_ ?_
    · intro q hq _ e he
      cases mem_singleton.1 hq
      cases he
    · intro q hq
      cases mem_singleton.1 hq
      exact ⟨0, rfl⟩
  | addRecord _ hadd => exact h.addRecord hi' hread hsafe hadd
  | @sync g hphase =>
    have hpending := h.pending
    rw [hphase] at hpending
    have hlog : (s.syncLog g).disk.log s.logfileNumber = (s.disk.log s.logfileNumber).sync := update_self _ _ _
    refine h.leads hread hsafe ?_ (by rw [hphase]; rfl) (by rw [hphase]; rfl) rfl ?_
    · change ∀ e ∈ g.entries, e ∈ ((s.syncLog g).disk.log s.logfileNumber).read.flatten
      rw [hlog]
      exact hpending
    · intro _ e he
      rw [hphase] at he
      refine hi'.stays_of_log ?_
      change e ∈ (((s.syncLog g).disk.log s.logfileNumber).safe).flatten
      rw [hlog, safe_sync]
      exact hpending e he
  | insertUnsynced hphase => exact h.leads hread hsafe nofun (by rw [hphase]; rfl) (by rw [hphase]; rfl) rfl nofun
  | insert hphase =>
    refine h.leads hread hsafe nofun (by rw [hphase]; rfl) (by rw [hphase]; rfl) rfl ?_
    exact fun _ e he => hsafe e (h.group_safe (by rw [hphase]; rfl) e he)
  | finish hphase =>
    have hgread := h.group_read
    have hgsync := h.group_sync
    have hgsafe := h.group_safe
    have hbatch := h.batch
    rw [hphase] at hgread hgsync hgsafe hbatch
    refine h.waiting hread hsafe (.inl rfl) rfl hgread ?_ fun q hq => hbatch q (mem_append_left _ hq)
    intro q hq hq' e he
    exact hgsafe (hgsync q hq hq') e (mem_flatMap.2 ⟨q, hq, he⟩)
  | buildTable =>
    obtain ⟨hphase, hreturned, -, hlog⟩ := buildTable_frame s _ _
    exact h.quiet hread hsafe hphase hreturned hlog
  | _ => exact h.quiet hread hsafe rfl rfl rfl

lemma run_tracked {as : List (Action ε)} (hopen : Opened s0) (hrun : Lib.run step s0 as = some s) : Inv s ∧ Tracked s := by
  have hstep : ∀ (t : State ε) a t', Inv t ∧ Tracked t → True → step t a = some t' → Inv t' ∧ Tracked t' :=
    fun _ _ _ h _ hs => ⟨h.1.step (.of_step hs), h.2.step h.1 (.of_step hs)⟩
  exact Lib.run_invariant hstep ⟨hopen.inv, hopen.tracked⟩ (Lib.stepsMeet_of_forall fun _ _ => trivial) hrun

/-- After a crash at any point, `Recover` succeeds, and each operation of a write that was to be synced and had returned is
there with its sequence number. -/
theorem synced_write_recovered (s0 s : State ε) (as : List (Action ε)) (hopen : Opened s0)
    (hrun : Lib.run step s0 as = some s) (c : Crash) : ∃ entries, s.disk.recover c = some entries ∧
    ∀ q ∈ s.returned, q.1.sync = true →
    (∃ sequence, q.2 = (q.1.batch.getD []).zipIdx sequence) ∧ ∀ e ∈ q.2, e ∈ entries := by
  obtain ⟨hi, ht⟩ := run_tracked hopen hrun
  obtain ⟨entries, hrecover, hsafe⟩ := hi.recover c
  refine ⟨entries, hrecover, ?_⟩
  intro q hq hsync
  exact ⟨ht.batch q (mem_append_right _ hq), fun e he => hsafe e (ht.returned_safe q hq hsync e he)⟩

def flushedRun : List (Action Nat) :=
  [.write (some [10]) true, .write (some [20, 21]) true, .addRecord 2 9, .sync, .insert, .finish, .write none false,
    .switchMemTable, .pass, .flushBegin, .buildTable, .syncTable, .logEdit 7, .install, .removeLog 3]

theorem synced_write_recovered_sample : ∃ s, Lib.run step State.fresh flushedRun = some s ∧
    ∃ entries, s.disk.recover ⟨fun _ => 0, fun _ => false, 0⟩ = some entries ∧ (21, 3) ∈ entries := by
  have hex : ∃ s, Lib.run step State.fresh flushedRun = some s ∧ ∃ q ∈ s.returned, q.1.sync = true ∧ (21, 3) ∈ q.2 :=
    Lib.exists_run (by decide +kernel)
  obtain ⟨s, hrun, q, hq, hsync, he⟩ := hex
  obtain ⟨entries, hrecover, hall⟩ := synced_write_recovered _ s _ opened_fresh hrun ⟨fun _ => 0, fun _ => false, 0⟩
  exact ⟨s, hrun, entries, hrecover, (hall q hq hsync).2 _ he⟩

/-! ## What was written before -/

/-- When the log is synced, the older logs that are still needed are synced too; and a write that is to be synced has a
batch. -/
def OldLogsSynced (s : State ε) : Action ε → Prop
  | .sync =>
    ∀ n ∈ s.disk.logs, s.version.logNumber ≤ n → n ≠ s.logfileNumber → (s.disk.log n).length ≤ (s.disk.log n).synced
  | .pass => ∀ w ∈ s.writers.head?, w.sync = false
  | _ => True

instance (s : State ε) (a : Action ε) : Decidable (OldLogsSynced s a) := by
  unfold OldLogsSynced
  split <;> infer_instance

structure Restart (s : State ε) : Prop where
  queue : ∀ w ∈ s.writers, ∀ e ∈ w.before, e ∈ s.returned.entries
  group : ∀ q ∈ s.phase.group, ∀ e ∈ q.1.before, e ∈ s.returned.entries
  safe : s.phase.isSynced → ∀ e ∈ s.returned.entries, Stays LogFile.safe s e
  returned : ∀ q ∈ s.returned, q.1.sync → ∀ e ∈ q.1.before, Stays LogFile.safe s e

lemma Opened.restart (h : Opened s) : Restart s where
  queue := by
    rw [h.writers]
    nofun
  group := by
    rw [h.phase]
    nofun
  safe := by
    rw [h.phase]
    nofun
  returned := by
    rw [h.returned]
    nofun

section Step

variable (hsafe : ∀ e, Stays LogFile.safe s e → Stays LogFile.safe s' e)

include hsafe

lemma Restart.quiet (h : Restart s) (hwriters : s'.writers = s.writers) (hphase : s'.phase = s.phase)
    (hreturned : s'.returned = s.returned) : Restart s' where
  queue := by
    rw [hwriters, hreturned]
    exact h.queue
  group := by
    rw [hphase, hreturned]
    exact h.group
  safe hs e he := hsafe e (h.safe (hphase ▸ hs) e (hreturned ▸ he))
  returned q hq hs e he := hsafe e (h.returned q (hreturned ▸ hq) hs e he)

lemma Restart.waiting (h : Restart s) (hphase : s'.phase = .waiting ∨ s'.phase = .switched)
    (hwriters : ∀ w ∈ s'.writers, w ∈ s.writers) {g : Numbered ε} (hreturned : s'.returned = s.returned ++ g)
    (hg : ∀ q ∈ g, q.1.sync → ∀ e ∈ q.1.before, Stays LogFile.safe s e) : Restart s' := by
  have hgroup : s'.phase.group = [] ∧ s'.phase.isSynced = false := by
    rcases hphase with hphase | hphase <;> rw [hphase] <;> exact ⟨rfl, rfl⟩
  exact {
    queue := by
      intro w hw e he
      rw [hreturned, mem_entries_append]
      exact .inl (h.queue w (hwriters w hw) e he)
    group := by
      rw [hgroup.1]
      nofun
    safe := by
      rw [hgroup.2]
      nofun
    returned := by
      intro q hq hs e he
      rw [hreturned, mem_append] at hq
      exact hsafe e (hq.elim (fun hq => h.returned q hq hs e he) (fun hq => hg q hq hs e he)) }

lemma Restart.leads (h : Restart s) (hwriters : s'.writers = s.writers) (hgroup : ∀ q ∈ s'.phase.group,
    q ∈ s.phase.group ∨ q.1 ∈ s.writers) (hreturned : s'.returned = s.returned)
    (hs : s'.phase.isSynced → ∀ e ∈ s.returned.entries, Stays LogFile.safe s' e) : Restart s' where
  queue := by
    rw [hwriters, hreturned]
    exact h.queue
  group := by
    intro q hq e he
    rw [hreturned]
    exact (hgroup q hq).elim (fun hq => h.group q hq e he) (fun hq => h.queue q.1 hq e he)
  safe hsync e he := hs hsync e (hreturned ▸ he)
  returned q hq hsync e he := hsafe e (h.returned q (hreturned ▸ hq) hsync e he)

end Step

lemma Restart.addRecord (h : Restart s) (hsafe : ∀ e, Stays LogFile.safe s e → Stays LogFile.safe s' e) {n bytes : Nat}
    (hs : s.addRecord n bytes = some s') : Restart s' := by
  obtain ⟨w, ws, -, -, rfl⟩ := State.addRecord_some hs
  refine h.leads hsafe rfl ?_ rfl nofun
  exact fun q hq => .inr (mem_of_mem_take (number_batch _ _ q hq).1)

lemma stays_safe_syncLog {g : Numbered ε} (hi : Inv (s.syncLog g)) (hold : OldLogsSynced s .sync)
    (h : Stays read (s.syncLog g) e) : Stays safe (s.syncLog g) e := by
  refine h.safe_of_synced hi ?_
  intro n hn hle
  change (update s.disk.log s.logfileNumber _ n).length ≤ (update s.disk.log s.logfileNumber _ n).synced
  by_cases hcur : n = s.logfileNumber
  · rw [hcur, update_self]
    exact le_refl _
  · rw [update_of_ne hcur]
    exact hold n hn hle hcur

lemma Restart.step (h : Restart s) (hi : Inv s) (ht : Tracked s) {a : Action ε} (hold : OldLogsSynced s a)
    (hs : Step s a s') : Restart s' := by
  have hi' := hi.step hs
  have hread : ∀ e, Stays LogFile.read s e → Stays LogFile.read s' e := fun e => Stays.step part_read hi hs
  have hsafe : ∀ e, Stays LogFile.safe s e → Stays LogFile.safe s' e := fun e => Stays.step part_safe hi hs
  cases hs with
  | write =>
    exact { h with
      queue := by
        intro w hw
        rcases mem_append.1 hw with hw | hw
        · exact h.queue w hw
        · cases mem_singleton.1 hw
          exact fun e he => he }
  | switchMemTable => exact h.waiting hsafe (.inr rfl) (fun w hw => hw) (append_nil _).symm nofun
  | @pass sync before ws _ hwriters =>
    refine h.waiting hsafe (.inl rfl) (fun w hw => hwriters ▸ mem_cons_of_mem _ hw) rfl ?_
    intro q hq hsync
    cases mem_singleton.1 hq
    have hnot : sync = false := hold ⟨none, sync, before⟩ (by rw [hwriters]; rfl)
    exact absurd (hnot.symm.trans hsync) nofun
  | addRecord _ hadd => exact h.addRecord hsafe hadd
  | sync hphase =>
    refine h.leads hsafe rfl (fun q hq => .inl (by rw [hphase]; exact hq)) rfl ?_
    exact fun _ e he => stays_safe_syncLog hi' hold (hread e (ht.returned_read e he))
  | insertUnsynced hphase => exact h.leads hsafe rfl (fun q hq => .inl (by rw [hphase]; exact hq)) rfl nofun
  | insert hphase =>
    refine h.leads hsafe rfl (fun q hq => .inl (by rw [hphase]; exact hq)) rfl ?_
    exact fun _ e he => hsafe e (h.safe (by rw [hphase]; rfl) e he)
  | finish hphase =>
    have hgroup := h.group
    have hall := h.safe
    have hgsync := ht.group_sync
    rw [hphase] at hgroup hall hgsync
    refine h.waiting hsafe (.inl rfl) (fun w hw => mem_of_mem_drop hw) rfl ?_
    exact fun q hq hq' e he => hall (hgsync q hq hq') e (hgroup q hq e he)
  | buildTable =>
    obtain ⟨hphase, hreturned, hwriters, -⟩ := buildTable_frame s _ _
    exact h.quiet hsafe hwriters hphase hreturned
  | _ => exact h.quiet hsafe rfl rfl rfl

/-- As long as older logs are synced whenever the log is, all that had returned before a synced write began is there
after a crash at any point after the synced write has returned. -/
theorem earlier_writes_recovered (s0 s : State ε) (as : List (Action ε)) (hopen : Opened s0)
    (hold : Lib.StepsMeet step OldLogsSynced s0 as) (hrun : Lib.run step s0 as = some s) (c : Crash) :
    ∃ entries, s.disk.recover c = some entries ∧ ∀ q ∈ s.returned, q.1.sync = true → ∀ e ∈ q.1.before, e ∈ entries := by
  have hstep : ∀ (t : State ε) a t', Inv t ∧ Tracked t ∧ Restart t → OldLogsSynced t a → step t a = some t' →
      Inv t' ∧ Tracked t' ∧ Restart t' :=
    fun _ _ _ h hc hs =>
      ⟨h.1.step (.of_step hs), h.2.1.step h.1 (.of_step hs), h.2.2.step h.1 h.2.1 hc (.of_step hs)⟩
  obtain ⟨hi, -, hr⟩ := Lib.run_invariant hstep ⟨hopen.inv, hopen.tracked, hopen.restart⟩ hold hrun
  obtain ⟨entries, hrecover, hsafe⟩ := hi.recover c
  exact ⟨entries, hrecover, fun q hq hsync e he => hsafe e (hr.returned q hq hsync e he)⟩

def syncedSwitchRun : List (Action Nat) :=
  [.write (some [10]) true, .addRecord 1 9, .sync, .insert, .finish, .write none false, .switchMemTable, .pass,
    .write (some [20]) true, .addRecord 1 9, .sync, .insert, .finish]

theorem earlier_writes_recovered_sample : ∃ s, Lib.run step State.fresh syncedSwitchRun = some s ∧
    ∃ entries, s.disk.recover ⟨fun _ => 0, fun _ => false, 0⟩ = some entries ∧ (10, 1) ∈ entries := by
  have hex : ∃ s, Lib.run step State.fresh syncedSwitchRun = some s ∧
      ∃ q ∈ s.returned, q.1.sync = true ∧ (10, 1) ∈ q.1.before :=
    Lib.exists_run (by decide +kernel)
  have hmeet : Lib.StepsMeet step OldLogsSynced State.fresh syncedSwitchRun := by decide +kernel
  obtain ⟨s, hrun, q, hq, hsync, he⟩ := hex
  obtain ⟨entries, hrecover, hall⟩ :=
    earlier_writes_recovered _ s _ opened_fresh hmeet hrun ⟨fun _ => 0, fun _ => false, 0⟩
  exact ⟨s, hrun, entries, hrecover, hall q hq hsync _ he⟩

def unsyncedSwitchRun : List (Action Nat) :=
  [.write (some [10]) false, .addRecord 1 9, .insert, .finish, .write none false, .switchMemTable, .pass,
    .write (some [20]) true, .addRecord 1 9, .sync, .insert, .finish]

/-- The synced write has returned and is there after the crash, and the write before it is lost. -/
theorem earlier_write_lost : ∃ s, Lib.run step State.fresh unsyncedSwitchRun = some s ∧
    (∃ q ∈ s.returned, q.1.sync = true ∧ (10, 1) ∈ q.1.before) ∧
    s.disk.recover ⟨fun _ => 0, fun _ => false, 0⟩ = some [(20, 2)] :=
  Lib.exists_run (by decide +kernel)

structure LogFile.Models (crc : Util.Crc32c) (f : LogFile Slice) (w : Log.Writer) : Prop where
  written : Log.Written crc 0 w f.records
  length : f.length = w.size

lemma LogFile.Models.addRecord {crc : Util.Crc32c} {f : LogFile Slice} {w : Log.Writer} (h : f.Models crc w)
    (record : Slice) :
    (f.addRecord record ((w.addRecord crc record).1.size - w.size)).Models crc (w.addRecord crc record).1 := by
  have hle : w.size ≤ (w.addRecord crc record).1.size :=
    (@Log.writeLog_isPrefix crc w [.addRecord record]).length_le
  have hlength : f.length + ((w.addRecord crc record).1.size - w.size) = (w.addRecord crc record).1.size := by
    rw [h.length]
    omega
  refine ⟨?_, hlength⟩
  unfold LogFile.addRecord
  dsimp only
  rw [hlength]
  exact h.written.addRecord record

lemma LogFile.Models.recovered {crc : Util.Crc32c} {f : LogFile Slice} {w : Log.Writer} (h : f.Models crc w)
    {p : Slice} (hp : p <+: w.dest.contents) : (Log.recovered crc p).1 = f.wholeIn p.length := by
  rw [h.written.recovered_eq hp]
  rfl

end RallyDB.Db.Durability
