import RallyDB.Util.Scheduler

/-!
# Items run once, one at a time, in order; `ShutDown` waits for them
-/

namespace RallyDB.Util.MQScheduler

open Lib List Caller Execution MQScheduler Nat

variable {α : Type} {s s' : MQScheduler α} {a : Action α} {t n : Nat}

/-! ## What holds in every state -/

structure Inv (s : MQScheduler α) : Prop where
  order : s.executed ++ s.worker.items ++ s.backgroundWorkQueue = s.scheduled
  started : s.worker = .notStarted ↔ s.startedBackgroundThread = false
  unstarted : s.worker = .notStarted → s.scheduled = []
  -- the flag is only set while there is nothing to do
  idle : s.shuttingDown = true → s.worker.items = [] ∧ s.backgroundWorkQueue = []
  -- a thread that has to be woken up was signalled
  workSignalled : s.worker = .waiting false → s.backgroundWorkQueue = []
  finishedSignalled : s.shuttingDown = true → ∀ t n, s.callers t ≠ .waiting n false
  before_le : ∀ t n, (s.callers t).before = some n → n ≤ s.scheduled.length
  leaving_le : ∀ t n, s.callers t = .leaving n → n ≤ s.executed.length

lemma inv_new : (new : MQScheduler α).Inv where
  order := rfl
  started := by simp [new]
  unstarted _ := rfl
  idle _ := ⟨rfl, rfl⟩
  workSignalled _ := rfl
  finishedSignalled _ _ _ h := by cases h
  before_le _ _ h := by cases h
  leaving_le _ _ h := by cases h

lemma Inv.executed_of_idle (h : s.Inv) (hflag : s.shuttingDown = true) : s.executed = s.scheduled := by
  obtain ⟨hitems, hqueue⟩ := h.idle hflag
  rw [← h.order, hitems, hqueue, append_nil, append_nil]

@[simp] lemma items_signal (w : Worker α) : w.signal.items = w.items := by cases w <;> rfl

lemma signal_ne_unsignalled (w : Worker α) : w.signal ≠ .waiting false := by cases w <;> simp [Worker.signal]

@[simp] lemma signal_eq_notStarted {w : Worker α} : w.signal = .notStarted ↔ w = .notStarted := by
  cases w <;> simp [Worker.signal]

@[simp] lemma before_signal (c : Caller) : c.signal.before = c.before := by cases c <;> rfl

lemma signal_ne_waiting (c : Caller) (n : Nat) : c.signal ≠ .waiting n false := by cases c <;> simp [signal]

variable {c : Caller}

@[simp] lemma signal_eq_leaving : c.signal = .leaving n ↔ c = .leaving n := by
  cases c <;> simp [signal]

def startedWorker (s : MQScheduler α) : Worker α := if s.startedBackgroundThread then s.worker else .ready

lemma schedule_eq (s : MQScheduler α) (item : α) : s.schedule item = { s with
    shuttingDown := false
    startedBackgroundThread := true
    worker := if s.backgroundWorkQueue.isEmpty then s.startedWorker.signal else s.startedWorker
    backgroundWorkQueue := s.backgroundWorkQueue ++ [item]
    scheduled := s.scheduled ++ [item] } := by
  obtain ⟨queue, started, flag, worker, callers, scheduled, executed⟩ := s
  cases started <;> cases queue <;> rfl

section

variable (h : s.Inv)
include h

lemma Inv.startedWorker_ne : s.startedWorker ≠ .notStarted := by
  unfold startedWorker
  cases hs : s.startedBackgroundThread with
  | false => simp
  | true => exact fun he => by simpa [hs] using h.started.1 he

lemma Inv.items_startedWorker : s.startedWorker.items = s.worker.items := by
  unfold startedWorker
  cases hs : s.startedBackgroundThread with
  | false =>
    rw [h.started.2 hs]
    rfl
  | true => rfl

lemma Inv.schedule (item : α) : (s.schedule item).Inv := by
  have hstarted : (s.schedule item).worker ≠ .notStarted := by
    rw [schedule_eq]
    dsimp only
    split_ifs
    · exact signal_eq_notStarted.not.2 h.startedWorker_ne
    · exact h.startedWorker_ne
  have hitems : (s.schedule item).worker.items = s.worker.items := by
    rw [schedule_eq, ← h.items_startedWorker]
    dsimp only
    split_ifs
    · exact items_signal _
    · rfl
  -- a queue that is not empty was not empty for a thread that waits without a signal
  have hsignalled : (s.schedule item).worker ≠ .waiting false := by
    rw [schedule_eq]
    dsimp only
    split_ifs with hempty
    · exact signal_ne_unsignalled _
    · unfold startedWorker
      split_ifs
      · exact fun he => hempty (by rw [h.workSignalled he]; rfl)
      · simp
  have hflag : (s.schedule item).shuttingDown = false := by rw [schedule_eq]
  refine ⟨?_, ?_, fun he => absurd he hstarted, fun he => absurd (hflag.symm.trans he) (by simp),
    fun he => absurd he hsignalled, fun he => absurd (hflag.symm.trans he) (by simp), fun t n hn => ?_, fun t n hn => ?_⟩
  · rw [hitems, schedule_eq, ← h.order, ← append_assoc]
  · refine iff_of_false hstarted ?_
    rw [schedule_eq]
    simp
  · rw [schedule_eq] at hn ⊢
    rw [length_append]
    exact le_add_right_of_le (h.before_le t n hn)
  · rw [schedule_eq] at hn ⊢
    exact h.leaving_le t n hn

lemma Inv.lookForWork (hitems : s.worker.items = []) (hstarted : s.worker ≠ .notStarted) : s.lookForWork.Inv := by
  have horder := h.order
  rw [hitems, append_nil] at horder
  have hthread : s.startedBackgroundThread ≠ false := fun he => hstarted (h.started.2 he)
  unfold MQScheduler.lookForWork
  split
  · rename_i hqueue
    refine ⟨?_, iff_of_false (by simp) hthread, fun he => by simp at he, fun _ => ⟨rfl, hqueue⟩, fun _ => hqueue,
      fun _ t n => signal_ne_waiting _ n, fun t n hn => ?_, fun t n hn => ?_⟩
    · rw [← horder]
      exact congrArg (· ++ _) (append_nil _)
    · exact h.before_le t n (by rwa [before_signal] at hn)
    · exact h.leaving_le t n (signal_eq_leaving.1 hn)
  · rename_i item rest hqueue
    -- the flag is not set, since there was work
    have hflag : s.shuttingDown ≠ true := fun he => by
      rw [(h.idle he).2] at hqueue
      cases hqueue
    refine ⟨?_, iff_of_false (by simp) hthread, fun he => by simp at he, fun he => absurd he hflag, fun he => by simp at he,
      fun he => absurd he hflag, h.before_le, h.leaving_le⟩
    rw [← horder, hqueue, append_assoc]
    rfl

lemma Inv.finish {item : α} (hrun : s.worker = .running item) :
    Inv { s with worker := .ready, executed := s.executed ++ [item] } := by
  have horder := h.order
  rw [hrun] at horder
  have hthread : s.startedBackgroundThread ≠ false := fun he => by
    have := h.started.2 he
    rw [hrun] at this
    cases this
  refine ⟨?_, iff_of_false (by simp) hthread, fun he => by simp at he, fun he => ⟨rfl, (h.idle he).2⟩, fun he => by simp at he,
    h.finishedSignalled, h.before_le, fun t n hn => ?_⟩
  · rw [← horder]
    exact congrArg (· ++ _) (append_nil _)
  · rw [length_append]
    exact le_add_right_of_le (h.leaving_le t n hn)

lemma Inv.setCaller (hwaiting : s.shuttingDown = true → ∀ n, c ≠ .waiting n false)
    (hbefore : ∀ n, c.before = some n → n ≤ s.scheduled.length) (hleaving : ∀ n, c = .leaving n → n ≤ s.executed.length) :
    (s.setCaller t c).Inv := by
  refine { h with finishedSignalled := fun hflag u n => ?_, before_le := fun u n => ?_, leaving_le := fun u n => ?_ }
  all_goals
    unfold MQScheduler.setCaller
    dsimp only
    split_ifs
  · exact hwaiting hflag n
  · exact h.finishedSignalled hflag u n
  · exact hbefore n
  · exact h.before_le u n
  · exact hleaving n
  · exact h.leaving_le u n

lemma Inv.awaitFinished (hbefore : n ≤ s.scheduled.length) : (s.awaitFinished t n).Inv := by
  unfold MQScheduler.awaitFinished
  split_ifs with hflag
  · refine h.setCaller (by simp) (by simpa [Caller.before] using hbefore) ?_
    simpa [h.executed_of_idle hflag] using hbefore
  · exact h.setCaller (fun he => absurd he hflag) (by simpa [Caller.before] using hbefore) (by simp)

lemma Inv.backgroundThreadMain (hs : s.backgroundThreadMain = some s') : s'.Inv := by
  unfold MQScheduler.backgroundThreadMain at hs
  cases hw : s.worker with
  | notStarted => simp [hw] at hs
  | ready =>
    simp only [hw, Option.some.injEq] at hs
    exact hs ▸ h.lookForWork (by rw [hw]; rfl) (by simp [hw])
  | waiting signalled =>
    cases signalled with
    | false => simp [hw] at hs
    | true =>
      simp only [hw, Option.some.injEq] at hs
      exact hs ▸ h.lookForWork (by rw [hw]; rfl) (by simp [hw])
  | running item =>
    simp only [hw, Option.some.injEq] at hs
    exact hs ▸ h.finish hw

lemma Inv.step (hs : s.step a = some s') : s'.Inv := by
  cases a with
  | schedule item =>
    cases hs
    exact h.schedule item
  | work => exact h.backgroundThreadMain hs
  | spuriousWakeUp =>
    simp only [step] at hs
    split at hs <;> cases hs
    rename_i hw
    exact h.lookForWork (by rw [hw]; rfl) (by simp [hw])
  | shutDown t | leave t =>
    simp only [step] at hs
    split at hs <;> cases hs
    exact h.setCaller (by simp) (by simp [before]) (by simp)
  | await t =>
    simp only [step] at hs
    split at hs <;> cases hs
    all_goals
      rename_i hc
      exact h.awaitFinished (h.before_le t _ (by rw [hc]; rfl))

end

/-! ## What a step adds -/

section

variable (s)

lemma scheduled_lookForWork : s.lookForWork.scheduled = s.scheduled := by
  unfold lookForWork
  split <;> rfl

lemma executed_lookForWork : s.lookForWork.executed = s.executed := by
  unfold lookForWork
  split <;> rfl

lemma before_lookForWork (t : Nat) : (s.lookForWork.callers t).before = (s.callers t).before := by
  unfold lookForWork
  split
  · exact before_signal _
  · rfl

end

/-- Of the background thread's own steps, one that has no item looks for one, and one that has an item finishes it. -/
lemma backgroundThreadMain_eq (hs : s.backgroundThreadMain = some s') : s.worker.items = [] ∧ s' = s.lookForWork ∨
    ∃ item, s.worker = .running item ∧ s' = { s with worker := .ready, executed := s.executed ++ [item] } := by
  unfold backgroundThreadMain at hs
  split at hs <;> cases hs
  · exact .inl ⟨by simp [*, Worker.items], rfl⟩
  · exact .inl ⟨by simp [*, Worker.items], rfl⟩
  · exact .inr ⟨_, by assumption, rfl⟩

structure Extends (a : Action α) (s s' : MQScheduler α) : Prop where
  scheduled : s.scheduled <+: s'.scheduled
  executed : s.executed <+: s'.executed
  before : ∀ t n, a ≠ .leave t → (s.callers t).before = some n → (s'.callers t).before = some n

lemma extends_lookForWork (a : Action α) (s : MQScheduler α) : Extends a s s.lookForWork where
  scheduled := (scheduled_lookForWork s).symm ▸ prefix_rfl
  executed := (executed_lookForWork s).symm ▸ prefix_rfl
  before t n _ hn := by rwa [before_lookForWork]

lemma extends_setCaller (hc : a ≠ .leave t → ∀ n, (s.callers t).before = some n → c.before = some n) :
    Extends a s (s.setCaller t c) where
  scheduled := prefix_rfl
  executed := prefix_rfl
  before u n ha hn := by
    unfold setCaller
    dsimp only
    split_ifs with hu
    · subst hu
      exact hc ha n hn
    · exact hn

lemma extends_awaitFinished (hn : (s.callers t).before = some n) : Extends a s (s.awaitFinished t n) := by
  refine extends_setCaller fun _ m hm => ?_
  cases hn.symm.trans hm
  split_ifs <;> rfl

lemma step_extends (hs : s.step a = some s') : Extends a s s' := by
  cases a with
  | schedule item =>
    cases hs
    rw [schedule_eq]
    exact ⟨prefix_append _ _, prefix_rfl, fun _ _ _ hn => hn⟩
  | work =>
    rcases backgroundThreadMain_eq hs with ⟨-, rfl⟩ | ⟨item, -, rfl⟩
    · exact extends_lookForWork _ s
    · exact ⟨prefix_rfl, prefix_append _ _, fun _ _ _ hn => hn⟩
  | spuriousWakeUp =>
    simp only [step] at hs
    split at hs <;> cases hs
    exact extends_lookForWork _ s
  | shutDown t =>
    simp only [step] at hs
    split at hs <;> cases hs
    rename_i hc
    exact extends_setCaller fun _ n hn => by simp [hc, before] at hn
  | await t =>
    simp only [step] at hs
    split at hs <;> cases hs
    all_goals
      rename_i hc
      exact extends_awaitFinished (by rw [hc]; rfl)
  | leave t =>
    simp only [step] at hs
    split at hs <;> cases hs
    exact extends_setCaller fun ha => absurd rfl ha

/-! ## Progress -/

lemma Inv.step_of_other (h : s.Inv) (hs : s.step a = some s') (hwork : a ≠ .work) (hwake : a ≠ .spuriousWakeUp) :
    s'.worker.items = s.worker.items ∧ s'.executed = s.executed := by
  cases a with
  | schedule item =>
    cases hs
    rw [schedule_eq, ← h.items_startedWorker]
    dsimp only
    split_ifs <;> simp
  | work => exact absurd rfl hwork
  | spuriousWakeUp => exact absurd rfl hwake
  | shutDown t | leave t => simp only [MQScheduler.step] at hs; split at hs <;> cases hs; exact ⟨rfl, rfl⟩
  | await t => simp only [MQScheduler.step] at hs; split at hs <;> cases hs <;> exact ⟨rfl, rfl⟩

lemma items_lookForWork (hqueue : s.backgroundWorkQueue ≠ []) : s.lookForWork.worker.items ≠ [] := by
  unfold lookForWork
  split
  · exact absurd ‹_› hqueue
  · simp [Worker.items]

structure Pending (k : Nat) (s : MQScheduler α) : Prop where
  inv : s.Inv
  executed : s.executed.length = k
  pending : k < s.scheduled.length
  items : s.worker.items = []

structure Running (k : Nat) (s : MQScheduler α) : Prop where
  inv : s.Inv
  executed : s.executed.length = k
  items : s.worker.items ≠ []

variable {k : Nat}

section

variable (h : s.Pending k)
include h

lemma Pending.queue_ne_nil : s.backgroundWorkQueue ≠ [] := fun hqueue => by
  have hlt := h.pending
  rw [← h.inv.order, h.items, hqueue, append_nil, append_nil, h.executed] at hlt
  exact lt_irrefl _ hlt

lemma Pending.lookForWork (hs : s.step a = some s.lookForWork) : s.lookForWork.Running k :=
  ⟨h.inv.step hs, by rw [executed_lookForWork, h.executed], items_lookForWork h.queue_ne_nil⟩

lemma Pending.work_isSome : (s.step .work).isSome := by
  show s.backgroundThreadMain.isSome
  unfold backgroundThreadMain
  cases hw : s.worker with
  | notStarted =>
    have hlt := h.pending
    rw [h.inv.unstarted hw] at hlt
    cases hlt
  | ready => rfl
  | waiting signalled =>
    cases signalled with
    | false => exact absurd (h.inv.workSignalled hw) h.queue_ne_nil
    | true => rfl
  | running item => rfl

lemma Pending.work (hs : s.step .work = some s') : s'.Running k := by
  rcases backgroundThreadMain_eq hs with ⟨-, rfl⟩ | ⟨item, hw, -⟩
  · exact h.lookForWork hs
  · have hitems := h.items
    rw [hw] at hitems
    cases hitems

lemma Pending.step (hs : s.step a = some s') : s'.Pending k ∨ s'.Running k := by
  by_cases hwork : a = .work
  · subst hwork
    exact .inr (h.work hs)
  by_cases hwake : a = .spuriousWakeUp
  · subst hwake
    have hlook := hs
    simp only [step] at hlook
    split at hlook <;> cases hlook
    exact .inr (h.lookForWork hs)
  obtain ⟨hitems, hexecuted⟩ := h.inv.step_of_other hs hwork hwake
  exact .inl ⟨h.inv.step hs, hexecuted ▸ h.executed, lt_of_lt_of_le h.pending (step_extends hs).scheduled.length_le,
    hitems.trans h.items⟩

end

lemma Running.exists_item (h : s.Running k) : ∃ item, s.worker = .running item := by
  have hitems := h.items
  cases hw : s.worker with
  | running item => exact ⟨item, rfl⟩
  | notStarted | ready | waiting signalled => exact absurd (by rw [hw]; rfl) hitems

lemma Running.work (h : s.Running k) (hs : s.step .work = some s') : k < s'.executed.length := by
  rcases backgroundThreadMain_eq hs with ⟨hnil, -⟩ | ⟨item, -, rfl⟩
  · exact absurd hnil h.items
  · rw [length_append, h.executed]
    exact lt_succ_self k

lemma Running.step (h : s.Running k) (hs : s.step a = some s') : s'.Running k ∨ k < s'.executed.length := by
  by_cases hwork : a = .work
  · subst hwork
    exact .inr (h.work hs)
  have hwake : a ≠ .spuriousWakeUp := fun he => by
    obtain ⟨item, hw⟩ := h.exists_item
    simp [he, MQScheduler.step, hw] at hs
  obtain ⟨hitems, hexecuted⟩ := h.inv.step_of_other hs hwork hwake
  exact .inl ⟨h.inv.step hs, hexecuted ▸ h.executed, hitems ▸ h.items⟩

lemma Running.work_isSome (h : s.Running k) : (s.step .work).isSome := by
  obtain ⟨item, hw⟩ := h.exists_item
  show s.backgroundThreadMain.isSome
  simp [backgroundThreadMain, hw]

/-! ## Executions -/

variable {e : Execution (step (α := α)) new} {m : Nat}

lemma state_inv (e : Execution (step (α := α)) new) (n : Nat) : (e.state n).Inv :=
  invariant inv_new (fun _ _ _ h hs => h.step hs) n

lemma scheduled_isPrefix (hle : n ≤ m) : (e.state n).scheduled <+: (e.state m).scheduled :=
  invariant_from (I := fun s => (e.state n).scheduled <+: s.scheduled)
    (fun _ _ _ h hs => h.trans (step_extends hs).scheduled) prefix_rfl hle

lemma exists_more_executed (hfair : e.WeaklyFair .work) (hlt : (e.state n).executed.length < (e.state n).scheduled.length) :
    ∃ m ≥ n, (e.state n).executed.length < (e.state m).executed.length := by
  have hrun : ∀ j ≥ n, (e.state j).Running (e.state n).executed.length →
      ∃ m ≥ n, (e.state n).executed.length < (e.state m).executed.length := fun j hj hrunning => by
    obtain ⟨m, hm, hmore⟩ := hfair.leadsTo (fun _ h => h.work_isSome) (fun _ _ _ h hs => h.step hs)
      (fun _ _ h hs => h.work hs) hrunning
    exact ⟨m, le_trans hj hm, hmore⟩
  by_cases hitems : (e.state n).worker.items = []
  · have hpending : (e.state n).Pending (e.state n).executed.length := ⟨state_inv e n, rfl, hlt, hitems⟩
    obtain ⟨j, hj, hrunning⟩ := hfair.leadsTo (fun _ h => h.work_isSome) (fun _ _ _ h hs => h.step hs)
      (fun _ _ h hs => h.work hs) hpending
    exact hrun j hj hrunning
  · exact hrun n (le_refl n) ⟨state_inv e n, rfl, hitems⟩

lemma exists_executed (hfair : e.WeaklyFair .work) (n : Nat) (hk : k ≤ (e.state n).scheduled.length) :
    ∃ m ≥ n, k ≤ (e.state m).executed.length := by
  induction k with
  | zero => exact ⟨n, le_refl n, zero_le _⟩
  | succ k ih =>
    obtain ⟨j, hj, hk'⟩ := ih (le_of_succ_le hk)
    by_cases hmore : k < (e.state j).executed.length
    · exact ⟨j, hj, hmore⟩
    · have hscheduled := (scheduled_isPrefix (e := e) hj).length_le
      obtain ⟨m, hm, hlt⟩ := exists_more_executed (n := j) hfair (by omega)
      exact ⟨m, le_trans hj hm, by omega⟩

/-- From the call of `ShutDown` to its return, the number of items that were scheduled at its call stays recorded. -/
lemma before_of_called (hcall : e.action n = some (.shutDown t)) (hle : n + 1 ≤ m)
    (hstay : ∀ j, n < j → j < m → e.action j ≠ some (.leave t)) :
    ((e.state m).callers t).before = some (e.state n).scheduled.length := by
  induction m, hle using le_induction with
  | base =>
    have hs := step_of_action hcall
    simp only [step] at hs
    split at hs
    · rw [← Option.some.inj hs]
      simp [setCaller, before]
    · cases hs
  | succ m hm ih =>
    have hbefore := ih fun j hj hjm => hstay j hj (lt_succ_of_lt hjm)
    cases ha : e.action m with
    | none => rwa [state_of_idle ha]
    | some a =>
      refine (step_extends (step_of_action ha)).before t _ (fun he => ?_) hbefore
      exact hstay m hm (lt_succ_self m) (ha.trans (congrArg some he))

/-- Items that are scheduled run one at a time, once and in their order. -/
theorem scheduler_runs_items (e : Execution (step (α := α)) new) :
    (∀ n, (e.state n).executed ++ (e.state n).worker.items ++ (e.state n).backgroundWorkQueue = (e.state n).scheduled) ∧
    (∀ n m t, e.action n = some (.shutDown t) → n < m → e.action m = some (.leave t) →
    (∀ j, n < j → j < m → e.action j ≠ some (.leave t)) → (e.state n).scheduled <+: (e.state m).executed) ∧
    (e.WeaklyFair .work → ∀ n, ∃ m ≥ n, (e.state n).scheduled <+: (e.state m).executed) := by
  have hdone : ∀ n m, n ≤ m → (e.state n).scheduled.length ≤ (e.state m).executed.length →
      (e.state n).scheduled <+: (e.state m).executed := fun n m hle hlength => by
    refine prefix_of_prefix_length_le (scheduled_isPrefix hle) ?_ hlength
    rw [← (state_inv e m).order, append_assoc]
    exact prefix_append _ _
  refine ⟨fun n => (state_inv e n).order, fun n m t hcall hlt hleave hstay => ?_, fun hfair n => ?_⟩
  · have hbefore := before_of_called hcall hlt hstay
    have hs := step_of_action hleave
    simp only [step] at hs
    split at hs
    · rename_i k hk
      rw [hk] at hbefore
      exact hdone n m (le_of_lt hlt) (Option.some.inj hbefore ▸ (state_inv e m).leaving_le t k hk)
    · cases hs
  · obtain ⟨m, hm, hlength⟩ := exists_executed hfair n (le_refl _)
    exact ⟨m, hm, hdone n m hm hlength⟩

def shutDownRun : List (Action Nat) :=
  [.schedule 7, .work, .shutDown 1, .await 1, .work, .work, .await 1, .leave 1]

theorem scheduler_runs_items_sample :
    ∃ e : Execution (step (α := Nat)) new, e.WeaklyFair .work ∧ e.action 2 = some (.shutDown 1) ∧
    e.action 7 = some (.leave 1) ∧ (e.state 2).scheduled = [7] ∧ (e.state 2).executed = [] ∧ [7] <+: (e.state 7).executed := by
  -- in the end the background thread waits for work
  obtain ⟨s', hrun, hidle⟩ : ∃ s', run step new shutDownRun = some s' ∧ step s' .work = none := ⟨_, rfl, rfl⟩
  let e := ofRun step new shutDownRun (by rw [hrun]; rfl)
  have hfair : e.WeaklyFair .work := ofRun_weaklyFair hrun hidle
  refine ⟨e, hfair, rfl, rfl, rfl, rfl, ?_⟩
  refine (scheduler_runs_items e).2.1 2 7 1 rfl (by decide) rfl fun j hlt hlt' => ?_
  interval_cases j <;> exact fun h => by cases h

end RallyDB.Util.MQScheduler
