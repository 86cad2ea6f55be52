import RallyDB.Util.Timer

/-!
# How long a timer calls back
-/

namespace RallyDB.Util.Timers

open Lib List Timers Option

variable {s s' : Timers} {a : Action} {i k n : Nat} {t : Timer}

/-- No timer is created after a destructor was called, and the destructor of a timer is only called when no other timer was
ever created. -/
def Separate (s : Timers) : Action → Prop
  | .create => s.shouldStop = false
  | .task _ => True
  | .destructor i => ∀ t ∈ s.timers[i]?, t.destructor = .notCalled → s.timers.length = 1

instance (s : Timers) (a : Action) : Decidable (s.Separate a) := by cases a <;> unfold Separate <;> infer_instance

/-! ## What holds in every state -/

def InLoop : Task → Prop
  | .testing => True
  | .sleeping => True
  | .calling => True
  | _ => False

inductive LifeInv (s : Timers) : Prop
  | running (hstop : s.shouldStop = false) (hstopped : s.whileStopped = false)
      (hall : ∀ t ∈ s.timers, t.destructor = .notCalled ∧ InLoop t.task)
  | stopping (t : Timer) (htimers : s.timers = [t]) (hstop : s.shouldStop = true) (hcalled : t.destructor ≠ .notCalled)
      (hstopped : s.whileStopped = true → t.task = .ended) (hreturned : t.destructor = .returned → t.task = .ended)

lemma lifeInv_new : new.LifeInv := .running rfl rfl fun _ ht => absurd ht not_mem_nil

lemma LifeInv.create (hi : s.LifeInv) (hc : s.Separate .create) : s.create.LifeInv := by
  cases hi with
  | running hstop hstopped hall =>
    refine .running hstop hstopped fun t ht => ?_
    rcases mem_append.1 ht with ht | ht
    · exact hall t ht
    · rw [mem_singleton.1 ht]
      exact ⟨rfl, trivial⟩
  | stopping t htimers hstop hcalled hstopped hreturned => exact absurd (hstop.symm.trans hc) (by decide)

lemma LifeInv.set (u : Timer) (hstop : s.shouldStop = false) (hstopped : s.whileStopped = false)
    (hall : ∀ t ∈ s.timers, t.destructor = .notCalled ∧ InLoop t.task) (hu : u.destructor = .notCalled ∧ InLoop u.task) :
    LifeInv { s with timers := s.timers.set i u } := by
  refine .running hstop hstopped fun v hv => ?_
  rcases mem_or_eq_of_mem_set hv with hv | rfl
  · exact hall v hv
  · exact hu

lemma LifeInv.set_only (u : Timer) (htimers : s.timers = [t]) (hstop : s.shouldStop = true)
    (hcalled : u.destructor ≠ .notCalled) (hstopped : s.whileStopped = true → u.task = .ended)
    (hreturned : u.destructor = .returned → u.task = .ended) : LifeInv { s with timers := s.timers.set 0 u } :=
  .stopping u (by rw [htimers]; rfl) hstop hcalled hstopped hreturned

lemma eq_of_singleton {u : Timer} (htimers : s.timers = [u]) (ht : s.timers[i]? = some t) : i = 0 ∧ t = u := by
  rw [htimers] at ht
  cases i with
  | zero => exact ⟨rfl, by simpa using ht.symm⟩
  | succ j => simp at ht

section

variable (hi : s.LifeInv)
include hi

lemma LifeInv.task (ht : s.timers[i]? = some t) (hs : s.task i t = some s') : s'.LifeInv := by
  cases hi with
  | running hstop hstopped hall =>
    obtain ⟨hcalled, hloop⟩ := hall t (mem_of_getElem? ht)
    unfold Timers.task at hs
    split at hs
    · cases hs
      refine LifeInv.set _ hstop hstopped hall ⟨hcalled, ?_⟩
      simp [hstop, InLoop]
    · cases hs
      exact LifeInv.set _ hstop hstopped hall ⟨hcalled, trivial⟩
    · cases hs
      exact LifeInv.set _ hstop hstopped hall ⟨hcalled, trivial⟩
    · rename_i htask
      rw [htask] at hloop
      exact hloop.elim
    · cases hs
  | stopping u htimers hstop hcalled hstopped hreturned =>
    obtain ⟨rfl, rfl⟩ := eq_of_singleton htimers ht
    unfold Timers.task at hs
    -- a thread that takes a step has not ended, so that no flag says so and the destructor has not returned
    have hne : t.task ≠ .ended := fun he => by simp [he] at hs
    have hkeep : ∀ u : Timer, u.destructor = t.destructor → LifeInv { s with timers := s.timers.set 0 u } := fun u hu => by
      refine LifeInv.set_only u htimers hstop (hu ▸ hcalled) (fun h => absurd (hstopped h) hne) fun h => ?_
      exact absurd (hreturned (hu.symm.trans h)) hne
    split at hs <;> cases hs
    · exact hkeep _ rfl
    · exact hkeep _ rfl
    · exact hkeep _ rfl
    · exact .stopping { t with task := .ended } (by rw [htimers]; rfl) hstop hcalled (fun _ => rfl) fun _ => rfl

lemma LifeInv.destructor (hc : s.Separate (.destructor i)) (ht : s.timers[i]? = some t)
    (hs : s.destructor i t = some s') : s'.LifeInv := by
  unfold Timers.destructor at hs
  cases hi with
  | running hstop hstopped hall =>
    obtain ⟨hcalled, hloop⟩ := hall t (mem_of_getElem? ht)
    rw [hcalled] at hs
    cases hs
    obtain ⟨u, hu⟩ := length_eq_one_iff.1 (hc t ht hcalled)
    obtain ⟨rfl, rfl⟩ := eq_of_singleton hu ht
    refine .stopping { t with destructor := .testing } (by rw [hu]; rfl) rfl (by simp) (fun h => ?_) (by simp)
    exact absurd (hstopped.symm.trans h) (by decide)
  | stopping u htimers hstop hcalled hstopped hreturned =>
    obtain ⟨rfl, rfl⟩ := eq_of_singleton htimers ht
    split at hs
    · rename_i hnot
      exact absurd hnot hcalled
    · cases hs
      refine LifeInv.set_only _ htimers hstop ?_ hstopped ?_
      · dsimp only
        split_ifs <;> simp
      · dsimp only
        split_ifs with hflag
        · exact fun _ => hstopped hflag
        · exact fun h => by cases h
    · cases hs
      exact LifeInv.set_only _ htimers hstop (by simp) hstopped (by simp)
    · cases hs

lemma LifeInv.step (hc : s.Separate a) (hs : s.step a = some s') : s'.LifeInv := by
  cases a with
  | create =>
    cases hs
    exact hi.create hc
  | task i =>
    obtain ⟨t, ht, hs⟩ := bind_eq_some_iff.1 hs
    exact hi.task ht hs
  | destructor i =>
    obtain ⟨t, ht, hs⟩ := bind_eq_some_iff.1 hs
    exact hi.destructor hc ht hs

lemma LifeInv.of_notCalled (ht : s.timers[i]? = some t) (hcalled : t.destructor = .notCalled) :
    s.shouldStop = false ∧ InLoop t.task := by
  cases hi with
  | running hstop hstopped hall => exact ⟨hstop, (hall t (mem_of_getElem? ht)).2⟩
  | stopping u htimers hstop hne hstopped hreturned =>
    obtain ⟨-, rfl⟩ := eq_of_singleton htimers ht
    exact absurd hcalled hne

lemma LifeInv.of_returned (ht : s.timers[i]? = some t) (hdone : t.destructor = .returned) : t.task = .ended := by
  cases hi with
  | running hstop hstopped hall =>
    rw [(hall t (mem_of_getElem? ht)).1] at hdone
    cases hdone
  | stopping u htimers hstop hne hstopped hreturned =>
    obtain ⟨-, rfl⟩ := eq_of_singleton htimers ht
    exact hreturned hdone

end

/-! ## Progress -/

structure Looping (i k : Nat) (task : Task) (s : Timers) : Prop where
  inv : s.LifeInv
  timer : s.timers[i]? = some ⟨task, .notCalled, k⟩

def Called (i k : Nat) (s : Timers) : Prop :=
  ∃ t, s.timers[i]? = some t ∧ (k < t.calls ∨ t.destructor ≠ .notCalled)

lemma set_ne {j : Nat} {u : Timer} (hne : j ≠ i) (ht : s.timers[i]? = some t) : (s.timers.set j u)[i]? = some t := by
  rw [getElem?_set_ne hne]
  exact ht

lemma set_self {u : Timer} (ht : s.timers[i]? = some t) : (s.timers.set i u)[i]? = some u :=
  getElem?_set_self (List.getElem?_eq_some_iff.1 ht).1

lemma step_other (hs : s.step a = some s') (htask : a ≠ .task i) (hdestructor : a ≠ .destructor i)
    (ht : s.timers[i]? = some t) : s'.timers[i]? = some t := by
  cases a with
  | create =>
    cases hs
    exact getElem?_append_left (List.getElem?_eq_some_iff.1 ht).1 ▸ ht
  | task j =>
    have hne : j ≠ i := fun he => htask (congrArg _ he)
    obtain ⟨u, hu, hs⟩ := bind_eq_some_iff.1 hs
    unfold task at hs
    split at hs <;> cases hs <;> exact set_ne hne ht
  | destructor j =>
    have hne : j ≠ i := fun he => hdestructor (congrArg _ he)
    obtain ⟨u, hu, hs⟩ := bind_eq_some_iff.1 hs
    unfold destructor at hs
    split at hs <;> cases hs <;> exact set_ne hne ht

variable {task : Task}

lemma Looping.task_isSome (h : Looping i k task s) : (s.step (.task i)).isSome := by
  have hloop := (h.inv.of_notCalled h.timer rfl).2
  simp only [Timers.step, h.timer, bind_some, Timers.task]
  cases task with
  | testing => rfl
  | sleeping => rfl
  | calling => rfl
  | stopping | ended => exact hloop.elim

lemma Looping.step_other (h : Looping i k task s) (hc : s.Separate a) (hs : s.step a = some s')
    (hne : a ≠ .task i) : Looping i k task s' ∨ Called i k s' := by
  by_cases hdestructor : a = .destructor i
  · subst hdestructor
    simp only [Timers.step, h.timer, bind_some, Timers.destructor, some.injEq] at hs
    subst hs
    exact .inr ⟨_, set_self h.timer, .inr (by simp)⟩
  · exact .inl ⟨h.inv.step hc hs, Timers.step_other hs hne hdestructor h.timer⟩

lemma Looping.of_testing (h : Looping i k .testing s) (hs : s.step (.task i) = some s') : Looping i k .sleeping s' := by
  have hstop := (h.inv.of_notCalled h.timer rfl).1
  have hinv := h.inv.step (a := .task i) trivial hs
  simp only [step, h.timer, bind_some, task, hstop, some.injEq] at hs
  subst hs
  exact ⟨hinv, set_self h.timer⟩

lemma Looping.of_sleeping (h : Looping i k .sleeping s) (hs : s.step (.task i) = some s') : Called i k s' := by
  simp only [step, h.timer, bind_some, task, some.injEq] at hs
  subst hs
  exact ⟨_, set_self h.timer, .inl (Nat.lt_succ_self k)⟩

lemma Looping.of_calling (h : Looping i k .calling s) (hs : s.step (.task i) = some s') : Looping i k .testing s' := by
  have hinv := h.inv.step (a := .task i) trivial hs
  simp only [step, h.timer, bind_some, task, some.injEq] at hs
  subst hs
  exact ⟨hinv, set_self h.timer⟩

/-! ## Executions -/

variable {e : Execution step new}

/-- One stage of the loop: the thread gets to what its next step leads to, unless the destructor is called first. -/
lemma Looping.leadsTo {Q : Timers → Prop} (hfair : e.WeaklyFair (.task i)) (hmeets : e.Meets Separate)
    (h : Looping i k task (e.state n))
    (htake : ∀ s s', Looping i k task s → s.step (.task i) = some s' → Q s' ∨ Called i k s') :
    ∃ m ≥ n, Q (e.state m) ∨ Called i k (e.state m) := by
  refine hfair.leadsTo_of_meets hmeets (fun _ h => h.task_isSome) (fun s b s' h hc hs => ?_) htake h
  by_cases hb : b = .task i
  · subst hb
    exact .inr (htake s s' h hs)
  · exact (h.step_other hc hs hb).imp_right .inr

section

variable (hfair : e.WeaklyFair (.task i)) (hmeets : e.Meets Separate)
include hfair hmeets

lemma Looping.called_of_sleeping (h : Looping i k .sleeping (e.state n)) : ∃ m ≥ n, Called i k (e.state m) := by
  obtain ⟨m, hm, hcalled⟩ := h.leadsTo hfair hmeets fun _ _ h hs => .inl (h.of_sleeping hs)
  exact ⟨m, hm, hcalled.elim id id⟩

lemma Looping.called_of_testing (h : Looping i k .testing (e.state n)) : ∃ m ≥ n, Called i k (e.state m) := by
  obtain ⟨j, hj, hnext | hcalled⟩ := h.leadsTo hfair hmeets fun _ _ h hs => .inl (h.of_testing hs)
  · obtain ⟨m, hm, hcalled⟩ := hnext.called_of_sleeping hfair hmeets
    exact ⟨m, Nat.le_trans hj hm, hcalled⟩
  · exact ⟨j, hj, hcalled⟩

lemma Looping.called_of_calling (h : Looping i k .calling (e.state n)) : ∃ m ≥ n, Called i k (e.state m) := by
  obtain ⟨j, hj, hnext | hcalled⟩ := h.leadsTo hfair hmeets fun _ _ h hs => .inl (h.of_calling hs)
  · obtain ⟨m, hm, hcalled⟩ := hnext.called_of_testing hfair hmeets
    exact ⟨m, Nat.le_trans hj hm, hcalled⟩
  · exact ⟨j, hj, hcalled⟩

end

/-- When a destructor is only called while there is a single timer and no timer is created after it, the thread of a
running timer begins one more callback or its destructor is called, and no callback runs once that has returned. -/
theorem timer_lifetime_of_separate (e : Execution step new) (hmeets : e.Meets Separate) (i n : Nat) (t : Timer)
    (ht : (e.state n).timers[i]? = some t) :
    (e.WeaklyFair (.task i) → t.destructor = .notCalled → ∃ m ≥ n, Called i t.calls (e.state m)) ∧
    (t.destructor = .returned → t.task ≠ .calling) := by
  have hi : (e.state n).LifeInv := hmeets.invariant lifeInv_new (fun _ _ _ hi hc hs => hi.step hc hs) n
  refine ⟨fun hfair hcalled => ?_, fun hreturned => ?_⟩
  · obtain ⟨-, hloop⟩ := hi.of_notCalled ht hcalled
    obtain ⟨task, destructor, calls⟩ := t
    subst hcalled
    cases task with
    | testing => exact Looping.called_of_testing hfair hmeets ⟨hi, ht⟩
    | sleeping => exact Looping.called_of_sleeping hfair hmeets ⟨hi, ht⟩
    | calling => exact Looping.called_of_calling hfair hmeets ⟨hi, ht⟩
    | stopping | ended => exact hloop.elim
  · rw [hi.of_returned ht hreturned]
    simp

def oneTimer : List Action :=
  [.create, .task 0, .task 0, .task 0, .task 0, .task 0, .destructor 0, .destructor 0, .task 0, .task 0, .task 0,
    .destructor 0, .destructor 0]

theorem timer_lifetime_oneTimer : ∃ e : Execution step new, e.Meets Separate ∧ e.WeaklyFair (.task 0) ∧
    (e.state 3).timers = [⟨.calling, .notCalled, 1⟩] ∧ (e.state 13).timers = [⟨.ended, .returned, 2⟩] ∧
    (∃ m ≥ 3, Called 0 1 (e.state m)) ∧ Task.ended ≠ .calling := by
  have hrun : run step new oneTimer = some ⟨true, true, [⟨.ended, .returned, 2⟩]⟩ := by decide +kernel
  have hmeets : StepsMeet step Separate new oneTimer := by decide +kernel
  let e := Execution.ofRun step new oneTimer (by rw [hrun]; rfl)
  have he : e.Meets Separate := Execution.ofRun_meets hmeets
  have hfair : e.WeaklyFair (.task 0) := Execution.ofRun_weaklyFair hrun rfl
  have h3 : (e.state 3).timers = [⟨.calling, .notCalled, 1⟩] := rfl
  have h13 : (e.state 13).timers = [⟨.ended, .returned, 2⟩] := rfl
  refine ⟨e, he, hfair, h3, h13, ?_, ?_⟩
  · exact (timer_lifetime_of_separate e he 0 3 _ (by rw [h3]; rfl)).1 hfair rfl
  · exact (timer_lifetime_of_separate e he 0 13 _ (by rw [h13]; rfl)).2 rfl

/-- A timer created after another one was destroyed leaves its loop at once and never calls back. -/
theorem timers_share_flags :
    (∃ s, run step new [.create, .destructor 0, .task 0, .task 0, .destructor 0, .create, .task 1, .task 1] = some s ∧
    s.timers[1]? = some ⟨.ended, .notCalled, 0⟩) ∧
    ∃ s, run step new [.create, .create, .task 1, .task 1, .destructor 0, .task 0, .task 0, .destructor 0,
    .destructor 1, .destructor 1] = some s ∧ s.timers[1]? = some ⟨.calling, .returned, 1⟩ :=
  ⟨exists_run (by decide +kernel), exists_run (by decide +kernel)⟩

end RallyDB.Util.Timers
