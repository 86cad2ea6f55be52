import RallyDB.Lib.Lists
import RallyDB.Util.TimesCollecter

/-!
# Which interleavings lose lookups, and which start the timer once
-/

namespace RallyDB.Util.TimesCollecter

open Lib List Runner

variable {forward : List Nat → Nat → Nat} {s s' : TimesCollecter} {a : Action} {i : Nat}

inductive Step (s : TimesCollecter) : Action → TimesCollecter → Prop
  | fetchAdd : Step s .fetchAdd { s with getTimes := s.getTimes + 1, callers := s.callers ++ [.added] }
  | reread {i : Nat} (h : s.callers[i]? = some .added) :
      Step s (.caller i) (s.setCaller i (if s.getTimes = 1 then .sawOne else .returned))
  | testTimer {i : Nat} (h : s.callers[i]? = some .sawOne) :
      Step s (.caller i) (s.setCaller i (if s.timer = none then .sawNoTimer else .returned))
  | construct {i : Nat} (h : s.callers[i]? = some .sawNoTimer) :
      Step s (.caller i) { s.setCaller i (.constructed s.constructed) with constructed := s.constructed + 1 }
  | assign {i t : Nat} (h : s.callers[i]? = some (.constructed t)) :
      Step s (.caller i) { s.setCaller i .returned with timer := some t }
  | startRunner : Step s .startRunner { s with runners := s.runners ++ [.started] }
  | makeRoom {i : Nat} (h : s.runners[i]? = some .started) (history : List Nat) :
      Step s (.runner i) { s.setRunner i .ready with historyTimes := history }
  | load {i : Nat} (h : s.runners[i]? = some .ready) : Step s (.runner i) (s.setRunner i (.loaded s.getTimes))
  | push {i times : Nat} (h : s.runners[i]? = some (.loaded times)) :
      Step s (.runner i) { s.setRunner i (.pushed times) with
        historyTimes := s.historyTimes ++ [times]
        pushed := s.pushed ++ [times] }
  | clear {i times : Nat} (h : s.runners[i]? = some (.pushed times)) :
      Step s (.runner i) { s.setRunner i .cleared with getTimes := 0 }
  | countWindow {i : Nat} (h : s.runners[i]? = some .cleared) :
      Step s (.runner i) (s.setRunner i (if s.historyTimes.length < s.windowsNumber then .returned else .predicting))
  | predict {i : Nat} (h : s.runners[i]? = some .predicting) (adjustments : List (Nat × Nat)) :
      Step s (.runner i) { s.setRunner i .returned with adjustments }

lemma Step.of_updateGetTimes (h : s.updateGetTimes i = some s') : Step s (.caller i) s' := by
  unfold updateGetTimes at h
  split at h <;> cases h
  · exact .reread ‹_›
  · exact .testTimer ‹_›
  · exact .construct ‹_›
  · exact .assign ‹_›

lemma Step.of_timerRunner (h : s.timerRunner forward i = some s') : Step s (.runner i) s' := by
  unfold timerRunner at h
  split at h
  · split_ifs at h <;> cases h
    · exact .makeRoom ‹_› _
    · exact .makeRoom ‹_› s.historyTimes
  all_goals cases h
  · exact .load ‹_›
  · exact .push ‹_›
  · exact .clear ‹_›
  · exact .countWindow ‹_›
  · exact .predict ‹_› _

lemma Step.of_step (h : step forward s a = some s') : Step s a s' := by
  cases a with
  | fetchAdd => cases h; exact .fetchAdd
  | caller i => exact .of_updateGetTimes h
  | startRunner => cases h; exact .startRunner
  | runner i => exact .of_timerRunner h

def clearing (s : TimesCollecter) : Action → Option Nat
  | .runner i =>
    match s.runners[i]? with
    | some (.pushed times) => some times
    | _ => none
  | _ => none

lemma clearing_runner {times : Nat} (h : s.runners[i]? = some (.pushed times)) : s.clearing (.runner i) = some times := by
  simp [clearing, h]

/-! ## Lookups that are not lost -/

def KeepsCount (s : TimesCollecter) (a : Action) : Prop := ∀ times ∈ s.clearing a, s.getTimes = times

instance (s : TimesCollecter) (a : Action) : Decidable (s.KeepsCount a) :=
  inferInstanceAs (Decidable (∀ times ∈ s.clearing a, s.getTimes = times))

def Runner.carried : Runner → Nat
  | .pushed times => times
  | _ => 0

def CarriedInv (s : TimesCollecter) : Prop :=
  s.pushed.sum + s.getTimes = s.callers.length + (s.runners.map Runner.carried).sum

lemma carried_setRunner {r : Runner} (r' : Runner) (h : s.runners[i]? = some r) :
    ((s.setRunner i r').runners.map carried).sum + r.carried = (s.runners.map carried).sum + r'.carried :=
  sum_map_set h

lemma CarriedInv.of_eq (hi : s.CarriedInv) (hpushed : s'.pushed = s.pushed) (htimes : s'.getTimes = s.getTimes)
    (hcallers : s'.callers.length = s.callers.length)
    (hrunners : (s'.runners.map carried).sum = (s.runners.map carried).sum) : s'.CarriedInv := by
  unfold CarriedInv
  rw [hpushed, htimes, hcallers, hrunners]
  exact hi

lemma CarriedInv.step (hi : s.CarriedInv) (hc : s.KeepsCount a) (hs : Step s a s') : s'.CarriedInv := by
  cases hs with
  | fetchAdd =>
    simp only [CarriedInv, length_append, length_singleton] at hi ⊢
    omega
  | reread h | testTimer h | construct h | assign h => exact hi.of_eq rfl rfl (length_set ..) rfl
  | startRunner => exact hi.of_eq rfl rfl rfl (by simp [carried])
  | makeRoom h history | load h | predict h adjustments => exact hi.of_eq rfl rfl rfl (carried_setRunner _ h)
  | @push i times h =>
    have hsum := carried_setRunner (.pushed times) h
    simp only [CarriedInv, carried, setRunner, sum_append, sum_singleton] at hi hsum ⊢
    omega
  | @clear i times h =>
    have htimes : s.getTimes = times := hc times (clearing_runner h)
    have hsum := carried_setRunner .cleared h
    simp only [CarriedInv, carried, setRunner] at hi hsum ⊢
    omega
  | countWindow h =>
    refine hi.of_eq rfl rfl rfl ?_
    have hsum := carried_setRunner (if s.historyTimes.length < s.windowsNumber then .returned else .predicting) h
    split_ifs at hsum ⊢ <;> exact hsum

lemma carried_of_noRunner (h : s.NoRunner) : (s.runners.map carried).sum = 0 := by
  rw [sum_eq_zero]
  intro n hn
  obtain ⟨r, hr, rfl⟩ := mem_map.1 hn
  rw [h r hr]
  rfl

/-- When no reset meets a counter that has grown since it was read, no lookup is lost. -/
theorem counted_of_keepsCount (forward : List Nat → Nat → Nat) (windowsNumber : Nat) {as : List Action}
    {s : TimesCollecter} (hc : StepsMeet (step forward) KeepsCount (new windowsNumber) as)
    (hr : run (step forward) (new windowsNumber) as = some s) (hidle : s.NoRunner) : s.Counted := by
  have hnew : (new windowsNumber).CarriedInv := rfl
  have hi := run_invariant (fun _ _ _ hi hc hs => CarriedInv.step hi hc (.of_step hs)) hnew hc hr
  have hcarried := carried_of_noRunner hidle
  unfold CarriedInv at hi
  unfold Counted
  omega

def quietPeriods : List Action :=
  [.fetchAdd, .caller 0, .fetchAdd, .startRunner, .runner 0, .runner 0, .runner 0, .runner 0, .fetchAdd, .runner 0,
    .startRunner, .runner 1, .runner 1, .runner 1, .runner 1, .runner 1, .runner 1]

theorem counted_quietPeriods : ∃ s, run (step fun _ _ => 0) (new 2) quietPeriods = some s ∧ s.pushed = [2, 1] ∧
    s.adjustments = [(1, 0)] ∧ s.Counted := by
  have hc : StepsMeet (step fun _ _ => 0) KeepsCount (new 2) quietPeriods := by decide +kernel
  have hex : ∃ s, run (step fun _ _ => 0) (new 2) quietPeriods = some s ∧ s.NoRunner ∧ s.pushed = [2, 1] ∧
      s.adjustments = [(1, 0)] := exists_run (by decide +kernel)
  obtain ⟨s, hr, hidle, hpushed, hadjustments⟩ := hex
  exact ⟨s, hr, hpushed, hadjustments, counted_of_keepsCount _ 2 hc hr hidle⟩

/-- A lookup between the load and the store of `TimerRunner` is in no count. -/
theorem lookup_lost : ∃ s, run (step fun _ _ => 0) (new 3)
    [.fetchAdd, .startRunner, .runner 0, .runner 0, .fetchAdd, .runner 0, .runner 0, .runner 0] = some s ∧
    s.NoRunner ∧ s.callers.length = 2 ∧ s.pushed = [1] ∧ s.getTimes = 0 ∧ ¬ s.Counted :=
  exists_run (by decide +kernel)

/-! ## The timer that is started once -/

/-- While no timer was constructed, the first call reads the counter again before a second one increments it, and the
counter is only reset once `timer_` is assigned. -/
def StartsOnce (s : TimesCollecter) (a : Action) : Prop :=
  (a = .fetchAdd → s.constructed = 0 → s.getTimes = 1 → Caller.added ∉ s.callers) ∧ (s.clearing a ≠ none → s.timer ≠ none)

instance (s : TimesCollecter) (a : Action) : Decidable (s.StartsOnce a) :=
  inferInstanceAs (Decidable ((a = .fetchAdd → s.constructed = 0 → s.getTimes = 1 → Caller.added ∉ s.callers) ∧
    (s.clearing a ≠ none → s.timer ≠ none)))

def FirstCall (constructed : Nat) (rest : List Caller) : Caller → Prop
  | .added => constructed = 0 ∧ rest = []
  | .sawOne => constructed = 0
  | .sawNoTimer => constructed = 0
  | .constructed _ => constructed = 1
  | .returned => False

def Caller.Passive : Caller → Prop
  | .added => True
  | .returned => True
  | _ => False

inductive StartInv (s : TimesCollecter) : Prop
  | fresh (htimer : s.timer = none) (htimes : s.getTimes = 0) (hcallers : s.callers = []) (hnone : s.constructed = 0)
  -- the counter was never reset, so that only the first call can have read 1
  | starting (htimer : s.timer = none) (first : Caller) (rest : List Caller) (hcallers : s.callers = first :: rest)
      (htimes : s.getTimes = s.callers.length) (hfirst : FirstCall s.constructed rest first)
      (hrest : ∀ c ∈ rest, c.Passive)
  | running (htimer : s.timer ≠ none) (hone : s.constructed = 1)
      (hcallers : ∀ c ∈ s.callers, c.Passive ∨ c = .sawOne)

lemma StartInv.of_eq (hi : s.StartInv) (htimer : s'.timer = s.timer) (htimes : s'.getTimes = s.getTimes)
    (hcallers : s'.callers = s.callers) (hconstructed : s'.constructed = s.constructed) : s'.StartInv := by
  cases hi with
  | fresh h1 h2 h3 h4 => exact .fresh (htimer.trans h1) (htimes.trans h2) (hcallers.trans h3) (hconstructed.trans h4)
  | starting h1 first rest h2 h3 h4 h5 =>
    exact .starting (htimer.trans h1) first rest (hcallers.trans h2) (by rw [htimes, hcallers, h3]) (hconstructed ▸ h4) h5
  | running h1 h2 h3 => exact .running (htimer ▸ h1) (hconstructed.trans h2) (hcallers ▸ h3)

variable {l rest : List Caller}

lemma forall_mem_append_added {P : Caller → Prop} (h : ∀ c ∈ l, P c) (hadded : P .added) : ∀ c ∈ l ++ [.added], P c := by
  intro c hc
  rcases mem_append.1 hc with hc | hc
  · exact h c hc
  · rw [mem_singleton.1 hc]
    exact hadded

lemma forall_mem_set {P : Caller → Prop} (h : ∀ d ∈ l, P d) (j : Nat) (c : Caller) (hc : P c) : ∀ d ∈ l.set j c, P d := by
  intro d hd
  rcases mem_or_eq_of_mem_set hd with hd | rfl
  · exact h d hd
  · exact hc

lemma StartInv.fetchAdd (hi : s.StartInv) (hc : s.StartsOnce .fetchAdd) :
    StartInv { s with getTimes := s.getTimes + 1, callers := s.callers ++ [.added] } := by
  cases hi with
  | fresh htimer htimes hcallers hnone =>
    exact .starting htimer .added [] (by rw [hcallers]; rfl) (by simp [htimes, hcallers]) ⟨hnone, rfl⟩ (by simp)
  | starting htimer first rest hcallers htimes hfirst hrest =>
    refine .starting htimer first (rest ++ [.added]) (by rw [hcallers]; rfl) (by simp [htimes]) ?_
      (forall_mem_append_added hrest trivial)
    cases first with
    | added =>
      -- the first call has not read the counter again
      obtain ⟨hnone, rfl⟩ := hfirst
      have hone : s.getTimes = 1 := by rw [htimes, hcallers]; rfl
      exact absurd (by simp [hcallers]) (hc.1 rfl hnone hone)
    | sawOne | sawNoTimer | constructed t | returned => exact hfirst
  | running htimer hone hcallers => exact .running htimer hone (forall_mem_append_added hcallers (.inl trivial))

lemma eq_zero_of_not_passive {first c : Caller} (hcallers : s.callers = first :: rest)
    (hrest : ∀ c ∈ rest, c.Passive) (h : s.callers[i]? = some c) (hc : ¬ c.Passive) : i = 0 ∧ first = c := by
  rw [hcallers] at h
  cases i with
  | zero => exact ⟨rfl, by simpa using h⟩
  | succ j => exact absurd (hrest c (mem_of_getElem? h)) hc

lemma StartInv.first {first c : Caller} {n : Nat} (htimer : s.timer = none)
    (hcallers : s.callers = first :: rest) (htimes : s.getTimes = s.callers.length) (hrest : ∀ c ∈ rest, c.Passive)
    (hc : FirstCall n rest c) : StartInv { s.setCaller 0 c with constructed := n } :=
  .starting htimer c rest (by simp [setCaller, hcallers]) (by simp [setCaller, htimes]) hc hrest

lemma StartInv.reread (hi : s.StartInv) (h : s.callers[i]? = some .added) :
    (s.setCaller i (if s.getTimes = 1 then .sawOne else .returned)).StartInv := by
  cases hi with
  | fresh htimer htimes hcallers hnone => simp [hcallers] at h
  | starting htimer first rest hcallers htimes hfirst hrest =>
    cases i with
    | zero =>
      obtain rfl : first = .added := by simpa [hcallers] using h
      obtain ⟨hnone, rfl⟩ := hfirst
      rw [if_pos (by rw [htimes, hcallers]; rfl)]
      exact StartInv.first htimer hcallers htimes hrest hnone
    | succ j =>
      -- at least two calls have incremented the counter
      have hj : rest[j]? = some .added := by simpa [hcallers] using h
      have hlt : j < rest.length := (List.getElem?_eq_some_iff.1 hj).1
      rw [if_neg (by rw [htimes, hcallers, length_cons]; omega)]
      refine .starting htimer first (rest.set j .returned) (by simp [setCaller, hcallers])
        (by simp [setCaller, htimes]) ?_ (forall_mem_set hrest j .returned trivial)
      cases first with
      | added => simp [hfirst.2] at hj
      | sawOne | sawNoTimer | constructed t | returned => exact hfirst
  | running htimer hone hcallers =>
    refine .running htimer hone (forall_mem_set hcallers i _ ?_)
    split_ifs
    · exact .inr rfl
    · exact .inl trivial

lemma StartInv.testTimer (hi : s.StartInv) (h : s.callers[i]? = some .sawOne) :
    (s.setCaller i (if s.timer = none then .sawNoTimer else .returned)).StartInv := by
  cases hi with
  | fresh htimer htimes hcallers hnone => simp [hcallers] at h
  | starting htimer first rest hcallers htimes hfirst hrest =>
    obtain ⟨rfl, rfl⟩ := eq_zero_of_not_passive hcallers hrest h id
    rw [if_pos htimer]
    exact StartInv.first htimer hcallers htimes hrest hfirst
  | running htimer hone hcallers =>
    rw [if_neg htimer]
    exact .running htimer hone (forall_mem_set hcallers i .returned (.inl trivial))

lemma not_mem_of_running {c : Caller} (hcallers : ∀ c ∈ s.callers, c.Passive ∨ c = .sawOne)
    (h : s.callers[i]? = some c) (hc : ¬ c.Passive) (hne : c ≠ .sawOne) : False :=
  (hcallers c (mem_of_getElem? h)).elim hc hne

lemma StartInv.construct (hi : s.StartInv) (h : s.callers[i]? = some .sawNoTimer) :
    StartInv { s.setCaller i (.constructed s.constructed) with constructed := s.constructed + 1 } := by
  cases hi with
  | fresh htimer htimes hcallers hnone => simp [hcallers] at h
  | starting htimer first rest hcallers htimes hfirst hrest =>
    obtain ⟨rfl, rfl⟩ := eq_zero_of_not_passive hcallers hrest h id
    exact StartInv.first htimer hcallers htimes hrest (congrArg (· + 1) hfirst)
  | running htimer hone hcallers => exact (not_mem_of_running hcallers h id (by simp)).elim

lemma StartInv.assign {t : Nat} (hi : s.StartInv) (h : s.callers[i]? = some (.constructed t)) :
    StartInv { s.setCaller i .returned with timer := some t } := by
  cases hi with
  | fresh htimer htimes hcallers hnone => simp [hcallers] at h
  | starting htimer first rest hcallers htimes hfirst hrest =>
    obtain ⟨rfl, rfl⟩ := eq_zero_of_not_passive hcallers hrest h id
    refine .running (by simp) hfirst fun c hc => .inl ?_
    simp only [setCaller, hcallers, set_cons_zero, mem_cons] at hc
    rcases hc with rfl | hc
    · trivial
    · exact hrest c hc
  | running htimer hone hcallers => exact (not_mem_of_running hcallers h id (by simp)).elim

lemma StartInv.clear {times : Nat} (hi : s.StartInv) (hc : s.StartsOnce (.runner i))
    (h : s.runners[i]? = some (.pushed times)) : StartInv { s.setRunner i .cleared with getTimes := 0 } := by
  have hset : s.timer ≠ none := hc.2 (by rw [clearing_runner h]; simp)
  cases hi with
  | fresh htimer htimes hcallers hnone | starting htimer first rest hcallers htimes hfirst hrest => exact absurd htimer hset
  | running htimer hone hcallers => exact .running htimer hone hcallers

lemma StartInv.step (hi : s.StartInv) (hc : s.StartsOnce a) (hs : Step s a s') : s'.StartInv := by
  cases hs with
  | fetchAdd => exact hi.fetchAdd hc
  | reread h => exact hi.reread h
  | testTimer h => exact hi.testTimer h
  | construct h => exact hi.construct h
  | assign h => exact hi.assign h
  | startRunner | makeRoom h history | load h | push h | countWindow h | predict h adjustments =>
    exact hi.of_eq rfl rfl rfl rfl
  | clear h => exact hi.clear hc h

lemma StartInv.constructed_eq_one (hi : s.StartInv) (hreturned : s.AllReturned) : s.constructed = 1 := by
  cases hi with
  | fresh htimer htimes hcallers hnone => exact absurd hcallers hreturned.1
  | starting htimer first rest hcallers htimes hfirst hrest =>
    rw [hreturned.2 first (by simp [hcallers])] at hfirst
    exact hfirst.elim
  | running htimer hone hcallers => exact hone

/-- When the first call reads the counter again before the next increment, and no period ends before `timer_` is
assigned, exactly one timer is constructed. -/
theorem constructed_once_of_startsOnce (forward : List Nat → Nat → Nat) (windowsNumber : Nat) {as : List Action}
    {s : TimesCollecter} (hc : StepsMeet (step forward) StartsOnce (new windowsNumber) as)
    (hr : run (step forward) (new windowsNumber) as = some s) (hreturned : s.AllReturned) : s.constructed = 1 := by
  have hnew : (new windowsNumber).StartInv := .fresh rfl rfl rfl rfl
  have hi := run_invariant (fun _ _ _ hi hc hs => StartInv.step hi hc (.of_step hs)) hnew hc hr
  exact hi.constructed_eq_one hreturned

def startingCalls : List Action :=
  [.fetchAdd, .caller 0, .fetchAdd, .caller 0, .caller 0, .caller 1, .caller 0, .startRunner, .runner 0, .runner 0,
    .runner 0, .runner 0, .fetchAdd, .caller 2, .caller 2]

theorem constructed_once_startingCalls : ∃ s, run (step fun _ _ => 0) (new 3) startingCalls = some s ∧
    s.AllReturned ∧ s.callers.length = 3 ∧ s.constructed = 1 := by
  have hc : StepsMeet (step fun _ _ => 0) StartsOnce (new 3) startingCalls := by decide +kernel
  have hex : ∃ s, run (step fun _ _ => 0) (new 3) startingCalls = some s ∧ s.AllReturned ∧ s.callers.length = 3 :=
    exists_run (by decide +kernel)
  obtain ⟨s, hr, hreturned, hlength⟩ := hex
  exact ⟨s, hr, hreturned, hlength, constructed_once_of_startsOnce _ 3 hc hr hreturned⟩

/-- Two calls that both increment the counter before either reads it again construct no timer. -/
theorem no_timer_constructed : ∃ s, run (step fun _ _ => 0) (new 3) [.fetchAdd, .fetchAdd, .caller 0, .caller 1] =
    some s ∧ s.AllReturned ∧ s.constructed = 0 :=
  exists_run (by decide +kernel)

end RallyDB.Util.TimesCollecter
