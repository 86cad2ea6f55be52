import RallyDB.Lib.Machine

/-!
# Counting lookups (`TimesCollecter`)
-/

namespace RallyDB.Util

namespace TimesCollecter

inductive Caller where
  -- after `get_times_.fetch_add(1)`
  | added
  -- it read 1 from `get_times_`
  | sawOne
  -- it found no timer
  | sawNoTimer
  -- after `new Timer`, before the assignment to `timer_`
  | constructed (timer : Nat)
  | returned
  deriving DecidableEq

inductive Runner where
  | started
  -- there is room in the window
  | ready
  -- after `get_times_.load()`
  | loaded (times : Nat)
  -- after `push_back`
  | pushed (times : Nat)
  -- after `get_times_.store(0)`
  | cleared
  | predicting
  | returned
  deriving DecidableEq

end TimesCollecter

structure TimesCollecter where
  getTimes : Nat
  historyTimes : List Nat
  timer : Option Nat
  windowsNumber : Nat
  callers : List TimesCollecter.Caller
  runners : List TimesCollecter.Runner
  -- the number of timers that were constructed
  constructed : Nat
  -- every count that was ever pushed to the history
  pushed : List Nat
  -- the arguments `AdjustBloomFilter` was called with
  adjustments : List (Nat × Nat)
  deriving DecidableEq

namespace TimesCollecter

def new (windowsNumber : Nat) : TimesCollecter where
  getTimes := 0
  historyTimes := []
  timer := none
  windowsNumber
  callers := []
  runners := []
  constructed := 0
  pushed := []
  adjustments := []

variable (s : TimesCollecter)

def setCaller (i : Nat) (c : Caller) : TimesCollecter := { s with callers := s.callers.set i c }

def setRunner (i : Nat) (r : Runner) : TimesCollecter := { s with runners := s.runners.set i r }

def updateGetTimes (i : Nat) : Option TimesCollecter :=
  match s.callers[i]? with
  | some .added => some (s.setCaller i (if s.getTimes = 1 then .sawOne else .returned))
  | some .sawOne => some (s.setCaller i (if s.timer = none then .sawNoTimer else .returned))
  | some .sawNoTimer => some { s.setCaller i (.constructed s.constructed) with constructed := s.constructed + 1 }
  | some (.constructed t) => some { s.setCaller i .returned with timer := some t }
  | some .returned => none
  | none => none

variable (forward : List Nat → Nat → Nat)

def timerRunner (s : TimesCollecter) (i : Nat) : Option TimesCollecter :=
  match s.runners[i]? with
  | some .started =>
    if s.windowsNumber ≤ s.historyTimes.length then
      -- `pop_front` of an empty deque is undefined
      if s.historyTimes = [] then none
      else some { s.setRunner i .ready with historyTimes := s.historyTimes.tail }
    else some (s.setRunner i .ready)
  | some .ready => some (s.setRunner i (.loaded s.getTimes))
  | some (.loaded times) =>
    some { s.setRunner i (.pushed times) with
      historyTimes := s.historyTimes ++ [times]
      pushed := s.pushed ++ [times] }
  | some (.pushed _) => some { s.setRunner i .cleared with getTimes := 0 }
  | some .cleared =>
    some (s.setRunner i (if s.historyTimes.length < s.windowsNumber then .returned else .predicting))
  | some .predicting =>
    some { s.setRunner i .returned with
      adjustments := match s.historyTimes.getLast? with
        | none => s.adjustments
        | some old => s.adjustments ++ [(old, forward s.historyTimes s.windowsNumber)] }
  | some .returned => none
  | none => none

inductive Action where
  -- a new call of `UpdateGetTimes`, with its `fetch_add`
  | fetchAdd
  | caller (i : Nat)
  -- a new call of `TimerRunner`
  | startRunner
  | runner (i : Nat)
  deriving DecidableEq

def step (s : TimesCollecter) : Action → Option TimesCollecter
  | .fetchAdd => some { s with getTimes := s.getTimes + 1, callers := s.callers ++ [.added] }
  | .caller i => s.updateGetTimes i
  | .startRunner => some { s with runners := s.runners ++ [.started] }
  | .runner i => s.timerRunner forward i

def NoRunner : Prop := ∀ r ∈ s.runners, r = .returned

def Counted : Prop := s.pushed.sum + s.getTimes = s.callers.length

def AllReturned : Prop := s.callers ≠ [] ∧ ∀ c ∈ s.callers, c = .returned

instance (s : TimesCollecter) : Decidable s.NoRunner := inferInstanceAs (Decidable (∀ r ∈ s.runners, r = .returned))

instance (s : TimesCollecter) : Decidable s.Counted :=
  inferInstanceAs (Decidable (s.pushed.sum + s.getTimes = s.callers.length))

instance (s : TimesCollecter) : Decidable s.AllReturned :=
  inferInstanceAs (Decidable (s.callers ≠ [] ∧ ∀ c ∈ s.callers, c = .returned))

end TimesCollecter

end RallyDB.Util
