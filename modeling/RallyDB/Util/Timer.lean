import RallyDB.Lib.Execution

/-!
# Timers (`Timer`)
-/

namespace RallyDB.Util

inductive Task where
  -- before it reads `should_stop`
  | testing
  | sleeping
  | calling
  -- out of the loop, before it sets `while_stopped`
  | stopping
  | ended
  deriving DecidableEq

inductive Destructor where
  | notCalled
  -- after `should_stop` is set, before it reads `while_stopped`
  | testing
  -- in `cv.wait`
  | waiting
  | returned
  deriving DecidableEq

structure Timer where
  task : Task
  destructor : Destructor
  -- the number of callbacks that were begun
  calls : Nat
  deriving DecidableEq

structure Timers where
  shouldStop : Bool
  whileStopped : Bool
  timers : List Timer
  deriving DecidableEq

namespace Timers

def new : Timers where
  shouldStop := false
  whileStopped := false
  timers := []

def create (s : Timers) : Timers := { s with timers := s.timers ++ [⟨.testing, .notCalled, 0⟩] }

def task (s : Timers) (i : Nat) (t : Timer) : Option Timers :=
  match t.task with
  | .testing =>
    some { s with timers := s.timers.set i { t with task := if s.shouldStop then .stopping else .sleeping } }
  | .sleeping => some { s with timers := s.timers.set i { t with task := .calling, calls := t.calls + 1 } }
  | .calling => some { s with timers := s.timers.set i { t with task := .testing } }
  | .stopping => some { s with whileStopped := true, timers := s.timers.set i { t with task := .ended } }
  | .ended => none

def destructor (s : Timers) (i : Nat) (t : Timer) : Option Timers :=
  match t.destructor with
  | .notCalled => some { s with shouldStop := true, timers := s.timers.set i { t with destructor := .testing } }
  | .testing =>
    some { s with timers := s.timers.set i { t with destructor := if s.whileStopped then .returned else .waiting } }
  | .waiting => some { s with timers := s.timers.set i { t with destructor := .testing } }
  | .returned => none

inductive Action where
  | create
  | task (i : Nat)
  | destructor (i : Nat)
  deriving DecidableEq

def step (s : Timers) : Action → Option Timers
  | .create => some s.create
  | .task i => s.timers[i]?.bind (s.task i)
  | .destructor i => s.timers[i]?.bind (s.destructor i)

end Timers

end RallyDB.Util
