import RallyDB.Lib.Execution

/-!
# The background thread of the multi queue (`MQScheduler`)
-/

namespace RallyDB.Util

variable {α : Type}

inductive Worker (α : Type) where
  | notStarted
  -- before it takes the mutex
  | ready
  -- in `background_work_cv_.Wait()`
  | waiting (signalled : Bool)
  | running (item : α)
  deriving DecidableEq

inductive Caller where
  | outside
  | called (before : Nat)
  -- in `background_finished_cv_.Wait()`
  | waiting (before : Nat) (signalled : Bool)
  | leaving (before : Nat)
  deriving DecidableEq

structure MQScheduler (α : Type) where
  backgroundWorkQueue : List α
  startedBackgroundThread : Bool
  shuttingDown : Bool
  worker : Worker α
  callers : Nat → Caller
  -- what was scheduled and what was run to its end so far
  scheduled : List α
  executed : List α

namespace Worker

def items : Worker α → List α
  | running item => [item]
  | _ => []

def signal : Worker α → Worker α
  | waiting _ => waiting true
  | w => w

end Worker

namespace Caller

def before : Caller → Option Nat
  | outside => none
  | called n => some n
  | waiting n _ => some n
  | leaving n => some n

def signal : Caller → Caller
  | waiting n _ => waiting n true
  | c => c

end Caller

namespace MQScheduler

def new : MQScheduler α where
  backgroundWorkQueue := []
  startedBackgroundThread := false
  shuttingDown := true
  worker := .notStarted
  callers _ := .outside
  scheduled := []
  executed := []

variable (s : MQScheduler α)

def schedule (item : α) : MQScheduler α :=
  let s := { s with shuttingDown := false }
  let s := if s.startedBackgroundThread then s else { s with startedBackgroundThread := true, worker := .ready }
  let s := if s.backgroundWorkQueue.isEmpty then { s with worker := s.worker.signal } else s
  { s with backgroundWorkQueue := s.backgroundWorkQueue ++ [item], scheduled := s.scheduled ++ [item] }

def lookForWork : MQScheduler α :=
  match s.backgroundWorkQueue with
  | [] => { s with shuttingDown := true, callers := fun t => (s.callers t).signal, worker := .waiting false }
  | item :: rest => { s with backgroundWorkQueue := rest, worker := .running item }

def backgroundThreadMain : Option (MQScheduler α) :=
  match s.worker with
  | .notStarted => none
  | .ready => some s.lookForWork
  | .waiting true => some s.lookForWork
  | .waiting false => none
  | .running item => some { s with worker := .ready, executed := s.executed ++ [item] }

def setCaller (t : Nat) (c : Caller) : MQScheduler α :=
  { s with callers := fun u => if u = t then c else s.callers u }

def awaitFinished (t before : Nat) : MQScheduler α :=
  s.setCaller t (if s.shuttingDown then .leaving before else .waiting before false)

inductive Action (α : Type) where
  | schedule (item : α)
  | work
  | spuriousWakeUp
  -- thread `t` calls `ShutDown`, has the mutex there, and returns
  | shutDown (t : Nat)
  | await (t : Nat)
  | leave (t : Nat)
  deriving DecidableEq

def step : Action α → Option (MQScheduler α)
  | .schedule item => some (s.schedule item)
  | .work => s.backgroundThreadMain
  | .spuriousWakeUp =>
    match s.worker with
    | .waiting _ => some s.lookForWork
    | _ => none
  | .shutDown t =>
    match s.callers t with
    | .outside => some (s.setCaller t (.called s.scheduled.length))
    | _ => none
  | .await t =>
    match s.callers t with
    | .called n => some (s.awaitFinished t n)
    | .waiting n _ => some (s.awaitFinished t n)
    | _ => none
  | .leave t =>
    match s.callers t with
    | .leaving _ => some (s.setCaller t .outside)
    | _ => none

end MQScheduler

end RallyDB.Util
