import RallyDB.Lib.Assoc
import RallyDB.Lib.Links
import RallyDB.Table.FilterBlock

/-!
# The multi queue (`util/multi_queue.cc`)
-/

namespace RallyDB.Util

open Table

structure QueueHandle where
  key : Slice
  reader : FilterBlockReader
  deriving DecidableEq

structure MultiQueue where
  -- the handles that are not freed, by address
  handles : List (Nat × QueueHandle)
  queues : Nat → List Nat
  map : List (Slice × Nat)
  usage : UInt64
  adjustmentTime : Nat
  nextAddress : Nat

abbrev WorthAdjusting := List FilterBlockReader → FilterBlockReader → Bool

namespace MultiQueue

def new : MultiQueue where
  handles := []
  queues := fun _ => []
  map := []
  usage := 0
  adjustmentTime := 0
  nextAddress := 0

/-! ## Handles and queues -/

variable (mq : MultiQueue)

def value (h : Nat) : Option FilterBlockReader := (mq.handles.lookup h).map QueueHandle.reader

def modifyReader (h : Nat) (f : FilterBlockReader → FilterBlockReader) : MultiQueue :=
  { mq with handles := Lib.adjust mq.handles h fun q => { q with reader := f q.reader } }

def unlink (mq : MultiQueue) (h : Nat) : MultiQueue := { mq with queues := Lib.unlink mq.queues h }

def append (number h : Nat) : MultiQueue := { mq with queues := Lib.push mq.queues number h }

def move (h number : Nat) : MultiQueue := (mq.unlink h).append number h

def lookup (mq : MultiQueue) (key : Slice) : Option Nat := mq.map.lookup key

def insert (crc : Crc32c) (file : RandomAccessFile) (mq : MultiQueue) (key : Slice) (reader : FilterBlockReader) :
    MultiQueue :=
  let h := mq.nextAddress
  let mq := { mq with handles := (h, ⟨key, reader⟩) :: mq.handles, nextAddress := h + 1 }
  let mq := mq.append reader.initUnitsNumber h
  let mq := if (mq.lookup key).isSome then mq else { mq with map := (key, h) :: mq.map }
  let mq := { mq with usage := mq.usage + UInt64.ofNat (reader.initUnitsNumber * reader.oneUnitSize) }
  mq.modifyReader h fun r => (r.initLoadFilter crc file).1

def erase (key : Slice) : MultiQueue :=
  match mq.lookup key with
  | none => mq
  | some h =>
    let mq :=
      match mq.value h with
      | none => mq
      | some reader =>
        let mq := { mq with usage := mq.usage - UInt64.ofNat reader.size }
        { mq.unlink h with handles := Lib.remove mq.handles h }
    { mq with map := Lib.remove mq.map key }

def release (h : Nat) : MultiQueue :=
  match mq.value h with
  | none => mq
  | some reader =>
    let mq := { mq with usage := mq.usage - UInt64.ofNat reader.size }
    mq.modifyReader h fun r => r.cleanFilter.1

def goBackToInitFilter (crc : Crc32c) (file : RandomAccessFile) (mq : MultiQueue) (h : Nat) : MultiQueue :=
  match mq.value h with
  | none => mq
  | some reader =>
    let filterNumber := reader.filterUnitsNumber
    let initFilterNumber := reader.initUnitsNumber
    let mq := mq.move h initFilterNumber
    let mq := mq.modifyReader h fun r => (r.goBackToInitFilter crc file).1
    { mq with
      usage := mq.usage + (UInt64.ofNat initFilterNumber - UInt64.ofNat filterNumber) * UInt64.ofNat reader.oneUnitSize }

def totalCharge : UInt64 := mq.usage

/-! ## Adjustment -/

def findColdInQueue (mq : MultiQueue) (sn : Nat) : List Nat → UInt64 → List Nat → UInt64 × List Nat
  | [], memory, filters => (memory, filters)
  | h :: rest, memory, filters =>
    match mq.value h with
    | none => (memory, filters)
    | some reader =>
      if reader.isCold sn then
        -- a reader loaded for NewIterator is skipped
        let (memory, filters) :=
          if reader.accessTime ≠ 0 then (memory - UInt64.ofNat reader.oneUnitSize, filters ++ [h]) else (memory, filters)
        if 0 < memory then mq.findColdInQueue sn rest memory filters else (memory, filters)
      else (memory, filters)

def findColdInQueues (mq : MultiQueue) (sn : Nat) : List Nat → UInt64 → List Nat → UInt64 × List Nat
  | [], memory, filters => (memory, filters)
  | i :: rest, memory, filters =>
    if 0 < memory then
      let (memory, filters) := mq.findColdInQueue sn (mq.queues i).reverse memory filters
      mq.findColdInQueues sn rest memory filters
    else (memory, filters)

def findColdFilter (memory : UInt64) (sn : Nat) : List Nat :=
  let (memory, filters) := mq.findColdInQueues sn [6, 5, 4, 3, 2, 1] memory []
  if 0 < memory then [] else filters

variable (worth : WorthAdjusting)

def canBeAdjusted (mq : MultiQueue) (colds : List Nat) (hot : Nat) : Bool :=
  match mq.value hot with
  | none => false
  | some hotReader =>
    let readers := colds.filterMap mq.value
    readers.all FilterBlockReader.canBeEvict && worth readers hotReader

variable (crc : Crc32c)

def loadHandle (io : Nat → RandomAccessFile) (mq : MultiQueue) (h : Nat) : MultiQueue × Status :=
  match mq.value h with
  | none => (mq, .ok ())
  | some reader =>
    let number := reader.filterUnitsNumber
    if number < kAllFilterUnitsNumber then
      let mq := mq.move h (number + 1)
      (mq.modifyReader h fun r => (r.loadFilter crc (io h)).1, (reader.loadFilter crc (io h)).2)
    else (mq, .error (.corruption "There is a full reader!"))

def evictHandle (h : Nat) : MultiQueue × Status :=
  match mq.value h with
  | none => (mq, .ok ())
  | some reader =>
    let number := reader.filterUnitsNumber
    if 1 ≤ number then
      let mq := mq.move h (number - 1)
      (mq.modifyReader h fun r => r.evictFilter.1, reader.evictFilter.2)
    else (mq, .error (.corruption "There is not filter units to evict!"))

def evictHandles (mq : MultiQueue) : List Nat → MultiQueue × Status
  | [] => (mq, .ok ())
  | h :: rest =>
    match mq.evictHandle h with
    | (mq, .ok ()) => mq.evictHandles rest
    | (mq, .error e) => (mq, .error e)

def applyAdjustment (io : Nat → RandomAccessFile) (mq : MultiQueue) (colds : List Nat) (hot : Nat) : MultiQueue :=
  match mq.evictHandles colds with
  | (mq, .error _) => { mq with adjustmentTime := mq.adjustmentTime - 1 }
  | (mq, .ok ()) =>
    match mq.loadHandle crc io hot with
    | (mq, .error _) => { mq with adjustmentTime := mq.adjustmentTime - 1 }
    | (mq, .ok ()) => mq

def adjustment (io : Nat → RandomAccessFile) (mq : MultiQueue) (hot sn : Nat) : MultiQueue :=
  match mq.value hot with
  | none => mq
  | some reader =>
    if reader.canBeLoaded then
      let colds := mq.findColdFilter (UInt64.ofNat reader.oneUnitSize) sn
      if colds = [] then mq
      else if mq.canBeAdjusted worth colds hot then
        { mq with adjustmentTime := mq.adjustmentTime + 1 }.applyAdjustment crc io colds hot
      else mq
    else mq

def doAdjustment (io : Nat → RandomAccessFile) (mq : MultiQueue) (h sn : Nat) : MultiQueue :=
  match mq.value h with
  | none => mq
  | some reader => (mq.move h reader.filterUnitsNumber).adjustment worth crc io h sn

def parseKey (key : Slice) : Option Nat :=
  if key.length < 8 then none
  else
    let num := decodeFixed64 (key.drop (key.length - 8))
    if num % 256 ≤ 1 then some (num / 256) else none

def updateHandle (policy : FilterPolicy) (io : Nat → RandomAccessFile)
    (mq : MultiQueue) (h blockOffset : Nat) (key : Slice) : MultiQueue × Bool :=
  match parseKey key, mq.value h with
  | some sn, some _ =>
    let mq := mq.modifyReader h fun r => r.updateState sn
    let mq := mq.doAdjustment worth crc io h sn
    (mq, match mq.value h with
      | some reader => reader.keyMayMatch policy blockOffset key
      | none => true)
  | _, _ => (mq, true)

end MultiQueue

end RallyDB.Util
