import RallyDB.Db.DbFormat
import RallyDB.Lib.Assoc
import RallyDB.Lib.Links
import RallyDB.Lib.Machine
import RallyDB.Table.Lemmas.Units

/-!
# The multi container (`util/multi_container.cc`, `util/container.cc`)
-/

namespace RallyDB.Util

open Table Db

structure TableObject where
  tableId : Nat
  bitsPerKey : Nat
  reader : Option FilterBlockReader
  deriving DecidableEq

namespace TableObject

variable (t : TableObject)

def bfChange : Nat := (t.reader.map fun r => r.filterUnitsNumber * r.oneUnitSize).getD 0

def unitSize : Nat := (t.reader.map FilterBlockReader.oneUnitSize).getD 0

def bfNumer : Nat := (t.reader.map FilterBlockReader.filterUnitsNumber).getD 0

def isCold (t : TableObject) (currentTime : Nat) : Bool := (t.reader.map fun r => r.isCold currentTime).getD true

def loadBloomFilter (crc : Crc32c) (file : RandomAccessFile) (t : TableObject) : TableObject :=
  { t with reader := t.reader.map fun r => if r.canBeLoaded then (r.loadFilter crc file).1 else r }

/-- The source reads through the pointer to the reader; `Placed.reader_isSome` says where it is not null. -/
def evictBloomFilter : TableObject :=
  { t with reader := t.reader.map fun r => if r.canBeEvict then r.evictFilter.1 else r }

end TableObject

/-! ## Handles and lists -/

structure ContainerHandle where
  value : Nat
  level : Nat
  bfNumber : Nat
  deriving DecidableEq

structure MultiContainer where
  -- the table objects and the handles that are not deleted, by address
  objects : List (Nat × TableObject)
  handles : List (Nat × ContainerHandle)
  containers : Nat × Nat → List Nat
  hashTable : List (Slice × Nat)
  charger : Int
  nextAddress : Nat

abbrev SSTableWorth := Nat → Nat → Nat → Nat → Bool

namespace MultiContainer

def new : MultiContainer where
  objects := []
  handles := []
  containers := fun _ => []
  hashTable := []
  charger := 0
  nextAddress := 0

variable (mc : MultiContainer)

def table (h : Nat) : Option (ContainerHandle × TableObject) :=
  (mc.handles.lookup h).bind fun c => (mc.objects.lookup c.value).map fun t => (c, t)

def newObject (t : TableObject) : MultiContainer :=
  { mc with objects := (mc.nextAddress, t) :: mc.objects, nextAddress := mc.nextAddress + 1 }

def modifyObject (value : Nat) (f : TableObject → TableObject) : MultiContainer :=
  { mc with objects := Lib.adjust mc.objects value f }

def addToHead (i j h : Nat) : MultiContainer :=
  { mc with containers := Lib.push mc.containers (i, j) h }

def removeHandle (h : Nat) : MultiContainer :=
  { mc with containers := Lib.unlink mc.containers h }

def insert (key : Slice) (level value : Nat) : MultiContainer :=
  match mc.objects.lookup value with
  | none => mc
  | some t =>
    let h := mc.nextAddress
    let mc := { mc with handles := (h, ⟨value, level, t.bfNumer⟩) :: mc.handles, nextAddress := h + 1 }
    let mc := mc.addToHead t.bfNumer level h
    { mc with hashTable := (key, h) :: Lib.remove mc.hashTable key, charger := mc.charger + t.bfChange }

def lookup (mc : MultiContainer) (key : Slice) : MultiContainer × Option Nat :=
  match mc.hashTable.lookup key with
  | none => (mc, none)
  | some h =>
    match mc.handles.lookup h with
    | none => (mc, some h)
    | some c => ((mc.removeHandle h).addToHead c.bfNumber c.level h, some h)

def erase (key : Slice) : MultiContainer :=
  match mc.hashTable.lookup key with
  | none => mc
  | some h =>
    let mc := { mc.removeHandle h with handles := Lib.remove mc.handles h }
    { mc with hashTable := Lib.remove mc.hashTable key }

def totalCharge : Int := mc.charger

/-! ## Sweeps -/

structure Sweep where
  container : MultiContainer
  allSize : Nat
  memory : Int

structure SweepResult where
  sweep : Sweep
  moved : List Nat
  returnFlag : Bool
  breakFlag : Bool

def removeFromContainers (numbers : List Nat) : MultiContainer :=
  numbers.foldl removeHandle mc

def addToContainers (numbers : List Nat) (bfNumber : Nat) : MultiContainer :=
  if kAllFilterUnitsNumber < bfNumber then mc
  else
    numbers.foldl (fun mc h =>
      match mc.handles.lookup h with
      | none => mc
      | some c => mc.addToHead c.level bfNumber h) mc

/-- What differs between the load and the evict sweep: the order of a container's handles, at which tables the loop
stops, with the break flag, what it does to a table, what it adds to the charge, and the new number of units. -/
structure SweepKind where
  order : List Nat → List Nat
  stop : ContainerHandle → TableObject → Option Bool
  update : Nat → TableObject → TableObject
  charge : TableObject → Int
  next : Nat → Nat

def loadKind (crc : Crc32c) (io : Nat → RandomAccessFile) (worth : SSTableWorth) (currentTime nextPeriodTime : Nat) :
    SweepKind where
  order l := l
  stop c t :=
    if t.isCold currentTime then some false
    else if !worth t.tableId nextPeriodTime c.bfNumber t.bitsPerKey then some true
    else none
  update value t := t.loadBloomFilter crc (io value)
  charge t := t.unitSize
  next bfNumber := bfNumber + 1

def evictKind (currentTime : Nat) : SweepKind where
  order l := l.reverse
  stop _ t := if !t.isCold currentTime then some false else none
  update _ t := t.evictBloomFilter
  charge t := -t.unitSize
  next bfNumber := bfNumber - 1

section

variable (kind : SweepKind)

def Sweep.touch (s : Sweep) (c : ContainerHandle) (t : TableObject) : Sweep where
  container :=
    { s.container.modifyObject c.value (kind.update c.value) with charger := s.container.charger + kind.charge t }
  allSize := s.allSize + t.unitSize
  memory := s.memory - t.unitSize

def sweepContainer : List Nat → Sweep → SweepResult
  | [], s => ⟨s, [], s.memory ≤ 0, false⟩
  | h :: rest, s =>
    match s.container.table h with
    | none => ⟨s, [], s.memory ≤ 0, false⟩
    | some (c, t) =>
      match kind.stop c t with
      | some breakFlag => ⟨s, [], s.memory ≤ 0, breakFlag⟩
      | none =>
        let s := s.touch kind c t
        if s.memory ≤ 0 then ⟨s, [h], true, false⟩
        else
          let r := sweepContainer rest s
          { r with moved := h :: r.moved }

def SweepResult.relink (r : SweepResult) (bfNumber : Nat) : SweepResult :=
  { r with
    sweep.container := (r.sweep.container.removeFromContainers r.moved).addToContainers r.moved bfNumber }

end

structure Visit where
  run : Nat → Nat → Sweep → SweepResult
  balanced : ∀ i j s, (run i j s).sweep.memory + (run i j s).sweep.allSize = s.memory + s.allSize

section

variable (visit : Visit)

def sweepLevels (bfNumber : Nat) : List Nat → Sweep → Sweep × Bool
  | [], s => (s, false)
  | level :: levels, s =>
    let r := visit.run bfNumber level s
    if r.returnFlag then (r.sweep, true)
    else if r.breakFlag then (r.sweep, false)
    else sweepLevels bfNumber levels r.sweep

def sweepNumbers (levels : List Nat) : List Nat → Sweep → Sweep × Bool
  | [], s => (s, false)
  | bfNumber :: numbers, s =>
    let r := sweepLevels visit bfNumber levels s
    if r.2 then r else sweepNumbers levels numbers r.1

lemma sweepLevels_balanced (bfNumber : Nat) (levels : List Nat) (s : Sweep) :
    (sweepLevels visit bfNumber levels s).1.memory + (sweepLevels visit bfNumber levels s).1.allSize =
    s.memory + s.allSize := by
  induction levels generalizing s with
  | nil => rfl
  | cons level levels ih =>
    have hv := visit.balanced bfNumber level s
    unfold sweepLevels
    dsimp only
    split_ifs
    · exact hv
    · exact hv
    · rw [ih, hv]

lemma sweepNumbers_balanced (levels numbers : List Nat) (s : Sweep) :
    (sweepNumbers visit levels numbers s).1.memory + (sweepNumbers visit levels numbers s).1.allSize =
    s.memory + s.allSize := by
  induction numbers generalizing s with
  | nil => rfl
  | cons bfNumber numbers ih =>
    have hv := sweepLevels_balanced visit bfNumber levels s
    unfold sweepNumbers
    dsimp only
    split_ifs
    · exact hv
    · rw [ih, hv]

def sweep (levels numbers : List Nat) (s : Sweep) : Sweep :=
  let r := sweepNumbers visit levels numbers { s with allSize := 0 }
  if r.2 then r.1
  else if 0 < r.1.memory ∧ r.1.allSize ≠ 0 then sweep levels numbers r.1
  else r.1
termination_by s.memory.toNat
decreasing_by
  rename_i hmore
  have hb : r.1.memory + r.1.allSize = s.memory + (0 : Nat) := sweepNumbers_balanced visit levels numbers _
  show r.1.memory.toNat < s.memory.toNat
  omega

end

lemma sweepContainer_balanced (kind : SweepKind) (l : List Nat) (s : Sweep) :
    (sweepContainer kind l s).sweep.memory + (sweepContainer kind l s).sweep.allSize = s.memory + s.allSize := by
  induction l generalizing s with
  | nil => rfl
  | cons h rest ih =>
    unfold sweepContainer
    split
    · rfl
    · rename_i c t _
      have htouch : (s.touch kind c t).memory + (s.touch kind c t).allSize = s.memory + s.allSize := by
        simp only [Sweep.touch]
        omega
      split
      · rfl
      · dsimp only
        split_ifs
        · exact htouch
        · exact (ih _).trans htouch

def containerVisit (kind : SweepKind) : Visit where
  run bfNumber level s :=
    (sweepContainer kind (kind.order (s.container.containers (bfNumber, level))) s).relink (kind.next bfNumber)
  balanced _ _ _ := sweepContainer_balanced kind _ _

def loadNumbers : List Nat := List.range kAllFilterUnitsNumber

def loadLevels : List Nat := List.range (kNumLevels + 1)

def evictNumbers : List Nat := (List.range' 2 (kAllFilterUnitsNumber - 1)).reverse

def evictLevels : List Nat := (List.range' 1 kNumLevels).reverse

def loadBloomFilter (crc : Crc32c) (io : Nat → RandomAccessFile) (worth : SSTableWorth) (mc : MultiContainer)
    (currentTime nextPeriodTime : Nat) (memory : Int) : MultiContainer :=
  (sweep (containerVisit (loadKind crc io worth currentTime nextPeriodTime)) loadLevels loadNumbers ⟨mc, 0, memory⟩).container

def evictBloomFilter (mc : MultiContainer) (currentTime : Nat) (memory : Int) : MultiContainer :=
  (sweep (containerVisit (evictKind currentTime)) evictLevels evictNumbers ⟨mc, 0, memory⟩).container

end MultiContainer

/-! ## Runs -/

def TableObject.InRange (t : TableObject) : Prop :=
  ∀ r ∈ t.reader, r.filterUnitsNumber ≤ kAllFilterUnitsNumber ∧ r.allUnitsNumber = kAllFilterUnitsNumber

instance (t : TableObject) : Decidable t.InRange := inferInstanceAs (Decidable (∀ r ∈ t.reader, _))

def TableObject.Readable (crc : Crc32c) (file : RandomAccessFile) (t : TableObject) : Prop :=
  ∀ r ∈ t.reader, r.Readable crc file

instance (crc : Crc32c) (file : RandomAccessFile) (t : TableObject) : Decidable (t.Readable crc file) :=
  inferInstanceAs (Decidable (∀ r ∈ t.reader, _))

namespace MultiContainer

inductive Action where
  | insert (key : Slice) (level : Nat) (table : TableObject)
  | lookup (key : Slice)
  | erase (key : Slice)
  | loadBloomFilter (io : Nat → RandomAccessFile) (currentTime nextPeriodTime : Nat) (memory : Int)
  | evictBloomFilter (currentTime : Nat) (memory : Int)

/-- Keys are inserted once, with a new table object of one of the database's levels: the sweeps index the array by
level first, and it has no row for a further level. -/
def Enabled (mc : MultiContainer) : Action → Prop
  | .insert key level table => mc.hashTable.lookup key = none ∧ level < kNumLevels ∧ table.InRange
  | _ => True

instance (mc : MultiContainer) (a : Action) : Decidable (mc.Enabled a) := by
  cases a <;> unfold Enabled <;> infer_instance

variable (crc : Crc32c) (worth : SSTableWorth)

def apply (mc : MultiContainer) : Action → MultiContainer
  | .insert key level table => (mc.newObject table).insert key level mc.nextAddress
  | .lookup key => (mc.lookup key).1
  | .erase key => mc.erase key
  | .loadBloomFilter io currentTime nextPeriodTime memory =>
    mc.loadBloomFilter crc io worth currentTime nextPeriodTime memory
  | .evictBloomFilter currentTime memory => mc.evictBloomFilter currentTime memory

def step (mc : MultiContainer) (a : Action) : Option MultiContainer :=
  if mc.Enabled a then some (mc.apply crc worth a) else none

end MultiContainer

end RallyDB.Util
