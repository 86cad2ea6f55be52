import RallyDB.Table.Format
import RallyDB.Util.FilterPolicy

/-!
# The filter block (`table/filter_block.h`, `table/filter_block.cc`)
-/

namespace RallyDB.Table

open Util

def kFilterBaseLg : Nat := 11

def kFilterBase : Nat := 2 ^ kFilterBaseLg

def kLoadFilterUnitsNumber : Nat := 2

def kAllFilterUnitsNumber : Nat := 6

def kLifeTime : Nat := 10000

/-! ## Building -/

structure FilterBlockBuilder where
  -- `keys_` and `start_`: the keys of the filter that is not generated yet
  keys : List Slice
  filterOffsets : List Nat
  filterUnits : List Slice
  deriving DecidableEq

namespace FilterBlockBuilder

def new : FilterBlockBuilder where
  keys := []
  filterOffsets := []
  filterUnits := List.replicate kAllFilterUnitsNumber []

def unitSize (b : FilterBlockBuilder) : Nat := (b.filterUnits.headD []).length

variable (policy : FilterPolicy)

variable (b : FilterBlockBuilder)

def generateFilter : FilterBlockBuilder :=
  let filterOffsets := b.filterOffsets ++ [b.unitSize % 2 ^ 32]
  if b.keys = [] then { b with filterOffsets }
  else
    { keys := []
      filterOffsets
      filterUnits :=
        List.zipWith (· ++ ·) b.filterUnits (policy.createUnits kAllFilterUnitsNumber 0 b.keys) }

lemma generateFilter_offsets_length :
    (b.generateFilter policy).filterOffsets.length = b.filterOffsets.length + 1 := by
  unfold generateFilter
  split_ifs <;> simp

def generateUpTo (policy : FilterPolicy) (filterIndex : Nat) (b : FilterBlockBuilder) : FilterBlockBuilder :=
  if b.filterOffsets.length < filterIndex then generateUpTo policy filterIndex (b.generateFilter policy)
  else b
termination_by filterIndex - b.filterOffsets.length
decreasing_by
  rw [generateFilter_offsets_length]
  omega

def startBlock (blockOffset : Nat) : FilterBlockBuilder :=
  generateUpTo policy (blockOffset / kFilterBase) b

def addKey (key : Slice) : FilterBlockBuilder := { b with keys := b.keys ++ [key] }

def returnFilters : FilterBlockBuilder :=
  if b.keys = [] then b else b.generateFilter policy

def finish (handle : BlockHandle) : Slice :=
  b.filterOffsets.flatMap encodeFixed32 ++ encodeFixed32 b.unitSize ++ encodeFixed64 handle.offset ++
    encodeFixed32 handle.size ++ encodeFixed32 kLoadFilterUnitsNumber ++
    encodeFixed32 kAllFilterUnitsNumber ++ [UInt8.ofNat kFilterBaseLg]

end FilterBlockBuilder

def filtersHandle (filters : List Slice) (offset : Nat) : BlockHandle := ⟨offset, (filters.headD []).length⟩

def writeRawFilters (crc : Crc32c) (filters : List Slice) : Slice := filters.flatMap (rawBlock crc)

inductive BuilderCall where
  | startBlock (blockOffset : Nat)
  | addKey (key : Slice)
  deriving DecidableEq

def BuilderCall.apply (policy : FilterPolicy) (b : FilterBlockBuilder) : BuilderCall → FilterBlockBuilder
  | .startBlock blockOffset => b.startBlock policy blockOffset
  | .addKey key => b.addKey key

def buildFilters (policy : FilterPolicy) (calls : List BuilderCall) : FilterBlockBuilder :=
  (calls.foldl (BuilderCall.apply policy) .new).returnFilters policy

/-! ## Reading -/

structure FilterBlockReader where
  contents : Slice
  diskOffset : Nat
  diskSize : Nat
  initUnitsNumber : Nat
  allUnitsNumber : Nat
  baseLg : Nat
  num : Nat
  reloadUnitsNumber : Nat
  accessTime : Nat
  sequence : Nat
  filterUnits : List Slice
  deriving DecidableEq

namespace FilterBlockReader

def new (uninit : FilterBlockReader) (contents : Slice) : FilterBlockReader :=
  let n := contents.length
  if n < 25 then
    { uninit with contents := [], num := 0, baseLg := 0, accessTime := 0, sequence := 0, filterUnits := [] }
  else
    { contents
      diskOffset := decodeFixed64 (contents.drop (n - 21))
      diskSize := decodeFixed32 (contents.drop (n - 13))
      initUnitsNumber := decodeFixed32 (contents.drop (n - 9))
      allUnitsNumber := decodeFixed32 (contents.drop (n - 5))
      baseLg := ((contents.drop (n - 1)).headD 0).toNat
      num := (n - 25) / 4
      reloadUnitsNumber := decodeFixed32 (contents.drop (n - 9))
      accessTime := 0
      sequence := 0
      filterUnits := [] }

variable (r : FilterBlockReader)

def updateState (sn : Nat) : FilterBlockReader :=
  { r with sequence := sn, accessTime := r.accessTime + 1 }

def filterUnitsNumber : Nat := r.filterUnits.length

def oneUnitSize : Nat := r.diskSize

def size : Nat := r.filterUnitsNumber * r.diskSize

def isCold (nowSequence : Nat) : Bool := r.sequence + kLifeTime ≤ nowSequence

def canBeLoaded : Bool := r.filterUnitsNumber < r.allUnitsNumber

def canBeEvict : Bool := 0 < r.filterUnitsNumber

def unitsMatch (policy : FilterPolicy) (key : Slice) (start limit : Nat) : Nat → List Slice → Bool
  | _, [] => true
  | i, unit :: units =>
    policy.keyMayMatch key ((unit.drop start).take (limit - start)) i &&
      unitsMatch policy key start limit (i + 1) units

def keyMayMatch (policy : FilterPolicy) (r : FilterBlockReader) (blockOffset : Nat) (key : Slice) : Bool :=
  let index := blockOffset >>> r.baseLg
  if index < r.num then
    let start := decodeFixed32 (r.contents.drop (index * 4))
    let limit := decodeFixed32 (r.contents.drop (index * 4 + 4))
    if start ≤ limit ∧ limit ≤ r.diskSize then unitsMatch policy key start limit 0 r.filterUnits
    else if start = limit then false
    else true
  else true

def loadFilter (crc : Crc32c) (file : RandomAccessFile) (r : FilterBlockReader) :
    FilterBlockReader × Status :=
  let unitsIndex := r.filterUnits.length
  if r.allUnitsNumber ≤ unitsIndex then (r, .error (.corruption "all filter units were loaded"))
  else
    let offset := (r.diskOffset + (r.diskSize + kBlockTrailerSize) * unitsIndex) % 2 ^ 64
    match readBlock crc file true ⟨offset, r.diskSize⟩ with
    | .error e => (r, .error e)
    | .ok data => ({ r with filterUnits := r.filterUnits ++ [data] }, .ok ())

def evictFilter : FilterBlockReader × Status :=
  if r.filterUnits = [] then (r, .error (.corruption "there is no filter can be  evicted"))
  else ({ r with filterUnits := r.filterUnits.dropLast }, .ok ())

lemma loadFilter_ok {crc : Crc32c} {file : RandomAccessFile} {r r' : FilterBlockReader}
    (h : r.loadFilter crc file = (r', .ok ())) :
    ∃ data, r' = { r with filterUnits := r.filterUnits ++ [data] } ∧ r.filterUnits.length < r.allUnitsNumber ∧
    readBlock crc file true ⟨(r.diskOffset + (r.diskSize + kBlockTrailerSize) * r.filterUnits.length) % 2 ^ 64,
    r.diskSize⟩ = .ok data := by
  unfold loadFilter at h
  dsimp only at h
  split_ifs at h with hall
  · cases h
  · split at h
    · cases h
    · rename_i data hread
      cases h
      exact ⟨data, rfl, by omega, hread⟩

def loadUpTo (crc : Crc32c) (file : RandomAccessFile) (target : Nat) (r : FilterBlockReader) :
    FilterBlockReader × Status :=
  if r.filterUnits.length < target then
    match _h : r.loadFilter crc file with
    | (r', .ok ()) => loadUpTo crc file target r'
    | (r', .error e) => (r', .error e)
  else (r, .ok ())
termination_by target - r.filterUnits.length
decreasing_by
  obtain ⟨data, rfl, -⟩ := loadFilter_ok _h
  simp
  omega

def evictDownTo (target : Nat) (r : FilterBlockReader) : FilterBlockReader × Status :=
  if target < r.filterUnits.length then
    match _h : r.evictFilter with
    | (r', .ok ()) => evictDownTo target r'
    | (r', .error e) => (r', .error e)
  else (r, .ok ())
termination_by r.filterUnits.length
decreasing_by
  unfold evictFilter at _h
  split_ifs at _h with hnil
  · cases _h
  · cases _h
    simp
    omega

def initLoadFilter (crc : Crc32c) (file : RandomAccessFile) (r : FilterBlockReader) :
    FilterBlockReader × Status := r.loadUpTo crc file r.initUnitsNumber

def cleanFilter : FilterBlockReader × Status :=
  evictDownTo 0 { r with reloadUnitsNumber := r.filterUnits.length }

def goBackToInitFilter (crc : Crc32c) (file : RandomAccessFile) (r : FilterBlockReader) :
    FilterBlockReader × Status :=
  if kAllFilterUnitsNumber < r.reloadUnitsNumber then
    (r, .error (.corruption "init units number is too much"))
  else
    match r.loadUpTo crc file r.reloadUnitsNumber with
    | (r, .error e) => (r, .error e)
    | (r, .ok ()) => r.evictDownTo r.reloadUnitsNumber

end FilterBlockReader

inductive ReaderCall (bytes : Slice) where
  | load (file : HonestFile bytes)
  | evict
  | clean
  | goBackToInit (file : HonestFile bytes)
  | updateState (sn : Nat)

def ReaderCall.apply {bytes : Slice} (crc : Crc32c) (r : FilterBlockReader) : ReaderCall bytes → FilterBlockReader
  | .load file => (r.loadFilter crc file.toRandomAccessFile).1
  | .evict => r.evictFilter.1
  | .clean => r.cleanFilter.1
  | .goBackToInit file => (r.goBackToInitFilter crc file.toRandomAccessFile).1
  | .updateState sn => r.updateState sn

def FilterBlockReader.run {bytes : Slice} (crc : Crc32c) (r : FilterBlockReader)
    (calls : List (ReaderCall bytes)) : FilterBlockReader :=
  calls.foldl (ReaderCall.apply crc) r

end RallyDB.Table
