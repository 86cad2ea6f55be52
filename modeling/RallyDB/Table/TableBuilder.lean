import RallyDB.Db.KeyEncoding
import RallyDB.Table.BlockBuilder
import RallyDB.Table.FilterBlock

/-!
# Building a table (`table/table_builder.cc`)
-/

namespace RallyDB.Table

open Util Db

structure TableOptions where
  blockSize : Nat
  blockRestartInterval : Nat
  filterPolicy : Option FilterPolicy
  paranoidChecks : Bool

structure TableBuilder where
  -- the data of every `Append`
  file : List Slice
  offset : Nat
  dataBlock : BlockBuilder
  indexBlock : BlockBuilder
  lastKey : Slice
  numEntries : Nat
  -- the builder with its policy
  filterBlock : Option (FilterPolicy × FilterBlockBuilder)
  pendingIndexEntry : Bool
  pendingHandle : BlockHandle

namespace TableBuilder

def bytes (tb : TableBuilder) : Slice := tb.file.flatten

def startFilterBlock (tb : TableBuilder) : TableBuilder :=
  { tb with filterBlock := tb.filterBlock.map fun (policy, b) => (policy, b.startBlock policy tb.offset) }

def new (options : TableOptions) : TableBuilder :=
  startFilterBlock
    { file := []
      offset := 0
      dataBlock := .new
      indexBlock := .new
      lastKey := []
      numEntries := 0
      filterBlock := options.filterPolicy.map fun policy => (policy, .new)
      pendingIndexEntry := false
      pendingHandle := ⟨0, 0⟩ }

variable (crc : Crc32c)

def rawPieces (contents : Slice) : List Slice :=
  [contents, blockTrailer crc contents kNoCompression]

variable (tb : TableBuilder)

def writeRawBlock (contents : Slice) : TableBuilder × BlockHandle :=
  ({ tb with
      file := tb.file ++ rawPieces crc contents
      offset := tb.offset + contents.length + kBlockTrailerSize },
    ⟨tb.offset, contents.length⟩)

def addIndexEntry : TableBuilder :=
  { tb with
    indexBlock := tb.indexBlock.add 1 tb.lastKey tb.pendingHandle.encode
    pendingIndexEntry := false }

def flush : TableBuilder :=
  if tb.dataBlock.buffer = [] then tb
  else
    let (tb', handle) := tb.writeRawBlock crc tb.dataBlock.finish
    { tb' with dataBlock := .new, pendingHandle := handle, pendingIndexEntry := true }.startFilterBlock

/-- `Add` up to the test of the size. -/
def addToBlock (options : TableOptions) (tb : TableBuilder) (key value : Slice) : TableBuilder :=
  let tb :=
    if tb.pendingIndexEntry then
      { tb with lastKey := internalFindShortestSeparator tb.lastKey key }.addIndexEntry
    else tb
  { tb with
    filterBlock := tb.filterBlock.map fun (policy, b) => (policy, b.addKey key)
    lastKey := key
    numEntries := tb.numEntries + 1
    dataBlock := tb.dataBlock.add options.blockRestartInterval key value }

def add (crc : Crc32c) (options : TableOptions) (tb : TableBuilder) (key value : Slice) : TableBuilder :=
  let tb := tb.addToBlock options key value
  if options.blockSize ≤ tb.dataBlock.currentSizeEstimate then tb.flush crc else tb

/-! ## Finishing -/

def writeRawFilters (crc : Crc32c) (tb : TableBuilder) : List Slice → TableBuilder
  | [] => tb
  | filter :: filters => (tb.writeRawBlock crc filter).1.writeRawFilters crc filters

def decimal (n : Nat) : Slice := (Nat.toDigits 10 n).map fun c => UInt8.ofNat c.toNat

def filterKeyStart : Slice := [102, 105, 108, 116, 101, 114, 46]

def kvNumberKey : Slice := [108, 101, 118, 101, 108, 100, 98, 46, 107, 118, 46, 110, 117, 109, 98, 101, 114]

def filterKey (policy : FilterPolicy) : Slice := filterKeyStart ++ policy.name

def finishFilters : TableBuilder × Option (Slice × Slice) :=
  match tb.filterBlock with
  | none => (tb, none)
  | some (policy, b) =>
    let b := b.returnFilters policy
    let contents := b.finish (filtersHandle b.filterUnits tb.offset)
    (tb.writeRawFilters crc b.filterUnits, some (filterKey policy, contents))

def metaindexBlock (options : TableOptions) (tb : TableBuilder) (filter : Option (Slice × Slice)) : BlockBuilder :=
  let interval := options.blockRestartInterval
  let number := decimal tb.numEntries
  match filter with
  | none => BlockBuilder.new.add interval kvNumberKey number
  | some (key, contents) =>
    if internalKeyCompare key kvNumberKey = .lt then
      (BlockBuilder.new.add interval key contents).add interval kvNumberKey number
    else (BlockBuilder.new.add interval kvNumberKey number).add interval key contents

def finish (crc : Crc32c) (options : TableOptions) (tb : TableBuilder) : TableBuilder :=
  let tb := tb.flush crc
  let (tb, filter) := tb.finishFilters crc
  let (tb, metaindexHandle) := tb.writeRawBlock crc (tb.metaindexBlock options filter).finish
  let tb :=
    if tb.pendingIndexEntry then
      { tb with lastKey := internalFindShortSuccessor tb.lastKey }.addIndexEntry
    else tb
  let (tb, indexHandle) := tb.writeRawBlock crc tb.indexBlock.finish
  let footer := Footer.encode ⟨metaindexHandle, indexHandle⟩
  { tb with file := tb.file ++ [footer], offset := tb.offset + footer.length }

end TableBuilder

def buildTable (crc : Crc32c) (options : TableOptions) (entries : List (Slice × Slice)) : TableBuilder :=
  (entries.foldl (fun tb e => TableBuilder.add crc options tb e.1 e.2) (.new options)).finish crc options

end RallyDB.Table
