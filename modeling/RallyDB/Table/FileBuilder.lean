import RallyDB.Table.TableBuilder

/-!
# Building a table on a file whose writes may fail (`table/table_builder.cc`)
-/

namespace RallyDB.Table

open Util

structure BuilderOptions extends TableOptions where
  compare : Slice → Slice → Ordering
  findShortestSeparator : Slice → Slice → Slice
  findShortSuccessor : Slice → Slice
  compression : Option (UInt8 × (Slice → Option Slice))

def BuilderOptions.blockContents (options : BuilderOptions) (raw : Slice) : Slice × UInt8 :=
  match options.compression with
  | none => (raw, kNoCompression)
  | some (type, compress) =>
    match compress raw with
    | some compressed =>
      if compressed.length < raw.length - raw.length / 8 then (compressed, type) else (raw, kNoCompression)
    | none => (raw, kNoCompression)

structure WrittenBlock where
  handle : BlockHandle
  contents : Slice
  type : UInt8

abbrev Faults := Nat → Option Nat

structure FileBuilder where
  file : Slice
  appends : List Bool
  written : List WrittenBlock
  handles : List BlockHandle
  status : Status
  offset : Nat
  dataBlock : BlockBuilder
  indexBlock : BlockBuilder
  lastKey : Slice
  numEntries : Nat
  filterBlock : Option (FilterPolicy × FilterBlockBuilder)
  pendingIndexEntry : Bool
  pendingHandle : BlockHandle

namespace FileBuilder

def ok (tb : FileBuilder) : Bool := tb.status.isOk

def startFilterBlock (tb : FileBuilder) : FileBuilder :=
  { tb with filterBlock := tb.filterBlock.map fun (policy, b) => (policy, b.startBlock policy tb.offset) }

def new (options : BuilderOptions) : FileBuilder :=
  startFilterBlock
    { file := []
      appends := []
      written := []
      handles := []
      status := .ok ()
      offset := 0
      dataBlock := .new
      indexBlock := .new
      lastKey := []
      numEntries := 0
      filterBlock := options.filterPolicy.map fun policy => (policy, .new)
      pendingIndexEntry := false
      pendingHandle := ⟨0, 0⟩ }

variable (faults : Faults) (crc : Crc32c) (options : BuilderOptions)

def append (tb : FileBuilder) (data : Slice) : FileBuilder :=
  match faults tb.appends.length with
  | none => { tb with file := tb.file ++ data, appends := tb.appends ++ [true], status := .ok () }
  | some n =>
    { tb with file := tb.file ++ data.take n, appends := tb.appends ++ [false], status := .error (.ioError "append") }

variable (tb : FileBuilder)

def writeRawBlock (contents : Slice) (type : UInt8) : FileBuilder × BlockHandle :=
  let handle : BlockHandle := ⟨tb.offset, contents.length⟩
  let tb := tb.append faults contents
  if tb.ok then
    let tb := tb.append faults (blockTrailer crc contents type)
    if tb.ok then
      ({ tb with
          offset := tb.offset + contents.length + kBlockTrailerSize
          written := tb.written ++ [⟨handle, contents, type⟩] }, handle)
    else (tb, handle)
  else (tb, handle)

def writeBlock (block : BlockBuilder) : FileBuilder × BlockHandle :=
  let (contents, type) := options.blockContents block.finish
  tb.writeRawBlock faults crc contents type

def addIndexEntry : FileBuilder :=
  { tb with
    indexBlock := tb.indexBlock.add 1 tb.lastKey tb.pendingHandle.encode
    handles := tb.handles ++ [tb.pendingHandle]
    pendingIndexEntry := false }

def flush : FileBuilder :=
  if tb.ok then
    if tb.dataBlock.buffer = [] then tb
    else
      let (tb, handle) := tb.writeBlock faults crc options tb.dataBlock
      let tb := { tb with dataBlock := .new, pendingHandle := handle }
      (if tb.ok then { tb with pendingIndexEntry := true } else tb).startFilterBlock
  else tb

/-- `Add` up to the test of the size. -/
def addEntry (tb : FileBuilder) (key value : Slice) : FileBuilder :=
  let tb :=
    if tb.pendingIndexEntry then
      { tb with lastKey := options.findShortestSeparator tb.lastKey key }.addIndexEntry
    else tb
  { tb with
    filterBlock := tb.filterBlock.map fun (policy, b) => (policy, b.addKey key)
    lastKey := key
    numEntries := tb.numEntries + 1
    dataBlock := tb.dataBlock.add options.blockRestartInterval key value }

def add (tb : FileBuilder) (key value : Slice) : FileBuilder :=
  if tb.ok then
    let tb := tb.addEntry options key value
    if options.blockSize ≤ tb.dataBlock.currentSizeEstimate then tb.flush faults crc options else tb
  else tb

/-! ## Finishing -/

def writeRawFilters (filters : List Slice) : FileBuilder :=
  filters.foldl (fun tb filter => (tb.writeRawBlock faults crc filter kNoCompression).1) tb

def finishFilters : FileBuilder × Option (Slice × Slice) :=
  match tb.filterBlock with
  | none => (tb, none)
  | some (policy, b) =>
    let b := b.returnFilters policy
    let handle := filtersHandle b.filterUnits tb.offset
    let tb := tb.writeRawFilters faults crc b.filterUnits
    ({ tb with handles := tb.handles ++ [handle] }, some (TableBuilder.filterKey policy, b.finish handle))

variable (filter : Option (Slice × Slice))

def metaindexBlock : BlockBuilder :=
  let interval := options.blockRestartInterval
  let number := TableBuilder.decimal tb.numEntries
  match filter with
  | none => BlockBuilder.new.add interval TableBuilder.kvNumberKey number
  | some (key, contents) =>
    if options.compare key TableBuilder.kvNumberKey = .lt then
      (BlockBuilder.new.add interval key contents).add interval TableBuilder.kvNumberKey number
    else (BlockBuilder.new.add interval TableBuilder.kvNumberKey number).add interval key contents

def lastIndexEntry : FileBuilder :=
  if tb.pendingIndexEntry then { tb with lastKey := options.findShortSuccessor tb.lastKey }.addIndexEntry else tb

def writeFooter (footer : Footer) : FileBuilder :=
  let tb := tb.append faults footer.encode
  let tb := { tb with handles := tb.handles ++ [footer.metaindexHandle, footer.indexHandle] }
  if tb.ok then { tb with offset := tb.offset + footer.encode.length } else tb

def finishIndex : FileBuilder :=
  let (tb, metaindexHandle) := tb.writeBlock faults crc options (tb.metaindexBlock options filter)
  if tb.ok then
    let tb := tb.lastIndexEntry options
    let (tb, indexHandle) := tb.writeBlock faults crc options tb.indexBlock
    if tb.ok then tb.writeFooter faults ⟨metaindexHandle, indexHandle⟩ else tb
  else tb

def finish : FileBuilder :=
  let tb := tb.flush faults crc options
  if tb.ok then
    let (tb, filter) := tb.finishFilters faults crc
    if tb.ok then tb.finishIndex faults crc options filter else tb
  else tb

inductive Call where
  | add (key value : Slice)
  | flush

def apply : Call → FileBuilder
  | .add key value => tb.add faults crc options key value
  | .flush => tb.flush faults crc options

def run (calls : List Call) : FileBuilder := calls.foldl (apply faults crc options) (new options)

def build (calls : List Call) : FileBuilder := (run faults crc options calls).finish faults crc options

end FileBuilder

end RallyDB.Table
