import RallyDB.Db.Version
import RallyDB.Table.Block
import RallyDB.Table.TableBuilder
import RallyDB.Util.MultiQueue

/-!
# Reading a table (`table/table.cc`)
-/

namespace RallyDB.Table

open Util Db

def readFooter (file : RandomAccessFile) (size : Nat) : Except Error Footer :=
  if size < kFooterLength then .error (.corruption "file is too short to be an sstable")
  else do
    let input ← file.read (size - kFooterLength) kFooterLength
    Footer.decode input

def readFilterEntry (uncompress : Uncompress) (crc : Crc32c) (file : RandomAccessFile) (verifyChecksums : Bool)
    (policy : FilterPolicy) (metaindexHandle : BlockHandle) (uninit : FilterBlockReader) : Option FilterBlockReader :=
  match readStoredBlock uncompress crc file verifyChecksums metaindexHandle with
  | .error _ => none
  | .ok contents =>
    let key := TableBuilder.filterKey policy
    match ((Block.new contents).seek bytewiseCompare key).1 with
    | none => none
    | some (found, filterMeta) => if found = key then some (.new uninit filterMeta) else none

structure TableRep where
  options : TableOptions
  metaindexHandle : BlockHandle
  indexBlock : Block
  reader : Option FilterBlockReader
  handle : Option Nat

namespace TableRep

def openFile (crc : Crc32c) (options : TableOptions) (file : RandomAccessFile) (size : Nat) :
    Except Error TableRep := do
  let footer ← readFooter file size
  let contents ← readBlock crc file options.paranoidChecks footer.indexHandle
  return {
    options
    metaindexHandle := footer.metaindexHandle
    indexBlock := .new contents
    reader := none
    handle := none }

def readFilter (crc : Crc32c) (file : RandomAccessFile) (uninit : FilterBlockReader) (t : TableRep) :
    Option FilterBlockReader :=
  match t.options.filterPolicy with
  | none => none
  | some policy =>
    readFilterEntry noCompression crc file t.options.paranoidChecks policy t.metaindexHandle uninit

def saveEntry (userKey ikey value : Slice) : Option SaverState :=
  (parseInternalKey ikey).map fun k => saveValue userKey (some (k, value))

def seekInBlock (crc : Crc32c) (file : RandomAccessFile) (verifyChecksums : Bool) (indexValue k userKey : Slice) :
    Option SaverState × Status :=
  match BlockHandle.decode indexValue with
  | .error e => (some .notFound, .error e)
  | .ok (handle, _) =>
    match readBlock crc file verifyChecksums handle with
    | .error e => (some .notFound, .error e)
    | .ok contents =>
      match (Block.new contents).seek internalKeyCompare k with
      | (none, s) => (some .notFound, s)
      | (some (ikey, value), s) => (saveEntry userKey ikey value, s)

def filterMayMatch (worth : WorthAdjusting) (crc : Crc32c) (io : Nat → RandomAccessFile) (t : TableRep)
    (mq : MultiQueue) (policy : FilterPolicy) (indexValue k : Slice) : MultiQueue × Bool :=
  match BlockHandle.decode indexValue with
  | .error _ => (mq, true)
  | .ok (handle, _) =>
    if t.reader.any fun r => !r.keyMayMatch policy handle.offset k then (mq, false)
    else
      match t.handle with
      | none => (mq, true)
      | some h => mq.updateHandle worth crc policy io h handle.offset k

def internalGet (worth : WorthAdjusting) (crc : Crc32c) (file : RandomAccessFile) (io : Nat → RandomAccessFile)
    (verifyChecksums : Bool) (t : TableRep) (mq : MultiQueue) (k userKey : Slice) :
    MultiQueue × Option SaverState × Status :=
  match t.indexBlock.seek internalKeyCompare k with
  | (none, s) => (mq, some .notFound, s)
  | (some (_, indexValue), s) =>
    match t.options.filterPolicy.map fun policy => t.filterMayMatch worth crc io mq policy indexValue k with
    | some (mq, false) => (mq, some .notFound, s)
    | some (mq, true) =>
      let (saver, s') := seekInBlock crc file verifyChecksums indexValue k userKey
      (mq, saver, s' *> s)
    | none =>
      let (saver, s') := seekInBlock crc file verifyChecksums indexValue k userKey
      (mq, saver, s' *> s)

end TableRep

end RallyDB.Table
