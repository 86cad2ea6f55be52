import RallyDB.Util.Env

/-!
# The log writer (`db/log_format.h`, `db/log_writer.cc`)
-/

namespace RallyDB.Db.Log

open Util Table

inductive RecordType where
  | zero
  | full
  | first
  | middle
  | last
  deriving DecidableEq

def RecordType.toNat : RecordType → Nat
  | .zero => 0
  | .full => 1
  | .first => 2
  | .middle => 3
  | .last => 4

def RecordType.byte (t : RecordType) : UInt8 := UInt8.ofNat t.toNat

def kMaxRecordType : Nat := RecordType.last.toNat

def kBlockSize : Nat := 32768

def kHeaderSize : Nat := 4 + 2 + 1

structure Writer where
  dest : WritableFile
  blockOffset : Nat

namespace Writer

def new (dest : WritableFile) : Writer := ⟨dest, 0⟩

def reopen (dest : WritableFile) (destLength : Nat) : Writer := ⟨dest, destLength % kBlockSize⟩

variable (crc : Crc32c)

def header (t : RecordType) (data : Slice) : Slice :=
  encodeFixed32 (mask (crc.extend (crc.value [t.byte]) data)).toNat ++
    [UInt8.ofNat (data.length &&& 0xff), UInt8.ofNat (data.length >>> 8), t.byte]

def appendRecord (dest : WritableFile) (t : RecordType) (data : Slice) : WritableFile × Status :=
  match dest.append (header crc t data) with
  | (dest, .error e) => (dest, .error e)
  | (dest, .ok _) =>
    match dest.append data with
    | (dest, .error e) => (dest, .error e)
    | (dest, .ok _) => dest.flush

variable (w : Writer)

def emitPhysicalRecord (t : RecordType) (data : Slice) : Writer × Status :=
  let r := appendRecord crc w.dest t data
  (⟨r.1, w.blockOffset + kHeaderSize + data.length⟩, r.2)

def switchBlock : Writer :=
  let leftover := kBlockSize - w.blockOffset
  if leftover < kHeaderSize then
    ⟨if 0 < leftover then (w.dest.append (List.replicate leftover 0)).1 else w.dest, 0⟩
  else w

def fragmentType : Bool → Bool → RecordType
  | true, true => .full
  | true, false => .first
  | false, true => .last
  | false, false => .middle

lemma switchBlock_blockOffset :
    w.switchBlock.blockOffset = if kBlockSize - w.blockOffset < kHeaderSize then 0 else w.blockOffset := by
  unfold switchBlock
  dsimp only
  split_ifs <;> rfl

def addFragments (w : Writer) (begin : Bool) (left : Slice) : Writer × Status :=
  let w1 := w.switchBlock
  let avail := kBlockSize - w1.blockOffset - kHeaderSize
  let fragmentLength := min left.length avail
  let r := w1.emitPhysicalRecord crc (fragmentType begin (left.length = fragmentLength)) (left.take fragmentLength)
  match r.2 with
  | .error e => (r.1, .error e)
  | .ok _ =>
    if 0 < left.length - fragmentLength then addFragments r.1 false (left.drop fragmentLength)
    else (r.1, .ok ())
-- a fragment is empty only where the block has just room for a header, and the next block has more
termination_by 2 * left.length + if w.blockOffset + kHeaderSize = kBlockSize then 1 else 0
decreasing_by
  rename_i hmore
  have hw : w1.blockOffset = if kBlockSize - w.blockOffset < kHeaderSize then 0 else w.blockOffset :=
    switchBlock_blockOffset w
  have hr : r.1.blockOffset = w1.blockOffset + kHeaderSize + fragmentLength := by
    show w1.blockOffset + kHeaderSize + (left.take fragmentLength).length = _
    rw [List.length_take, min_eq_left (min_le_left _ _)]
  have hfrag : fragmentLength = min left.length (kBlockSize - w1.blockOffset - kHeaderSize) := rfl
  have hB : kBlockSize = 32768 := rfl
  have hH : kHeaderSize = 7 := rfl
  rw [List.length_drop, hr, show w.switchBlock = w1 from rfl]
  split_ifs at hw ⊢ <;> omega

def addRecord (slice : Slice) : Writer × Status := w.addFragments crc true slice

end Writer

end RallyDB.Db.Log
