import RallyDB.Util.Coding

/-!
# Checksums (`util/crc32c.h`)
-/

namespace RallyDB.Util

structure Crc32c where
  extend : UInt32 → Slice → UInt32
  extend_append : ∀ crc a b, extend (extend crc a) b = extend crc (a ++ b)

def Crc32c.value (c : Crc32c) (data : Slice) : UInt32 := c.extend 0 data

def kMaskDelta : UInt32 := 0xa282ead8

def mask (crc : UInt32) : UInt32 := ((crc >>> 15) ||| (crc <<< 17)) + kMaskDelta

def unmask (maskedCrc : UInt32) : UInt32 :=
  let rot := maskedCrc - kMaskDelta
  (rot >>> 17) ||| (rot <<< 15)

lemma unmask_mask (crc : UInt32) : unmask (mask crc) = crc := by
  have hrot : mask crc - kMaskDelta = (crc >>> 15) ||| (crc <<< 17) := by
    rw [mask, UInt32.add_sub_cancel]
  rw [unmask, hrot]
  apply UInt32.toBitVec_inj.1
  ext i hi
  simp
  grind

def crcBit (l : UInt32) : UInt32 := if l &&& 1 = 0 then l >>> 1 else (l >>> 1) ^^^ 0x82f63b78

def crcByte (l : UInt32) (b : UInt8) : UInt32 :=
  (List.replicate 8 ()).foldl (fun l _ => crcBit l) (l ^^^ b.toUInt32)

def Crc32c.bitwise : Crc32c where
  extend crc data := data.foldl crcByte (crc ^^^ 0xffffffff) ^^^ 0xffffffff
  extend_append crc a b := by
    rw [List.foldl_append, UInt32.xor_assoc, UInt32.xor_self, UInt32.xor_zero]

end RallyDB.Util
