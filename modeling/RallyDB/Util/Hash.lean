import RallyDB.Util.Coding

/-!
# Hash (`util/hash.cc`)
-/

namespace RallyDB.Util

def hashTail (h : UInt32) : Slice → UInt32
  | [] => h
  | b :: rest =>
    let h := h + ((rest.drop 1).headD 0).toUInt32 <<< 16
    let h := h + (rest.headD 0).toUInt32 <<< 8
    let h := (h + b.toUInt32) * 0xc6a4a793
    h ^^^ (h >>> 24)

def hashWords (h : UInt32) : Slice → UInt32
  | b0 :: b1 :: b2 :: b3 :: rest =>
    let h := (h + UInt32.ofNat (decodeFixed32 [b0, b1, b2, b3])) * 0xc6a4a793
    hashWords (h ^^^ (h >>> 16)) rest
  | tail => hashTail h tail

def hash (data : Slice) (seed : UInt32) : UInt32 :=
  hashWords (seed ^^^ (UInt32.ofNat data.length * 0xc6a4a793)) data

end RallyDB.Util
