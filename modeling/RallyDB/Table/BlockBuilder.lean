import RallyDB.Util.Comparator

/-!
# Building a block (`table/block_builder.h`, `table/block_builder.cc`)
-/

namespace RallyDB.Table

open Util

structure BlockBuilder where
  buffer : Slice
  restarts : List Nat
  counter : Nat
  lastKey : Slice
  deriving DecidableEq

namespace BlockBuilder

def new : BlockBuilder := ⟨[], [0], 0, []⟩

def currentSizeEstimate (b : BlockBuilder) : Nat := b.buffer.length + b.restarts.length * 4 + 4

def finish (b : BlockBuilder) : Slice :=
  b.buffer ++ b.restarts.flatMap encodeFixed32 ++ encodeFixed32 b.restarts.length

def entryBytes (shared : Nat) (key value : Slice) : Slice :=
  encodeVarint32 (shared % 2 ^ 32) ++ (encodeVarint32 ((key.length - shared) % 2 ^ 32) ++
    (encodeVarint32 (value.length % 2 ^ 32) ++ (key.drop shared ++ value)))

def add (blockRestartInterval : Nat) (b : BlockBuilder) (key value : Slice) : BlockBuilder :=
  if b.counter < blockRestartInterval then
    let shared := commonLength b.lastKey key
    { b with
      buffer := b.buffer ++ entryBytes shared key value
      lastKey := b.lastKey.take shared ++ key.drop shared
      counter := b.counter + 1 }
  else
    -- restart compression
    { buffer := b.buffer ++ entryBytes 0 key value
      restarts := b.restarts ++ [b.buffer.length % 2 ^ 32]
      lastKey := key
      counter := 1 }

end BlockBuilder

end RallyDB.Table
