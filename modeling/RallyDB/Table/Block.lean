import RallyDB.Table.Format

/-!
# Reading a block (`table/block.h`, `table/block.cc`)
-/

namespace RallyDB.Table

open Util

structure Block where
  data : Slice
  size : Nat
  restartOffset : Nat
  deriving DecidableEq

def numRestartsOf (data : Slice) (size : Nat) : Nat := decodeFixed32 (data.drop (size - 4))

def Block.new (contents : Slice) : Block :=
  let size := contents.length
  if size < 4 then ⟨contents, 0, 0⟩
  else if (size - 4) / 4 < numRestartsOf contents size then ⟨contents, 0, 0⟩
  else ⟨contents, size, size - (1 + numRestartsOf contents size) * 4⟩

def decodeEntry (s : Slice) : Option (Nat × Nat × Nat × Slice) :=
  match s with
  | b0 :: b1 :: b2 :: rest =>
    let decoded : Option (Nat × Nat × Nat × Slice) :=
      if b0 ||| b1 ||| b2 < 128 then some (b0.toNat, b1.toNat, b2.toNat, rest)
      else do
        let (shared, s) ← getVarint32 s
        let (nonShared, s) ← getVarint32 s
        let (valueLength, s) ← getVarint32 s
        return (shared, nonShared, valueLength, s)
    decoded.filter fun (_, nonShared, valueLength, rest) => decide ((nonShared + valueLength) % 2 ^ 32 ≤ rest.length)
  | _ => none

structure BlockIter where
  data : Slice
  restarts : Nat
  numRestarts : Nat
  current : Nat
  restartIndex : Nat
  key : Slice
  valueOffset : Nat
  valueLength : Nat
  status : Status
  restarts_lt : restarts < 2 ^ 32

namespace BlockIter

variable (it : BlockIter)

def valid : Bool := it.current < it.restarts

def value : Slice := (it.data.drop it.valueOffset).take it.valueLength

def nextEntryOffset : Nat := (it.valueOffset + it.valueLength) % 2 ^ 32

def getRestartPoint (index : Nat) : Nat :=
  decodeFixed32 (it.data.drop (it.restarts + index * 4))

def seekToRestartPoint (index : Nat) : BlockIter :=
  { it with key := [], restartIndex := index, valueOffset := it.getRestartPoint index, valueLength := 0 }

def corruptionError : BlockIter :=
  { it with
    current := it.restarts
    restartIndex := it.numRestarts
    status := .error (.corruption "bad entry in block")
    key := []
    valueOffset := 0
    valueLength := 0 }

def bytesFrom (offset : Nat) : Slice := (it.data.take it.restarts).drop offset

def keyDelta (rest : Slice) (nonShared : Nat) : Slice :=
  (it.data.drop (it.restarts - rest.length)).take nonShared

def advanceRestart (it : BlockIter) (current index : Nat) : Nat :=
  if index + 1 < it.numRestarts ∧ it.getRestartPoint (index + 1) < current then
    it.advanceRestart current (index + 1)
  else index
termination_by it.numRestarts - index

def parseNextKey : BlockIter × Bool :=
  let current := it.nextEntryOffset
  if it.restarts ≤ current then
    ({ it with current := it.restarts, restartIndex := it.numRestarts }, false)
  else
    match decodeEntry (it.bytesFrom current) with
    | none => (it.corruptionError, false)
    | some (shared, nonShared, valueLength, rest) =>
      if it.key.length < shared then (it.corruptionError, false)
      else
        ({ it with
            current
            key := it.key.take shared ++ it.keyDelta rest nonShared
            valueOffset := it.restarts - rest.length + nonShared
            valueLength
            restartIndex := it.advanceRestart current it.restartIndex }, true)

end BlockIter

variable {s rest : Slice}

/-- A decoded entry uses up bytes and has room for its key and value, if their lengths do not wrap around. -/
lemma decodeEntry_length {shared nonShared valueLength : Nat}
    (h : decodeEntry s = some (shared, nonShared, valueLength, rest)) :
    rest.length < s.length ∧ (nonShared + valueLength) % 2 ^ 32 ≤ rest.length := by
  unfold decodeEntry at h
  split at h
  · rename_i b0 b1 b2 t
    obtain ⟨hdec, hfit⟩ := Option.filter_eq_some_iff.1 h
    refine ⟨?_, of_decide_eq_true hfit⟩
    split_ifs at hdec
    · cases hdec
      simp only [List.length_cons]
      omega
    · simp only [Option.bind_eq_bind, Option.bind_eq_some_iff, Option.pure_def, Option.some.injEq] at hdec
      obtain ⟨⟨_, s1⟩, h1, ⟨_, s2⟩, h2, ⟨_, s3⟩, h3, he⟩ := hdec
      cases he
      have l1 : s1.length < _ := length_getVarint32 h1
      have l2 : s2.length < s1.length := length_getVarint32 h2
      have l3 : s3.length < s2.length := length_getVarint32 h3
      exact l3.trans (l2.trans l1)
  · cases h

namespace BlockIter

lemma parseNextKey_true {it it' : BlockIter} (h : it.parseNextKey = (it', true)) :
    it.nextEntryOffset < it.restarts ∧ it'.restarts = it.restarts ∧ it.nextEntryOffset < it'.nextEntryOffset := by
  unfold parseNextKey at h
  dsimp only at h
  split_ifs at h with hend
  · cases h
  · split at h
    · cases h
    · rename_i shared nonShared valueLength rest hdec
      split_ifs at h
      · cases h
      · cases h
        obtain ⟨hlt, hfit⟩ := decodeEntry_length hdec
        have hlen : (it.bytesFrom it.nextEntryOffset).length ≤ it.restarts - it.nextEntryOffset := by
          simp only [bytesFrom, List.length_drop, List.length_take]
          omega
        have hrestarts := it.restarts_lt
        refine ⟨by omega, rfl, ?_⟩
        show _ < (it.restarts - rest.length + nonShared + valueLength) % 2 ^ 32
        omega

def scan (cmp : Slice → Slice → Ordering) (target : Slice) (it : BlockIter) : BlockIter :=
  match _h : it.parseNextKey with
  | (it', false) => it'
  | (it', true) => if cmp it'.key target = .lt then scan cmp target it' else it'
termination_by it.restarts - it.nextEntryOffset
decreasing_by
  obtain ⟨h1, h2, h3⟩ := parseNextKey_true _h
  omega

def searchRestarts (cmp : Slice → Slice → Ordering) (target : Slice) (it : BlockIter) (left right : Nat) : Option Nat :=
  if left < right then
    let mid := (left + right + 1) / 2
    match decodeEntry (it.bytesFrom (it.getRestartPoint mid)) with
    | some (0, nonShared, _, rest) =>
      if cmp (it.keyDelta rest nonShared) target = .lt then it.searchRestarts cmp target mid right
      else it.searchRestarts cmp target left (mid - 1)
    | _ => none
  else some left
termination_by right - left

def seek (cmp : Slice → Slice → Ordering) (it : BlockIter) (target : Slice) : BlockIter :=
  let currentKeyCompare := if it.valid then cmp it.key target else .eq
  if it.valid ∧ currentKeyCompare = .eq then it
  else
    let left := if currentKeyCompare = .lt then it.restartIndex else 0
    let right := if currentKeyCompare = .gt then it.restartIndex else it.numRestarts - 1
    match it.searchRestarts cmp target left right with
    | none => it.corruptionError
    | some left =>
      if left = it.restartIndex ∧ currentKeyCompare = .lt then it.scan cmp target
      else (it.seekToRestartPoint left).scan cmp target

def scanTo (limit : Nat) (it : BlockIter) : BlockIter :=
  match _h : it.parseNextKey with
  | (it', false) => it'
  | (it', true) => if it'.nextEntryOffset < limit then scanTo limit it' else it'
termination_by it.restarts - it.nextEntryOffset
decreasing_by
  obtain ⟨h1, h2, h3⟩ := parseNextKey_true _h
  omega

variable (it : BlockIter)

def next : BlockIter := it.parseNextKey.1

def prevRestart (it : BlockIter) (original : Nat) : Nat → Option Nat
  | 0 => if original ≤ it.getRestartPoint 0 then none else some 0
  | index + 1 => if original ≤ it.getRestartPoint (index + 1) then it.prevRestart original index else some (index + 1)

def prev : BlockIter :=
  match it.prevRestart it.current it.restartIndex with
  | none => { it with current := it.restarts, restartIndex := it.numRestarts }
  | some index => (it.seekToRestartPoint index).scanTo it.current

def seekToFirst : BlockIter := (it.seekToRestartPoint 0).parseNextKey.1

def seekToLast : BlockIter := (it.seekToRestartPoint (it.numRestarts - 1)).scanTo it.restarts

end BlockIter

def Block.newIterator (b : Block) : Except Error (Option BlockIter) :=
  if b.size < 4 then .error (.corruption "bad block contents")
  else
    let numRestarts := numRestartsOf b.data b.size
    if numRestarts = 0 then .ok none
    else
      .ok (some
        { data := b.data
          restarts := b.restartOffset % 2 ^ 32
          numRestarts
          current := b.restartOffset % 2 ^ 32
          restartIndex := numRestarts
          key := []
          valueOffset := 0
          valueLength := 0
          status := .ok ()
          restarts_lt := Nat.mod_lt _ (by decide) })

def Block.seek (cmp : Slice → Slice → Ordering) (b : Block) (target : Slice) : Option (Slice × Slice) × Status :=
  match b.newIterator with
  | .error e => (none, .error e)
  | .ok none => (none, .ok ())
  | .ok (some it) =>
    let it := it.seek cmp target
    (if it.valid then some (it.key, it.value) else none, it.status)

end RallyDB.Table
