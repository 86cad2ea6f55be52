import Mathlib.Data.List.ReduceOption
import RallyDB.Db.LogReader

/-!
# Scanning the contents of a log
-/

namespace RallyDB.Db.Log

open Util Table

variable (crc : Crc32c)

variable (q : Nat)

def blockEnd : Nat := (q / kBlockSize + 1) * kBlockSize

def start : Nat := if blockEnd q < q + kHeaderSize then blockEnd q else q

/-- The next physical record: the end of the file, bytes that are skipped (and whether that is reported), or a type and
a fragment; with the position behind it. -/
inductive Physical where
  | eof
  | bad (next : Nat) (reported : Bool)
  | record (type : Nat) (fragment : Slice) (next : Nat)

def parseAt (contents : Slice) (s limit : Nat) : Physical :=
  let buffer := (contents.drop s).take (limit - s)
  let length := Reader.lengthOfHeader buffer
  let type := Reader.typeOfByte ((buffer.drop 6).headD 0)
  if buffer.length < kHeaderSize + length then
    if contents.length < blockEnd s then .eof else .bad limit true
  else if type = RecordType.zero.toNat ∧ length = 0 then .bad limit false
  else if Reader.checksumOk crc buffer length then
    .record type ((buffer.drop kHeaderSize).take length) (s + kHeaderSize + length)
  else .bad limit true

def physicalAt (contents : Slice) (q : Nat) : Physical :=
  let s := start q
  let limit := min (blockEnd s) contents.length
  if limit < s + kHeaderSize then .eof else parseAt crc contents s limit

lemma lt_blockEnd : q < blockEnd q := by
  unfold blockEnd
  have := Nat.div_add_mod q kBlockSize
  have := Nat.mod_lt q (show 0 < kBlockSize by decide)
  rw [add_mul, mul_comm, one_mul]
  omega

lemma le_start : q ≤ start q := by
  unfold start
  split_ifs
  · exact (lt_blockEnd q).le
  · exact le_rfl

lemma start_add_le : start q + kHeaderSize ≤ blockEnd (start q) := by
  unfold start
  split_ifs with h
  · unfold blockEnd kBlockSize kHeaderSize
    omega
  · omega

lemma physicalAt_next {contents : Slice} {q : Nat} :
    (∀ next reported, physicalAt crc contents q = .bad next reported → q < next ∧ next ≤ contents.length) ∧
    ∀ type fragment next, physicalAt crc contents q = .record type fragment next → q < next ∧ next ≤ contents.length := by
  have hq := le_start q
  have hpos : 0 < kHeaderSize := by decide
  unfold physicalAt parseAt
  dsimp only
  constructor
  all_goals
    intros
    rename_i h
    split_ifs at h with hlimit hlen hshort hzero hcrc
    all_goals
      cases h
      simp only [List.length_take, List.length_drop] at hlen
      omega

/-! ## Records -/

/-- What a fragment adds when a record has been begun or has not: what is returned, with `none` for a report of
corruption, and the record that is begun now. -/
def fragmentStep (pending : Option Slice) (type : Nat) (fragment : Slice) : List (Option Slice) × Option Slice :=
  let unfinished := if pending.getD [] = [] then [] else [none]
  if type = RecordType.full.toNat then (unfinished ++ [some fragment], none)
  else if type = RecordType.first.toNat then (unfinished, some fragment)
  else if type = RecordType.middle.toNat then
    match pending with
    | none => ([none], none)
    | some scratch => ([], some (scratch ++ fragment))
  else if type = RecordType.last.toNat then
    match pending with
    | none => ([none], none)
    | some scratch => ([some (scratch ++ fragment)], none)
  else if type = kBadRecord then (if pending.isSome then [none] else [], none)
  else ([none], none)

def replay (contents : Slice) (q : Nat) (pending : Option Slice) : List (Option Slice) :=
  match h : physicalAt crc contents q with
  | .eof => []
  | .bad next reported =>
    (if reported then [none] else []) ++ (if pending.isSome then [none] else []) ++ replay contents next none
  | .record type fragment next =>
    -- a type byte may be the number that stands for the end of the file
    if type = kEof then []
    else (fragmentStep pending type fragment).1 ++ replay contents next (fragmentStep pending type fragment).2
termination_by contents.length - q
decreasing_by
  · have := (physicalAt_next crc).1 _ _ h
    omega
  · have := (physicalAt_next crc).2 _ _ _ h
    omega

def scanEnd (contents : Slice) (q : Nat) : Nat :=
  match _ : physicalAt crc contents q with
  | .record type _ next => if type = kEof then start q else scanEnd contents next
  | _ => start q
termination_by contents.length - q
decreasing_by
  rename_i h _
  have := (physicalAt_next crc).2 _ _ _ h
  omega

variable {crc} {contents : Slice} {q : Nat} {pending : Option Slice}

lemma replay_eof (hp : physicalAt crc contents q = .eof) : replay crc contents q pending = [] := by
  rw [replay]
  split <;> simp_all

variable {next type : Nat}

lemma replay_bad {reported : Bool} (hp : physicalAt crc contents q = .bad next reported) : replay crc contents q pending =
    (if reported then [none] else []) ++ (if pending.isSome then [none] else []) ++ replay crc contents next none := by
  rw [replay]
  split <;> simp_all

variable {fragment : Slice}

lemma replay_record (hp : physicalAt crc contents q = .record type fragment next) (htype : type ≠ kEof) :
    replay crc contents q pending =
    (fragmentStep pending type fragment).1 ++ replay crc contents next (fragmentStep pending type fragment).2 := by
  rw [replay]
  split <;> simp_all

lemma replay_record_eof
    (hp : physicalAt crc contents q = .record kEof fragment next) : replay crc contents q pending = [] := by
  rw [replay]
  split <;> simp_all

lemma scanEnd_record (hp : physicalAt crc contents q = .record type fragment next) (htype : type ≠ kEof) :
    scanEnd crc contents q = scanEnd crc contents next := by
  rw [scanEnd]
  split <;> simp_all

lemma scanEnd_eof (hp : physicalAt crc contents q = .eof) : scanEnd crc contents q = start q := by
  rw [scanEnd]
  split <;> simp_all

end RallyDB.Db.Log
