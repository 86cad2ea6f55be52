import RallyDB.Db.KeyEncoding
import RallyDB.Lib.Cursor

/-!
# Iterators of the database (`db/db_iter.cc`)
-/

namespace RallyDB.Db

open RallyDB.Lib Util

structure KeyStrings (κ : Type*) where
  empty : κ
  internalKey : InternalKey κ → κ

def KeyStrings.bytes : KeyStrings Slice := ⟨[], InternalKey.encode⟩

inductive Direction where
  | forward
  | reverse
  deriving DecidableEq

structure DBIter (κ : Type*) where
  iter : Cursor (Entry κ)
  savedKey : κ
  savedValue : Slice
  direction : Direction
  valid : Bool

namespace DBIter

variable {κ : Type*} [LinearOrder κ]

def new (strings : KeyStrings κ) (entries : List (Entry κ)) : DBIter κ where
  iter := .off entries
  savedKey := strings.empty
  savedValue := []
  direction := .forward
  valid := false

def shown (d : DBIter κ) : Option (κ × Slice) :=
  match d.direction with
  | .forward => d.iter.current.map fun e => (e.1.userKey, e.2)
  | .reverse => some (d.savedKey, d.savedValue)

variable (strings : KeyStrings κ) (sequence : Nat)

def findNextUserEntry (skipping : Bool) (d : DBIter κ) : DBIter κ :=
  match _h : d.iter with
  | .off _ => { d with savedKey := strings.empty, valid := false }
  | .on before (k, value) after =>
    let next := Cursor.next (.on before (k, value) after)
    if k.sequence ≤ sequence then
      match k.type with
      | .deletion => findNextUserEntry true { d with savedKey := k.userKey, iter := next }
      | .value =>
        if skipping && k.userKey ≤ d.savedKey then findNextUserEntry skipping { d with iter := next }
        else { d with valid := true, savedKey := strings.empty }
    else findNextUserEntry skipping { d with iter := next }
termination_by d.iter.left
decreasing_by
  all_goals
    rw [_h]
    exact Cursor.left_next_lt _ _ _

def findPrevLoop (valueType : ValueType) (d : DBIter κ) : DBIter κ × ValueType :=
  match _h : d.iter with
  | .off _ => (d, valueType)
  | .on before (k, value) after =>
    let prev := Cursor.prev (.on before (k, value) after)
    if k.sequence ≤ sequence then
      if valueType ≠ .deletion ∧ k.userKey < d.savedKey then (d, valueType)
      else
        match k.type with
        | .deletion => findPrevLoop .deletion { d with savedKey := strings.empty, savedValue := [], iter := prev }
        | .value => findPrevLoop .value { d with savedKey := k.userKey, savedValue := value, iter := prev }
    else findPrevLoop valueType { d with iter := prev }
termination_by d.iter.passed
decreasing_by
  all_goals
    rw [_h]
    exact Cursor.passed_prev_lt _ _ _

def findPrevUserEntry (d : DBIter κ) : DBIter κ :=
  match findPrevLoop strings sequence .deletion d with
  | (d, .deletion) =>
    { d with valid := false, savedKey := strings.empty, savedValue := [], direction := .forward }
  | (d, .value) => { d with valid := true }

def next (d : DBIter κ) : DBIter κ :=
  match d.direction with
  | .reverse =>
    let iter := if d.iter.valid then d.iter.next else d.iter.seekToFirst
    let d := { d with direction := .forward, iter }
    if iter.valid then findNextUserEntry strings sequence true d
    else { d with valid := false, savedKey := strings.empty }
  | .forward =>
    match d.iter.current with
    | none => d
    | some (k, _) =>
      let iter := d.iter.next
      if iter.valid then findNextUserEntry strings sequence true { d with savedKey := k.userKey, iter }
      else { d with iter, valid := false, savedKey := strings.empty }

def leaveKey (savedKey : κ) (iter : Cursor (Entry κ)) : Cursor (Entry κ) :=
  match iter with
  | .off l => .off l
  | .on before (k, value) after =>
    if k.userKey < savedKey then .on before (k, value) after
    else leaveKey savedKey (Cursor.prev (.on before (k, value) after))
termination_by iter.passed
decreasing_by exact Cursor.passed_prev_lt _ _ _

def prev (d : DBIter κ) : DBIter κ :=
  match d.direction with
  | .forward =>
    match d.iter.current with
    | none => d
    | some (k, _) =>
      let iter := leaveKey k.userKey d.iter.prev
      if iter.valid then findPrevUserEntry strings sequence { d with savedKey := k.userKey, iter, direction := .reverse }
      else { d with iter, valid := false, savedKey := strings.empty, savedValue := [] }
  | .reverse => findPrevUserEntry strings sequence d

def seek (target : κ) (d : DBIter κ) : DBIter κ :=
  let k : InternalKey κ := ⟨target, sequence, kValueTypeForSeek⟩
  let iter := d.iter.seek fun e => k ≤ e.1
  let d := { d with direction := .forward, savedValue := [], savedKey := strings.internalKey k, iter }
  if iter.valid then findNextUserEntry strings sequence false d else { d with valid := false }

def seekToFirst (d : DBIter κ) : DBIter κ :=
  let iter := d.iter.seekToFirst
  let d := { d with direction := .forward, savedValue := [], iter }
  if iter.valid then findNextUserEntry strings sequence false d else { d with valid := false }

def seekToLast (d : DBIter κ) : DBIter κ :=
  findPrevUserEntry strings sequence { d with direction := .reverse, savedValue := [], iter := d.iter.seekToLast }

end DBIter

inductive IteratorCall (κ : Type*) where
  | seek (target : κ)
  | seekToFirst
  | seekToLast
  | next
  | prev

variable {κ : Type*} [LinearOrder κ]

def DBIter.call (strings : KeyStrings κ) (sequence : Nat) (d : DBIter κ) : IteratorCall κ → Option (DBIter κ)
  | .seek target => some (d.seek strings sequence target)
  | .seekToFirst => some (d.seekToFirst strings sequence)
  | .seekToLast => some (d.seekToLast strings sequence)
  | .next => if d.valid then some (d.next strings sequence) else none
  | .prev => if d.valid then some (d.prev strings sequence) else none

def IsShown (sequence : Nat) (entries : List (Entry κ)) (e : Entry κ) : Prop :=
  e.1.type = .value ∧ e.1.sequence ≤ sequence ∧
    ∀ e' ∈ entries, e'.1.userKey = e.1.userKey → e'.1.sequence ≤ sequence → e'.1.tag ≤ e.1.tag

instance (sequence : Nat) (entries : List (Entry κ)) (e : Entry κ) : Decidable (IsShown sequence entries e) :=
  inferInstanceAs (Decidable (_ ∧ _ ∧ _))

def userMap (sequence : Nat) (entries : List (Entry κ)) : List (κ × Slice) :=
  (entries.filter fun e => IsShown sequence entries e).map fun e => (e.1.userKey, e.2)

def mapCall (c : Cursor (κ × Slice)) : IteratorCall κ → Option (Cursor (κ × Slice))
  | .seek target => some (c.seek fun x => target ≤ x.1)
  | .seekToFirst => some c.seekToFirst
  | .seekToLast => some c.seekToLast
  | .next => if c.valid then some c.next else none
  | .prev => if c.valid then some c.prev else none

end RallyDB.Db
