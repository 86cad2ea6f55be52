import RallyDB.Db.DbFormat
import RallyDB.Lib.Lists
import RallyDB.Lib.Search

/-!
# Versions (`db/version_set.cc`)
-/

namespace RallyDB.Db

open RallyDB.Lib List

/-- What the algorithms below read of `Options`, and the sizes that `TableBuilder::FileSize` reports while a
table is being built (`builderFileSize`) and for the finished table (`tableFileSize`). -/
structure Options (κ : Type*) where
  maxFileSize : Nat
  builderFileSize : List (Entry κ) → Nat
  tableFileSize : List (Entry κ) → Nat

variable {κ : Type*}

def Options.maxGrandParentOverlapBytes (o : Options κ) : Nat := 10 * o.maxFileSize

def Options.expandedCompactionByteSizeLimit (o : Options κ) : Nat := 25 * o.maxFileSize

variable [LinearOrder κ]

structure FileMetaData (κ : Type*) [LinearOrder κ] where
  number : Nat
  fileSize : Nat
  entries : List (Entry κ)
  nonempty : entries ≠ []
  sorted : entries.Pairwise fun a b => a.1 < b.1
  deriving DecidableEq

instance FileMetaData.instLawfulBEq : LawfulBEq (FileMetaData κ) := inferInstance

variable (f : FileMetaData κ)

def FileMetaData.smallest : InternalKey κ := (f.entries.head f.nonempty).1

def FileMetaData.largest : InternalKey κ := (f.entries.getLast f.nonempty).1

lemma FileMetaData.sorted_le : f.entries.Pairwise fun a b => a.1 ≤ b.1 :=
  f.sorted.imp le_of_lt

variable {f g : FileMetaData κ}

lemma FileMetaData.smallest_le {e : Entry κ} (he : e ∈ f.entries) : f.smallest ≤ e.1 :=
  f.sorted_le.rel_head_of_rel_head_head he le_rfl

lemma FileMetaData.le_largest {e : Entry κ} (he : e ∈ f.entries) : e.1 ≤ f.largest :=
  f.sorted_le.rel_getLast_of_rel_getLast_getLast he le_rfl

section

variable (f)

lemma FileMetaData.smallest_mem : ∃ e ∈ f.entries, e.1 = f.smallest :=
  ⟨_, head_mem f.nonempty, rfl⟩

lemma FileMetaData.largest_mem : ∃ e ∈ f.entries, e.1 = f.largest :=
  ⟨_, getLast_mem f.nonempty, rfl⟩

lemma FileMetaData.smallest_le_largest : f.smallest ≤ f.largest := by
  obtain ⟨e, he, h⟩ := f.largest_mem
  exact h ▸ f.smallest_le he

end

def totalFileSize (files : List (FileMetaData κ)) : Nat := (files.map (·.fileSize)).sum

structure Version (κ : Type*) [LinearOrder κ] where
  files : Nat → List (FileMetaData κ)

def findFile (files : List (FileMetaData κ)) (key : InternalKey κ) : Nat :=
  lowerBound (fun i => match files[i]? with
    | some f => decide (f.largest < key)
    | none => false) 0 files.length

def afterFile (userKey : Option κ) (f : FileMetaData κ) : Bool :=
  match userKey with
  | some u => decide (f.largest.userKey < u)
  | none => false

def beforeFile (userKey : Option κ) (f : FileMetaData κ) : Bool :=
  match userKey with
  | some u => decide (u < f.smallest.userKey)
  | none => false

def someFileOverlapsRange (disjointSortedFiles : Bool) (files : List (FileMetaData κ))
    (smallestUserKey largestUserKey : Option κ) : Bool :=
  if disjointSortedFiles then
    let index := match smallestUserKey with
      | some u => findFile files ⟨u, kMaxSequenceNumber, kValueTypeForSeek⟩
      | none => 0
    match files[index]? with
    | none => false
    | some f => !beforeFile largestUserKey f
  else
    files.any fun f => !(afterFile smallestUserKey f || beforeFile largestUserKey f)

variable (v : Version κ)

def Version.overlapInLevel (level : Nat) (smallestUserKey largestUserKey : Option κ) : Bool :=
  someFileOverlapsRange (decide (0 < level)) (v.files level) smallestUserKey largestUserKey

/-! ## Files that overlap a range -/

def startsBelow (begin : Option κ) (f : FileMetaData κ) : Bool :=
  match begin with
  | some b => decide (f.smallest.userKey < b)
  | none => false

def endsAbove (limit : Option κ) (f : FileMetaData κ) : Bool :=
  match limit with
  | some e => decide (e < f.largest.userKey)
  | none => false

lemma startsBelow_mono {b : Option κ} (hf : startsBelow b f)
    (hg : startsBelow (some f.smallest.userKey) g) : startsBelow b g := by
  cases b with
  | none => simp [startsBelow] at hf
  | some b =>
    simp only [startsBelow, decide_eq_true_eq] at hf hg ⊢
    exact hg.trans hf

lemma endsAbove_mono {e : Option κ} (hf : endsAbove e f) (hg : endsAbove (some f.largest.userKey) g) : endsAbove e g := by
  cases e with
  | none => simp [endsAbove] at hf
  | some e =>
    simp only [endsAbove, decide_eq_true_eq] at hf hg ⊢
    exact hf.trans hg

def overlapScan (level : Nat) (files : List (FileMetaData κ)) (userBegin userEnd : Option κ) (i : Nat)
    (inputs : List (FileMetaData κ)) : List (FileMetaData κ) :=
  if h : i < files.length then
    let f := files[i]
    if afterFile userBegin f || beforeFile userEnd f then
      overlapScan level files userBegin userEnd (i + 1) inputs
    else if level = 0 ∧ startsBelow userBegin f then
      overlapScan level files (some f.smallest.userKey) userEnd 0 []
    else if level = 0 ∧ endsAbove userEnd f then
      overlapScan level files userBegin (some f.largest.userKey) 0 []
    else
      overlapScan level files userBegin userEnd (i + 1) (inputs ++ [f])
  else inputs
termination_by (files.countP (startsBelow userBegin) + files.countP (endsAbove userEnd)) * (files.length + 1) +
  (files.length - i)
decreasing_by
  · omega
  · rename_i hs
    have hc : files.countP (startsBelow (some f.smallest.userKey)) < files.countP (startsBelow userBegin) :=
      countP_lt_countP (fun g _ => startsBelow_mono hs.2) (getElem_mem h) (by simp [startsBelow, f]) hs.2
    exact lexMeasure_lt (Nat.add_lt_add_right hc _) (by omega)
  · rename_i he
    have hc : files.countP (endsAbove (some f.largest.userKey)) < files.countP (endsAbove userEnd) :=
      countP_lt_countP (fun g _ => endsAbove_mono he.2) (getElem_mem h) (by simp [endsAbove, f]) he.2
    exact lexMeasure_lt (Nat.add_lt_add_left hc _) (by omega)
  · omega

def Version.getOverlappingInputs (level : Nat) (begin limit : Option (InternalKey κ)) : List (FileMetaData κ) :=
  overlapScan level (v.files level) (begin.map (·.userKey)) (limit.map (·.userKey)) 0 []

def Version.pickLevelLoop (v : Version κ) (o : Options κ) (smallest largest : κ) (level : Nat) : Nat :=
  if level < kMaxMemCompactLevel then
    if v.overlapInLevel (level + 1) (some smallest) (some largest) then level
    else if level + 2 < kNumLevels ∧ o.maxGrandParentOverlapBytes <
        totalFileSize (v.getOverlappingInputs (level + 2) (some ⟨smallest, kMaxSequenceNumber, kValueTypeForSeek⟩)
          (some ⟨largest, 0, .deletion⟩)) then level
    else v.pickLevelLoop o smallest largest (level + 1)
  else level
termination_by kMaxMemCompactLevel - level

def Version.pickLevelForMemTableOutput (o : Options κ) (smallest largest : κ) : Nat :=
  if v.overlapInLevel 0 (some smallest) (some largest) then 0 else v.pickLevelLoop o smallest largest 0

/-! ## Lookups -/

inductive SaverState where
  | notFound
  | found (value : Slice)
  | deleted
  deriving DecidableEq

variable (userKey : κ)

def saveValue : Option (Entry κ) → SaverState
  | none => .notFound
  | some (k, value) =>
    if k.userKey = userKey then
      match k.type with
      | .value => .found value
      | .deletion => .deleted
    else .notFound

def seek (entries : List (Entry κ)) (key : InternalKey κ) : Option (Entry κ) :=
  entries.find? fun e => decide (key ≤ e.1)

def visitFiles {σ : Type*} (func : σ → Nat → FileMetaData κ → σ × Bool) : List (Nat × FileMetaData κ) → σ → σ
  | [], s => s
  | (level, f) :: rest, s =>
    match func s level f with
    | (s', true) => visitFiles func rest s'
    | (s', false) => s'

def Version.level0Files : List (FileMetaData κ) :=
  ((v.files 0).filter fun f => f.smallest.userKey ≤ userKey ∧ userKey ≤ f.largest.userKey).insertionSort
    fun a b => b.number ≤ a.number

def Version.levelFile (level : Nat) (userKey : κ) (internalKey : InternalKey κ) : Option (FileMetaData κ) :=
  match (v.files level)[findFile (v.files level) internalKey]? with
  | none => none
  | some f => if userKey < f.smallest.userKey then none else some f

def Version.overlappingFiles (internalKey : InternalKey κ) : List (Nat × FileMetaData κ) :=
  (v.level0Files userKey).map (fun f => (0, f)) ++ ((List.range kNumLevels).tail.filterMap fun level =>
      (v.levelFile level userKey internalKey).map fun f => (level, f))

def Version.forEachOverlapping {σ : Type*} (v : Version κ) (userKey : κ) (internalKey : InternalKey κ)
    (func : σ → Nat → FileMetaData κ → σ × Bool) (s : σ) : σ :=
  visitFiles func (v.overlappingFiles userKey internalKey) s

structure GetStats (κ : Type*) [LinearOrder κ] where
  seekFile : Option (FileMetaData κ)
  seekFileLevel : Option Nat

structure GetState (κ : Type*) [LinearOrder κ] where
  saver : SaverState
  stats : GetStats κ
  lastFileRead : Option (FileMetaData κ)
  lastFileReadLevel : Option Nat

def GetState.match (userKey : κ) (internalKey : InternalKey κ) (s : GetState κ) (level : Nat)
    (f : FileMetaData κ) : GetState κ × Bool :=
  let stats := match s.stats.seekFile, s.lastFileRead with
    | none, some g => { seekFile := some g, seekFileLevel := s.lastFileReadLevel }
    | _, _ => s.stats
  let saver := saveValue userKey (seek f.entries internalKey)
  ({ saver, stats, lastFileRead := some f, lastFileReadLevel := some level }, saver = .notFound)

def Version.get (sequence : Nat) : SaverState × GetStats κ :=
  let s := v.forEachOverlapping userKey (lookupKey userKey sequence)
    (GetState.match userKey (lookupKey userKey sequence))
    { saver := .notFound, stats := { seekFile := none, seekFileLevel := none },
      lastFileRead := none, lastFileReadLevel := none }
  (s.saver, s.stats)

end RallyDB.Db
