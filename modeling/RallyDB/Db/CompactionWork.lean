import RallyDB.Db.VersionSet

/-!
# The compaction loop (`DBImpl::DoCompactionWork`)
-/

namespace RallyDB.Db

variable {κ : Type*} [LinearOrder κ]

structure WorkState (κ : Type*) [LinearOrder κ] where
  grandparentIndex : Nat := 0
  seenKey : Bool := false
  overlappedBytes : Nat := 0
  levelPtrs : Nat → Nat := fun _ => 0
  currentUserKey : Option κ := none
  lastSequenceForKey : Nat := kMaxSequenceNumber
  builder : Option (List (Entry κ)) := none
  outputs : List (List (Entry κ)) := []

variable (c : Compaction κ)

def Compaction.makeInputIterator : List (Entry κ) :=
  (c.inputs.flatMap (·.entries)).insertionSort fun a b => a.1 ≤ b.1

def skipGrandparents (grandparents : List (FileMetaData κ)) (key : InternalKey κ) (seenKey : Bool)
    (index overlappedBytes : Nat) : Nat × Nat :=
  match _h : grandparents[index]? with
  | some g =>
    if g.largest < key then
      skipGrandparents grandparents key seenKey (index + 1)
        (if seenKey then overlappedBytes + g.fileSize else overlappedBytes)
    else (index, overlappedBytes)
  | none => (index, overlappedBytes)
termination_by grandparents.length - index
decreasing_by
  have := (List.getElem?_eq_some_iff.1 _h).1
  omega

def Compaction.shouldStopBefore (o : Options κ) (key : InternalKey κ) (w : WorkState κ) : WorkState κ × Bool :=
  let (index, bytes) := skipGrandparents c.grandparents key w.seenKey w.grandparentIndex w.overlappedBytes
  if o.maxGrandParentOverlapBytes < bytes then
    ({ w with grandparentIndex := index, seenKey := true, overlappedBytes := 0 }, true)
  else
    ({ w with grandparentIndex := index, seenKey := true, overlappedBytes := bytes }, false)

def skipFiles (files : List (FileMetaData κ)) (userKey : κ) (ptr : Nat) : Nat × Bool :=
  match _h : files[ptr]? with
  | some f =>
    if userKey ≤ f.largest.userKey then (ptr, decide (f.smallest.userKey ≤ userKey))
    else skipFiles files userKey (ptr + 1)
  | none => (ptr, false)
termination_by files.length - ptr
decreasing_by
  have := (List.getElem?_eq_some_iff.1 _h).1
  omega

def isBaseLevelLoop (v : Version κ) (userKey : κ) : List Nat → (Nat → Nat) → (Nat → Nat) × Bool
  | [], ptrs => (ptrs, true)
  | lvl :: rest, ptrs =>
    let (ptr, inside) := skipFiles (v.files lvl) userKey (ptrs lvl)
    if inside then (Function.update ptrs lvl ptr, false)
    else isBaseLevelLoop v userKey rest (Function.update ptrs lvl ptr)

def Compaction.deeperLevels : List Nat :=
  (List.range kNumLevels).filter (c.level + 2 ≤ ·)

def Compaction.isBaseLevelForKey (userKey : κ) (w : WorkState κ) : WorkState κ × Bool :=
  let (ptrs, base) := isBaseLevelLoop c.inputVersion userKey c.deeperLevels w.levelPtrs
  ({ w with levelPtrs := ptrs }, base)

variable (w : WorkState κ)

def WorkState.finishOutput : WorkState κ :=
  match w.builder with
  | none => w
  | some entries => { w with builder := none, outputs := w.outputs ++ [entries] }

def WorkState.enterKey (userKey : κ) : WorkState κ :=
  if w.currentUserKey = some userKey then w
  else { w with currentUserKey := some userKey, lastSequenceForKey := kMaxSequenceNumber }

/-- Whether the entry is dropped: it is hidden by a newer entry of the key that every reader can see (A), or it
is a deletion that every reader can see with nothing left to delete below. -/
def Compaction.dropEntry (smallestSnapshot : Nat) (key : InternalKey κ) (w : WorkState κ) : WorkState κ × Bool :=
  let w := w.enterKey key.userKey
  let (w, drop) :=
    if w.lastSequenceForKey ≤ smallestSnapshot then (w, true)
    else if key.type = .deletion ∧ key.sequence ≤ smallestSnapshot then c.isBaseLevelForKey key.userKey w
    else (w, false)
  ({ w with lastSequenceForKey := key.sequence }, drop)

def WorkState.addEntry (o : Options κ) (e : Entry κ) : WorkState κ :=
  let entries := w.builder.getD [] ++ [e]
  let w := { w with builder := some entries }
  if o.maxFileSize ≤ o.builderFileSize entries then w.finishOutput else w

def Compaction.processEntry (o : Options κ) (smallestSnapshot : Nat) (w : WorkState κ) (e : Entry κ) : WorkState κ :=
  let (w, stop) := c.shouldStopBefore o e.1 w
  let w := if stop then w.finishOutput else w
  let (w, drop) := c.dropEntry smallestSnapshot e.1 w
  if drop then w else w.addEntry o e

def Compaction.doCompactionWork (o : Options κ) (smallestSnapshot : Nat) : List (List (Entry κ)) :=
  (c.makeInputIterator.foldl (c.processEntry o smallestSnapshot) {}).finishOutput.outputs

end RallyDB.Db
