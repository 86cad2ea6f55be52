import RallyDB.Db.Version

/-!
# Version edits and the choice of compaction inputs (`db/version_set.cc`)
-/

namespace RallyDB.Db

open RallyDB.Lib List

variable {κ : Type*} [LinearOrder κ]

/-! ## `VersionSet::Builder` -/

structure VersionEdit (κ : Type*) [LinearOrder κ] where
  deletedFiles : List (Nat × Nat) := []
  newFiles : List (Nat × FileMetaData κ) := []

def bySmallestKey (f g : FileMetaData κ) : Bool :=
  if f.smallest = g.smallest then decide (f.number < g.number) else decide (f.smallest < g.smallest)

def insertAdded (f : FileMetaData κ) : List (FileMetaData κ) → List (FileMetaData κ)
  | [] => [f]
  | g :: rest =>
    if bySmallestKey f g then f :: g :: rest
    else if bySmallestKey g f then g :: insertAdded f rest
    else g :: rest

structure Builder (κ : Type*) [LinearOrder κ] where
  base : Version κ
  deletedFiles : Nat → List Nat
  addedFiles : Nat → List (FileMetaData κ)

def Builder.init (base : Version κ) : Builder κ :=
  { base, deletedFiles := fun _ => [], addedFiles := fun _ => [] }

variable (b : Builder κ)

def Builder.deleteFile (level number : Nat) : Builder κ :=
  { b with deletedFiles := Function.update b.deletedFiles level (number :: b.deletedFiles level) }

def Builder.addFile (level : Nat) (f : FileMetaData κ) : Builder κ :=
  { b with
    deletedFiles := Function.update b.deletedFiles level ((b.deletedFiles level).filter (· ≠ f.number))
    addedFiles := Function.update b.addedFiles level (insertAdded f (b.addedFiles level)) }

def Builder.apply (edit : VersionEdit κ) : Builder κ :=
  edit.newFiles.foldl (fun b p => b.addFile p.1 p.2) (edit.deletedFiles.foldl (fun b p => b.deleteFile p.1 p.2) b)

/-- The merge of `Builder::SaveTo` at one level: the base files up to `upper_bound` of each added file, then
that file, leaving out the deleted ones (`MaybeAddFile`). -/
def saveLevel (deleted : List Nat) : List (FileMetaData κ) → List (FileMetaData κ) → List (FileMetaData κ)
  | base, [] => base.filter (·.number ∉ deleted)
  | base, a :: added =>
    (base.takeWhile fun f => !bySmallestKey a f).filter (·.number ∉ deleted) ++
      [a].filter (·.number ∉ deleted) ++ saveLevel deleted (base.dropWhile fun f => !bySmallestKey a f) added

def Builder.saveTo : Version κ where
  files level := saveLevel (b.deletedFiles level) (b.base.files level) (b.addedFiles level)

variable (v : Version κ)

def Version.logAndApply (edit : VersionEdit κ) : Version κ :=
  ((Builder.init v).apply edit).saveTo

/-! ## Compaction inputs -/

structure Compaction (κ : Type*) [LinearOrder κ] where
  level : Nat
  inputVersion : Version κ
  inputs0 : List (FileMetaData κ)
  inputs1 : List (FileMetaData κ)
  grandparents : List (FileMetaData κ)

variable (c : Compaction κ)

def Compaction.inputs : List (FileMetaData κ) := c.inputs0 ++ c.inputs1

def getRange : List (FileMetaData κ) → Option (InternalKey κ × InternalKey κ)
  | [] => none
  | f :: files => some <| files.foldl (fun r g =>
    (if g.smallest < r.1 then g.smallest else r.1, if r.2 < g.largest then g.largest else r.2))
    (f.smallest, f.largest)

def findLargestKey : List (FileMetaData κ) → Option (InternalKey κ)
  | [] => none
  | f :: files => some <| files.foldl (fun k g => if k < g.largest then g.largest else k) f.largest

def IsBoundary (largestKey : InternalKey κ) (f : FileMetaData κ) : Prop :=
  largestKey < f.smallest ∧ f.smallest.userKey = largestKey.userKey

instance (k : InternalKey κ) (f : FileMetaData κ) : Decidable (IsBoundary k f) := inferInstanceAs (Decidable (_ ∧ _))

def betterBoundary (largestKey : InternalKey κ) (r : Option (FileMetaData κ)) (f : FileMetaData κ) :
    Option (FileMetaData κ) :=
  if IsBoundary largestKey f then
    match r with
    | none => some f
    | some g => if f.smallest < g.smallest then some f else some g
  else r

def findSmallestBoundaryFile (levelFiles : List (FileMetaData κ)) (largestKey : InternalKey κ) : Option (FileMetaData κ) :=
  levelFiles.foldl (betterBoundary largestKey) none

def BestBoundary (k : InternalKey κ) (seen : List (FileMetaData κ)) : Option (FileMetaData κ) → Prop
  | none => ∀ g ∈ seen, ¬ IsBoundary k g
  | some f => f ∈ seen ∧ IsBoundary k f ∧ ∀ g ∈ seen, IsBoundary k g → f.smallest ≤ g.smallest

lemma BestBoundary.step {k : InternalKey κ} {seen : List (FileMetaData κ)} {r : Option (FileMetaData κ)}
    (h : BestBoundary k seen r) (f : FileMetaData κ) : BestBoundary k (seen ++ [f]) (betterBoundary k r f) := by
  unfold betterBoundary
  by_cases hf : IsBoundary k f
  · rw [if_pos hf]
    cases r with
    | none => exact ⟨by simp, hf, forall_mem_append.2 ⟨fun g hg hgb => absurd hgb (h g hg), by simp⟩⟩
    | some g =>
      obtain ⟨hgm, hgb, hmin⟩ := h
      by_cases hlt : f.smallest < g.smallest
      · simp only [hlt, ↓reduceIte]
        exact ⟨by simp, hf, forall_mem_append.2 ⟨fun x hx hxb => hlt.le.trans (hmin x hx hxb), by simp⟩⟩
      · simp only [hlt, ↓reduceIte]
        exact ⟨by simp [hgm], hgb, forall_mem_append.2 ⟨hmin, by simp [not_lt.1 hlt]⟩⟩
  · rw [if_neg hf]
    cases r with
    | none => exact forall_mem_append.2 ⟨h, by simp [hf]⟩
    | some g => exact ⟨by simp [h.1], h.2.1, forall_mem_append.2 ⟨h.2.2, by simp [hf]⟩⟩

lemma findSmallestBoundaryFile_best (levelFiles : List (FileMetaData κ)) (k : InternalKey κ) :
    BestBoundary k levelFiles (findSmallestBoundaryFile levelFiles k) := by
  -- Induction on the files still to be looked at, with those already `seen`.
  suffices H : ∀ (rest seen : List (FileMetaData κ)) (r : Option (FileMetaData κ)), BestBoundary k seen r →
      BestBoundary k (seen ++ rest) (rest.foldl (betterBoundary k) r) by
    exact H levelFiles [] none (by simp [BestBoundary])
  intro rest
  induction rest with
  | nil => exact fun seen r h => by simpa using h
  | cons f rest ih => exact fun seen r h => by simpa using ih (seen ++ [f]) _ (h.step f)

lemma findSmallestBoundaryFile_some {levelFiles : List (FileMetaData κ)} {k : InternalKey κ}
    {f : FileMetaData κ} (h : findSmallestBoundaryFile levelFiles k = some f) :
    f ∈ levelFiles ∧ IsBoundary k f ∧ ∀ g ∈ levelFiles, IsBoundary k g → f.smallest ≤ g.smallest := by
  have hb := findSmallestBoundaryFile_best levelFiles k
  rwa [h] at hb

def boundaryLoop (levelFiles : List (FileMetaData κ)) (largestKey : InternalKey κ)
    (compactionFiles : List (FileMetaData κ)) : List (FileMetaData κ) :=
  match _h : findSmallestBoundaryFile levelFiles largestKey with
  | some f => boundaryLoop levelFiles f.largest (compactionFiles ++ [f])
  | none => compactionFiles
termination_by levelFiles.countP fun f => largestKey < f.smallest
decreasing_by
  obtain ⟨hm, ⟨hk, _⟩, _⟩ := findSmallestBoundaryFile_some _h
  refine countP_lt_countP (fun g _ hg => ?_) hm ?_ (by simpa using hk)
  · simp only [decide_eq_true_eq] at hg ⊢
    exact hk.trans_le (f.smallest_le_largest.trans hg.le)
  · simpa using f.smallest_le_largest

def addBoundaryInputs (levelFiles compactionFiles : List (FileMetaData κ)) : List (FileMetaData κ) :=
  match findLargestKey compactionFiles with
  | none => compactionFiles
  | some k => boundaryLoop levelFiles k compactionFiles

def Version.setupOtherInputs (o : Options κ) (level : Nat) (inputs0 : List (FileMetaData κ)) :
    Option (Compaction κ × InternalKey κ) := do
  let inputs0 := addBoundaryInputs (v.files level) inputs0
  let (smallest, largest) ← getRange inputs0
  let inputs1 := addBoundaryInputs (v.files (level + 1))
    (v.getOverlappingInputs (level + 1) (some smallest) (some largest))
  let (allStart, allLimit) ← getRange (inputs0 ++ inputs1)
  let grandparents (s l : InternalKey κ) :=
    if level + 2 < kNumLevels then v.getOverlappingInputs (level + 2) (some s) (some l) else []
  let unexpanded := ({ level, inputVersion := v, inputs0, inputs1, grandparents := grandparents allStart allLimit },
    largest)
  if inputs1.isEmpty then
    return unexpanded
  -- See if the inputs in "level" can grow without changing the number of "level+1" files.
  let expanded0 := addBoundaryInputs (v.files level)
    (v.getOverlappingInputs level (some allStart) (some allLimit))
  if inputs0.length < expanded0.length ∧
      totalFileSize inputs1 + totalFileSize expanded0 < o.expandedCompactionByteSizeLimit then
    let (newStart, newLimit) ← getRange expanded0
    let expanded1 := addBoundaryInputs (v.files (level + 1))
      (v.getOverlappingInputs (level + 1) (some newStart) (some newLimit))
    if expanded1.length = inputs1.length then
      let (allStart, allLimit) ← getRange (expanded0 ++ expanded1)
      return ({ level, inputVersion := v, inputs0 := expanded0, inputs1 := expanded1,
                grandparents := grandparents allStart allLimit }, newLimit)
    else return unexpanded
  else return unexpanded

/-- What triggers an automatic compaction: `compaction_level_` of a version whose score is at least 1, or
`file_to_compact_` with its level. -/
inductive CompactionHint (κ : Type*) [LinearOrder κ] where
  | size (level : Nat)
  | seek (level : Nat) (f : FileMetaData κ)

def CompactionHint.level : CompactionHint κ → Nat
  | .size level => level
  | .seek level _ => level

/-- The file `PickCompaction` starts from: the first one after the compaction pointer of the level, with
wrap-around, or the file that was sought in vain too often. -/
def Version.pickFirstInput (compactPointer : Nat → Option (InternalKey κ)) : CompactionHint κ → Option (FileMetaData κ)
  | .size level =>
    match (v.files level).find? fun f => match compactPointer level with
      | none => true
      | some p => decide (p < f.largest) with
    | some f => some f
    | none => (v.files level).head?
  | .seek level f => if f ∈ v.files level then some f else none

def Version.pickCompaction (o : Options κ) (compactPointer : Nat → Option (InternalKey κ))
    (hint : CompactionHint κ) : Option (Compaction κ × InternalKey κ) := do
  let f ← v.pickFirstInput compactPointer hint
  if hint.level = 0 then
    -- Files in level 0 may overlap each other, so pick up all overlapping ones.
    v.setupOtherInputs o 0 (v.getOverlappingInputs 0 (some f.smallest) (some f.largest))
  else
    v.setupOtherInputs o hint.level [f]

def takeUntilLimit (limit : Nat) : Nat → List (FileMetaData κ) → List (FileMetaData κ)
  | _, [] => []
  | total, f :: rest =>
    if limit ≤ total + f.fileSize then [f] else f :: takeUntilLimit limit (total + f.fileSize) rest

def Version.compactRange (o : Options κ) (level : Nat) (begin limit : Option (InternalKey κ)) :
    Option (Compaction κ × InternalKey κ) :=
  let inputs := v.getOverlappingInputs level begin limit
  if inputs.isEmpty then none
  else v.setupOtherInputs o level (if 0 < level then takeUntilLimit o.maxFileSize 0 inputs else inputs)

def Compaction.isTrivialMove (o : Options κ) : Bool :=
  c.inputs0.length = 1 ∧ c.inputs1.length = 0 ∧ totalFileSize c.grandparents ≤ o.maxGrandParentOverlapBytes

def Compaction.inputDeletions : List (Nat × Nat) :=
  c.inputs0.map (fun f => (c.level, f.number)) ++ c.inputs1.map fun f => (c.level + 1, f.number)

end RallyDB.Db
