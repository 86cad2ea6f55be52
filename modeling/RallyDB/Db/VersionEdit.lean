import RallyDB.Db.KeyEncoding
import RallyDB.Lib.OrderedSet
import RallyDB.Table.Format

/-!
# Version edits as they are stored (`db/version_edit.h`, `db/version_edit.cc`)
-/

namespace RallyDB.Db.Descriptor

open Util Table Lib

structure FileMetaData where
  number : Nat
  fileSize : Nat
  smallest : Slice
  largest : Slice
  deriving DecidableEq

structure VersionEdit where
  comparator : Option Slice := none
  logNumber : Option Nat := none
  prevLogNumber : Option Nat := none
  nextFileNumber : Option Nat := none
  lastSequence : Option Nat := none
  compactPointers : List (Nat × Slice) := []
  deletedFiles : List (Nat × Nat) := []
  newFiles : List (Nat × FileMetaData) := []
  deriving DecidableEq

def deletedLt (a b : Nat × Nat) : Bool := a.1 < b.1 || (a.1 == b.1 && a.2 < b.2)

variable (edit : VersionEdit)

def VersionEdit.removeFile (level file : Nat) : VersionEdit :=
  { edit with deletedFiles := setInsert deletedLt (level, file) edit.deletedFiles }

def VersionEdit.addFile (level : Nat) (f : FileMetaData) : VersionEdit :=
  { edit with newFiles := edit.newFiles ++ [(level, f)] }

/-! ## Encoding -/

inductive Field where
  | comparator (name : Slice)
  | logNumber (n : Nat)
  | prevLogNumber (n : Nat)
  | nextFileNumber (n : Nat)
  | lastSequence (n : Nat)
  | compactPointer (level : Nat) (key : Slice)
  | deletedFile (level number : Nat)
  | newFile (level : Nat) (f : FileMetaData)

def kComparator : Nat := 1
def kLogNumber : Nat := 2
def kNextFileNumber : Nat := 3
def kLastSequence : Nat := 4
def kCompactPointer : Nat := 5
def kDeletedFile : Nat := 6
def kNewFile : Nat := 7
def kPrevLogNumber : Nat := 9

def Field.encode : Field → Slice
  | .comparator name => encodeVarint32 kComparator ++ putLengthPrefixedSlice name
  | .logNumber n => encodeVarint32 kLogNumber ++ encodeVarint64 n
  | .prevLogNumber n => encodeVarint32 kPrevLogNumber ++ encodeVarint64 n
  | .nextFileNumber n => encodeVarint32 kNextFileNumber ++ encodeVarint64 n
  | .lastSequence n => encodeVarint32 kLastSequence ++ encodeVarint64 n
  | .compactPointer level key =>
    encodeVarint32 kCompactPointer ++ encodeVarint32 level ++ putLengthPrefixedSlice key
  | .deletedFile level number => encodeVarint32 kDeletedFile ++ encodeVarint32 level ++ encodeVarint64 number
  | .newFile level f =>
    encodeVarint32 kNewFile ++ encodeVarint32 level ++ encodeVarint64 f.number ++ encodeVarint64 f.fileSize ++
      putLengthPrefixedSlice f.smallest ++ putLengthPrefixedSlice f.largest

def VersionEdit.fields : List Field :=
  edit.comparator.toList.map .comparator ++ edit.logNumber.toList.map .logNumber ++
    edit.prevLogNumber.toList.map .prevLogNumber ++ edit.nextFileNumber.toList.map .nextFileNumber ++
    edit.lastSequence.toList.map .lastSequence ++ edit.compactPointers.map (fun p => .compactPointer p.1 p.2) ++
    edit.deletedFiles.map (fun p => .deletedFile p.1 p.2) ++ edit.newFiles.map (fun p => .newFile p.1 p.2)

def VersionEdit.encodeTo : Slice := edit.fields.flatMap Field.encode

/-! ## Decoding -/

def getInternalKey (input : Slice) : Option (Slice × Slice) := do
  let (str, input) ← getLengthPrefixedSlice input
  if str ≠ [] then return (str, input) else none

def getLevel (input : Slice) : Option (Nat × Slice) := do
  let (v, input) ← getVarint32 input
  if v < kNumLevels then return (v, input) else none

def required {α : Type} (msg : String) : Option α → Except String α
  | some a => .ok a
  | none => .error msg

@[simp] lemma required_eq_ok {α : Type} {msg : String} {x : Option α} {a : α} : required msg x = .ok a ↔ x = some a := by
  cases x <;> simp [required]

def getField (tag : Nat) (input : Slice) : Except String (Field × Slice) :=
  if tag = kComparator then required "comparator name" do
    let (str, input) ← getLengthPrefixedSlice input
    return (.comparator str, input)
  else if tag = kLogNumber then required "log number" do
    let (n, input) ← getVarint64 input
    return (.logNumber n, input)
  else if tag = kPrevLogNumber then required "previous log number" do
    let (n, input) ← getVarint64 input
    return (.prevLogNumber n, input)
  else if tag = kNextFileNumber then required "next file number" do
    let (n, input) ← getVarint64 input
    return (.nextFileNumber n, input)
  else if tag = kLastSequence then required "last sequence number" do
    let (n, input) ← getVarint64 input
    return (.lastSequence n, input)
  else if tag = kCompactPointer then required "compaction pointer" do
    let (level, input) ← getLevel input
    let (key, input) ← getInternalKey input
    return (.compactPointer level key, input)
  else if tag = kDeletedFile then required "deleted file" do
    let (level, input) ← getLevel input
    let (number, input) ← getVarint64 input
    return (.deletedFile level number, input)
  else if tag = kNewFile then required "new-file entry" do
    let (level, input) ← getLevel input
    let (number, input) ← getVarint64 input
    let (fileSize, input) ← getVarint64 input
    let (smallest, input) ← getInternalKey input
    let (largest, input) ← getInternalKey input
    return (.newFile level { number, fileSize, smallest, largest }, input)
  else .error "unknown tag"

def VersionEdit.set : Field → VersionEdit
  | .comparator name => { edit with comparator := some name }
  | .logNumber n => { edit with logNumber := some n }
  | .prevLogNumber n => { edit with prevLogNumber := some n }
  | .nextFileNumber n => { edit with nextFileNumber := some n }
  | .lastSequence n => { edit with lastSequence := some n }
  | .compactPointer level key => { edit with compactPointers := edit.compactPointers ++ [(level, key)] }
  | .deletedFile level number => edit.removeFile level number
  | .newFile level f => edit.addFile level f

variable {input rest : Slice}

lemma length_getInternalKey {key : Slice} (h : getInternalKey input = some (key, rest)) : rest.length < input.length := by
  simp only [getInternalKey, Option.bind_eq_bind, Option.bind_eq_some_iff] at h
  obtain ⟨⟨str, rest'⟩, hget, h⟩ := h
  split_ifs at h
  cases h
  exact length_getLengthPrefixedSlice hget

lemma length_getLevel {level : Nat} (h : getLevel input = some (level, rest)) : rest.length < input.length := by
  simp only [getLevel, Option.bind_eq_bind, Option.bind_eq_some_iff] at h
  obtain ⟨⟨v, rest'⟩, hget, h⟩ := h
  split_ifs at h
  cases h
  exact length_getVarint32 hget

lemma length_getField {tag : Nat} {f : Field} (h : getField tag input = .ok (f, rest)) : rest.length < input.length := by
  unfold getField at h
  split_ifs at h
  all_goals simp only [required_eq_ok, Option.bind_eq_bind, Option.bind_eq_some_iff] at h
  · obtain ⟨⟨str, rest'⟩, hget, h⟩ := h
    cases h
    exact length_getLengthPrefixedSlice hget
  iterate 4
    · obtain ⟨⟨n, rest'⟩, hget, h⟩ := h
      cases h
      exact length_getVarint64 hget
  · obtain ⟨⟨level, rest1⟩, hlevel, ⟨key, rest2⟩, hkey, h⟩ := h
    cases h
    exact (length_getInternalKey hkey).trans (length_getLevel hlevel)
  · obtain ⟨⟨level, rest1⟩, hlevel, ⟨number, rest2⟩, hnumber, h⟩ := h
    cases h
    exact (length_getVarint64 hnumber).trans (length_getLevel hlevel)
  · obtain ⟨⟨level, rest1⟩, hlevel, ⟨number, rest2⟩, hnumber, ⟨size, rest3⟩, hsize, ⟨smallest, rest4⟩, hsmallest,
      ⟨largest, rest5⟩, hlargest, h⟩ := h
    cases h
    exact (((((length_getInternalKey hlargest).trans (length_getInternalKey hsmallest)).trans
      (length_getVarint64 hsize)).trans (length_getVarint64 hnumber)).trans (length_getLevel hlevel))

def decodeLoop (edit : VersionEdit) (input : Slice) : VersionEdit × Status :=
  match _ : getVarint32 input with
  | none => (edit, if input = [] then .ok () else .error (.corruption "VersionEdit: invalid tag"))
  | some (tag, input') =>
    match _ : getField tag input' with
    | .error msg => (edit, .error (.corruption ("VersionEdit: " ++ msg)))
    | .ok (f, rest) => decodeLoop (edit.set f) rest
termination_by input.length
decreasing_by
  rename_i htag hfield
  exact (length_getField hfield).trans (length_getVarint32 htag)

def decodeFrom (src : Slice) : VersionEdit × Status := decodeLoop {} src

end RallyDB.Db.Descriptor
