import RallyDB.Table.Format

/-!
# Files that are written and read in order (`include/leveldb/env.h`)
-/

namespace RallyDB.Util

open Table

structure WritableFile where
  contents : Slice
  faults : List (Option Nat)
  deriving DecidableEq

namespace WritableFile

def append (f : WritableFile) (data : Slice) : WritableFile × Status :=
  match f.faults with
  | some n :: faults => (⟨f.contents ++ data.take n, faults⟩, .error (.ioError "append"))
  | faults => (⟨f.contents ++ data, faults.tail⟩, .ok ())

def flush (f : WritableFile) : WritableFile × Status :=
  match f.faults with
  | some _ :: faults => (⟨f.contents, faults⟩, .error (.ioError "flush"))
  | faults => (⟨f.contents, faults.tail⟩, .ok ())

end WritableFile

structure SequentialFile where
  remaining : Slice
  faults : List Bool
  deriving DecidableEq

namespace SequentialFile

def read (f : SequentialFile) (n : Nat) : SequentialFile × Except Error Slice :=
  match f.faults with
  | true :: faults => (⟨f.remaining, faults⟩, .error (.ioError "read"))
  | faults => (⟨f.remaining.drop n, faults.tail⟩, .ok (f.remaining.take n))

def skip (f : SequentialFile) (n : Nat) : SequentialFile × Status :=
  match f.faults with
  | true :: faults => (⟨f.remaining, faults⟩, .error (.ioError "skip"))
  | faults => (⟨f.remaining.drop n, faults.tail⟩, .ok ())

end SequentialFile

end RallyDB.Util
