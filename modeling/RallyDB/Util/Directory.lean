import RallyDB.Table.Format

/-!
# Files that a crash cuts short
-/

namespace RallyDB.Util

structure File where
  bytes : Slice
  synced : Nat
  deriving DecidableEq

namespace File

def empty : File := ⟨[], 0⟩

def sync (f : File) : File := ⟨f.bytes, f.bytes.length⟩

def cut (f : File) (n : Nat) : File := sync ⟨f.bytes.take (max f.synced n), 0⟩

end File

structure Directory where
  names : List Nat
  file : Nat → File

namespace Directory

def empty : Directory := ⟨[], fun _ => .empty⟩

def create (d : Directory) (n : Nat) (f : File) : Directory where
  names := if n ∈ d.names then d.names else d.names ++ [n]
  file := Function.update d.file n f

def set (d : Directory) (n : Nat) (f : File) : Directory := { d with file := Function.update d.file n f }

def remove (d : Directory) (n : Nat) : Directory := { d with names := d.names.filter (· ≠ n) }

def cut (d : Directory) (lengths : Nat → Nat) : Directory := { d with file := fun n => (d.file n).cut (lengths n) }

end Directory

end RallyDB.Util
