import RallyDB.Lib.Assoc
import RallyDB.Util.Coding

/-!
# A shard of the LRU cache (`util/table_cache_lru.cc`, `LRUCache`)
-/

namespace RallyDB.Util

structure LRUHandle (α : Type) where
  value : α
  charge : Nat
  key : Slice
  hash : UInt32
  inCache : Bool
  refs : Nat
  deriving DecidableEq

structure LRUCache (α : Type) where
  capacity : Nat
  usage : Nat
  entries : List (Nat × LRUHandle α)
  -- from the oldest entry to the newest
  lru : List Nat
  inUse : List Nat
  table : List (Slice × Nat)
  nextAddress : Nat

namespace LRUCache

variable {α : Type}

def new (capacity : Nat) : LRUCache α where
  capacity := capacity
  usage := 0
  entries := []
  lru := []
  inUse := []
  table := []
  nextAddress := 0

variable (c : LRUCache α)

def lruRemove (a : Nat) : LRUCache α := { c with lru := c.lru.erase a, inUse := c.inUse.erase a }

def ref (a : Nat) : LRUCache α :=
  match c.entries.lookup a with
  | none => c
  | some e =>
    let c := if e.refs = 1 ∧ e.inCache then { c.lruRemove a with inUse := c.inUse.erase a ++ [a] } else c
    { c with entries := Lib.adjust c.entries a fun e => { e with refs := e.refs + 1 } }

def unref (a : Nat) : LRUCache α × List α :=
  match c.entries.lookup a with
  | none => (c, [])
  | some e =>
    if e.refs - 1 = 0 then ({ c with entries := Lib.remove c.entries a }, [e.value])
    else
      let c := { c with entries := Lib.adjust c.entries a fun e => { e with refs := e.refs - 1 } }
      if e.inCache ∧ e.refs - 1 = 1 then ({ c.lruRemove a with lru := c.lru.erase a ++ [a] }, []) else (c, [])

def finishErase : Option Nat → LRUCache α × List α
  | none => (c, [])
  | some a =>
    match c.entries.lookup a with
    | none => (c, [])
    | some e =>
      let c := { c.lruRemove a with
        entries := Lib.adjust c.entries a fun e => { e with inCache := false }
        usage := c.usage - e.charge }
      c.unref a

def removeKey (key : Slice) : LRUCache α × List α :=
  ({ c with table := Lib.remove c.table key }).finishErase (c.table.lookup key)

def evict (full : LRUCache α → Bool) (c : LRUCache α) : LRUCache α × List α :=
  match c.lru with
  | [] => (c, [])
  | old :: _ =>
    if full c then
      match c.entries.lookup old with
      | none => (c, [])
      | some e =>
        let r := c.removeKey e.key
        if r.1.lru.length < c.lru.length then
          let rest := evict full r.1
          (rest.1, r.2 ++ rest.2)
        else r
    else (c, [])
termination_by c.lru.length

def insert (key : Slice) (hash : UInt32) (value : α) (charge : Nat) : LRUCache α × Nat × List α :=
  let a := c.nextAddress
  let e : LRUHandle α := ⟨value, charge, key, hash, false, 1⟩
  let r :=
    if 0 < c.capacity then
      let c := { c with
        entries := (a, { e with refs := e.refs + 1, inCache := true }) :: c.entries
        inUse := c.inUse ++ [a]
        usage := c.usage + charge
        nextAddress := a + 1 }
      ({ c with table := (key, a) :: Lib.remove c.table key }).finishErase (c.table.lookup key)
    else ({ c with entries := (a, e) :: c.entries, nextAddress := a + 1 }, [])
  let r' := r.1.evict fun c => c.capacity < c.usage
  (r'.1, a, r.2 ++ r'.2)

def lookup (c : LRUCache α) (key : Slice) : LRUCache α × Option Nat :=
  match c.table.lookup key with
  | none => (c, none)
  | some a => (c.ref a, some a)

def release (a : Nat) : LRUCache α × List α := c.unref a

def erase (key : Slice) : LRUCache α × List α := c.removeKey key

def prune : LRUCache α × List α := c.evict fun _ => true

def totalCharge : Nat := c.usage

end LRUCache

end RallyDB.Util
