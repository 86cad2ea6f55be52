import RallyDB.Util.Hash
import RallyDB.Util.LruCache
import RallyDB.Util.MultiContainer

/-!
# The table cache (`util/table_cache_lru.cc`, `ShardedLRUCache`)
-/

namespace RallyDB.Util

open Table Db

def kNumShardBits : Nat := 4

def kNumShards : Nat := 1 <<< kNumShardBits

structure ShardedLRUCache where
  shards : Nat → LRUCache Nat
  container : MultiContainer

structure CacheHandle where
  hash : UInt32
  address : Nat
  deriving DecidableEq

def hashSlice (s : Slice) : UInt32 := hash s 0

def shard (hash : UInt32) : Nat := hash.toNat >>> (32 - kNumShardBits)

namespace ShardedLRUCache

def new (capacity : Nat) : ShardedLRUCache where
  shards _ := LRUCache.new ((capacity + (kNumShards - 1)) % 2 ^ 64 / kNumShards)
  container := MultiContainer.new

def shardOf (key : Slice) : Nat := shard (hashSlice key)

variable (cache : ShardedLRUCache)

def withShard (s : Nat) (r : LRUCache Nat × List Nat) : ShardedLRUCache where
  shards := Function.update cache.shards s r.1
  container := { cache.container with objects := r.2.foldl Lib.remove cache.container.objects }

def insert (cache : ShardedLRUCache) (key : Slice) (value level charge : Nat) : ShardedLRUCache × CacheHandle :=
  let hash := hashSlice key
  let cache := { cache with container := cache.container.insert key level value }
  let r := (cache.shards (shard hash)).insert key hash value charge
  (cache.withShard (shard hash) (r.1, r.2.2), ⟨hash, r.2.1⟩)

def lookup (cache : ShardedLRUCache) (key : Slice) : ShardedLRUCache × Option CacheHandle :=
  let hash := hashSlice key
  let cache := { cache with container := (cache.container.lookup key).1 }
  let r := (cache.shards (shard hash)).lookup key
  (cache.withShard (shard hash) (r.1, []), r.2.map fun a => ⟨hash, a⟩)

def release (cache : ShardedLRUCache) (handle : CacheHandle) : ShardedLRUCache :=
  cache.withShard (shard handle.hash) ((cache.shards (shard handle.hash)).release handle.address)

def erase (cache : ShardedLRUCache) (key : Slice) : ShardedLRUCache :=
  let hash := hashSlice key
  let cache := { cache with container := cache.container.erase key }
  cache.withShard (shard hash) ((cache.shards (shard hash)).erase key)

def prune (cache : ShardedLRUCache) : ShardedLRUCache :=
  (List.range kNumShards).foldl (fun cache s => cache.withShard s (cache.shards s).prune) cache

inductive Action where
  | insert (key : Slice) (level charge : Nat) (table : TableObject)
  | lookup (key : Slice)
  | release (handle : CacheHandle)
  | erase (key : Slice)
  | prune
  deriving DecidableEq

/-- A table is inserted with a level and units that have containers, and a client releases a reference it has: the
cache's own reference is not the client's. -/
def Enabled : Action → Prop
  | .insert _ level _ table => level < kNumLevels ∧ table.InRange
  | .release handle =>
    ∃ e ∈ (cache.shards (shard handle.hash)).entries.lookup handle.address, (if e.inCache then 1 else 0) < e.refs
  | _ => True

instance (cache : ShardedLRUCache) (a : Action) : Decidable (cache.Enabled a) := by
  cases a <;> unfold Enabled <;> infer_instance

def apply : Action → ShardedLRUCache
  | .insert key level charge table =>
    (({ cache with container := cache.container.newObject table } : ShardedLRUCache).insert key
      cache.container.nextAddress level charge).1
  | .lookup key => (cache.lookup key).1
  | .release handle => cache.release handle
  | .erase key => cache.erase key
  | .prune => cache.prune

def step (a : Action) : Option ShardedLRUCache :=
  if cache.Enabled a then some (cache.apply a) else none

end ShardedLRUCache

end RallyDB.Util
