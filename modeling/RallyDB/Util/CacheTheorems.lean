import RallyDB.Util.ContainerTheorems
import RallyDB.Util.Lemmas.TableCache

/-!
# Main results about the table cache
-/

namespace RallyDB.Util.ShardedLRUCache

open Table Lib

def fileKey (fileNumber : Nat) : Slice := encodeFixed64 fileNumber

def openAndRelease (fileNumber n : Nat) : List Action :=
  [.insert (fileKey fileNumber) 0 1 (MultiContainer.openedTable 0), .release ⟨hashSlice (fileKey fileNumber), n⟩]

lemma not_noDangling {cache : ShardedLRUCache} {p : Nat × Nat} {h : Nat} (hh : h ∈ cache.container.containers p)
    (ht : (cache.container.table h).isNone = true) : ¬ cache.NoDangling := by
  intro hno
  obtain ⟨c, t, ht', -⟩ := hno p h hh
  rw [ht'] at ht
  cases ht

/-- An idle table that is evicted for another one of its shard, replaced under its key or pruned, is deleted, but its
handle stays in the multi container. -/
theorem deleted_table_stays_linked :
    (∃ cache, run step (new 16) (openAndRelease 5 0 ++ openAndRelease 7 1) = some cache ∧ ¬ cache.NoDangling) ∧
    (∃ cache, run step (new 64) (openAndRelease 5 0 ++ openAndRelease 5 1) = some cache ∧ ¬ cache.NoDangling) ∧
    ∃ cache, run step (new 64) (openAndRelease 5 0 ++ [.prune]) = some cache ∧ ¬ cache.NoDangling := by
  have hdangles {capacity : Nat} {as : List Action} (h : ∃ cache, run step (new capacity) as = some cache ∧
      1 ∈ cache.container.containers (2, 0) ∧ (cache.container.table 1).isNone = true) :
      ∃ cache, run step (new capacity) as = some cache ∧ ¬ cache.NoDangling := by
    obtain ⟨cache, hr, hh, ht⟩ := h
    exact ⟨cache, hr, not_noDangling hh ht⟩
  exact ⟨hdangles (exists_run (by decide +kernel)), hdangles (exists_run (by decide +kernel)),
    hdangles (exists_run (by decide +kernel))⟩

/-- In a run that inserts only new keys, into shards that cache and need not evict, and prunes only when no table is
idle, every handle in the lists of the multi container has a table that an entry owns. -/
theorem noDangling_of_keepsTables (capacity : Nat) (as : List Action) (cache : ShardedLRUCache)
    (hc : StepsMeet step KeepsTables (new capacity) as) (hr : run step (new capacity) as = some cache) :
    cache.NoDangling := by
  have hok : cache.Ok := run_invariant (I := Ok) (fun _ _ _ hok hc hs => step_ok hok hc hs) (ok_new capacity) hc hr
  exact hok.noDangling

def erasingRun : List Action :=
  openAndRelease 5 0 ++ openAndRelease 7 1 ++
    [.lookup (fileKey 5), .erase (fileKey 5), .release ⟨hashSlice (fileKey 5), 0⟩]

theorem noDangling_of_keepsTables_sample :
    ∃ cache, run step (new 64) erasingRun = some cache ∧ cache.NoDangling ∧ cache.container.containers (2, 0) = [3] := by
  obtain ⟨cache, hr, hlist⟩ : ∃ cache, run step (new 64) erasingRun = some cache ∧
      cache.container.containers (2, 0) = [3] := exists_run (by decide +kernel)
  have hmeet : StepsMeet step KeepsTables (new 64) erasingRun := by decide +kernel
  exact ⟨cache, hr, noDangling_of_keepsTables 64 erasingRun cache hmeet hr, hlist⟩

end RallyDB.Util.ShardedLRUCache
