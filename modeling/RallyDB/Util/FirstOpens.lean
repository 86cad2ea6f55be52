import RallyDB.Util.Lemmas.TableCache
import RallyDB.Util.Theorems

/-!
# Threads that open one table (`TableCache::FindTable`)
-/

namespace RallyDB.Util

open Table Lib List MultiQueue MultiContainer ShardedLRUCache Option

inductive OpenPhase where
  | start
  -- the table is not in the cache
  | missed
  -- `ReadMeta` has asked the multi queue
  | looked (found : Option Nat)
  -- the table is open
  | opened
  | finished
  deriving DecidableEq

structure OpenedFile where
  cacheKey : Slice
  filterKey : Slice
  level : Nat
  file : RandomAccessFile
  -- what `ReadFilter` gives
  reader : FilterBlockReader
  table : TableObject

structure FirstOpens where
  cache : ShardedLRUCache
  mq : MultiQueue
  threads : List OpenPhase
  -- the handles that were made for the file
  queueHandles : List Nat
  containerHandles : List Nat

namespace OpenPhase

def Opening : OpenPhase → Bool
  | start => false
  | finished => false
  | _ => true

end OpenPhase

namespace FirstOpens

variable (crc : Crc32c) (f : OpenedFile)

def begin (cache : ShardedLRUCache) (mq : MultiQueue) (n : Nat) : FirstOpens :=
  ⟨cache, mq, List.replicate n .start, [], []⟩

def findTable (s : FirstOpens) (t : Nat) : OpenPhase → Option FirstOpens
  | .start =>
    let r := s.cache.lookup f.cacheKey
    some { s with cache := r.1, threads := s.threads.set t (if r.2.isSome then .finished else .missed) }
  | .missed => some { s with threads := s.threads.set t (.looked (s.mq.lookup f.filterKey)) }
  | .looked none =>
    some { s with
      mq := s.mq.insert crc f.file f.filterKey f.reader
      threads := s.threads.set t .opened
      queueHandles := s.mq.nextAddress :: s.queueHandles }
  | .looked (some h) =>
    some { s with mq := s.mq.goBackToInitFilter crc f.file h, threads := s.threads.set t .opened }
  | .opened =>
    let cache : ShardedLRUCache := { s.cache with container := s.cache.container.newObject f.table }
    some { s with
      cache := (cache.insert f.cacheKey s.cache.container.nextAddress f.level 1).1
      threads := s.threads.set t .finished
      containerHandles := cache.container.nextAddress :: s.containerHandles }
  | .finished => none

def step (s : FirstOpens) (t : Nat) : Option FirstOpens := (s.threads[t]?).bind (s.findTable crc f t)

def OnlyOne {ι : Type} [DecidableEq ι] (lists : ι → List Nat) (made : List Nat) (h : Nat) : Prop :=
  h ∈ made ∧ (∃ i, LinkedAt lists h i) ∧ ∀ h' ∈ made, h' ≠ h → Unlinked lists h'

structure OneHandle (s : FirstOpens) : Prop where
  queue : ∃ h, s.mq.lookup f.filterKey = some h ∧ OnlyOne s.mq.queues s.queueHandles h
  container : ∃ h, s.cache.container.hashTable.lookup f.cacheKey = some h ∧
    OnlyOne s.cache.container.containers s.containerHandles h

structure ErasedAll (s : FirstOpens) : Prop where
  queue : ∀ h ∈ s.queueHandles, Unlinked (s.mq.erase f.filterKey).queues h
  container : ∀ h ∈ s.containerHandles, Unlinked (s.cache.erase f.cacheKey).container.containers h

def OpensAlone (s : FirstOpens) (t : Nat) : Prop :=
  s.threads[t]? = some .start → (s.cache.shards (ShardedLRUCache.shardOf f.cacheKey)).table.lookup f.cacheKey = none →
    ∀ p ∈ s.threads, p.Opening = false

instance (s : FirstOpens) (t : Nat) : Decidable (s.OpensAlone f t) := by
  unfold OpensAlone
  infer_instance

structure NotCached (cache : ShardedLRUCache) : Prop where
  capacity : 0 < (cache.shards (ShardedLRUCache.shardOf f.cacheKey)).capacity
  table : (cache.shards (ShardedLRUCache.shardOf f.cacheKey)).table.lookup f.cacheKey = none
  idle : (cache.shards (ShardedLRUCache.shardOf f.cacheKey)).NoneIdle f.cacheKey
  unused : (cache.shards (ShardedLRUCache.shardOf f.cacheKey)).nextAddress ∉
    (cache.shards (ShardedLRUCache.shardOf f.cacheKey)).lru
  hashTable : cache.container.hashTable.lookup f.cacheKey = none
  linked : ∀ i, ∀ a ∈ cache.container.containers i, a < cache.container.nextAddress

structure Cached (cache : ShardedLRUCache) (h : Nat) : Prop where
  table : ((cache.shards (ShardedLRUCache.shardOf f.cacheKey)).table.lookup f.cacheKey).isSome
  hashTable : cache.container.hashTable.lookup f.cacheKey = some h
  linked : ∃ i, LinkedAt cache.container.containers h i

structure Queued (mq : MultiQueue) (h : Nat) : Prop where
  lookup : mq.lookup f.filterKey = some h
  inUse : (mq.value h).isSome
  linked : ∃ i, LinkedAt mq.queues h i

variable {crc f} {cache : ShardedLRUCache} {mq : MultiQueue} {h : Nat}

lemma shards_lookup (cache : ShardedLRUCache) (key : Slice) : (cache.lookup key).1.shards (shardOf key) =
    ((cache.shards (shardOf key)).lookup key).1 := Function.update_self ..

lemma NotCached.lookup (hc : NotCached f cache) :
    NotCached f (cache.lookup f.cacheKey).1 ∧ (cache.lookup f.cacheKey).2 = none := by
  have hshard : (cache.shards (shardOf f.cacheKey)).lookup f.cacheKey = (cache.shards (shardOf f.cacheKey), none) := by
    rw [LRUCache.lookup, hc.table]
  have hcontainer : (cache.lookup f.cacheKey).1.container = cache.container := by
    show (cache.container.lookup f.cacheKey).1 = cache.container
    rw [MultiContainer.lookup, hc.hashTable]
  constructor
  · constructor
    · rw [shards_lookup, hshard]
      exact hc.capacity
    · rw [shards_lookup, hshard]
      exact hc.table
    · rw [shards_lookup, hshard]
      exact hc.idle
    · rw [shards_lookup, hshard]
      exact hc.unused
    · rw [hcontainer]
      exact hc.hashTable
    · rw [hcontainer]
      exact hc.linked
  · show ((cache.shards (shardOf f.cacheKey)).lookup f.cacheKey).2.map _ = none
    rw [hshard]
    rfl

lemma Cached.lookup (hc : Cached f cache h) :
    Cached f (cache.lookup f.cacheKey).1 h ∧ (cache.lookup f.cacheKey).2.isSome := by
  obtain ⟨a, ha⟩ := isSome_iff_exists.1 hc.table
  have hshard : (cache.shards (shardOf f.cacheKey)).lookup f.cacheKey =
      ((cache.shards (shardOf f.cacheKey)).ref a, some a) := by
    rw [LRUCache.lookup, ha]
  refine ⟨⟨?_, ?_, ?_⟩, ?_⟩
  · rw [shards_lookup, hshard]
    have htable : ((cache.shards (shardOf f.cacheKey)).ref a).table = (cache.shards (shardOf f.cacheKey)).table := by
      cases he : (cache.shards (shardOf f.cacheKey)).entries.lookup a with
      | none => rw [LRUCache.ref, he]
      | some e => exact (LRUCache.ref_changed he).2
    rw [htable]
    exact hc.table
  · exact (congrArg (List.lookup f.cacheKey) (MultiContainer.lookup_frame cache.container f.cacheKey).1).trans hc.hashTable
  · show ∃ i, LinkedAt (cache.container.lookup f.cacheKey).1.containers h i
    obtain ⟨i, hi⟩ := hc.linked
    rw [MultiContainer.lookup, hc.hashTable]
    dsimp only
    split
    · exact ⟨i, hi⟩
    · exact ⟨_, hi.atMostOnce.relink _⟩
  · show (((cache.shards (shardOf f.cacheKey)).lookup f.cacheKey).2.map _).isSome
    rw [hshard]
    rfl

lemma NotCached.insert (hc : NotCached f cache) :
    Cached f (({ cache with container := cache.container.newObject f.table } : ShardedLRUCache).insert f.cacheKey
    cache.container.nextAddress f.level 1).1 (cache.container.nextAddress + 1) := by
  have hobject : (cache.container.newObject f.table).objects.lookup cache.container.nextAddress = some f.table :=
    lookup_cons_self
  have hcontainer : (cache.container.newObject f.table).insert f.cacheKey f.level cache.container.nextAddress =
      { (cache.container.newObject f.table).addToHead f.table.bfNumer f.level (cache.container.nextAddress + 1) with
        handles := (cache.container.nextAddress + 1, ⟨cache.container.nextAddress, f.level, f.table.bfNumer⟩) ::
          cache.container.handles
        hashTable := (f.cacheKey, cache.container.nextAddress + 1) :: Lib.remove cache.container.hashTable f.cacheKey
        charger := cache.container.charger + f.table.bfChange
        nextAddress := cache.container.nextAddress + 2 } := by
    unfold MultiContainer.insert
    rw [hobject]
    rfl
  refine ⟨?_, ?_, ⟨(f.table.bfNumer, f.level), ?_⟩⟩
  · show (((Function.update cache.shards (shardOf f.cacheKey) _) (shardOf f.cacheKey)).table.lookup f.cacheKey).isSome
    rw [Function.update_self]
    exact isSome_of_eq_some (LRUCache.table_insert hc.capacity hc.table hc.idle hc.unused)
  · show ((cache.container.newObject f.table).insert f.cacheKey f.level cache.container.nextAddress).hashTable.lookup
      f.cacheKey = _
    rw [hcontainer]
    exact lookup_cons_self
  · show LinkedAt ((cache.container.newObject f.table).insert f.cacheKey f.level cache.container.nextAddress).containers _ _
    rw [hcontainer]
    refine Unlinked.push (fun j => count_eq_zero.2 fun hmem => ?_) _
    exact absurd (hc.linked j _ hmem) (by omega)

lemma Cached.erase (hc : Cached f cache h) : Unlinked (cache.erase f.cacheKey).container.containers h := by
  obtain ⟨i, hi⟩ := hc.linked
  show Unlinked (cache.container.erase f.cacheKey).containers h
  rw [erase_eq hc.hashTable]
  exact hi.atMostOnce.unlink

lemma queued_insert (hok : mq.Ok MultiQueue.Anywhere) (hnone : mq.lookup f.filterKey = none) :
    Queued f (mq.insert crc f.file f.filterKey f.reader) mq.nextAddress := by
  have hunused : Unlinked mq.queues mq.nextAddress := by
    refine (hok.tracks _).none ?_
    rw [value, map_eq_none_iff, lookup_eq_none_iff]
    intro p hp
    have := hok.unused p.1 (mem_map_of_mem hp)
    simpa using (ne_of_lt this).symm
  rw [insert_eq hok hnone]
  refine ⟨lookup_cons_self, ?_, ⟨f.reader.initUnitsNumber, hunused.push _⟩⟩
  simp [value]

lemma Queued.erase (hq : Queued f mq h) : Unlinked (mq.erase f.filterKey).queues h := by
  obtain ⟨r, hr⟩ := isSome_iff_exists.1 hq.inUse
  obtain ⟨i, hi⟩ := hq.linked
  rw [erase_eq hq.lookup hr]
  exact hi.atMostOnce.unlink

/-! ## Opening one at a time -/

variable {s s' : FirstOpens} {t u : Nat}

def OthersQuiet (threads : List OpenPhase) (t : Nat) : Prop := ∀ u ≠ t, ∀ p ∈ threads[u]?, p.Opening = false

variable {threads : List OpenPhase}

lemma OthersQuiet.set (hq : OthersQuiet threads t) (p : OpenPhase) : OthersQuiet (threads.set t p) t := by
  intro u hu
  rw [getElem?_set_ne hu.symm]
  exact hq u hu

lemma othersQuiet_of_forall (h : ∀ p ∈ threads, p.Opening = false) (t : Nat) :
    OthersQuiet threads t := fun _ _ p hp => h p (mem_of_getElem? hp)

lemma OthersQuiet.forall_set (hq : OthersQuiet threads t) {p : OpenPhase}
    (hp : p.Opening = false) : ∀ q ∈ threads.set t p, q.Opening = false := by
  intro q hmem
  obtain ⟨u, hu⟩ := mem_iff_getElem?.1 hmem
  by_cases hut : u = t
  · subst hut
    rw [getElem?_set_self'] at hu
    obtain ⟨-, -, rfl⟩ := map_eq_some_iff.1 hu
    exact hp
  · rw [getElem?_set_ne (Ne.symm hut)] at hu
    exact hq u hut q hu

inductive Stage (f : OpenedFile) : FirstOpens → Prop
  | untouched {s : FirstOpens} (hcache : NotCached f s.cache) (hok : s.mq.Ok MultiQueue.Anywhere)
      (hnone : s.mq.lookup f.filterKey = none) (hthreads : ∀ p ∈ s.threads, p = .start) (hqueue : s.queueHandles = [])
      (hcontainer : s.containerHandles = []) : Stage f s
  | looking {s : FirstOpens} (t : Nat) (hcache : NotCached f s.cache) (hok : s.mq.Ok MultiQueue.Anywhere)
      (hnone : s.mq.lookup f.filterKey = none) (hphase : s.threads[t]? = some .missed ∨ s.threads[t]? = some (.looked none))
      (hothers : OthersQuiet s.threads t) (hqueue : s.queueHandles = []) (hcontainer : s.containerHandles = []) : Stage f s
  | opened {s : FirstOpens} (t h : Nat) (hcache : NotCached f s.cache) (hqueued : Queued f s.mq h)
      (hphase : s.threads[t]? = some .opened) (hothers : OthersQuiet s.threads t) (hqueue : s.queueHandles = [h])
      (hcontainer : s.containerHandles = []) : Stage f s
  | done {s : FirstOpens} (h h' : Nat) (hcached : Cached f s.cache h') (hqueued : Queued f s.mq h)
      (hthreads : ∀ p ∈ s.threads, p.Opening = false) (hqueue : s.queueHandles = [h])
      (hcontainer : s.containerHandles = [h']) : Stage f s

lemma step_eq_some : s.step crc f t = some s' ↔ ∃ p, s.threads[t]? = some p ∧ s.findTable crc f t p = some s' :=
  bind_eq_some_iff

lemma eq_of_opening {p : OpenPhase} (hopening : p.Opening = true) (hphase : s.threads[u]? = some p)
    (hothers : OthersQuiet s.threads u) (hcache : NotCached f s.cache) (halone : s.OpensAlone f t)
    (hs : s.step crc f t = some s') : t = u := by
  by_contra hne
  obtain ⟨q, hq, hstep⟩ := step_eq_some.1 hs
  have hquiet := hothers t hne q hq
  cases q with
  | start =>
    have := halone hq hcache.table p (mem_of_getElem? hphase)
    rw [hopening] at this
    cases this
  | finished => cases hstep
  | missed | looked found | opened => cases hquiet

lemma Stage.step (hstage : Stage f s) (halone : s.OpensAlone f t) (hs : s.step crc f t = some s') : Stage f s' := by
  cases hstage with
  | untouched hcache hok hnone hthreads hqueue hcontainer =>
    obtain ⟨p, hp, hstep⟩ := step_eq_some.1 hs
    cases hthreads p (mem_of_getElem? hp)
    obtain ⟨hcache', hmiss⟩ := hcache.lookup
    simp only [findTable, hmiss, some.injEq] at hstep
    subst hstep
    have hquiet : ∀ p ∈ s.threads, p.Opening = false := fun p hp => by rw [hthreads p hp]; rfl
    refine .looking t hcache' hok hnone (.inl ?_) ((othersQuiet_of_forall hquiet t).set _) hqueue hcontainer
    simp [getElem?_set_self', hp]
  | looking u hcache hok hnone hphase hothers hqueue hcontainer =>
    obtain rfl : t = u := by
      rcases hphase with hphase | hphase
      · exact eq_of_opening rfl hphase hothers hcache halone hs
      · exact eq_of_opening rfl hphase hothers hcache halone hs
    obtain ⟨p, hp, hstep⟩ := step_eq_some.1 hs
    rcases hphase with hphase | hphase
    · cases hphase.symm.trans hp
      simp only [findTable, hnone, some.injEq] at hstep
      subst hstep
      refine .looking t hcache hok hnone (.inr ?_) (hothers.set _) hqueue hcontainer
      simp [getElem?_set_self', hp]
    · cases hphase.symm.trans hp
      simp only [findTable, some.injEq] at hstep
      subst hstep
      refine .opened t s.mq.nextAddress hcache (queued_insert hok hnone) ?_ (hothers.set _) (by rw [hqueue]) hcontainer
      simp [getElem?_set_self', hp]
  | opened u h hcache hqueued hphase hothers hqueue hcontainer =>
    obtain rfl := eq_of_opening rfl hphase hothers hcache halone hs
    obtain ⟨p, hp, hstep⟩ := step_eq_some.1 hs
    cases hphase.symm.trans hp
    simp only [findTable, some.injEq] at hstep
    subst hstep
    exact .done h (s.cache.container.nextAddress + 1) hcache.insert hqueued (hothers.forall_set rfl) hqueue
      (by rw [hcontainer]; rfl)
  | done h h' hcached hqueued hthreads hqueue hcontainer =>
    obtain ⟨p, hp, hstep⟩ := step_eq_some.1 hs
    have hquiet := hthreads p (mem_of_getElem? hp)
    cases p with
    | start =>
      obtain ⟨hcached', hhit⟩ := hcached.lookup
      simp only [findTable, hhit, if_true, some.injEq] at hstep
      subst hstep
      exact .done h h' hcached' hqueued ((othersQuiet_of_forall hthreads t).forall_set rfl) hqueue hcontainer
    | finished => cases hstep
    | missed | looked found | opened => cases hquiet

/-- When the threads open the table one at a time, the file has one handle in the queues and one in the containers at the
end, and none after it is evicted and erased. -/
theorem oneHandle_of_opensAlone (crc : Crc32c) (f : OpenedFile) (cache : ShardedLRUCache) (mq : MultiQueue) (n : Nat)
    (ts : List Nat) (s : FirstOpens) (hcache : NotCached f cache) (hok : mq.Ok MultiQueue.Anywhere)
    (hnone : mq.lookup f.filterKey = none) (hmeet : StepsMeet (step crc f) (OpensAlone f) (begin cache mq n) ts)
    (hrun : run (step crc f) (begin cache mq n) ts = some s) (hfinished : ∀ p ∈ s.threads, p = .finished)
    (hsome : s.threads ≠ []) : s.OneHandle f ∧ s.ErasedAll f := by
  have hbegin : Stage f (begin cache mq n) :=
    .untouched hcache hok hnone (fun p hp => (mem_replicate.1 hp).2) rfl rfl
  have hstage : Stage f s := run_invariant (fun _ _ _ h hc hs => h.step hc hs) hbegin hmeet hrun
  have hnot : ∀ {u : Nat} {p : OpenPhase}, s.threads[u]? = some p → p = .finished := fun h =>
    hfinished _ (mem_of_getElem? h)
  cases hstage with
  | untouched _ _ _ hthreads =>
    obtain ⟨p, hp⟩ := exists_mem_of_ne_nil _ hsome
    cases (hthreads p hp).symm.trans (hfinished p hp)
  | looking u _ _ _ hphase =>
    rcases hphase with hphase | hphase <;> cases hnot hphase
  | opened u h _ _ hphase => cases hnot hphase
  | done h h' hcached hqueued _ hqueue hcontainer =>
    refine ⟨⟨⟨h, hqueued.lookup, ?_, hqueued.linked, ?_⟩, ⟨h', hcached.hashTable, ?_, hcached.linked, ?_⟩⟩, ⟨?_, ?_⟩⟩
    · rw [hqueue]
      exact mem_singleton_self h
    · rw [hqueue]
      exact fun k hk hne => absurd (mem_singleton.1 hk) hne
    · rw [hcontainer]
      exact mem_singleton_self h'
    · rw [hcontainer]
      exact fun k hk hne => absurd (mem_singleton.1 hk) hne
    · rw [hqueue]
      exact fun k hk => mem_singleton.1 hk ▸ hqueued.erase
    · rw [hcontainer]
      exact fun k hk => mem_singleton.1 hk ▸ hcached.erase

def sampleOpenedFile : OpenedFile where
  cacheKey := [1]
  filterKey := [1]
  level := 0
  file := MultiQueue.unitsFile
  reader := MultiQueue.unitsReader
  table := ⟨1, 0, none⟩

def sampleBegin : FirstOpens := begin (.new 100) .new 2

theorem oneHandle_of_opensAlone_sample : ∃ s, run (step .bitwise sampleOpenedFile) sampleBegin [0, 0, 0, 0, 1] = some s ∧
    s.OneHandle sampleOpenedFile ∧ s.ErasedAll sampleOpenedFile := by
  obtain ⟨s, hrun, hthreads⟩ : ∃ s, run (step .bitwise sampleOpenedFile) sampleBegin [0, 0, 0, 0, 1] = some s ∧
      s.threads = [.finished, .finished] := exists_run (by decide +kernel)
  refine ⟨s, hrun, oneHandle_of_opensAlone .bitwise sampleOpenedFile (.new 100) .new 2 [0, 0, 0, 0, 1] s
    ⟨by decide +kernel, rfl, fun b hb => absurd hb not_mem_nil, not_mem_nil, rfl,
      fun i a ha => absurd ha not_mem_nil⟩ ok_new rfl (by decide +kernel) hrun ?_ ?_⟩
  · simp [hthreads]
  · simp [hthreads]

/-- Both threads miss the table before one of them inserts it. -/
theorem concurrent_opens_strand_handles :
    ∃ s, run (step .bitwise sampleOpenedFile) sampleBegin [0, 1, 0, 1, 0, 1, 0, 1] = some s ∧
    (∀ p ∈ s.threads, p = .finished) ∧ ¬ s.OneHandle sampleOpenedFile ∧ ¬ s.ErasedAll sampleOpenedFile := by
  obtain ⟨s, hrun, hthreads, hmade, hlookup, hcount, herased⟩ : ∃ s,
      run (step .bitwise sampleOpenedFile) sampleBegin [0, 1, 0, 1, 0, 1, 0, 1] = some s ∧
        (∀ p ∈ s.threads, p = .finished) ∧ s.queueHandles = [1, 0] ∧ s.mq.lookup [1] = some 0 ∧
          (s.mq.queues 2).count 1 = 1 ∧ ((s.mq.erase [1]).queues 2).count 1 = 1 := exists_run (by decide +kernel)
  refine ⟨s, hrun, hthreads, fun hone => ?_, fun hall => ?_⟩
  · obtain ⟨h, hh, -, -, hothers⟩ := hone.queue
    cases hlookup.symm.trans hh
    have := hothers 1 (by simp [hmade]) (by decide) 2
    rw [hcount] at this
    cases this
  · have := hall.queue 1 (by simp [hmade]) 2
    rw [show sampleOpenedFile.filterKey = [1] from rfl, herased] at this
    cases this

end FirstOpens

end RallyDB.Util
