import RallyDB.Util.Lemmas.Containers
import RallyDB.Util.Lemmas.LruCache
import RallyDB.Util.TableCacheLru

/-!
# The table objects that the shards and the multi container share
-/

namespace RallyDB.Util

open Table Db List Function MultiContainer Lib

/-! ## Deleting objects -/

namespace MultiContainer

variable {mc : MultiContainer} {key : Slice} {h : Nat}

lemma Ok.deleteObject (hok : mc.Ok) {v : Nat} (hv : ∀ p ∈ mc.handles, p.2.value ≠ v) :
    ({ mc with objects := remove mc.objects v } : MultiContainer).Ok := by
  have hsub : (remove mc.objects v).Sublist mc.objects := filter_sublist
  refine { hok with
    objects := hok.objects.sublist (hsub.map _)
    unusedObject := fun a ha => hok.unusedObject a ((hsub.map _).subset ha)
    inMemory := fun p hp => ?_
    inRange := fun p hp => hok.inRange p (hsub.subset hp)
    linked := hok.linked }
  obtain ⟨q, hq, he⟩ := mem_map.1 (hok.inMemory p hp)
  refine mem_map.2 ⟨q, mem_filter.2 ⟨hq, decide_eq_true ?_⟩, he⟩
  rw [he]
  exact hv p hp

lemma Ok.deleteObjects (hok : mc.Ok) {vs : List Nat} (hvs : ∀ v ∈ vs, ∀ p ∈ mc.handles, p.2.value ≠ v) :
    ({ mc with objects := vs.foldl remove mc.objects } : MultiContainer).Ok := by
  induction vs generalizing mc with
  | nil => exact hok
  | cons v vs ih =>
    exact ih (hok.deleteObject (hvs v mem_cons_self)) fun w hw => hvs w (mem_cons_of_mem _ hw)

lemma lookup_frame (mc : MultiContainer) (key : Slice) :
    (mc.lookup key).1.hashTable = mc.hashTable ∧ (mc.lookup key).1.handles = mc.handles ∧
    (mc.lookup key).1.nextAddress = mc.nextAddress := by
  unfold lookup
  split
  · exact ⟨rfl, rfl, rfl⟩
  · split <;> exact ⟨rfl, rfl, rfl⟩

lemma Ok.erase_registered (hok : mc.Ok) {p : Slice × Nat} (hp : p ∈ (mc.erase key).hashTable) :
    p ∈ mc.hashTable ∧ p.1 ≠ key ∧ (mc.erase key).handles.lookup p.2 = mc.handles.lookup p.2 := by
  cases hl : mc.hashTable.lookup key with
  | none =>
    rw [erase_of_none hl] at hp ⊢
    refine ⟨hp, ?_, rfl⟩
    rintro rfl
    rw [lookup_of_mem hok.keys hp] at hl
    cases hl
  | some h =>
    rw [erase_eq hl] at hp ⊢
    obtain ⟨hmem, hne⟩ := mem_filter.1 hp
    have hkey : p.1 ≠ key := of_decide_eq_true hne
    refine ⟨hmem, hkey, ?_⟩
    rw [lookup_remove, if_neg]
    intro hh
    have hnodup : (mc.hashTable.map Prod.snd).Nodup := by
      rw [hok.registered]
      exact hok.handles
    exact hkey (congrArg Prod.fst (inj_on_of_nodup_map hnodup hmem (mem_of_lookup hl) hh))

lemma erase_nextAddress (mc : MultiContainer) (key : Slice) : (mc.erase key).nextAddress = mc.nextAddress := by
  unfold erase
  split <;> rfl

lemma Ok.registered_of_mem (hok : mc.Ok) {c : ContainerHandle} (hc : (h, c) ∈ mc.handles) :
    ∃ key, (key, h) ∈ mc.hashTable := by
  have hmem : h ∈ mc.hashTable.map Prod.snd := by
    rw [hok.registered]
    exact mem_map_of_mem hc
  obtain ⟨⟨key, h⟩, hp, rfl⟩ := mem_map.1 hmem
  exact ⟨key, hp⟩

end MultiContainer

namespace ShardedLRUCache

variable {cache cache' : ShardedLRUCache} {key : Slice} {a : Action} {s : Nat}

section

variable (cache)

def Owned (v : Nat) : Prop :=
  ∃ s < kNumShards, ∃ a e, (cache.shards s).entries.lookup a = some e ∧ e.value = v

def NoDangling : Prop :=
  ∀ p h, h ∈ cache.container.containers p → ∃ c t, cache.container.table h = some (c, t) ∧ cache.Owned c.value

def KeepsTables : Action → Prop
  | .insert key _ charge _ =>
    (cache.shards (shardOf key)).table.lookup key = none ∧ 0 < (cache.shards (shardOf key)).capacity ∧
      ((cache.shards (shardOf key)).usage + charge ≤ (cache.shards (shardOf key)).capacity ∨
        (cache.shards (shardOf key)).lru = [])
  | .prune => ∀ s < kNumShards, (cache.shards s).lru = []
  | _ => True

end

instance : (a : Action) → Decidable (KeepsTables cache a)
  | .insert .. | .prune => by unfold KeepsTables; infer_instance
  | .lookup .. | .release .. | .erase .. => .isTrue trivial

structure Ok (cache : ShardedLRUCache) : Prop where
  container : cache.container.Ok
  shards : ∀ s, (cache.shards s).Ok
  allocated : ∀ s a e, (cache.shards s).entries.lookup a = some e → e.value < cache.container.nextAddress
  owner : ∀ s a e s' a' e', (cache.shards s).entries.lookup a = some e → (cache.shards s').entries.lookup a' = some e' →
    e.value = e'.value → s = s' ∧ a = a'
  cached : ∀ p ∈ cache.container.hashTable, ∃ c a e, cache.container.handles.lookup p.2 = some c ∧
    (cache.shards (shardOf p.1)).table.lookup p.1 = some a ∧
      (cache.shards (shardOf p.1)).entries.lookup a = some e ∧ e.value = c.value

lemma ok_new (capacity : Nat) : (new capacity).Ok where
  container := MultiContainer.ok_new
  shards _ := LRUCache.ok_new _
  allocated _ _ _ h := by cases h
  owner _ _ _ _ _ _ h := by cases h
  cached _ hp := absurd hp not_mem_nil

lemma shard_lt (h : UInt32) : shard h < kNumShards := by
  have := h.toNat_lt
  unfold shard kNumShards kNumShardBits
  rw [Nat.shiftRight_eq_div_pow]
  omega

lemma Ok.noDangling (hok : cache.Ok) : cache.NoDangling := by
  intro p h hh
  obtain ⟨c, hc⟩ := hok.container.mem_handles_of_linked hh
  obtain ⟨t, ht⟩ := hok.container.table_of_mem hc
  obtain ⟨key, hkey⟩ := hok.container.registered_of_mem hc
  obtain ⟨c', a, e, hc', -, he, hv⟩ := hok.cached _ hkey
  cases (table_eq_some.1 ht).1.symm.trans hc'
  exact ⟨c, t, ht, shardOf key, shard_lt _, a, e, he, hv⟩

/-! ## The methods -/

lemma Ok.withShard {mc : MultiContainer} {r : LRUCache Nat × List Nat} {kept : Slice → Prop} (hok : cache.Ok)
    (hmc : mc.Ok) (hnext : mc.nextAddress = cache.container.nextAddress)
    (hreg : ∀ p ∈ mc.hashTable, p ∈ cache.container.hashTable ∧ kept p.1 ∧
    mc.handles.lookup p.2 = cache.container.handles.lookup p.2)
    (hr : LRUCache.Shrinks (cache.shards s) r.1 kept) (hdel : ∀ v ∈ r.2, ∀ p ∈ mc.handles, p.2.value ≠ v) :
    (({ cache with container := mc } : ShardedLRUCache).withShard s r).Ok := by
  -- every entry is an old one of the same shard, with the same value
  have horigin' : ∀ s' b x, (update cache.shards s r.1 s').entries.lookup b = some x →
      ∃ y, (cache.shards s').entries.lookup b = some y ∧ y.value = x.value := by
    intro s' b x hx
    by_cases hs : s' = s
    · subst hs
      rw [update_self] at hx
      exact hr.origin b x hx
    · rw [update_of_ne hs] at hx
      exact ⟨x, hx, rfl⟩
  refine ⟨hmc.deleteObjects hdel, fun s' => ?_, fun s' b x hx => ?_, ?_, fun p hp => ?_⟩
  · show (update cache.shards s r.1 s').Ok
    by_cases hs : s' = s
    · subst hs
      rw [update_self]
      exact hr.ok
    · rw [update_of_ne hs]
      exact hok.shards s'
  · obtain ⟨y, hy, hv⟩ := horigin' s' b x hx
    show x.value < mc.nextAddress
    rw [hnext, ← hv]
    exact hok.allocated s' b y hy
  · intro s1 b1 x1 s2 b2 x2 hx1 hx2 hv
    obtain ⟨y1, hy1, hv1⟩ := horigin' s1 b1 x1 hx1
    obtain ⟨y2, hy2, hv2⟩ := horigin' s2 b2 x2 hx2
    exact hok.owner s1 b1 y1 s2 b2 y2 hy1 hy2 (by rw [hv1, hv, hv2])
  · obtain ⟨hmem, hkept, hhandle⟩ := hreg p hp
    obtain ⟨c, b, e, hc, htable, he, hv⟩ := hok.cached p hmem
    refine ⟨c, b, ?_⟩
    by_cases hs : shardOf p.1 = s
    · rw [hs] at htable he
      obtain ⟨htable', e', he', hv'⟩ := hr.keep p.1 b e hkept htable he
      refine ⟨e', hhandle.trans hc, ?_, ?_, hv'.trans hv⟩
      · show (update cache.shards s r.1 (shardOf p.1)).table.lookup p.1 = some b
        rw [hs, update_self]
        exact htable'
      · show (update cache.shards s r.1 (shardOf p.1)).entries.lookup b = some e'
        rw [hs, update_self]
        exact he'
    · refine ⟨e, hhandle.trans hc, ?_, ?_, hv⟩
      · show (update cache.shards s r.1 (shardOf p.1)).table.lookup p.1 = some b
        rw [update_of_ne hs]
        exact htable
      · show (update cache.shards s r.1 (shardOf p.1)).entries.lookup b = some e
        rw [update_of_ne hs]
        exact he

lemma Ok.lookup (hok : cache.Ok) (key : Slice) : (cache.lookup key).1.Ok := by
  obtain ⟨hhash, hhandles, hnext⟩ := cache.container.lookup_frame key
  refine hok.withShard (hok.container.lookup key) hnext ?_ ((hok.shards (shardOf key)).lookup key)
    fun v hv => absurd hv not_mem_nil
  rw [hhash, hhandles]
  exact fun p hp => ⟨hp, trivial, rfl⟩

lemma Ok.eq_of_value (hok : cache.Ok) {a : Nat} {e : LRUHandle Nat} (he : (cache.shards s).entries.lookup a = some e)
    {p : Nat × ContainerHandle} (hp : p ∈ cache.container.handles) (hv : p.2.value = e.value) :
    e.inCache = true ∧ (e.key, p.1) ∈ cache.container.hashTable := by
  obtain ⟨key, hkey⟩ := hok.container.registered_of_mem hp
  obtain ⟨c, b, x, hc, htable, hx, hxv⟩ := hok.cached _ hkey
  rw [lookup_of_mem hok.container.handles hp] at hc
  cases hc
  obtain ⟨hs, rfl⟩ := hok.owner _ _ _ _ _ _ hx he (hxv.trans hv)
  dsimp only at hs hx htable
  rw [hs] at hx htable
  cases hx.symm.trans he
  obtain ⟨y, hy, hk, hi⟩ := (hok.shards s).table key b htable
  cases hy.symm.trans hx
  rw [hk]
  exact ⟨hi, hkey⟩

lemma Ok.release (hok : cache.Ok) {handle : CacheHandle} (hen : cache.Enabled (.release handle)) :
    (cache.release handle).Ok := by
  obtain ⟨e, he, hrefs⟩ := hen
  obtain ⟨hr, hdel⟩ := (hok.shards (shard handle.hash)).release he hrefs
  refine hok.withShard hok.container rfl (fun p hp => ⟨hp, trivial, rfl⟩) hr fun v hv p hp hpv => ?_
  obtain ⟨rfl, hin⟩ := hdel v hv
  rw [(hok.eq_of_value he hp hpv).1] at hin
  cases hin

lemma Ok.erase (hok : cache.Ok) (key : Slice) : (cache.erase key).Ok := by
  obtain ⟨hr, hdel⟩ := (hok.shards (shardOf key)).erase key
  have hmc := hok.container.erase key
  refine hok.withShard hmc (cache.container.erase_nextAddress key) (fun p hp => hok.container.erase_registered hp) hr
    fun v hv p hp hpv => ?_
  -- a handle that is still there belongs to another key
  obtain ⟨k, hk⟩ := hmc.registered_of_mem hp
  obtain ⟨hmem, hne, hlookup⟩ := hok.container.erase_registered hk
  obtain ⟨a, e, htable, he, rfl⟩ := hdel v hv
  obtain ⟨x, hx, hkey, -⟩ := (hok.shards (shardOf key)).table key a htable
  cases he.symm.trans hx
  rw [lookup_of_mem hmc.handles hp] at hlookup
  have hreg := (hok.eq_of_value he (mem_of_lookup hlookup.symm) hpv).2
  rw [hkey] at hreg
  have hnodup : (cache.container.hashTable.map Prod.snd).Nodup := by
    rw [hok.container.registered]
    exact hok.container.handles
  exact hne (congrArg Prod.fst (inj_on_of_nodup_map hnodup hmem hreg rfl))

lemma prune_eq (hidle : ∀ s < kNumShards, (cache.shards s).lru = []) : cache.prune = cache := by
  have hone : ∀ s < kNumShards, cache.withShard s (cache.shards s).prune = cache := by
    intro s hs
    rw [LRUCache.prune, LRUCache.evict_of_nil (hidle s hs), ShardedLRUCache.withShard, update_eq_self]
    rfl
  have hall : ∀ l : List Nat, (∀ s ∈ l, s < kNumShards) →
      l.foldl (fun cache s => cache.withShard s (cache.shards s).prune) cache = cache := by
    intro l hl
    induction l with
    | nil => rfl
    | cons s l ih =>
      rw [foldl_cons, hone s (hl s mem_cons_self)]
      exact ih fun s' hs' => hl s' (mem_cons_of_mem _ hs')
  exact hall _ fun s hs => mem_range.1 hs

variable (hok : cache.Ok)
include hok

lemma Ok.lookup_hashTable_eq_none (hkey : (cache.shards (shardOf key)).table.lookup key = none) :
    cache.container.hashTable.lookup key = none := by
  cases hl : cache.container.hashTable.lookup key with
  | none => rfl
  | some h =>
    obtain ⟨c, a, e, -, htable, -⟩ := hok.cached _ (mem_of_lookup hl)
    rw [hkey] at htable
    cases htable

lemma Ok.extend {c' : LRUCache Nat} (level : Nat) {t : TableObject} (ht : t.InRange)
    (hkey : (cache.shards (shardOf key)).table.lookup key = none)
    (hc : LRUCache.Extended (cache.shards (shardOf key)) c' key cache.container.nextAddress) :
    (⟨update cache.shards (shardOf key) c',
    (cache.container.newObject t).insert key level cache.container.nextAddress⟩ : ShardedLRUCache).Ok := by
  have hhash := hok.lookup_hashTable_eq_none hkey
  have hmc : ((cache.container.newObject t).insert key level cache.container.nextAddress).Ok :=
    hok.container.insert hhash ht
  obtain ⟨e, hev, hentries⟩ := hc.entries
  -- an entry is the new one, or an old one of the same shard
  have hcases : ∀ s b x, (update cache.shards (shardOf key) c' s).entries.lookup b = some x →
      (s = shardOf key ∧ b = (cache.shards (shardOf key)).nextAddress ∧ x.value = cache.container.nextAddress) ∨
        (cache.shards s).entries.lookup b = some x := by
    intro s b x hx
    by_cases hs : s = shardOf key
    · subst hs
      rw [update_self, hentries] at hx
      split_ifs at hx with hb
      · cases hx
        exact .inl ⟨rfl, hb, hev⟩
      · exact .inr hx
    · rw [update_of_ne hs] at hx
      exact .inr hx
  refine ⟨hmc, fun s => ?_, fun s b x hx => ?_, ?_, fun p hp => ?_⟩
  · show (update cache.shards (shardOf key) c' s).Ok
    by_cases hs : s = shardOf key
    · subst hs
      rw [update_self]
      exact hc.ok
    · rw [update_of_ne hs]
      exact hok.shards s
  · rw [insert_eq hok.container hhash]
    show x.value < cache.container.nextAddress + 2
    rcases hcases s b x hx with ⟨-, -, hv⟩ | hx
    · omega
    · have := hok.allocated s b x hx
      omega
  · intro s1 b1 x1 s2 b2 x2 hx1 hx2 hv
    rcases hcases s1 b1 x1 hx1 with ⟨rfl, rfl, hv1⟩ | hx1 <;> rcases hcases s2 b2 x2 hx2 with ⟨rfl, rfl, hv2⟩ | hx2
    · exact ⟨rfl, rfl⟩
    · have := hok.allocated s2 b2 x2 hx2
      omega
    · have := hok.allocated s1 b1 x1 hx1
      omega
    · exact hok.owner s1 b1 x1 s2 b2 x2 hx1 hx2 hv
  · rw [insert_eq hok.container hhash] at hp ⊢
    rcases mem_cons.1 hp with rfl | hp
    · refine ⟨⟨cache.container.nextAddress, level, t.bfNumer⟩, (cache.shards (shardOf key)).nextAddress, e, lookup_cons_self,
        ?_, ?_, hev⟩
      · show (update cache.shards (shardOf key) c' (shardOf key)).table.lookup key = _
        rw [update_self, hc.table, if_pos rfl]
      · show (update cache.shards (shardOf key) c' (shardOf key)).entries.lookup _ = _
        rw [update_self, hentries, if_pos rfl]
    · obtain ⟨c, a, x, hlookup, htable, hx, hv⟩ := hok.cached p hp
      have hh : p.2 ≠ cache.container.nextAddress + 1 := by
        have := hok.container.unusedHandle p.2 (mem_map_of_mem (mem_of_lookup hlookup))
        omega
      refine ⟨c, a, x, (lookup_cons_ne hh).trans hlookup, ?_, ?_, hv⟩
      · show (update cache.shards (shardOf key) c' (shardOf p.1)).table.lookup p.1 = some a
        by_cases hs : shardOf p.1 = shardOf key
        · rw [hs] at htable
          have hne : p.1 ≠ key := by
            rintro rfl
            rw [hkey] at htable
            cases htable
          rw [hs, update_self, hc.table, if_neg hne]
          exact htable
        · rw [update_of_ne hs]
          exact htable
      · show (update cache.shards (shardOf key) c' (shardOf p.1)).entries.lookup a = some x
        by_cases hs : shardOf p.1 = shardOf key
        · rw [hs] at hx
          rw [hs, update_self, hentries, if_neg (ne_of_lt ((hok.shards _).fresh a x hx))]
          exact hx
        · rw [update_of_ne hs]
          exact hx

lemma Ok.insert {level charge : Nat} {t : TableObject}
    (hen : cache.Enabled (.insert key level charge t)) (hk : cache.KeepsTables (.insert key level charge t)) :
    (cache.apply (.insert key level charge t)).Ok := by
  obtain ⟨hkey, hcap, hfits⟩ := hk
  obtain ⟨hext, hdel⟩ := (hok.shards (shardOf key)).insert (hashSlice key) cache.container.nextAddress hcap hkey hfits
  have hresult := hok.extend level hen.2 hkey hext
  have happly : cache.apply (.insert key level charge t) = ⟨update cache.shards (shardOf key)
          ((cache.shards (shardOf key)).insert key (hashSlice key) cache.container.nextAddress charge).1,
        (cache.container.newObject t).insert key level cache.container.nextAddress⟩ := by
    simp only [apply, ShardedLRUCache.insert, ShardedLRUCache.withShard]
    rw [show shard (hashSlice key) = shardOf key from rfl, hdel]
    rfl
  rw [happly]
  exact hresult

lemma step_ok (hc : cache.KeepsTables a) (hs : cache.step a = some cache') : cache'.Ok := by
  unfold step at hs
  split_ifs at hs with hen
  cases hs
  cases a with
  | insert key level charge t => exact hok.insert hen hc
  | lookup key => exact hok.lookup key
  | release handle => exact hok.release hen
  | erase key => exact hok.erase key
  | prune =>
    rw [apply, prune_eq hc]
    exact hok

end ShardedLRUCache

end RallyDB.Util
