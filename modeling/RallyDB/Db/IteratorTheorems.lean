import RallyDB.Db.Lemmas.DbIter
import RallyDB.Db.Theorems
import RallyDB.Table.MergingIterator

/-!
# Iterators show the map of the visible values
-/

namespace RallyDB.Db

open RallyDB.Lib Util List

variable {κ : Type*} [LinearOrder κ] {s : Nat} {l : List (Entry κ)}

def userPair (e : Entry κ) : κ × Slice := (e.1.userKey, e.2)

lemma userMap_eq (s : Nat) (l : List (Entry κ)) : userMap s l = (l.filter fun e => IsShown s l e).map userPair := rfl

lemma userMap_sorted (hl : SortedEntries l) : (userMap s l).Pairwise fun x y => x.1 < y.1 := by
  rw [userMap_eq, pairwise_map]
  refine List.Pairwise.imp_of_mem ?_ (List.Pairwise.filter _ hl)
  intro a b ha hb hlt
  obtain ⟨ha, hashown⟩ := mem_filter.1 ha
  refine lt_of_le_of_ne (InternalKey.user_le_of_le hlt.le) fun heq => ?_
  exact not_isShown_of_lt ha (of_decide_eq_true hashown).2.1 heq hlt (of_decide_eq_true (mem_filter.1 hb).2)

theorem mem_userMap_iff (hl : SortedEntries l) {u : κ} {v : Slice} :
    (u, v) ∈ userMap s l ↔ ∃ e, entryRead u s l = some e ∧ e.1.type = .value ∧ e.2 = v := by
  simp only [userMap_eq, mem_map, mem_filter, decide_eq_true_eq]
  constructor
  · rintro ⟨e, ⟨he, hshown⟩, hpair⟩
    obtain ⟨rfl, rfl⟩ := Prod.mk.inj hpair
    obtain ⟨before, after, rfl⟩ := append_of_mem he
    obtain ⟨htype, hvisible, hbefore⟩ := (isShown_iff hl).1 hshown
    refine ⟨e, find?_eq_some_iff_append.2 ⟨by simp [entryUser, entrySeq, hvisible], before, after, rfl, ?_⟩, htype, rfl⟩
    intro x hx
    have hno : ¬ (entryUser x = e.1.userKey ∧ entrySeq x ≤ s) := fun h => absurd h.2 (not_le.2 (hbefore x hx h.1))
    simp [hno]
  · rintro ⟨e, hread, htype, rfl⟩
    obtain ⟨he, before, after, rfl, hbefore⟩ := find?_eq_some_iff_append.1 hread
    obtain ⟨hkey, hvisible⟩ := of_decide_eq_true he
    refine ⟨e, ⟨by simp, (isShown_iff hl).2 ⟨htype, hvisible, fun x hx hxkey => ?_⟩⟩, Prod.ext hkey rfl⟩
    have hno := hbefore x hx
    simp only [entryUser, entrySeq, hxkey] at hno hkey
    simpa [hkey] using hno

variable (p : κ × Slice → Prop)

lemma find?_shown_map [DecidablePred p] (m : List (Entry κ)) :
    ((m.filter fun e => IsShown s l e).map userPair).find? (fun x => p x) =
    (m.find? fun e => IsShown s l e ∧ p (userPair e)).map userPair := by
  rw [find?_map, find?_filter]
  congr 2
  funext e
  simp

lemma find?_userMap [DecidablePred p] :
    (userMap s l).find? (fun x => p x) = (l.find? fun e => IsShown s l e ∧ p (userPair e)).map userPair :=
  find?_shown_map p l

lemma find?_userMap_reverse [DecidablePred p] :
    (userMap s l).reverse.find? (fun x => p x) = (l.reverse.find? fun e => IsShown s l e ∧ p (userPair e)).map userPair := by
  rw [userMap_eq, ← map_reverse, ← filter_reverse]
  exact find?_shown_map p l.reverse

structure Follows (s : Nat) (l : List (Entry κ)) (d : DBIter κ) (c : Cursor (κ × Slice)) : Prop where
  list : c.list = userMap s l
  shows : ∃ found, d.Shows s l found ∧ c.current = found.map userPair

variable {d : DBIter κ} {c : Cursor (κ × Slice)}

lemma Follows.iter_list (h : Follows s l d c) : d.iter.list = l := by
  obtain ⟨found, hshows, -⟩ := h.shows
  exact hshows.list

lemma Follows.valid (h : Follows s l d c) : d.valid = c.valid := by
  obtain ⟨found, hshows, hcurrent⟩ := h.shows
  rw [hshows.valid, Cursor.valid, hcurrent, Option.isSome_map]

lemma Follows.call (strings : KeyStrings κ) (hl : SortedEntries l) (call : IteratorCall κ) (h : Follows s l d c) :
    (d.call strings s call = none ∧ mapCall c call = none) ∨
    ∃ d' c', d.call strings s call = some d' ∧ mapCall c call = some c' ∧ Follows s l d' c' := by
  have hsorted : c.list.Pairwise fun x y => x.1 < y.1 := h.list ▸ userMap_sorted hl
  cases call with
  | seek target =>
    refine .inr ⟨_, _, rfl, rfl, by rw [Cursor.list_seek, h.list], _, DBIter.seek_shows hl h.iter_list target, ?_⟩
    rw [Cursor.current_seek, h.list]
    exact find?_userMap fun x => target ≤ x.1
  | seekToFirst =>
    refine .inr ⟨_, _, rfl, rfl, by rw [Cursor.list_seekToFirst, h.list], _, DBIter.seekToFirst_shows hl h.iter_list, ?_⟩
    rw [Cursor.current_seekToFirst, h.list, ← Cursor.find?_of_forall (p := fun _ => decide True) fun _ _ => rfl, find?_userMap]
    simp
  | seekToLast =>
    refine .inr ⟨_, _, rfl, rfl, by rw [Cursor.list_seekToLast, h.list], _, DBIter.seekToLast_shows hl h.iter_list, ?_⟩
    rw [Cursor.current_seekToLast, h.list, ← Cursor.find?_of_forall (p := fun _ => decide True) fun _ _ => rfl,
      find?_userMap_reverse]
    simp
  | next =>
    obtain ⟨found, hshows, hcurrent⟩ := h.shows
    have hvalid := h.valid
    cases found with
    | none =>
      have hd : d.valid = false := hshows.valid
      exact .inl ⟨by simp [DBIter.call, hd], by simp [mapCall, ← hvalid, hd]⟩
    | some e =>
      have hd : d.valid = true := hshows.valid
      refine .inr ⟨d.next strings s, c.next, by simp [DBIter.call, hd], by simp [mapCall, ← hvalid, hd],
        by rw [Cursor.list_next, h.list], _, DBIter.next_shows hl hshows, ?_⟩
      rw [Cursor.current_next hsorted hcurrent, h.list]
      exact find?_userMap fun x => e.1.userKey < x.1
  | prev =>
    obtain ⟨found, hshows, hcurrent⟩ := h.shows
    have hvalid := h.valid
    cases found with
    | none =>
      have hd : d.valid = false := hshows.valid
      exact .inl ⟨by simp [DBIter.call, hd], by simp [mapCall, ← hvalid, hd]⟩
    | some e =>
      have hd : d.valid = true := hshows.valid
      refine .inr ⟨d.prev strings s, c.prev, by simp [DBIter.call, hd], by simp [mapCall, ← hvalid, hd],
        by rw [Cursor.list_prev, h.list], _, DBIter.prev_shows hl hshows, ?_⟩
      rw [Cursor.current_prev hsorted hcurrent, h.list]
      exact find?_userMap_reverse fun x => x.1 < e.1.userKey

lemma Follows.shown (h : Follows s l d c) : (if d.valid then d.shown else none) = c.current := by
  obtain ⟨found, hshows, hcurrent⟩ := h.shows
  rw [hcurrent]
  cases hshows with
  | none hlist hvalid => simp [hvalid]
  | forward hlist hvalid hdir hiter hshown => simp [hvalid, DBIter.shown, hdir, hiter, userPair]
  | reverse hlist hvalid hdir hsaved hshown => simp [hvalid, DBIter.shown, hdir, hsaved.key, hsaved.value, userPair]

/-- Whatever calls are made, the iterator shows what a cursor on the map of the visible values shows. -/
theorem dbIter_shows_userMap (strings : KeyStrings κ) (s : Nat) (l : List (Entry κ)) (hl : SortedEntries l)
    (calls : List (IteratorCall κ)) :
    (run (DBIter.call strings s) (.new strings l) calls).map (fun d => (d.valid, if d.valid then d.shown else none)) =
    (run mapCall (.off (userMap s l)) calls).map fun c => (c.valid, c.current) := by
  have h0 : Follows s l (.new strings l) (.off (userMap s l)) := ⟨rfl, none, .none rfl rfl, rfl⟩
  rcases run_related (fun _ _ call h => Follows.call strings hl call h) h0 calls with
    ⟨hd, hc⟩ | ⟨d, c, hd, hc, h⟩
  · rw [hd, hc]
    rfl
  · rw [hd, hc, Option.map_some, Option.map_some, h.valid, ← h.shown, h.valid]

theorem dbIter_shows_userMap_sample :
    let l : List (Entry Slice) := [(⟨[1], 7, .value⟩, [17]), (⟨[1], 4, .value⟩, [14]), (⟨[1], 2, .deletion⟩, []),
      (⟨[2], 5, .deletion⟩, []), (⟨[2], 1, .value⟩, [21]), (⟨[3], 3, .value⟩, [33])]
    let calls : List (IteratorCall Slice) := [.seekToFirst, .next, .prev, .next, .prev]
    SortedEntries l ∧ (run (DBIter.call .bytes 5) (.new .bytes l) calls).map (fun d => (d.valid, if d.valid then d.shown else none)) =
      some (true, some ([1], [14])) := by
  intro l calls
  have hl : SortedEntries l := by unfold SortedEntries; decide
  refine ⟨hl, (dbIter_shows_userMap .bytes 5 l hl calls).trans (by decide)⟩

variable {ops : List (BatchOp κ)} {db : DB κ}

/-! ## Iterators over the database -/

/-- The entries of the iterators that `Version::AddIterators` adds: one for each level-0 file, one for each other level. -/
def Version.addIterators (v : Version κ) : List (List (Entry κ)) :=
  (v.files 0).map (·.entries) ++
    ((range kNumLevels).tail.filter fun level => !(v.files level).isEmpty).map fun level => fileEntries (v.files level)

def DB.iterators (db : DB κ) : List (List (Entry κ)) := db.mem :: (db.imm.toList ++ db.current.addIterators)

def DB.newInternalIterator (db : DB κ) : Table.MergingIterator (InternalKey κ) := ⟨db.iterators.map .off, none, .forward⟩

/-- What `NewIterator` returns at sequence `s` shows `m`: the merging iterator is a cursor on a list over which `DBIter`
shows the map `m`. -/
def DB.Shows (strings : KeyStrings κ) (db : DB κ) (s : Nat) (m : List (κ × Slice)) : Prop :=
  ∃ l, (∀ calls, (run Table.MergingIterator.call db.newInternalIterator calls).map (fun i => (i.valid, i.shown)) =
      (run mapCall (.off l) calls).map fun c => (c.valid, c.current)) ∧
    ∀ calls, (run (DBIter.call strings s) (.new strings l) calls).map (fun d => (d.valid, if d.valid then d.shown else none)) =
      (run mapCall (.off m) calls).map fun c => (c.valid, c.current)

lemma addIterators_perm (v : Version κ) : v.addIterators.flatten.Perm v.places.flatten := by
  have hlevels : ∀ ls : List Nat,
      ((ls.filter fun level => !(v.files level).isEmpty).map fun level => fileEntries (v.files level)).flatten =
        (ls.map fun level => fileEntries (v.files level)).flatten := by
    intro ls
    induction ls with
    | nil => rfl
    | cons level ls ih => cases h : v.files level <;> simp [h, ih]
  rw [Version.addIterators, Version.places, flatten_append, flatten_append, hlevels]
  exact (((perm_insertionSort _ _).symm.map _).flatten).append_right _

lemma iterators_perm (db : DB κ) : db.iterators.flatten.Perm db.places.flatten := by
  simp only [DB.iterators, DB.places, flatten_cons, flatten_append]
  exact ((addIterators_perm _).append_left _).append_left _

lemma DB.Ok.iterators_sorted (h : db.Ok ops) : ∀ l ∈ db.iterators, SortedEntries l := by
  simp only [iterators, Version.addIterators, mem_cons, mem_append, Option.mem_toList, mem_map, mem_filter]
  rintro l (rfl | himm | ⟨f, -, rfl⟩ | ⟨level, hlevel, rfl⟩)
  · exact h.mem
  · exact h.imm l himm
  · exact f.sorted
  · exact (h.files.disjoint level (mem_upperLevels.1 hlevel.1).1).sortedEntries

lemma DB.Ok.isMerge (h : db.Ok ops) : ∃ l, Table.MergingIterator.IsMerge db.iterators l ∧ ∀ e, e ∈ l ↔ e ∈ db.places.flatten := by
  have hdiff : db.iterators.flatten.Pairwise fun a b => a.1 ≠ b.1 := by
    refine ((iterators_perm db).pairwise_iff fun hne => hne.symm).2 (h.places_newestFirst.imp fun hlt heq => ?_)
    have := hlt (congrArg InternalKey.userKey heq)
    simp [entrySeq, heq] at this
  have hperm := perm_insertionSort (fun a b : Entry κ => a.1 ≤ b.1) db.iterators.flatten
  refine ⟨insertionSort (fun a b => a.1 ≤ b.1) db.iterators.flatten,
    ⟨h.iterators_sorted, (pairwise_flatten.1 hdiff).2, ?_, fun x => ?_⟩, fun e => ?_⟩
  · exact sorted_of_perm_ne (pairwise_insertionSort _ _) ((hperm.pairwise_iff fun hne => hne.symm).2 hdiff)
  · rw [hperm.mem_iff, mem_flatten]
  · exact (hperm.trans (iterators_perm db)).mem_iff

lemma DB.Ok.shows_latest (h : db.Ok ops) (strings : KeyStrings κ) (hs : db.Readable s) :
    ∃ m, (m.Pairwise fun x y => x.1 < y.1) ∧ (∀ u v, (u, v) ∈ m ↔ latestValue ops u s = some v) ∧ db.Shows strings s m := by
  obtain ⟨l, hmerge, hmem⟩ := h.isMerge
  have hsub : ∀ e ∈ l, e ∈ db.stored := fun e he => h.mem_places.1 ((hmem e).1 he)
  have hfirst : NewestFirst entryUser entrySeq l :=
    SortedEntries.newestFirst hmerge.union fun a ha b hb => h.seqInj a (hsub a ha) b (hsub b hb)
  have hread : ∀ u, entryRead u s l = entryRead u s db.places.flatten := by
    intro u
    ext e
    rw [entryRead, entryRead, readAt_eq_some_iff hfirst, readAt_eq_some_iff h.places_newestFirst,
      show {b | b ∈ l} = {b | b ∈ db.places.flatten} from Set.ext hmem]
  refine ⟨userMap s l, userMap_sorted hmerge.union, fun u v => ?_, l, fun calls => ?_, fun calls => ?_⟩
  · rw [mem_userMap_iff hmerge.union, ← h.get_latest hs, h.get_eq, hread]
    cases entryRead u s db.places.flatten with
    | none => simp [entryValue]
    | some e => cases h : e.1.type <;> simp [entryValue, h]
  · refine run_map_eq (fun _ _ => Table.MergingIterator.Follows.call hmerge) ?_ calls (fun _ _ hf => Prod.ext hf.shown.2 hf.shown.1)
    exact ⟨by simp [DB.newInternalIterator, Function.comp_def, Cursor.list], rfl, .inl ⟨rfl, rfl⟩⟩
  · refine run_map_eq (fun _ _ => Follows.call strings hmerge.union) ?_ calls (fun _ _ hf => Prod.ext hf.valid hf.shown)
    exact ⟨rfl, none, .none rfl rfl, rfl⟩

/-- In every run without manual compactions, an iterator at a readable sequence shows the sorted map of the latest
values, whatever calls are made. -/
theorem iterators_show_latest (o : Options κ) (as : List (Action κ)) (hauto : ∀ a ∈ as, a.Automatic) (db : DB κ)
    (hr : run (DB.step o) DB.init as = some db) (strings : KeyStrings κ) (s : Nat) (hs : db.Readable s) :
    ∃ m, (m.Pairwise fun x y => x.1 < y.1) ∧ (∀ u v, (u, v) ∈ m ↔ latestValue (history as) u s = some v) ∧
    db.Shows strings s m :=
  (run_automatic_ok hauto hr).shows_latest strings hs

theorem iterators_show_latest_sample : ∃ db m, run (DB.step sampleOptions) DB.init sampleRun = some db ∧ (1, [10]) ∈ m ∧
    db.Shows ⟨0, InternalKey.userKey⟩ 1 m := by
  obtain ⟨db, hdb, hs⟩ : ∃ db, run (DB.step sampleOptions) DB.init sampleRun = some db ∧ 1 ∈ db.snapshots :=
    exists_run (by decide +kernel)
  obtain ⟨m, -, hmem, hshows⟩ := iterators_show_latest _ _ (by decide) db hdb ⟨0, InternalKey.userKey⟩ 1 (.inr hs)
  exact ⟨db, m, hdb, (hmem 1 [10]).2 (by decide), hshows⟩

/-- Writes, flushes and compactions after a snapshot was taken change neither what is read nor what is iterated at it. -/
theorem snapshot_reads_stable (o : Options κ) (as bs : List (Action κ)) (hauto : ∀ a ∈ as ++ bs, a.Automatic) (db db' : DB κ)
    (hr : run (DB.step o) DB.init as = some db) (hr' : run (DB.step o) db bs = some db') (strings : KeyStrings κ) (s : Nat)
    (hs : db.Readable s) (hs' : db'.Readable s) :
    (∀ u, db'.get u s = db.get u s) ∧ ∃ m, db.Shows strings s m ∧ db'.Shows strings s m := by
  have h := run_automatic_ok (fun a ha => hauto a (mem_append_left _ ha)) hr
  have h' := run_automatic_ok hauto (run_append.2 ⟨db, hr, hr'⟩)
  have hlen : s ≤ (history as).length := by
    rw [← h.lastSequence]
    exact hs.elim le_of_eq (h.snapshots s)
  have hlatest : ∀ u, latestValue (history (as ++ bs)) u s = latestValue (history as) u s := by
    intro u
    have happend : history (as ++ bs) = history as ++ history bs := flatMap_append
    rw [latestValue, happend, take_append_of_le_length hlen, latestValue]
  obtain ⟨m, hm, hmem, hshows⟩ := h.shows_latest strings hs
  obtain ⟨m', hm', hmem', hshows'⟩ := h'.shows_latest strings hs'
  have heq : m = m' := hm.eq_of_mem_iff hm' fun x => by rw [hmem, hmem', hlatest]
  exact ⟨fun u => by rw [h.get_latest hs, h'.get_latest hs', hlatest], m, hshows, heq ▸ hshows'⟩

theorem snapshot_reads_stable_sample : ∃ db db', run (DB.step sampleOptions) DB.init (sampleRun.take 2) = some db ∧
    run (DB.step sampleOptions) db (sampleRun.drop 2) = some db' ∧ db'.get 1 1 = db.get 1 1 := by
  obtain ⟨db, hdb, hs, hrest⟩ : ∃ db, run (DB.step sampleOptions) DB.init (sampleRun.take 2) = some db ∧ 1 ∈ db.snapshots ∧
      (run (DB.step sampleOptions) db (sampleRun.drop 2)).any (fun db' => decide (1 ∈ db'.snapshots)) = true :=
    exists_run (by decide +kernel)
  obtain ⟨db', hdb', hs'⟩ := exists_run hrest
  exact ⟨db, db', hdb, hdb', (snapshot_reads_stable _ _ _ (by decide) db db' hdb hdb' ⟨0, InternalKey.userKey⟩ 1 (.inr hs)
    (.inr hs')).1 1⟩

end RallyDB.Db
