import RallyDB.Util.LruCache

/-!
# What the methods of a shard do to its entries
-/

namespace RallyDB.Util.LRUCache

open List Lib

variable {α : Type} {c c' : LRUCache α} {a b : Nat} {e : LRUHandle α} {key : Slice}

structure Ok (c : LRUCache α) : Prop where
  fresh : ∀ a e, c.entries.lookup a = some e → a < c.nextAddress
  table : ∀ k a, c.table.lookup k = some a → ∃ e, c.entries.lookup a = some e ∧ e.key = k ∧ e.inCache = true

lemma ok_new (capacity : Nat) : (new capacity : LRUCache α).Ok where
  fresh _ _ h := by cases h
  table _ _ h := by cases h

structure Changed (c c' : LRUCache α) (a : Nat) (e' : Option (LRUHandle α)) : Prop where
  entries : ∀ b, c'.entries.lookup b = if b = a then e' else c.entries.lookup b
  nextAddress : c'.nextAddress = c.nextAddress

variable {e' : Option (LRUHandle α)}

lemma Changed.self (h : Changed c c' a e') : c'.entries.lookup a = e' := by
  rw [h.entries, if_pos rfl]

lemma Changed.other (h : Changed c c' a e') (hb : b ≠ a) : c'.entries.lookup b = c.entries.lookup b := by
  rw [h.entries, if_neg hb]

lemma Changed.origin (h : Changed c c' a e') (he : c.entries.lookup a = some e)
    (hv : ∀ x ∈ e', x.value = e.value) {x : LRUHandle α} (hx : c'.entries.lookup b = some x) :
    ∃ y, c.entries.lookup b = some y ∧ y.value = x.value := by
  by_cases hb : b = a
  · subst hb
    rw [h.self] at hx
    exact ⟨e, he, (hv x hx).symm⟩
  · rw [h.other hb] at hx
    exact ⟨x, hx, rfl⟩

lemma changed_adjust (f : LRUHandle α → LRUHandle α) (he : c.entries.lookup a = some e)
    (hc : c'.entries = adjust c.entries a f) (hn : c'.nextAddress = c.nextAddress) : Changed c c' a (some (f e)) := by
  refine ⟨fun b => ?_, hn⟩
  rw [hc, lookup_adjust]
  split_ifs with hb
  · rw [hb, he]
    rfl
  · rfl

lemma Changed.trans {c'' : LRUCache α} {e'' : Option (LRUHandle α)} (h : Changed c c' a e')
    (h' : Changed c' c'' a e'') : Changed c c'' a e'' := by
  refine ⟨fun b => ?_, h'.nextAddress.trans h.nextAddress⟩
  rw [h'.entries, h.entries]
  split_ifs <;> rfl

lemma ref_changed (he : c.entries.lookup a = some e) :
    Changed c (c.ref a) a (some { e with refs := e.refs + 1 }) ∧ (c.ref a).table = c.table := by
  unfold ref
  rw [he]
  dsimp only
  split_ifs <;> refine ⟨changed_adjust (fun e => { e with refs := e.refs + 1 }) he ?_ ?_, ?_⟩ <;> rfl

lemma unref_changed (he : c.entries.lookup a = some e) :
    Changed c (c.unref a).1 a (if e.refs - 1 = 0 then none else some { e with refs := e.refs - 1 }) ∧
    (c.unref a).1.table = c.table ∧ (c.unref a).2 = if e.refs - 1 = 0 then [e.value] else [] := by
  unfold unref
  rw [he]
  dsimp only
  split_ifs with hzero hlast
  · refine ⟨⟨fun b => ?_, rfl⟩, rfl, rfl⟩
    exact lookup_remove
  · refine ⟨changed_adjust (fun e => { e with refs := e.refs - 1 }) he ?_ ?_, ?_, ?_⟩ <;> rfl
  · refine ⟨changed_adjust (fun e => { e with refs := e.refs - 1 }) he ?_ ?_, ?_, ?_⟩ <;> rfl

lemma removeKey_of_none (hk : c.table.lookup key = none) :
    c.removeKey key = ({ c with table := remove c.table key }, []) := by
  rw [removeKey, hk]
  rfl

lemma removeKey_changed (hk : c.table.lookup key = some a) (he : c.entries.lookup a = some e) :
    Changed c (c.removeKey key).1 a (if e.refs - 1 = 0 then none else some { e with inCache := false, refs := e.refs - 1 }) ∧
    (c.removeKey key).1.table = remove c.table key ∧ (c.removeKey key).2 = if e.refs - 1 = 0 then [e.value] else [] := by
  unfold removeKey finishErase
  rw [hk]
  dsimp only
  rw [he]
  dsimp only
  have hout : Changed c
      { c.lruRemove a with
        entries := adjust c.entries a fun e => { e with inCache := false }
        usage := c.usage - e.charge
        table := remove c.table key } a (some { e with inCache := false }) := by
    refine changed_adjust (fun e => { e with inCache := false }) he ?_ ?_ <;> rfl
  obtain ⟨hch, htable, hdel⟩ := unref_changed hout.self
  exact ⟨hout.trans hch, htable, hdel⟩

lemma Ok.change {e' : LRUHandle α} (hok : c.Ok) (hch : Changed c c' a (some e')) (htable : c'.table = c.table)
    (he : c.entries.lookup a = some e) (hkey : e'.key = e.key) (hin : e'.inCache = e.inCache) : c'.Ok := by
  refine ⟨fun b x hx => ?_, fun k b hb => ?_⟩
  · rw [hch.nextAddress]
    by_cases hba : b = a
    · rw [hba]
      exact hok.fresh a e he
    · rw [hch.other hba] at hx
      exact hok.fresh b x hx
  · rw [htable] at hb
    obtain ⟨x, hx, hk, hi⟩ := hok.table k b hb
    by_cases hba : b = a
    · subst hba
      cases he.symm.trans hx
      exact ⟨e', hch.self, hkey.trans hk, hin.trans hi⟩
    · exact ⟨x, (hch.other hba).trans hx, hk, hi⟩

lemma Ok.change_uncached (hok : c.Ok) (hch : Changed c c' a e')
    (htable : ∀ k b, c'.table.lookup k = some b → c.table.lookup k = some b ∧ b ≠ a)
    (he : c.entries.lookup a = some e) : c'.Ok := by
  refine ⟨fun b x hx => ?_, fun k b hb => ?_⟩
  · rw [hch.nextAddress]
    by_cases hba : b = a
    · rw [hba]
      exact hok.fresh a e he
    · rw [hch.other hba] at hx
      exact hok.fresh b x hx
  · obtain ⟨hb, hba⟩ := htable k b hb
    obtain ⟨x, hx, hk, hi⟩ := hok.table k b hb
    exact ⟨x, (hch.other hba).trans hx, hk, hi⟩

lemma Ok.table_remove (hok : c.Ok) (hk : c.table.lookup key = some a) {k : Slice}
    (hb : (remove c.table key).lookup k = some b) : c.table.lookup k = some b ∧ b ≠ a := by
  rw [lookup_remove] at hb
  split_ifs at hb with hne
  refine ⟨hb, fun hba => hne ?_⟩
  subst hba
  obtain ⟨e, he, hkey, -⟩ := hok.table key b hk
  obtain ⟨e', he', hkey', -⟩ := hok.table k b hb
  cases he.symm.trans he'
  rw [← hkey, ← hkey']

structure Shrinks (c c' : LRUCache α) (kept : Slice → Prop) : Prop where
  ok : c'.Ok
  origin : ∀ b x, c'.entries.lookup b = some x → ∃ y, c.entries.lookup b = some y ∧ y.value = x.value
  keep : ∀ k b e, kept k → c.table.lookup k = some b → c.entries.lookup b = some e →
    c'.table.lookup k = some b ∧ ∃ e', c'.entries.lookup b = some e' ∧ e'.value = e.value

lemma Shrinks.refl (hok : c.Ok) (kept : Slice → Prop) : Shrinks c c kept where
  ok := hok
  origin _ x hx := ⟨x, hx, rfl⟩
  keep _ _ e _ hb he := ⟨hb, e, he, rfl⟩

lemma Ok.shrinks_change {e' : LRUHandle α} (hok : c.Ok) (hch : Changed c c' a (some e'))
    (htable : c'.table = c.table) (he : c.entries.lookup a = some e) (hkey : e'.key = e.key)
    (hin : e'.inCache = e.inCache) (hv : e'.value = e.value) (kept : Slice → Prop) : Shrinks c c' kept where
  ok := hok.change hch htable he hkey hin
  origin b x hx := hch.origin he (by simpa using hv) hx
  keep k b x _ hb hx := by
    rw [htable]
    refine ⟨hb, ?_⟩
    by_cases hba : b = a
    · subst hba
      cases he.symm.trans hx
      exact ⟨e', hch.self, hv⟩
    · exact ⟨x, (hch.other hba).trans hx, rfl⟩

lemma Ok.shrinks_uncached (hok : c.Ok) (hch : Changed c c' a e')
    (htable : ∀ k b, c'.table.lookup k = some b → c.table.lookup k = some b ∧ b ≠ a)
    (he : c.entries.lookup a = some e) (hv : ∀ x ∈ e', x.value = e.value) {kept : Slice → Prop}
    (hkept : ∀ k b, kept k → c.table.lookup k = some b → c'.table.lookup k = some b) : Shrinks c c' kept where
  ok := hok.change_uncached hch htable he
  origin b x hx := hch.origin he hv hx
  keep k b x hk hb hx := by
    have hb' := hkept k b hk hb
    exact ⟨hb', x, (hch.other (htable k b hb').2).trans hx, rfl⟩

lemma Ok.lookup (hok : c.Ok) (key : Slice) : Shrinks c (c.lookup key).1 fun _ => True := by
  unfold LRUCache.lookup
  cases hk : c.table.lookup key with
  | none => exact .refl hok _
  | some a =>
    obtain ⟨e, he, -, -⟩ := hok.table key a hk
    obtain ⟨hch, htable⟩ := ref_changed he
    exact hok.shrinks_change hch htable he rfl rfl rfl _

lemma Ok.release (hok : c.Ok) (he : c.entries.lookup a = some e) (hrefs : (if e.inCache then 1 else 0) < e.refs) :
    Shrinks c (c.release a).1 (fun _ => True) ∧ ∀ v ∈ (c.release a).2, e.value = v ∧ e.inCache = false := by
  obtain ⟨hch, htable, hdel⟩ := unref_changed he
  unfold LRUCache.release
  rw [hdel]
  split_ifs at hch ⊢ with hlast
  · -- the cache had no reference, so the table does not lead to the entry
    have hin : e.inCache = false := by
      cases hi : e.inCache with
      | false => rfl
      | true =>
        rw [hi, if_pos rfl] at hrefs
        omega
    refine ⟨hok.shrinks_uncached hch (fun k b hb => ?_) he (by simp) fun k b _ hb => by rw [htable]; exact hb,
      fun v hv => ⟨(mem_singleton.1 hv).symm, hin⟩⟩
    rw [htable] at hb
    refine ⟨hb, fun hba => ?_⟩
    obtain ⟨x, hx, -, hi⟩ := hok.table k b hb
    subst hba
    cases he.symm.trans hx
    rw [hin] at hi
    cases hi
  · exact ⟨hok.shrinks_change hch htable he rfl rfl rfl _, fun v hv => absurd hv not_mem_nil⟩

lemma Ok.erase (hok : c.Ok) (key : Slice) : Shrinks c (c.erase key).1 (fun k => k ≠ key) ∧
    ∀ v ∈ (c.erase key).2, ∃ a e, c.table.lookup key = some a ∧ c.entries.lookup a = some e ∧ e.value = v := by
  unfold LRUCache.erase
  have hother : ∀ k b, k ≠ key → c.table.lookup k = some b → (remove c.table key).lookup k = some b := by
    intro k b hk hb
    rw [lookup_remove, if_neg hk]
    exact hb
  cases hk : c.table.lookup key with
  | none =>
    rw [removeKey_of_none hk]
    have htable : ∀ k b, (remove c.table key).lookup k = some b → c.table.lookup k = some b := by
      intro k b hb
      rw [lookup_remove] at hb
      split_ifs at hb
      exact hb
    refine ⟨⟨⟨hok.fresh, fun k b hb => hok.table k b (htable k b hb)⟩, fun b x hx => ⟨x, hx, rfl⟩, ?_⟩,
      fun v hv => absurd hv not_mem_nil⟩
    exact fun k b e hne hb he => ⟨hother k b hne hb, e, he, rfl⟩
  | some a =>
    obtain ⟨e, he, -, -⟩ := hok.table key a hk
    obtain ⟨hch, htable, hdel⟩ := removeKey_changed hk he
    refine ⟨hok.shrinks_uncached hch (fun k b hb => ?_) he (fun x hx => ?_) fun k b hne hb => ?_, fun v hv => ?_⟩
    · rw [htable] at hb
      exact hok.table_remove hk hb
    · split_ifs at hx with hlast
      · cases hx
      · cases hx
        rfl
    · rw [htable]
      exact hother k b hne hb
    · rw [hdel] at hv
      split_ifs at hv with hlast
      · exact ⟨a, e, rfl, he, (mem_singleton.1 hv).symm⟩
      · cases hv

/-! ## Insert -/

variable {charge : Nat}

lemma insert_eq {hash : UInt32} {value : α} (hcap : 0 < c.capacity)
    (hkey : c.table.lookup key = none) (hfits : c.usage + charge ≤ c.capacity ∨ c.lru = []) :
    c.insert key hash value charge = ({ c with
    entries := (c.nextAddress, ⟨value, charge, key, hash, true, 2⟩) :: c.entries
    inUse := c.inUse ++ [c.nextAddress]
    usage := c.usage + charge
    table := (key, c.nextAddress) :: remove c.table key
    nextAddress := c.nextAddress + 1 }, c.nextAddress, []) := by
  unfold insert
  dsimp only
  rw [if_pos hcap, hkey]
  unfold finishErase evict
  dsimp only
  rcases hfits with hle | hnil
  · split
    · rfl
    · rw [if_neg (by simpa using hle)]
      rfl
  · rw [hnil]
    rfl

structure Extended (c c' : LRUCache α) (key : Slice) (value : α) : Prop where
  ok : c'.Ok
  entries : ∃ e, e.value = value ∧ ∀ b, c'.entries.lookup b = if b = c.nextAddress then some e else c.entries.lookup b
  table : ∀ k, c'.table.lookup k = if k = key then some c.nextAddress else c.table.lookup k

lemma Ok.insert (hok : c.Ok) (hash : UInt32) (value : α) (hcap : 0 < c.capacity)
    (hkey : c.table.lookup key = none) (hfits : c.usage + charge ≤ c.capacity ∨ c.lru = []) :
    Extended c (c.insert key hash value charge).1 key value ∧ (c.insert key hash value charge).2.2 = [] := by
  rw [insert_eq hcap hkey hfits]
  have hentries : ∀ b, List.lookup b ((c.nextAddress, (⟨value, charge, key, hash, true, 2⟩ : LRUHandle α)) :: c.entries) =
      if b = c.nextAddress then some ⟨value, charge, key, hash, true, 2⟩ else c.entries.lookup b := by
    intro b
    split_ifs with hb
    · rw [hb, lookup_cons_self]
    · rw [lookup_cons_ne hb]
  have htable : ∀ k, List.lookup k ((key, c.nextAddress) :: remove c.table key) =
      if k = key then some c.nextAddress else c.table.lookup k := by
    intro k
    split_ifs with hk
    · rw [hk, lookup_cons_self]
    · rw [lookup_cons_ne hk, lookup_remove, if_neg hk]
  refine ⟨⟨⟨fun b x hx => ?_, fun k b hb => ?_⟩, ⟨_, rfl, hentries⟩, htable⟩, rfl⟩
  · rw [hentries] at hx
    split_ifs at hx with hb
    · exact hb ▸ lt_add_one _
    · exact Nat.lt_succ_of_lt (hok.fresh b x hx)
  · rw [htable] at hb
    split_ifs at hb with hk
    · cases hb
      exact ⟨_, by rw [hentries, if_pos rfl], hk.symm, rfl⟩
    · obtain ⟨x, hx, hxk, hi⟩ := hok.table k b hb
      refine ⟨x, ?_, hxk, hi⟩
      rw [hentries, if_neg (ne_of_lt (hok.fresh b x hx))]
      exact hx

variable {full : LRUCache α → Bool}

lemma evict_of_nil (hnil : c.lru = []) : c.evict full = (c, []) := by
  unfold evict
  rw [hnil]

def NoneIdle (c : LRUCache α) (key : Slice) : Prop := ∀ b ∈ c.lru, ∀ e, c.entries.lookup b = some e → e.key ≠ key

lemma unref_origin {b : Nat} {x : LRUHandle α} (hx : (c.unref a).1.entries.lookup b = some x) :
    ∃ y, c.entries.lookup b = some y ∧ y.key = x.key := by
  cases he : c.entries.lookup a with
  | none =>
    rw [unref, he] at hx
    exact ⟨x, hx, rfl⟩
  | some e =>
    rw [(unref_changed he).1.entries] at hx
    split_ifs at hx with hb
    · cases hx
      exact ⟨e, hb ▸ he, rfl⟩
    · exact ⟨x, hx, rfl⟩

lemma lru_unref_subset (he : ∀ e, c.entries.lookup a = some e → e.inCache = false) : (c.unref a).1.lru ⊆ c.lru := by
  unfold unref
  split
  · exact fun _ h => h
  · rename_i e hl
    dsimp only
    split_ifs with hzero hidle
    · exact fun _ h => h
    · rw [he e hl] at hidle
      exact absurd hidle.1 Bool.false_ne_true
    · exact fun _ h => h

lemma NoneIdle.removeKey {k : Slice} (h : c.NoneIdle key) : (c.removeKey k).1.NoneIdle key := by
  unfold LRUCache.removeKey finishErase
  split
  · exact h
  · rename_i a _
    dsimp only
    split
    · exact h
    · rename_i e he
      intro b hb x hx
      obtain ⟨y, hy, hkey⟩ := unref_origin hx
      have hmem := mem_of_mem_erase (lru_unref_subset (fun e' he' => ?_) hb)
      · dsimp only at hy
        rw [lookup_adjust] at hy
        split_ifs at hy with hba
        · obtain ⟨z, hz, rfl⟩ := Option.map_eq_some_iff.1 hy
          exact hkey ▸ h b hmem z hz
        · exact hkey ▸ h b hmem y hy
      · dsimp only at he'
        rw [lookup_adjust, if_pos rfl] at he'
        obtain ⟨z, -, rfl⟩ := Option.map_eq_some_iff.1 he'
        rfl

lemma table_removeKey (c : LRUCache α) (k : Slice) : (c.removeKey k).1.table = remove c.table k := by
  unfold removeKey finishErase
  split
  · rfl
  · rename_i a _
    dsimp only
    split
    · rfl
    · unfold unref
      split
      · rfl
      · dsimp only
        split_ifs <;> rfl

lemma table_evict (hidle : c.NoneIdle key) : (c.evict full).1.table.lookup key = c.table.lookup key := by
  fun_induction evict full c with
  | case1 => rfl
  | case2 => rfl
  | case3 c old rest hlru hfull e he r hlt _ ih =>
    have hkey : key ≠ e.key := fun hk => hidle old (by rw [hlru]; exact mem_cons_self) e he hk.symm
    rw [ih hidle.removeKey]
    show (c.removeKey e.key).1.table.lookup key = _
    rw [table_removeKey, lookup_remove, if_neg hkey]
  | case4 c old rest hlru hfull e he r hlt =>
    have hkey : key ≠ e.key := fun hk => hidle old (by rw [hlru]; exact mem_cons_self) e he hk.symm
    show (c.removeKey e.key).1.table.lookup key = _
    rw [table_removeKey, lookup_remove, if_neg hkey]
  | case5 => rfl

lemma table_insert {hash : UInt32} {value : α} (hcap : 0 < c.capacity) (hkey : c.table.lookup key = none)
    (hidle : c.NoneIdle key) (hfresh : c.nextAddress ∉ c.lru) :
    (c.insert key hash value charge).1.table.lookup key = some c.nextAddress := by
  unfold insert
  dsimp only
  rw [if_pos hcap, hkey]
  unfold finishErase
  dsimp only
  rw [table_evict]
  · exact lookup_cons_self
  · intro b hb e he
    rw [lookup_cons_ne (ne_of_mem_of_not_mem hb hfresh)] at he
    exact hidle b hb e he

end RallyDB.Util.LRUCache
