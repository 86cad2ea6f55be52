import RallyDB.Util.MultiContainer

/-!
# The handles and lists of the multi container
-/

namespace RallyDB.Util.MultiContainer

open Table Db List MultiContainer Lib Prod

variable {mc mc' : MultiContainer} {h k : Nat} {c : ContainerHandle} {t : TableObject} {key : Slice}

def Linked (mc : MultiContainer) (h : Nat) : Prop :=
  (h ∈ mc.handles.map Prod.fst → ∃ p, Lib.LinkedAt mc.containers h p) ∧
    (h ∉ mc.handles.map Prod.fst → Lib.Unlinked mc.containers h)

structure Ok (mc : MultiContainer) : Prop where
  handles : (mc.handles.map Prod.fst).Nodup
  objects : (mc.objects.map Prod.fst).Nodup
  values : (mc.handles.map fun p => p.2.value).Nodup
  unusedHandle : ∀ a ∈ mc.handles.map Prod.fst, a < mc.nextAddress
  unusedObject : ∀ a ∈ mc.objects.map Prod.fst, a < mc.nextAddress
  inMemory : ∀ p ∈ mc.handles, p.2.value ∈ mc.objects.map Prod.fst
  registered : mc.hashTable.map Prod.snd = mc.handles.map Prod.fst
  keys : (mc.hashTable.map Prod.fst).Nodup
  inRange : ∀ p ∈ mc.objects, p.2.InRange
  linked : ∀ h, mc.Linked h

lemma ok_new : new.Ok where
  handles := nodup_nil
  objects := nodup_nil
  values := nodup_nil
  unusedHandle := by simp [new]
  unusedObject := by simp [new]
  inMemory := by simp [new]
  registered := rfl
  keys := nodup_nil
  inRange := by simp [new]
  linked := fun _ => ⟨fun hmem => absurd hmem not_mem_nil, fun _ _ => rfl⟩

/-! ## Looking at handles and objects -/

lemma table_eq_some : mc.table h = some (c, t) ↔ mc.handles.lookup h = some c ∧ mc.objects.lookup c.value = some t := by
  unfold table
  rw [Option.bind_eq_some_iff]
  constructor
  · rintro ⟨c', hc, ht⟩
    obtain ⟨t', ht', he⟩ := Option.map_eq_some_iff.1 ht
    cases he
    exact ⟨hc, ht'⟩
  · rintro ⟨hc, ht⟩
    exact ⟨c, hc, by rw [ht]; rfl⟩

lemma mem_handles_of_table (ht : mc.table h = some (c, t)) : (h, c) ∈ mc.handles :=
  mem_of_lookup (table_eq_some.1 ht).1

section

variable (hok : mc.Ok)
include hok

lemma Ok.table_of_mem (hc : (h, c) ∈ mc.handles) : ∃ t, mc.table h = some (c, t) := by
  obtain ⟨⟨a, t⟩, ht, ha⟩ := mem_map.1 (hok.inMemory _ hc)
  refine ⟨t, table_eq_some.2 ⟨lookup_of_mem hok.handles hc, ?_⟩⟩
  rw [← ha]
  exact lookup_of_mem hok.objects ht

lemma Ok.inRange_of_table (ht : mc.table h = some (c, t)) : t.InRange :=
  hok.inRange _ (mem_of_lookup (table_eq_some.1 ht).2)

lemma Ok.value_inj {c' : ContainerHandle} (hc : (h, c) ∈ mc.handles) (hc' : (k, c') ∈ mc.handles)
    (hv : c.value = c'.value) : h = k :=
  congrArg fst (inj_on_of_nodup_map hok.values hc hc' hv)

lemma Ok.mem_of_registered {p : Slice × Nat} (hp : p ∈ mc.hashTable) : ∃ c, (p.2, c) ∈ mc.handles := by
  have hmem : p.2 ∈ mc.handles.map fst := by
    rw [← hok.registered]
    exact mem_map_of_mem hp
  obtain ⟨⟨a, c⟩, hc, rfl⟩ := mem_map.1 hmem
  exact ⟨c, hc⟩

lemma Ok.atMostOnce (h : Nat) : Lib.AtMostOnce mc.containers h := by
  by_cases hmem : h ∈ mc.handles.map fst
  · exact .inr ((hok.linked h).1 hmem)
  · exact .inl ((hok.linked h).2 hmem)

lemma Ok.mem_handles_of_linked {p : Nat × Nat} (hmem : h ∈ mc.containers p) : ∃ c, (h, c) ∈ mc.handles := by
  by_contra hno
  have hnot : h ∉ mc.handles.map fst := by
    intro hin
    obtain ⟨⟨a, c⟩, hc, rfl⟩ := mem_map.1 hin
    exact hno ⟨c, hc⟩
  have hpos := count_pos_iff.2 hmem
  rw [(hok.linked h).2 hnot p] at hpos
  cases hpos

end

/-! ## Changes of links -/

lemma Linked.congr (hl : mc.Linked h) (hh : mc'.handles.map fst = mc.handles.map fst)
    (hc : ∀ p, (mc'.containers p).count h = (mc.containers p).count h) : mc'.Linked h := by
  unfold Linked Lib.Unlinked Lib.LinkedAt at hl ⊢
  simp only [hh, hc]
  exact hl

lemma Ok.withContainers (hok : mc.Ok) {ls : Nat × Nat → List Nat}
    (hl : ∀ h, ({ mc with containers := ls } : MultiContainer).Linked h) :
    ({ mc with containers := ls } : MultiContainer).Ok := { hok with linked := hl }

lemma removeFromContainers_eq (hs : List Nat) :
    mc.removeFromContainers hs = { mc with containers := hs.foldl unlink mc.containers } := by
  unfold removeFromContainers
  induction hs generalizing mc with
  | nil => rfl
  | cons h hs ih =>
    rw [foldl_cons, ih]
    rfl

def levelOf (mc : MultiContainer) (h : Nat) : Nat := ((mc.handles.lookup h).map ContainerHandle.level).getD 0

variable {hs : List Nat} {n v level : Nat}

lemma addToContainers_eq (hin : ∀ h ∈ hs, ∃ c, mc.handles.lookup h = some c) (hn : n ≤ kAllFilterUnitsNumber) :
    mc.addToContainers hs n =
    { mc with containers := hs.foldl (fun ls h => push ls (mc.levelOf h, n) h) mc.containers } := by
  unfold addToContainers
  rw [if_neg (by omega)]
  induction hs generalizing mc with
  | nil => rfl
  | cons h hs ih =>
    obtain ⟨c, hc⟩ := hin h mem_cons_self
    rw [foldl_cons, hc]
    dsimp only
    have hin' : ∀ k ∈ hs, ∃ c', (mc.addToHead c.level n h).handles.lookup k = some c' :=
      fun k hk => hin k (mem_cons_of_mem _ hk)
    have hlevel : mc.levelOf h = c.level := by
      rw [levelOf, hc]
      rfl
    rw [ih hin', foldl_cons, hlevel]
    rfl

lemma relink_eq (hin : ∀ h ∈ hs, ∃ c, mc.handles.lookup h = some c) (hn : n ≤ kAllFilterUnitsNumber) :
    (mc.removeFromContainers hs).addToContainers hs n =
    { mc with containers := relinkAll mc.containers (fun h => (mc.levelOf h, n)) hs } := by
  have hin' : ∀ h ∈ hs, ∃ c, (mc.removeFromContainers hs).handles.lookup h = some c := by
    rw [removeFromContainers_eq]
    exact hin
  rw [addToContainers_eq hin' hn, removeFromContainers_eq]
  rfl

lemma Ok.relinkAll (hok : mc.Ok) (hnodup : hs.Nodup) (hin : ∀ h ∈ hs, ∃ c, mc.handles.lookup h = some c)
    (f : Nat → Nat × Nat) : ({ mc with containers := relinkAll mc.containers f hs } : MultiContainer).Ok := by
  refine hok.withContainers fun h => ?_
  by_cases hmem : h ∈ hs
  · obtain ⟨c, hc⟩ := hin h hmem
    refine ⟨fun _ => ⟨f h, linkedAt_relinkAll hnodup hmem (hok.atMostOnce h)⟩, fun hno => ?_⟩
    exact absurd (mem_map_of_mem (mem_of_lookup hc)) hno
  · exact (hok.linked h).congr rfl (count_relinkAll_of_not_mem hmem)

lemma table_modifyObject (f : TableObject → TableObject) : (mc.modifyObject v f).table h =
    (mc.table h).map fun p => if p.1.value = v then (p.1, f p.2) else p := by
  unfold table modifyObject
  dsimp only
  cases hc : mc.handles.lookup h with
  | none => rfl
  | some c =>
    rw [Option.bind_some, Option.bind_some, lookup_adjust]
    split_ifs with hv <;> cases mc.objects.lookup c.value <;> simp [hv]

lemma Ok.modifyObject (hok : mc.Ok) {f : TableObject → TableObject}
    (hf : ∀ t, mc.objects.lookup v = some t → (f t).InRange) : (mc.modifyObject v f).Ok where
  handles := hok.handles
  objects := by
    rw [MultiContainer.modifyObject, Lib.keys_adjust]
    exact hok.objects
  values := hok.values
  unusedHandle := hok.unusedHandle
  unusedObject := by
    rw [MultiContainer.modifyObject, Lib.keys_adjust]
    exact hok.unusedObject
  inMemory := by
    rw [MultiContainer.modifyObject, Lib.keys_adjust]
    exact hok.inMemory
  registered := hok.registered
  keys := hok.keys
  inRange := by
    intro p hp
    obtain ⟨⟨a, t⟩, ht, rfl⟩ := mem_map.1 hp
    dsimp only
    split_ifs with ha
    · subst ha
      exact hf t (Lib.lookup_of_mem hok.objects ht)
    · exact hok.inRange _ ht
  linked := hok.linked

/-! ## Insert, lookup and erase -/

lemma insert_eq (hok : mc.Ok) (hkey : mc.hashTable.lookup key = none) : (mc.newObject t).insert key level mc.nextAddress =
    { objects := (mc.nextAddress, t) :: mc.objects
      handles := (mc.nextAddress + 1, ⟨mc.nextAddress, level, t.bfNumer⟩) :: mc.handles
      containers := push mc.containers (t.bfNumer, level) (mc.nextAddress + 1)
      hashTable := (key, mc.nextAddress + 1) :: mc.hashTable
      charger := mc.charger + t.bfChange
      nextAddress := mc.nextAddress + 2 } := by
  have hnot : key ∉ mc.hashTable.map fst := by
    intro hmem
    obtain ⟨⟨key', a⟩, hp, rfl⟩ := mem_map.1 hmem
    have hfound := lookup_of_mem hok.keys hp
    dsimp only at hkey
    rw [hkey] at hfound
    cases hfound
  simp [insert, newObject, addToHead, remove_of_not_mem hnot]

lemma Ok.insert (hok : mc.Ok) (hkey : mc.hashTable.lookup key = none) (ht : t.InRange) :
    ((mc.newObject t).insert key level mc.nextAddress).Ok := by
  have hnotH : mc.nextAddress + 1 ∉ mc.handles.map fst := fun hmem => by
    have := hok.unusedHandle _ hmem
    omega
  have hnotO : mc.nextAddress ∉ mc.objects.map fst := fun hmem => lt_irrefl _ (hok.unusedObject _ hmem)
  rw [insert_eq hok hkey]
  refine ⟨?_, ?_, ?_, ?_, ?_, ?_, ?_, ?_, ?_, ?_⟩
  · exact nodup_cons.2 ⟨hnotH, hok.handles⟩
  · exact nodup_cons.2 ⟨hnotO, hok.objects⟩
  · refine nodup_cons.2 ⟨fun hmem => ?_, hok.values⟩
    obtain ⟨p, hp, hv⟩ := mem_map.1 hmem
    have hin := hok.inMemory p hp
    rw [show p.2.value = mc.nextAddress from hv] at hin
    exact hnotO hin
  · intro a ha
    rcases mem_cons.1 ha with rfl | ha
    · exact lt_add_one _
    · exact Nat.lt_add_right 2 (hok.unusedHandle a ha)
  · intro a ha
    rcases mem_cons.1 ha with rfl | ha
    · show mc.nextAddress < mc.nextAddress + 2
      omega
    · exact Nat.lt_add_right 2 (hok.unusedObject a ha)
  · intro p hp
    rcases mem_cons.1 hp with rfl | hp
    · exact mem_cons_self
    · exact mem_cons_of_mem _ (hok.inMemory p hp)
  · simp [hok.registered]
  · refine nodup_cons.2 ⟨fun hmem => ?_, hok.keys⟩
    obtain ⟨⟨key', a⟩, hp, rfl⟩ := mem_map.1 hmem
    have hfound := lookup_of_mem hok.keys hp
    dsimp only at hkey
    rw [hkey] at hfound
    cases hfound
  · intro p hp
    rcases mem_cons.1 hp with rfl | hp
    · exact ht
    · exact hok.inRange p hp
  · intro h
    by_cases hh : h = mc.nextAddress + 1
    · subst hh
      refine ⟨fun _ => ⟨_, ((hok.linked _).2 hnotH).push _⟩, fun hno => absurd mem_cons_self hno⟩
    · have hl := hok.linked h
      unfold Linked Lib.Unlinked Lib.LinkedAt at hl ⊢
      simpa [hh, count_push_ne hh] using hl

lemma lookup_eq (hl : mc.hashTable.lookup key = some h) (hc : mc.handles.lookup h = some c) : (mc.lookup key).1 =
    { mc with containers := push (unlink mc.containers h) (c.bfNumber, c.level) h } := by
  unfold lookup
  rw [hl]
  dsimp only
  rw [hc]
  rfl

lemma lookup_of_none (hl : mc.hashTable.lookup key = none) : (mc.lookup key).1 = mc := by
  unfold lookup
  rw [hl]

lemma erase_eq (hl : mc.hashTable.lookup key = some h) : mc.erase key = { mc with
    handles := remove mc.handles h
    containers := unlink mc.containers h
    hashTable := remove mc.hashTable key } := by
  unfold erase
  rw [hl]
  rfl

lemma erase_of_none (hl : mc.hashTable.lookup key = none) : mc.erase key = mc := by
  unfold erase
  rw [hl]

lemma Ok.lookup_some (hok : mc.Ok) (hl : mc.hashTable.lookup key = some h) : ∃ c, (h, c) ∈ mc.handles :=
  hok.mem_of_registered (mem_of_lookup hl)

lemma Ok.lookup (hok : mc.Ok) (key : Slice) : (mc.lookup key).1.Ok := by
  cases hl : mc.hashTable.lookup key with
  | none =>
    rw [lookup_of_none hl]
    exact hok
  | some h =>
    obtain ⟨c, hc⟩ := hok.lookup_some hl
    rw [lookup_eq hl (lookup_of_mem hok.handles hc)]
    refine hok.withContainers fun k => ?_
    by_cases hk : k = h
    · subst hk
      exact ⟨fun _ => ⟨_, (hok.atMostOnce k).relink _⟩, fun hno => absurd (mem_map_of_mem hc) hno⟩
    · exact (hok.linked k).congr rfl (count_relink_ne hk)

lemma Ok.erase (hok : mc.Ok) (key : Slice) : (mc.erase key).Ok := by
  cases hl : mc.hashTable.lookup key with
  | none =>
    rw [erase_of_none hl]
    exact hok
  | some h =>
    rw [erase_eq hl]
    have hsub : (remove mc.handles h).Sublist mc.handles := filter_sublist
    have hmem := mem_of_lookup hl
    refine ⟨hok.handles.sublist (hsub.map _), hok.objects, hok.values.sublist (hsub.map _),
      fun a ha => hok.unusedHandle a ((hsub.map _).subset ha), hok.unusedObject,
      fun p hp => hok.inMemory p (hsub.subset hp), ?_, hok.keys.sublist (filter_sublist.map _), hok.inRange, ?_⟩
    · exact map_remove_eq hok.keys (hok.registered ▸ hok.handles) hok.registered hmem
    · intro k
      by_cases hk : k = h
      · subst hk
        refine ⟨fun hin => absurd hin ?_, fun _ => (hok.atMostOnce k).unlink⟩
        simp [remove]
      · have hl := hok.linked k
        have hin : k ∈ (remove mc.handles h).map fst ↔ k ∈ mc.handles.map fst := by
          simp [remove, hk]
        unfold Linked Lib.Unlinked Lib.LinkedAt at hl ⊢
        simpa only [hin, count_unlink_ne hk] using hl

end RallyDB.Util.MultiContainer
