import RallyDB.Db.DbIter
import RallyDB.Lib.Machine
import RallyDB.Table.Lemmas.Block

/-!
# The iterator of a block is a cursor on its entries
-/

namespace RallyDB.Table

/-! ## The moves of a block iterator over the items of the block -/

section

open Util Lib List BlockIter Item Cursor
open Cursor (list onFirst onLast)

variable {b : BlockBuilder} {items A B C : List Item} {i k : Item} {it it' : BlockIter}

def sizeOf (A : List Item) : Nat := (A.flatMap Item.bytes).length

lemma sizeOf_append (A B : List Item) : sizeOf (A ++ B) = sizeOf A + sizeOf B := by
  rw [sizeOf, flatMap_append, length_append]
  rfl

lemma sizeOf_cons_pos (i : Item) (A : List Item) : 0 < sizeOf (i :: A) := by
  have := i.bytes_pos
  rw [sizeOf, flatMap_cons, length_append]
  omega

variable {A₁ B₁ : List Item}

lemma exists_append_of_sizeOf_le (h : A ++ B = A₁ ++ B₁) (hle : sizeOf A₁ ≤ sizeOf A) : ∃ C, A = A₁ ++ C ∧ B₁ = C ++ B := by
  rcases append_eq_append_iff.1 h with ⟨C, rfl, hC⟩ | ⟨C, rfl, hC⟩
  · cases C with
    | nil => exact ⟨[], by simp, by simpa using hC.symm⟩
    | cons c C =>
      have := sizeOf_cons_pos c C
      rw [sizeOf_append] at hle
      omega
  · exact ⟨C, rfl, hC⟩

lemma exists_between_of_lt (h : A ++ i :: B = A₁ ++ k :: B₁) (hlt : sizeOf A₁ < sizeOf A) : ∃ C, A = A₁ ++ k :: C := by
  obtain ⟨C, rfl, hC⟩ := exists_append_of_sizeOf_le h hlt.le
  cases C with
  | nil => simp at hlt
  | cons c C =>
    cases hC
    exact ⟨C, rfl⟩

lemma mem_of_sizeOf_le (h : A ++ i :: B = A₁ ++ k :: B₁) (hle : sizeOf A₁ ≤ sizeOf A) : k ∈ A ++ [i] := by
  obtain ⟨C, rfl, hC⟩ := exists_append_of_sizeOf_le h hle
  cases C with
  | nil | cons c C =>
    cases hC
    simp

/-! ## Where an iterator stands -/

structure Before (b : BlockBuilder) (A B : List Item) (it : BlockIter) : Prop where
  iter : IterOf b it
  next : it.nextEntryOffset = sizeOf A
  chain : ItemsFrom it.key B
  restart : it.restartIndex < b.restarts.length
  point : it.getRestartPoint it.restartIndex ≤ sizeOf A

structure IterAt (b : BlockBuilder) (A : List Item) (i : Item) (B : List Item) (it : BlockIter) : Prop where
  entry : it.entry = some i.entry
  key : it.key = i.key
  current : it.current = sizeOf A
  point : it.getRestartPoint it.restartIndex ≤ sizeOf A
  after : Before b (A ++ [i]) B it

inductive Stands (b : BlockBuilder) (items : List Item) : BlockIter → Cursor (Slice × Slice) → Prop
  | off {it : BlockIter} (iter : IterOf b it) (invalid : it.valid = false) :
      Stands b items it (.off (items.map Item.entry))
  | on {it : BlockIter} {A : List Item} {i : Item} {B : List Item} (split : items = A ++ i :: B) (at_item : IterAt b A i B it) :
      Stands b items it (.on (A.map Item.entry).reverse i.entry (B.map Item.entry))

variable {c : Cursor (Slice × Slice)}

lemma Stands.list (h : Stands b items it c) : c.list = items.map Item.entry := by
  cases h with
  | off iter invalid => rfl
  | on split at_item => simp [list, split]

lemma Stands.iter (h : Stands b items it c) : IterOf b it := by
  cases h with
  | off iter invalid => exact iter
  | on split at_item => exact at_item.after.iter

lemma Stands.entry (h : Stands b items it c) : it.entry = c.current := by
  cases h with
  | off iter invalid => simp [BlockIter.entry, invalid, Lib.Cursor.current]
  | on split at_item => exact at_item.entry

lemma IterAt.valid (h : IterAt b A i B it) : it.valid = true := by
  have hentry := h.entry
  rw [BlockIter.entry] at hentry
  by_contra hvalid
  rw [if_neg hvalid] at hentry
  cases hentry

lemma Stands.valid (h : Stands b items it c) : it.valid = c.valid := by
  cases h with
  | off iter invalid => exact invalid
  | on split at_item => exact at_item.valid

/-! ## Reading the next entry -/

lemma getRestartPoint_congr (hdata : it'.data = it.data) (hrestarts : it'.restarts = it.restarts) (index : Nat) :
    it'.getRestartPoint index = it.getRestartPoint index := by
  rw [getRestartPoint, getRestartPoint, hdata, hrestarts]

lemma parseNextKey_fields (h : it.parseNextKey = (it', true)) :
    it'.data = it.data ∧ it'.restarts = it.restarts ∧ it'.numRestarts = it.numRestarts ∧
    it'.current = it.nextEntryOffset ∧ it'.restartIndex = it.advanceRestart it.nextEntryOffset it.restartIndex := by
  unfold parseNextKey at h
  dsimp only at h
  split_ifs at h
  · cases h
  · split at h
    · cases h
    · split_ifs at h
      · cases h
      · cases h
        exact ⟨rfl, rfl, rfl, rfl, rfl⟩

lemma advanceRestart_spec (it : BlockIter) (current index : Nat) (hindex : index < it.numRestarts)
    (hpoint : it.getRestartPoint index ≤ current) :
    it.advanceRestart current index < it.numRestarts ∧ it.getRestartPoint (it.advanceRestart current index) ≤ current := by
  fun_induction advanceRestart it current index with
  | case1 index hnext ih => exact ih hnext.1 hnext.2.le
  | case2 index hstop => exact ⟨hindex, hpoint⟩

variable (he : Encodes b items) (hb : b.finish.length < 2 ^ 32)
include he hb

lemma Before.parseNextKey_cons (hitems : items = A ++ i :: B) (h : Before b A (i :: B) it) :
    ∃ it', it.parseNextKey = (it', true) ∧ IterAt b A i B it' := by
  have hlen := he.item_lengths hb (i := i) (by simp [hitems])
  have hbuf : b.buffer = A.flatMap bytes ++ (i.bytes ++ B.flatMap bytes) := by
    rw [he.buffer, hitems, flatMap_append, flatMap_cons]
  obtain ⟨it', hparse, hiter, hentry, hkey, hnext, -⟩ := h.iter.parseNextKey hbuf h.next h.chain.1 hlen.1 hlen.2
  obtain ⟨hdata, hrestarts, -, hcurrent, hindex⟩ := parseNextKey_fields hparse
  have hsize : it'.nextEntryOffset = sizeOf (A ++ [i]) := by
    rw [hnext, sizeOf, flatMap_append, flatMap_singleton]
  obtain ⟨hrestart, hpoint⟩ := advanceRestart_spec it it.nextEntryOffset it.restartIndex
    (by rw [h.iter.numRestarts]; exact h.restart) (by rw [h.next]; exact h.point)
  rw [← hindex, ← getRestartPoint_congr hdata hrestarts, h.next] at hpoint
  rw [← hindex, h.iter.numRestarts] at hrestart
  refine ⟨it', hparse, hentry, hkey, hcurrent.trans h.next, hpoint, hiter, hsize, ?_, hrestart, hpoint.trans ?_⟩
  · rw [hkey]
    exact h.chain.2
  · rw [sizeOf_append]
    exact Nat.le_add_right _ _

omit hb in
lemma Before.parseNextKey_nil (hitems : items = A) (h : Before b A [] it) :
    ∃ it', it.parseNextKey = (it', false) ∧ Stands b items it' (.off (items.map Item.entry)) := by
  have hend : it.restarts ≤ it.nextEntryOffset := by
    rw [h.iter.restarts, h.next, he.buffer, hitems]
    rfl
  refine ⟨{ it with current := it.restarts, restartIndex := it.numRestarts }, ?_,
    .off ⟨h.iter.data, h.iter.restarts, h.iter.numRestarts⟩ ?_⟩
  · rw [BlockIter.parseNextKey, if_pos hend]
  · simp [BlockIter.valid]

lemma Before.parseNextKey (hitems : items = A ++ B) (h : Before b A B it) :
    Stands b items it.parseNextKey.1 (onFirst (A.map Item.entry).reverse (B.map Item.entry)) := by
  cases B with
  | nil =>
    rw [append_nil] at hitems
    obtain ⟨it', hparse, hstands⟩ := h.parseNextKey_nil he hitems
    rw [hparse, map_nil, onFirst, reverse_reverse, ← hitems]
    exact hstands
  | cons i B =>
    obtain ⟨it', hparse, hat⟩ := h.parseNextKey_cons he hb hitems
    rw [hparse]
    exact .on hitems hat

lemma Before.scan (cmp : Slice → Slice → Ordering) (target : Slice) (hitems : items = A ++ B) (h : Before b A B it) :
    Stands b items (it.scan cmp target) (onFirst ((A ++ B.takeWhile fun x => cmp x.key target = .lt).map Item.entry).reverse
    ((B.dropWhile fun x => cmp x.key target = .lt).map Item.entry)) := by
  induction B generalizing A it with
  | nil =>
    rw [append_nil] at hitems
    obtain ⟨it', hparse, hstands⟩ := h.parseNextKey_nil he hitems
    unfold BlockIter.scan
    split
    · rename_i it'' hp
      cases hparse.symm.trans hp
      simpa [onFirst, ← hitems] using hstands
    · rename_i it'' hp
      cases hparse.symm.trans hp
  | cons i B ih =>
    obtain ⟨it', hparse, hat⟩ := h.parseNextKey_cons he hb hitems
    unfold BlockIter.scan
    split
    · rename_i it'' hp
      cases hparse.symm.trans hp
    · rename_i it'' hp
      cases hparse.symm.trans hp
      rw [hat.key]
      by_cases hcmp : cmp i.key target = .lt
      · rw [if_pos hcmp, takeWhile_cons_of_pos (by simpa using hcmp), dropWhile_cons_of_pos (by simpa using hcmp),
          append_cons]
        exact ih (by rw [hitems, append_cons]) hat.after
      · rw [if_neg hcmp, takeWhile_cons_of_neg (by simpa using hcmp), dropWhile_cons_of_neg (by simpa using hcmp),
          append_nil]
        exact .on hitems hat

lemma Before.scanTo (hitems : items = A ++ (C ++ i :: B)) (h : Before b A (C ++ i :: B) it) :
    IterAt b (A ++ C) i B (it.scanTo (sizeOf (A ++ C ++ [i]))) := by
  induction C generalizing A it with
  | nil =>
    obtain ⟨it', hparse, hat⟩ := h.parseNextKey_cons he hb hitems
    unfold scanTo
    split
    · rename_i it'' hp
      cases hparse.symm.trans hp
    · rename_i it'' hp
      cases hparse.symm.trans hp
      rw [append_nil, hat.after.next, if_neg (lt_irrefl _)]
      exact hat
  | cons j C ih =>
    obtain ⟨it', hparse, hat⟩ := h.parseNextKey_cons he hb hitems
    unfold scanTo
    split
    · rename_i it'' hp
      cases hparse.symm.trans hp
    · rename_i it'' hp
      cases hparse.symm.trans hp
      have hmore : sizeOf (A ++ [j]) < sizeOf (A ++ j :: C ++ [i]) := by
        have hpos := sizeOf_cons_pos i []
        rw [append_cons A j C, sizeOf_append (A ++ [j] ++ C), sizeOf_append (A ++ [j])]
        omega
      rw [hat.after.next, if_pos hmore, append_cons]
      exact ih (by rw [hitems, append_cons, cons_append]; simp) hat.after

lemma Encodes.sizeOf_lt (hitems : items = A ++ B) : sizeOf A < 2 ^ 32 := by
  have hbuf : b.buffer.length = sizeOf A + sizeOf B := by
    rw [he.buffer, hitems, ← sizeOf_append]
    rfl
  rw [finish_length] at hb
  omega

lemma IterOf.restart_before (h : IterOf b it) {r : Nat} (hr : r < b.restarts.length) :
    ∃ A B, items = A ++ B ∧ it.getRestartPoint r = sizeOf A ∧ Before b A B (it.seekToRestartPoint r) ∧
    (r = 0 → A = []) ∧ (B = [] → A = []) := by
  have hiter : IterOf b (it.seekToRestartPoint r) := ⟨h.data, h.restarts, h.numRestarts⟩
  by_cases h0 : r = 0
  · subst h0
    have hpoint : it.getRestartPoint 0 = 0 := h.getRestartPoint he.first (by decide)
    refine ⟨[], items, rfl, hpoint, ⟨hiter, ?_, he.chain, hr, ?_⟩, fun _ => rfl, fun _ => rfl⟩
    · rw [nextEntryOffset, seekToRestartPoint, hpoint]
      rfl
    · exact hpoint.le
  · obtain ⟨A, i, B, hitems, hs, hget, hlt⟩ := he.restart hb hr h0
    have hpoint := h.getRestartPoint hget hlt
    refine ⟨A, i :: B, hitems, hpoint, ⟨hiter, ?_, ?_, hr, hpoint.le⟩, fun hzero => absurd hzero h0, fun hnil => by cases hnil⟩
    · rw [nextEntryOffset, seekToRestartPoint, hpoint, add_zero, Nat.mod_eq_of_lt hlt, sizeOf]
    · exact ItemsFrom.restart (hitems ▸ he.chain) hs

variable {c : Cursor (Slice × Slice)}

lemma IterOf.seekToFirst_stands (h : IterOf b it) (hc : c.list = items.map Item.entry) :
    Stands b items it.seekToFirst c.seekToFirst := by
  obtain ⟨A, B, hitems, -, hbefore, hA, -⟩ := h.restart_before he hb (List.getElem?_eq_some_iff.1 he.first).1
  rw [hA rfl, nil_append] at hitems
  rw [hA rfl] at hbefore
  have hstands := hbefore.parseNextKey he hb (by rw [nil_append, hitems])
  rw [← hitems] at hstands
  rw [Cursor.seekToFirst, hc]
  exact hstands

lemma IterOf.seekToLast_stands (h : IterOf b it) (hc : c.list = items.map Item.entry) :
    Stands b items it.seekToLast c.seekToLast := by
  have hpos : 0 < b.restarts.length := (List.getElem?_eq_some_iff.1 he.first).1
  obtain ⟨A, B, hitems, -, hbefore, -, hB⟩ := h.restart_before he hb (r := b.restarts.length - 1) (by omega)
  rw [BlockIter.seekToLast, h.numRestarts, Cursor.seekToLast, hc]
  rcases eq_nil_or_concat B with rfl | ⟨C, i, rfl⟩
  · rw [hB rfl, append_nil] at hitems
    rw [hB rfl] at hbefore
    obtain ⟨it', hparse, hstands⟩ := hbefore.parseNextKey_nil he hitems
    unfold BlockIter.scanTo
    split
    · rename_i it'' hp
      cases hparse.symm.trans hp
      rw [hitems] at hstands ⊢
      exact hstands
    · rename_i it'' hp
      cases hparse.symm.trans hp
  · rw [concat_eq_append] at hitems hbefore
    have hend : it.restarts = sizeOf (A ++ C ++ [i]) := by
      rw [h.restarts, he.buffer, hitems, append_assoc]
      rfl
    have hat := hbefore.scanTo he hb hitems
    rw [← hend] at hat
    have hstands : Stands b items _ _ := .on (by rw [hitems, append_assoc]) hat
    have hlist : (items.map Item.entry).reverse = i.entry :: ((A ++ C).map Item.entry).reverse := by simp [hitems]
    rw [hlist]
    exact hstands

omit hb in
lemma IterOf.prevRestart_cases (h : IterOf b it) (original index : Nat) :
    (it.prevRestart original index = none ∧ original = 0) ∨
    ∃ r ≤ index, it.prevRestart original index = some r ∧ it.getRestartPoint r < original := by
  have hpoint : it.getRestartPoint 0 = 0 := h.getRestartPoint he.first (by decide)
  induction index with
  | zero =>
    rw [prevRestart, hpoint]
    by_cases hle : original ≤ 0
    · exact .inl ⟨if_pos hle, Nat.le_zero.1 hle⟩
    · exact .inr ⟨0, le_rfl, if_neg hle, by omega⟩
  | succ index ih =>
    rw [prevRestart]
    by_cases hle : original ≤ it.getRestartPoint (index + 1)
    · rw [if_pos hle]
      rcases ih with hnone | ⟨r, hr, hsome, hlt⟩
      · exact .inl hnone
      · exact .inr ⟨r, by omega, hsome, hlt⟩
    · exact .inr ⟨index + 1, le_rfl, if_neg hle, by omega⟩

lemma IterAt.prev_stands (hitems : items = A ++ i :: B) (h : IterAt b A i B it) :
    Stands b items it.prev (onLast (A.map Item.entry).reverse (i.entry :: B.map Item.entry)) := by
  have hiter := h.after.iter
  rw [BlockIter.prev, h.current]
  rcases hiter.prevRestart_cases he (sizeOf A) it.restartIndex with ⟨hnone, hzero⟩ | ⟨r, hr, hsome, hlt⟩
  · cases A with
    | nil =>
      rw [hnone, map_nil, reverse_nil, onLast, ← map_cons, ← nil_append (i :: B), ← hitems]
      exact .off ⟨hiter.data, hiter.restarts, hiter.numRestarts⟩ (by simp [BlockIter.valid])
    | cons j A => exact absurd hzero (sizeOf_cons_pos j A).ne'
  · obtain ⟨A₁, B₁, hitems1, hpoint, hbefore, -, hB⟩ := hiter.restart_before he hb (hr.trans_lt h.after.restart)
    rw [hpoint] at hlt
    cases B₁ with
    | nil =>
      rw [hB rfl, append_nil] at hitems1
      rw [hitems1] at hitems
      simp at hitems
    | cons k B₁ =>
      obtain ⟨C, rfl⟩ := exists_between_of_lt (hitems.symm.trans hitems1) hlt
      obtain ⟨D, j, hD⟩ := eq_nil_or_concat (k :: C) |>.resolve_left (by simp)
      rw [concat_eq_append] at hD
      rw [hsome, hD]
      rw [hD] at hitems
      have hrest : k :: B₁ = D ++ j :: i :: B := by
        have := hitems1.symm.trans hitems
        simpa using this
      rw [hrest] at hbefore hitems1
      have hat := hbefore.scanTo he hb hitems1
      have hstands : Stands b items _ _ := .on (by rw [hitems1, append_assoc]) hat
      rw [append_assoc] at hstands
      simpa [onLast] using hstands

end

open Util Lib List BlockIter

variable {b : BlockBuilder} {items A B : List Item} {i : Item} {it : BlockIter} {cmp : Slice → Slice → Ordering}
  {target : Slice} {c : Cursor (Slice × Slice)}

section

variable (cmp)

def BlockIter.call (it : BlockIter) : Db.IteratorCall Slice → Option BlockIter
  | .seek target => some (it.seek cmp target)
  | .seekToFirst => some it.seekToFirst
  | .seekToLast => some it.seekToLast
  | .next => if it.valid then some it.next else none
  | .prev => if it.valid then some it.prev else none

def entriesCall (c : Cursor (Slice × Slice)) : Db.IteratorCall Slice → Option (Cursor (Slice × Slice))
  | .seek target => some (c.seek fun x => cmp x.1 target ≠ .lt)
  | .seekToFirst => some c.seekToFirst
  | .seekToLast => some c.seekToLast
  | .next => if c.valid then some c.next else none
  | .prev => if c.valid then some c.prev else none

end

def BlockBuilder.addEntries (blockRestartInterval : Nat) (entries : List (Slice × Slice)) : BlockBuilder :=
  entries.foldl (fun b e => b.add blockRestartInterval e.1 e.2) .new

structure ComparesBy {α : Type*} [LinearOrder α] (cmp : Slice → Slice → Ordering) (rank : Slice → α) : Prop where
  lt : ∀ a b, cmp a b = .lt ↔ rank a < rank b
  eq : ∀ a b, cmp a b = .eq ↔ rank a = rank b

/-! ## Seeking from any position -/

lemma seek_eq_onFirst (hc : c.list = items.map Item.entry) (hitems : items = A ++ B)
    (hA : ∀ x ∈ A, cmp x.key target = .lt) : c.seek (fun x => cmp x.1 target ≠ .lt) =
    Cursor.onFirst ((A ++ B.takeWhile fun x => cmp x.key target = .lt).map Item.entry).reverse
    ((B.dropWhile fun x => cmp x.key target = .lt).map Item.entry) := by
  have hA' : ∀ x ∈ A, decide (cmp x.key target = .lt) = true := fun x hx => decide_eq_true (hA x hx)
  have hp : (fun x : Slice × Slice => !decide (cmp x.1 target ≠ .lt)) ∘ Item.entry =
      fun x : Item => decide (cmp x.key target = .lt) := by
    funext x
    simp only [Function.comp_apply, Item.entry, ne_eq, decide_not, Bool.not_not]
    congr
  rw [Cursor.seek, hc, takeWhile_map, dropWhile_map, hp, hitems, takeWhile_append_of_pos hA', dropWhile_append_of_pos hA']

section

variable {α : Type*} [LinearOrder α] {rank : Slice → α} (hcmp : ComparesBy cmp rank)
  (hsorted : items.Pairwise fun x y => rank x.key < rank y.key) (he : Encodes b items) (hb : b.finish.length < 2 ^ 32)

include hcmp hsorted

lemma lt_of_before (hitems : items = A ++ i :: B) (hi : cmp i.key target ≠ .gt) : ∀ x ∈ A, cmp x.key target = .lt := by
  intro x hx
  rw [hitems] at hsorted
  have hle : rank i.key ≤ rank target := by
    cases h : cmp i.key target with
    | lt => exact ((hcmp.lt _ _).1 h).le
    | eq => exact ((hcmp.eq _ _).1 h).le
    | gt => exact absurd h hi
  exact (hcmp.lt _ _).2 (((pairwise_append.1 hsorted).2.2 x hx i mem_cons_self).trans_le hle)

include he hb

lemma IterOf.scan_stands (h : IterOf b it) {l : Nat} (hl : l < b.restarts.length)
    (hstart : l = 0 ∨ StartsBefore cmp target b items l) (hc : c.list = items.map Item.entry) :
    Stands b items ((it.seekToRestartPoint l).scan cmp target) (c.seek fun x => cmp x.1 target ≠ .lt) := by
  obtain ⟨A, B, hitems, hpoint, hbefore, hzero, -⟩ := h.restart_before he hb hl
  have hA : ∀ x ∈ A, cmp x.key target = .lt := by
    rcases hstart with rfl | ⟨A', i, B', hitems', -, hget, hlt⟩
    · rw [hzero rfl]
      simp
    · have hsize : sizeOf A ≤ sizeOf A' := by
        have hlen : sizeOf A' < 2 ^ 32 := he.sizeOf_lt hb hitems'
        rw [← hpoint, h.getRestartPoint hget hlen]
        exact le_rfl
      obtain ⟨C, rfl, -⟩ := exists_append_of_sizeOf_le (hitems'.symm.trans hitems) hsize
      have hbefore' := lt_of_before hcmp hsorted hitems' (by rw [hlt]; decide)
      exact fun x hx => hbefore' x (mem_append_left C hx)
  rw [seek_eq_onFirst hc hitems hA]
  exact hbefore.scan he hb cmp target hitems

lemma IterAt.startsBefore (hitems : items = A ++ i :: B) (h : IterAt b A i B it) (hlt : cmp i.key target = .lt) :
    it.restartIndex = 0 ∨ StartsBefore cmp target b items it.restartIndex := by
  by_cases h0 : it.restartIndex = 0
  · exact .inl h0
  · obtain ⟨A₁, k, B₁, hitems1, hs, hget, hlen⟩ := he.restart hb h.after.restart h0
    have hpoint := h.point
    rw [h.after.iter.getRestartPoint hget hlen] at hpoint
    refine .inr ⟨A₁, k, B₁, hitems1, hs, hget, ?_⟩
    rcases mem_append.1 (mem_of_sizeOf_le (hitems.symm.trans hitems1) hpoint) with hk | hk
    · exact lt_of_before hcmp hsorted hitems (by rw [hlt]; decide) k hk
    · rwa [mem_singleton.1 hk]

lemma IterOf.seek_stands (h : IterOf b it) (hvalid : it.valid = false) (hc : c.list = items.map Item.entry) :
    Stands b items (it.seek cmp target) (c.seek fun x => cmp x.1 target ≠ .lt) := by
  have hpos : 0 < b.restarts.length := (List.getElem?_eq_some_iff.1 he.first).1
  obtain ⟨l, hsearch, hl, hstart⟩ := h.searchRestarts cmp target 0 (it.numRestarts - 1) he hb
    (by rw [h.numRestarts]; omega) (Nat.zero_le _) (.inl rfl)
  have hseek : it.seek cmp target = (it.seekToRestartPoint l).scan cmp target := by
    simp [BlockIter.seek, hvalid, hsearch]
  rw [hseek]
  exact h.scan_stands hcmp hsorted he hb hl hstart hc

lemma IterAt.seek_stands (hitems : items = A ++ i :: B) (h : IterAt b A i B it) (hc : c.list = items.map Item.entry) :
    Stands b items (it.seek cmp target) (c.seek fun x => cmp x.1 target ≠ .lt) := by
  have hiter := h.after.iter
  have hvalid := h.valid
  have hrestart := h.after.restart
  rw [seek, hvalid, h.key, if_pos rfl, hiter.numRestarts]
  cases hkey : cmp i.key target with
  | eq =>
    have hA : ∀ x ∈ A, cmp x.key target = .lt := lt_of_before hcmp hsorted hitems (by rw [hkey]; decide)
    have hi : decide (cmp i.key target = .lt) = false := by rw [hkey]; rfl
    rw [if_pos ⟨rfl, rfl⟩, seek_eq_onFirst hc hitems hA, takeWhile_cons_of_neg (by simp [hi]),
      dropWhile_cons_of_neg (by simp [hi]), append_nil]
    exact .on hitems h
  | lt =>
    obtain ⟨l, hsearch, hl, hstart⟩ := hiter.searchRestarts cmp target it.restartIndex (b.restarts.length - 1) he hb
      (by omega) (by omega) (h.startsBefore hcmp hsorted he hb hitems hkey)
    simp only [reduceCtorEq, and_false, if_false, if_true, hsearch]
    by_cases hskip : l = it.restartIndex
    · -- the search goes on from the current entry
      have hA : ∀ x ∈ A ++ [i], cmp x.key target = .lt := by
        intro x hx
        rcases mem_append.1 hx with hx | hx
        · exact lt_of_before hcmp hsorted hitems (by rw [hkey]; decide) x hx
        · rwa [mem_singleton.1 hx]
      rw [if_pos ⟨hskip, trivial⟩, seek_eq_onFirst hc (by rw [hitems, append_cons]) hA]
      exact h.after.scan he hb cmp target (by rw [hitems, append_cons])
    · rw [if_neg fun hand => hskip hand.1]
      exact hiter.scan_stands hcmp hsorted he hb hl hstart hc
  | gt =>
    obtain ⟨l, hsearch, hl, hstart⟩ := hiter.searchRestarts cmp target 0 it.restartIndex he hb hrestart (Nat.zero_le _)
      (.inl rfl)
    simp only [reduceCtorEq, and_false, if_false, if_true, hsearch]
    exact hiter.scan_stands hcmp hsorted he hb hl hstart hc

lemma Stands.call (call : Db.IteratorCall Slice) (h : Stands b items it c) :
    (it.call cmp call = none ∧ entriesCall cmp c call = none) ∨
    ∃ it' c', it.call cmp call = some it' ∧ entriesCall cmp c call = some c' ∧ Stands b items it' c' := by
  have hlist := h.list
  cases call with
  | seek target =>
    refine .inr ⟨_, _, rfl, rfl, ?_⟩
    cases h with
    | off iter invalid => exact iter.seek_stands hcmp hsorted he hb invalid hlist
    | on split at_item => exact at_item.seek_stands hcmp hsorted he hb split hlist
  | seekToFirst => exact .inr ⟨_, _, rfl, rfl, h.iter.seekToFirst_stands he hb hlist⟩
  | seekToLast => exact .inr ⟨_, _, rfl, rfl, h.iter.seekToLast_stands he hb hlist⟩
  | next =>
    cases h with
    | off iter invalid => exact .inl ⟨by simp [call, invalid], rfl⟩
    | on split at_item =>
      refine .inr ⟨it.next, _, by simp [call, at_item.valid], rfl, ?_⟩
      have hstands := at_item.after.parseNextKey he hb (by rw [split, append_cons])
      rw [map_append, reverse_append] at hstands
      exact hstands
  | prev =>
    cases h with
    | off iter invalid => exact .inl ⟨by simp [call, invalid], rfl⟩
    | on split at_item =>
      exact .inr ⟨it.prev, _, by simp [call, at_item.valid], rfl, at_item.prev_stands he hb split⟩

end

lemma encodes_addEntries (interval : Nat) (entries : List (Slice × Slice)) :
    ∃ items : List Item, items.map Item.entry = entries ∧ Encodes (BlockBuilder.addEntries interval entries) items := by
  induction entries using List.reverseRecOn with
  | nil => exact ⟨[], rfl, encodes_new⟩
  | append_singleton entries e ih =>
    obtain ⟨items, hitems, henc⟩ := ih
    obtain ⟨i, hi, henc'⟩ := henc.add interval e.1 e.2
    refine ⟨items ++ [i], by rw [map_append, hitems, map_singleton, hi], ?_⟩
    rw [BlockBuilder.addEntries, foldl_append]
    exact henc'

/-- The iterator of a block shows what a cursor on its entries shows, after all calls. -/
theorem blockIter_shows_entries {α : Type*} [LinearOrder α] (cmp : Slice → Slice → Ordering) (rank : Slice → α)
    (hcmp : ComparesBy cmp rank) (interval : Nat) (entries : List (Slice × Slice))
    (hsorted : entries.Pairwise fun x y => cmp x.1 y.1 = .lt)
    (hsize : (BlockBuilder.addEntries interval entries).finish.length < 2 ^ 32) :
    ∃ it, (Block.new (BlockBuilder.addEntries interval entries).finish).newIterator = .ok (some it) ∧
    ∀ calls, (run (BlockIter.call cmp) it calls).map (fun it => (it.valid, it.entry)) =
    (run (entriesCall cmp) (.off entries) calls).map fun c => (c.valid, c.current) := by
  obtain ⟨items, hitems, henc⟩ := encodes_addEntries interval entries
  obtain ⟨it, hnew, hiter, hinvalid, -⟩ := newIterator_finish (List.getElem?_eq_some_iff.1 henc.first).1 hsize
  have hsorted' : items.Pairwise fun x y => rank x.key < rank y.key := by
    rw [← hitems, pairwise_map] at hsorted
    exact hsorted.imp fun h => (hcmp.lt _ _).1 h
  have hstart : Stands _ items it (.off (items.map Item.entry)) := .off hiter hinvalid
  refine ⟨it, hnew, fun calls => ?_⟩
  rcases run_related (fun _ _ call h => Stands.call hcmp hsorted' henc hsize call h) hstart calls with ⟨hit, hcursor⟩ | ⟨it', c', hit, hcursor, hstands⟩
  · rw [hit, ← hitems, hcursor]
    rfl
  · rw [hit, ← hitems, hcursor, Option.map_some, Option.map_some, hstands.valid, hstands.entry]

lemma comparesBy_bytewise : ComparesBy bytewiseCompare id :=
  ⟨fun _ _ => bytewiseCompare_lt_iff, fun _ _ => bytewiseCompare_eq_iff⟩

theorem blockIter_shows_entries_sample :
    let entries : List (Slice × Slice) := [([1], [7]), ([1, 2], [8]), ([3], [])]
    ∃ it, (Block.new (BlockBuilder.addEntries 2 entries).finish).newIterator = .ok (some it) ∧
      (run (BlockIter.call bytewiseCompare) it [.seek [2], .prev, .prev, .next, .seek [1, 2]]).map
        (fun it => (it.valid, it.entry)) = some (true, some ([1, 2], [8])) := by
  intro entries
  obtain ⟨it, hnew, hshows⟩ := blockIter_shows_entries bytewiseCompare id comparesBy_bytewise 2 entries (by decide)
    (by decide +kernel)
  refine ⟨it, hnew, ?_⟩
  rw [hshows]
  decide +kernel

end RallyDB.Table
