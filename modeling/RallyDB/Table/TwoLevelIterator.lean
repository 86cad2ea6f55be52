import RallyDB.Db.DbIter
import RallyDB.Lib.Machine

/-!
# Two-level iterators (`table/two_level_iterator.cc`)
-/

namespace RallyDB.Table

open Lib Util Db List Cursor

/-- The data iterator is kept with `data_block_handle_`, which is read only while there is one. -/
structure TwoLevelIterator (κ η : Type*) where
  indexIter : Cursor (κ × η)
  dataIter : Option (η × Cursor (κ × Slice))

namespace TwoLevelIterator

variable {κ η : Type*}

def shown (t : TwoLevelIterator κ η) : Option (κ × Slice) := t.dataIter.bind fun d => d.2.current

def valid (t : TwoLevelIterator κ η) : Bool := t.shown.isSome

def onData (move : Cursor (κ × Slice) → Cursor (κ × Slice)) (t : TwoLevelIterator κ η) : TwoLevelIterator κ η :=
  { t with dataIter := t.dataIter.map fun d => (d.1, move d.2) }

variable (blockFunction : η → List (κ × Slice))

section Moves

variable [DecidableEq η]

def initDataBlock (t : TwoLevelIterator κ η) : TwoLevelIterator κ η :=
  match t.indexIter.current with
  | none => { t with dataIter := none }
  | some (_, handle) =>
    if t.dataIter.any fun d => d.1 = handle then t
    else { t with dataIter := some (handle, .off (blockFunction handle)) }

@[simp] lemma indexIter_initDataBlock (t : TwoLevelIterator κ η) :
    (t.initDataBlock blockFunction).indexIter = t.indexIter := by
  unfold initDataBlock
  split
  · rfl
  · split_ifs <;> rfl

def skipEmptyDataBlocksForward (t : TwoLevelIterator κ η) : TwoLevelIterator κ η :=
  if t.valid then t
  else match _h : t.indexIter with
    | .off _ => { t with dataIter := none }
    | .on before e after => skipEmptyDataBlocksForward
        ((initDataBlock blockFunction { t with indexIter := .next (.on before e after) }).onData .seekToFirst)
termination_by t.indexIter.left
decreasing_by
  simp only [onData, indexIter_initDataBlock, _h]
  exact Cursor.left_next_lt before e after

def skipEmptyDataBlocksBackward (t : TwoLevelIterator κ η) : TwoLevelIterator κ η :=
  if t.valid then t
  else match _h : t.indexIter with
    | .off _ => { t with dataIter := none }
    | .on before e after => skipEmptyDataBlocksBackward
        ((initDataBlock blockFunction { t with indexIter := .prev (.on before e after) }).onData .seekToLast)
termination_by t.indexIter.passed
decreasing_by
  simp only [onData, indexIter_initDataBlock, _h]
  exact Cursor.passed_prev_lt before e after

def seekToFirst (t : TwoLevelIterator κ η) : TwoLevelIterator κ η :=
  skipEmptyDataBlocksForward blockFunction
    ((initDataBlock blockFunction { t with indexIter := t.indexIter.seekToFirst }).onData .seekToFirst)

def seekToLast (t : TwoLevelIterator κ η) : TwoLevelIterator κ η :=
  skipEmptyDataBlocksBackward blockFunction
    ((initDataBlock blockFunction { t with indexIter := t.indexIter.seekToLast }).onData .seekToLast)

def next (t : TwoLevelIterator κ η) : TwoLevelIterator κ η := skipEmptyDataBlocksForward blockFunction (t.onData .next)

def prev (t : TwoLevelIterator κ η) : TwoLevelIterator κ η := skipEmptyDataBlocksBackward blockFunction (t.onData .prev)

def seek [LinearOrder κ] (target : κ) (t : TwoLevelIterator κ η) : TwoLevelIterator κ η :=
  skipEmptyDataBlocksForward blockFunction
    ((initDataBlock blockFunction { t with indexIter := t.indexIter.seek fun e => target ≤ e.1 }).onData
      (.seek fun x => target ≤ x.1))

def call [LinearOrder κ] (t : TwoLevelIterator κ η) : IteratorCall κ → Option (TwoLevelIterator κ η)
  | .seek target => some (t.seek blockFunction target)
  | .seekToFirst => some (t.seekToFirst blockFunction)
  | .seekToLast => some (t.seekToLast blockFunction)
  | .next => if t.valid then some (t.next blockFunction) else none
  | .prev => if t.valid then some (t.prev blockFunction) else none

end Moves

/-! ## The position in the concatenation -/

def flat (entries : List (κ × η)) : List (κ × Slice) := entries.flatMap fun e => blockFunction e.2

def flatBack (entries : List (κ × η)) : List (κ × Slice) := entries.flatMap fun e => (blockFunction e.2).reverse

inductive Follows (entries : List (κ × η)) : TwoLevelIterator κ η → Cursor (κ × Slice) → Prop
  | on {before e after b x a} (hentries : before.reverse ++ e :: after = entries) (hblock : b.reverse ++ x :: a = blockFunction e.2) :
    Follows entries ⟨.on before e after, some (e.2, .on b x a)⟩
      (.on (b ++ flatBack blockFunction before) x (a ++ flat blockFunction after))
  | off {index} (hentries : index.list = entries) : Follows entries ⟨index, none⟩ (.off (flat blockFunction entries))

variable {f : η → List (κ × Slice)} {entries before after : List (κ × η)} {e : κ × η} {t : TwoLevelIterator κ η} {c : Cursor (κ × Slice)}
  {data : Option (η × Cursor (κ × Slice))} {b a : List (κ × Slice)}

lemma reverse_flatBack : (flatBack f before).reverse = flat f before.reverse := by
  simp [flat, flatBack, reverse_flatMap, Function.comp_def]

lemma reverse_flat : (flat f before).reverse = flatBack f before.reverse := by
  rw [← reverse_reverse before, ← reverse_flatBack, reverse_reverse, reverse_reverse]

lemma flat_append (l m : List (κ × η)) : flat f (l ++ m) = flat f l ++ flat f m :=
  flatMap_append

lemma append_flatBack (h : b.reverse = f e.2) : b ++ flatBack f before = flatBack f (e :: before) := by
  simp [flatBack, ← h]

section

variable (h : Follows f entries t c)
include h

lemma Follows.shown : t.shown = c.current := by
  cases h <;> rfl

lemma Follows.indexIter_list : t.indexIter.list = entries := by
  cases h with
  | on hentries => exact hentries
  | off hentries => exact hentries

lemma Follows.list : c.list = flat f entries := by
  cases h with
  | off => rfl
  | @on before e after b x a hentries hblock =>
    rw [list, reverse_append, reverse_flatBack, ← hentries, flat_append, append_assoc, ← cons_append,
      ← append_assoc b.reverse, hblock]
    rfl

lemma Follows.dataIter : ∀ d ∈ t.dataIter, d.2.list = f d.1 := by
  cases h with
  | on _ hblock =>
    rintro _ ⟨⟩
    exact hblock
  | off => rintro _ ⟨⟩

end

variable [DecidableEq η]

variable (before after e data) in
lemma initDataBlock_on (hdata : ∀ d ∈ data, d.2.list = f d.1) :
    ∃ d, initDataBlock f ⟨.on before e after, data⟩ = ⟨.on before e after, some (e.2, d)⟩ ∧ d.list = f e.2 := by
  cases data with
  | none => exact ⟨_, rfl, rfl⟩
  | some d =>
    by_cases hsame : d.1 = e.2
    · refine ⟨d.2, ?_, hsame ▸ hdata d rfl⟩
      exact (if_pos (by simpa using hsame)).trans (by rw [← hsame])
    · refine ⟨.off (f e.2), ?_, rfl⟩
      exact if_neg (by simpa using hsame)

lemma skipEmptyDataBlocksForward_off (l : List (κ × η)) : skipEmptyDataBlocksForward f ⟨.off l, none⟩ = ⟨.off l, none⟩ := by
  rw [skipEmptyDataBlocksForward]
  rfl

lemma skipEmptyDataBlocksBackward_off (l : List (κ × η)) :
    skipEmptyDataBlocksBackward f ⟨.off l, none⟩ = ⟨.off l, none⟩ := by
  rw [skipEmptyDataBlocksBackward]
  rfl

lemma follows_forward (hentries : before.reverse ++ e :: after = entries) (hblock : b.reverse ++ a = f e.2) :
    Follows f entries (skipEmptyDataBlocksForward f ⟨.on before e after, some (e.2, .onFirst b a)⟩)
    (.onFirst (b ++ flatBack f before) (a ++ flat f after)) := by
  induction after generalizing before e b a with
  | nil =>
    rw [skipEmptyDataBlocksForward]
    cases a with
    | cons x a => exact .on hentries hblock
    | nil =>
      rw [append_nil] at hblock
      change Follows _ _ (skipEmptyDataBlocksForward f ⟨.off (e :: before).reverse, none⟩)
        (.off (b ++ flatBack f before).reverse)
      rw [skipEmptyDataBlocksForward_off, append_flatBack hblock, reverse_flatBack, reverse_cons, hentries]
      exact .off rfl
  | cons e' after ih =>
    rw [skipEmptyDataBlocksForward]
    cases a with
    | cons x a => exact .on hentries hblock
    | nil =>
      rw [append_nil] at hblock
      obtain ⟨d, hd, hlist⟩ := initDataBlock_on (e :: before) after e' (some (e.2, .off b.reverse)) (by rintro _ ⟨⟩; exact hblock)
      change Follows _ _ (skipEmptyDataBlocksForward f
        ((initDataBlock f ⟨.on (e :: before) e' after, some (e.2, .off b.reverse)⟩).onData .seekToFirst))
          (.onFirst (b ++ flatBack f before) (f e'.2 ++ flat f after))
      rw [hd, append_flatBack hblock, ← hlist]
      exact ih (b := []) (a := d.list) (by rw [← hentries]; simp) hlist

lemma follows_backward (hentries : before.reverse ++ e :: after = entries) (hblock : b.reverse ++ a = f e.2) :
    Follows f entries (skipEmptyDataBlocksBackward f ⟨.on before e after, some (e.2, .onLast b a)⟩)
    (.onLast (b ++ flatBack f before) (a ++ flat f after)) := by
  induction before generalizing after e b a with
  | nil =>
    rw [skipEmptyDataBlocksBackward]
    cases b with
    | cons x b => exact .on hentries (by rw [← hblock]; simp)
    | nil =>
      change Follows _ _ (skipEmptyDataBlocksBackward f ⟨.off (e :: after), none⟩) (.off (a ++ flat f after))
      rw [skipEmptyDataBlocksBackward_off, show a = f e.2 from hblock, ← hentries]
      exact .off rfl
  | cons e' before ih =>
    rw [skipEmptyDataBlocksBackward]
    cases b with
    | cons x b => exact .on hentries (by rw [← hblock]; simp)
    | nil =>
      obtain ⟨d, hd, hlist⟩ := initDataBlock_on before (e :: after) e' (some (e.2, .off a)) (by rintro _ ⟨⟩; exact hblock)
      change Follows _ _ (skipEmptyDataBlocksBackward f
        ((initDataBlock f ⟨.on before e' (e :: after), some (e.2, .off a)⟩).onData .seekToLast))
          (.onLast ((f e'.2).reverse ++ flatBack f before) (a ++ flat f after))
      rw [hd, show a = f e.2 from hblock, ← hlist]
      exact ih (b := d.list.reverse) (a := []) (by rw [← hentries]; simp) (by rw [← hlist]; simp)

/-! ## Calls -/

lemma follows_next (h : Follows f entries t c) (hvalid : t.valid) : Follows f entries (t.next f) c.next := by
  cases h with
  | off => cases hvalid
  | @on before e after b x a hentries hblock => exact follows_forward (b := x :: b) hentries (by rw [← hblock]; simp)

lemma follows_prev (h : Follows f entries t c) (hvalid : t.valid) : Follows f entries (t.prev f) c.prev := by
  cases h with
  | off => cases hvalid
  | on hentries hblock => exact follows_backward (a := _ :: _) hentries hblock

-- The index ends before a block, or on one: the blocks before it are passed and those after it are beyond.
lemma follows_seek {p : κ × η → Bool} {q : κ × Slice → Bool} (h : Follows f entries t c)
    (hpass : ∀ e ∈ entries, p e = false → ∀ x ∈ f e.2, q x = false)
    (hstop : entries.Pairwise fun e e' => p e = true → ∀ x ∈ f e'.2, q x = true) :
    Follows f entries (skipEmptyDataBlocksForward f
    ((initDataBlock f { t with indexIter := t.indexIter.seek p }).onData (.seek q))) (c.seek q) := by
  obtain ⟨l, r, hindex, hentries, hl, hr⟩ := t.indexIter.exists_seek p
  rw [h.indexIter_list] at hentries
  subst hentries
  have hbefore : ∀ x ∈ flat f l, q x = false := by
    intro x hx
    obtain ⟨e, he, hx⟩ := mem_flatMap.1 hx
    exact hpass e (mem_append_left _ he) (hl e he) x hx
  rw [hindex]
  cases r with
  | nil =>
    rw [append_nil] at h ⊢
    change Follows _ _ (skipEmptyDataBlocksForward f ⟨.off l.reverse.reverse, none⟩) _
    rw [skipEmptyDataBlocksForward_off, seek_append (m := []) (r := []) (by rw [h.list]; simp) hbefore
      (forall_mem_nil _), reverse_reverse, reverse_flat]
    change Follows _ _ _ (.off (flatBack f l.reverse).reverse)
    rw [reverse_flatBack, reverse_reverse]
    exact .off rfl
  | cons e after =>
    have hafter : ∀ x ∈ flat f after, q x = true := by
      intro x hx
      obtain ⟨e', he', hx⟩ := mem_flatMap.1 hx
      exact rel_of_pairwise_cons (pairwise_append.1 hstop).2.1 he' (hr e rfl) x hx
    obtain ⟨d, hd, hlist⟩ := initDataBlock_on l.reverse after e _ h.dataIter
    have hflat : c.list = flat f l ++ (d.list ++ flat f after) := by
      rw [h.list, hlist, flat_append]
      rfl
    change Follows _ _ (skipEmptyDataBlocksForward f
      ((initDataBlock f ⟨.on l.reverse e after, t.dataIter⟩).onData (.seek q))) _
    rw [hd, seek_append hflat hbefore hafter, reverse_flat]
    exact follows_forward (by rw [reverse_reverse]) (by rw [reverse_reverse, takeWhile_append_dropWhile, hlist])

lemma follows_seekToFirst (h : Follows f entries t c) : Follows f entries (t.seekToFirst f) c.seekToFirst := by
  have hfollows := follows_seek (p := fun _ => true) (q := fun _ => true) h (by simp)
    (pairwise_of_forall fun _ _ _ _ _ => rfl)
  rwa [seek_true, seek_true] at hfollows

lemma follows_seekToLast (h : Follows f entries t c) : Follows f entries (t.seekToLast f) c.seekToLast := by
  have hlast : c.seekToLast = .onLast (flatBack f entries.reverse) [] := by
    rw [Cursor.seekToLast, h.list, reverse_flat]
  rw [seekToLast, Cursor.seekToLast, h.indexIter_list, hlast]
  cases hrev : entries.reverse with
  | nil =>
    rw [reverse_eq_nil_iff] at hrev
    subst hrev
    change Follows _ _ (skipEmptyDataBlocksBackward f ⟨.off [], none⟩) _
    rw [skipEmptyDataBlocksBackward_off]
    exact .off rfl
  | cons e before =>
    obtain ⟨d, hd, hlist⟩ := initDataBlock_on before [] e _ h.dataIter
    change Follows _ _ (skipEmptyDataBlocksBackward f ((initDataBlock f ⟨.on before e [], t.dataIter⟩).onData .seekToLast))
        (.onLast ((f e.2).reverse ++ flatBack f before) [])
    rw [hd, ← hlist]
    exact follows_backward (b := d.list.reverse) (a := []) (by rw [← reverse_cons, ← hrev, reverse_reverse])
      (by rw [← hlist]; simp)

variable [LinearOrder κ]

structure Separated (f : η → List (κ × Slice)) (entries : List (κ × η)) : Prop where
  own : ∀ e ∈ entries, ∀ x ∈ f e.2, x.1 ≤ e.1
  later : entries.Pairwise fun e e' => ∀ x ∈ f e'.2, e.1 < x.1

lemma Follows.call (hsep : Separated f entries) (call : IteratorCall κ)
    (h : Follows f entries t c) : (t.call f call = none ∧ mapCall c call = none) ∨
    ∃ t' c', t.call f call = some t' ∧ mapCall c call = some c' ∧ Follows f entries t' c' := by
  have hvalid : t.valid = c.valid := congrArg Option.isSome h.shown
  cases call with
  | seek target =>
    refine .inr ⟨_, _, rfl, rfl, follows_seek h ?_ ?_⟩
    · intro e he hlt x hx
      exact decide_eq_false (not_le.2 ((hsep.own e he x hx).trans_lt (not_le.1 (of_decide_eq_false hlt))))
    · refine hsep.later.imp fun hlater hle x hx => ?_
      exact decide_eq_true ((of_decide_eq_true hle).trans (hlater x hx).le)
  | seekToFirst => exact .inr ⟨_, _, rfl, rfl, follows_seekToFirst h⟩
  | seekToLast => exact .inr ⟨_, _, rfl, rfl, follows_seekToLast h⟩
  | next =>
    cases hv : t.valid with
    | false => exact .inl ⟨by simp [TwoLevelIterator.call, hv], by simp [mapCall, ← hvalid, hv]⟩
    | true => exact .inr ⟨_, _, if_pos hv, if_pos (hvalid ▸ hv), follows_next h hv⟩
  | prev =>
    cases hv : t.valid with
    | false => exact .inl ⟨by simp [TwoLevelIterator.call, hv], by simp [mapCall, ← hvalid, hv]⟩
    | true => exact .inr ⟨_, _, if_pos hv, if_pos (hvalid ▸ hv), follows_prev h hv⟩

/-- Whatever calls are made, the iterator shows what a cursor on the concatenation of the blocks shows. -/
theorem twoLevelIterator_shows_concatenation (f : η → List (κ × Slice)) (index : Cursor (κ × η))
    (hsep : Separated f index.list) (calls : List (IteratorCall κ)) :
    (run (TwoLevelIterator.call f) ⟨index, none⟩ calls).map (fun t => (t.valid, t.shown)) =
    (run mapCall (.off (flat f index.list)) calls).map fun c => (c.valid, c.current) := by
  have h0 : Follows f index.list ⟨index, none⟩ (.off (flat f index.list)) := .off rfl
  rcases run_related (fun _ _ call h => Follows.call hsep call h) h0 calls with ⟨ht, hc⟩ | ⟨t, c, ht, hc, h⟩
  · rw [ht, hc]
    rfl
  · rw [ht, hc, Option.map_some, Option.map_some, Cursor.valid, valid, h.shown]

/-- A block in the middle is empty. -/
theorem twoLevelIterator_shows_concatenation_sample :
    let blocks : Nat → List (Nat × Slice) := fun i => if i = 0 then [(1, [10]), (3, [30])] else if i = 1 then [] else [(6, [60])]
    let index : Cursor (Nat × Nat) := .off [(3, 0), (4, 1), (6, 2)]
    Separated blocks index.list ∧ (run (TwoLevelIterator.call blocks) ⟨index, none⟩ [.seek 2, .next, .prev]).map
      (fun t => (t.valid, t.shown)) = some (true, some (3, [30])) := by
  intro blocks index
  have hsep : Separated blocks index.list := ⟨by decide, by decide⟩
  exact ⟨hsep, (twoLevelIterator_shows_concatenation blocks index hsep _).trans (by decide)⟩

end TwoLevelIterator

end RallyDB.Table
