import RallyDB.Db.DbIter
import RallyDB.Lib.Least
import RallyDB.Lib.Machine

/-!
# Merging iterators (`table/merger.cc`)
-/

namespace RallyDB.Table

open Lib Util Db List Cursor

abbrev Child (κ : Type*) := Cursor (κ × Slice)

structure MergingIterator (κ : Type*) where
  children : List (Child κ)
  current : Option Nat
  direction : Direction

namespace MergingIterator

variable {κ : Type*}

def valid (m : MergingIterator κ) : Bool := m.current.isSome

def shown (m : MergingIterator κ) : Option (κ × Slice) := m.current.bind fun i => m.children[i]?.bind Cursor.current

/-- The loop of `FindSmallest` and `FindLargest` over the children with their indices: the first of the valid ones with
the least key. -/
def findBest {ρ : Type*} [LinearOrder ρ] (rank : κ → ρ) (cs : List (Child κ × Nat)) : Option Nat :=
  (leastBy (fun p => (p.1.current.map fun x => rank x.1 : WithTop ρ)) (fun p => p.1.valid) cs).map Prod.snd

def moveOthers (move : Child κ → Child κ) (m : MergingIterator κ) : List (Child κ) :=
  m.children.mapIdx fun i c => if m.current = some i then c else move c

def moveCurrent (move : Child κ → Child κ) (m : MergingIterator κ) : MergingIterator κ :=
  { m with children := m.current.elim m.children fun i => m.children.modify i move }

section Moves

variable [LinearOrder κ]

variable (m : MergingIterator κ)

def findSmallest : MergingIterator κ :=
  { m with current := findBest (fun k => k) m.children.zipIdx }

def findLargest : MergingIterator κ :=
  { m with current := findBest OrderDual.toDual m.children.zipIdx.reverse }

def seekToFirst (m : MergingIterator κ) : MergingIterator κ :=
  { findSmallest { m with children := m.children.map .seekToFirst } with direction := .forward }

def seekToLast (m : MergingIterator κ) : MergingIterator κ :=
  { findLargest { m with children := m.children.map .seekToLast } with direction := .reverse }

def seek (target : κ) (m : MergingIterator κ) : MergingIterator κ :=
  { findSmallest { m with children := m.children.map (.seek fun x => target ≤ x.1) } with direction := .forward }

def seekAfter (key : κ) (c : Child κ) : Child κ :=
  let c := c.seek fun x => key ≤ x.1
  if c.current.any fun x => key = x.1 then c.next else c

def seekBefore (key : κ) (c : Child κ) : Child κ :=
  let c := c.seek fun x => key ≤ x.1
  if c.valid then c.prev else c.seekToLast

def next (m : MergingIterator κ) (key : κ) : MergingIterator κ :=
  let m := if m.direction = .forward then m else { m with children := m.moveOthers (seekAfter key), direction := .forward }
  findSmallest (m.moveCurrent .next)

def prev (m : MergingIterator κ) (key : κ) : MergingIterator κ :=
  let m := if m.direction = .reverse then m else { m with children := m.moveOthers (seekBefore key), direction := .reverse }
  findLargest (m.moveCurrent .prev)

def call : IteratorCall κ → Option (MergingIterator κ)
  | .seek target => some (m.seek target)
  | .seekToFirst => some m.seekToFirst
  | .seekToLast => some m.seekToLast
  | .next => m.shown.map fun x => m.next x.1
  | .prev => m.shown.map fun x => m.prev x.1

end Moves

variable {ρ : Type*} [LinearOrder ρ] {r : κ → ρ} {cs : List (Child κ × Nat)} {children : List (Child κ)}
  {view : List (κ × Slice) → List (κ × Slice)} {u l : List (κ × Slice)}
  {p : κ × Slice → Bool} {x y : κ × Slice} {move : Child κ → Child κ} {i : Nat} {m : MergingIterator κ} {c child : Child κ}

omit [LinearOrder ρ] in
lemma find?_congr {q : κ × Slice → Bool} (h : ∀ z ∈ l, p z = q z) : l.find? p = l.find? q := by
  rw [← head?_filter, ← head?_filter, filter_congr h]

lemma find?_eq_some_of_least (hl : l.Pairwise fun x y => r x.1 < r y.1) (hx : x ∈ l) (hp : p x = true)
    (hmin : ∀ y ∈ l, p y = true → r x.1 ≤ r y.1) : l.find? p = some x := by
  obtain ⟨before, after, rfl⟩ := append_of_mem hx
  rw [find?_append_of_not, find?_cons_of_pos hp]
  intro y hy
  have hlt := (pairwise_append.1 hl).2.2 y hy x mem_cons_self
  exact Bool.eq_false_iff.2 fun hpy => hlt.not_ge (hmin y (mem_append_left _ hy) hpy)

lemma le_of_find? (hl : l.Pairwise fun x y => r x.1 < r y.1) (hx : l.find? p = some x) (hy : y ∈ l) (hp : p y = true) :
    r x.1 ≤ r y.1 := by
  obtain ⟨-, before, after, rfl, hbefore⟩ := find?_eq_some_iff_append.1 hx
  rcases mem_append.1 hy with hy | hy
  · have hnot := hbefore y hy
    rw [hp] at hnot
    cases hnot
  · rcases mem_cons.1 hy with rfl | hy
    · exact le_rfl
    · exact (rel_of_pairwise_cons (pairwise_append.1 hl).2.1 hy).le

section

variable (view p)

def Placed (children : List (Child κ)) : Prop :=
  ∀ c ∈ children, c.current = (view c.list).find? p

end

structure Ordered (r : κ → ρ) (view : List (κ × Slice) → List (κ × Slice)) (children : List (Child κ))
    (u : List (κ × Slice)) : Prop where
  mem_view : ∀ l x, x ∈ view l ↔ x ∈ l
  sorted : ∀ c ∈ children, (view c.list).Pairwise fun x y => r x.1 < r y.1
  union : (view u).Pairwise fun x y => r x.1 < r y.1
  mem : ∀ x, x ∈ u ↔ ∃ c ∈ children, x ∈ c.list

lemma Ordered.findBest (h : Ordered r view children u) (hcs : ∀ c i, (c, i) ∈ cs ↔ children[i]? = some c)
    (hp : ∀ x y, p x = true → r x.1 ≤ r y.1 → p y = true) (hplaced : Placed view p children) :
    (findBest r cs = none ∧ (view u).find? p = none) ∨ ∃ i c x, findBest r cs = some i ∧ children[i]? = some c ∧
    c.current = some x ∧ (view u).find? p = some x ∧ Placed view (fun y => r x.1 ≤ r y.1) children := by
  have hchild : ∀ z ∈ u, p z = true → ∃ q ∈ cs, ∃ y, q.1.current = some y ∧ r y.1 ≤ r z.1 := by
    intro z hz hpz
    obtain ⟨c, hc, hzc⟩ := (h.mem z).1 hz
    obtain ⟨i, hi⟩ := mem_iff_getElem?.1 hc
    cases hy : c.current with
    | none =>
      rw [hplaced c hc, find?_eq_none] at hy
      exact absurd hpz (hy z ((h.mem_view _ z).2 hzc))
    | some y =>
      refine ⟨(c, i), (hcs c i).2 hi, y, hy, ?_⟩
      rw [hplaced c hc] at hy
      exact le_of_find? (h.sorted c hc) hy ((h.mem_view _ z).2 hzc) hpz
  unfold MergingIterator.findBest
  cases hfound : leastBy (fun p => (p.1.current.map fun x => r x.1 : WithTop ρ)) (fun p => p.1.valid) cs with
  | none =>
    refine .inl ⟨rfl, find?_eq_none.2 fun z hz hpz => ?_⟩
    obtain ⟨q, hq, y, hy, -⟩ := hchild z ((h.mem_view u z).1 hz) hpz
    have hinvalid := leastBy_eq_none.1 hfound q hq
    simp [Cursor.valid, hy] at hinvalid
  | some q =>
    obtain ⟨hq, hvalid, hleast⟩ := leastBy_spec hfound
    obtain ⟨x, hx⟩ := Option.isSome_iff_exists.1 hvalid
    have hi := (hcs q.1 q.2).1 hq
    have hmem := mem_of_getElem? hi
    have hfind := hx
    rw [hplaced q.1 hmem] at hfind
    have hpx : p x = true := find?_some hfind
    have hle : ∀ z ∈ u, p z = true → r x.1 ≤ r z.1 := by
      intro z hz hpz
      obtain ⟨q', hq', y, hy, hle⟩ := hchild z hz hpz
      have hxy := hleast q' hq' (by simp [Cursor.valid, hy])
      rw [hx, hy] at hxy
      exact (WithTop.coe_le_coe.1 hxy).trans hle
    refine .inr ⟨q.2, q.1, x, rfl, hi, hx, ?_, fun d hd => ?_⟩
    · have hxu : x ∈ u := (h.mem x).2 ⟨q.1, hmem, (h.mem_view _ x).1 (mem_of_find?_eq_some hfind)⟩
      exact find?_eq_some_of_least h.union ((h.mem_view u x).2 hxu) hpx fun z hz => hle z ((h.mem_view u z).1 hz)
    · rw [hplaced d hd]
      refine find?_congr fun z hz => Bool.eq_iff_iff.2 ⟨fun hpz => decide_eq_true ?_, fun hz => ?_⟩
      · exact hle z ((h.mem z).2 ⟨d, hd, (h.mem_view _ z).1 hz⟩) hpz
      · exact hp x z hpx (of_decide_eq_true hz)

/-! ## Calls -/

lemma map_list (h : ∀ c, (move c).list = c.list) : (children.map move).map list = children.map list := by
  rw [map_map]
  exact map_congr_left fun c _ => h c

lemma forall_modify {Q : Child κ → Prop} (hi : children[i]? = some child) (hmove : Q (move child))
    (hothers : ∀ j d, i ≠ j → children[j]? = some d → Q d) : ∀ d ∈ children.modify i move, Q d := by
  intro d hd
  obtain ⟨j, hj⟩ := mem_iff_getElem?.1 hd
  rw [getElem?_modify] at hj
  by_cases hij : i = j
  · subst hij
    simp only [hi, if_true, Option.map_eq_map, Option.map_some, Option.some.injEq] at hj
    exact hj ▸ hmove
  · simp only [hij, if_false, Option.map_eq_map, Option.map_id'] at hj
    exact hothers j d hij hj

lemma map_modify (h : ∀ c, (move c).list = c.list) (i : Nat) : (children.modify i move).map list = children.map list := by
  refine ext_getElem? fun j => ?_
  simp only [getElem?_map, getElem?_modify, Option.map_eq_map, Option.map_map, Function.comp_def, apply_ite, h, ite_self]

lemma getElem?_moveOthers (hi : m.current = some i) (j : Nat) :
    (m.moveOthers move)[j]? = m.children[j]?.map fun c => if i = j then c else move c := by
  simp [moveOthers, getElem?_mapIdx, hi]

lemma map_moveOthers (h : ∀ c, (move c).list = c.list) : (m.moveOthers move).map list = m.children.map list := by
  refine ext_getElem? fun j => ?_
  simp only [moveOthers, getElem?_map, getElem?_mapIdx, Option.map_map, Function.comp_def, apply_ite, h, ite_self]

lemma mem_list_of_current (h : c.current = some x) : x ∈ c.list := by
  cases c with
  | off l => cases h
  | on before y after =>
    cases h
    simp [list]

section Calls

variable [LinearOrder κ]

structure IsMerge (ls : List (List (κ × Slice))) (u : List (κ × Slice)) : Prop where
  sorted : ∀ l ∈ ls, l.Pairwise fun x y => x.1 < y.1
  different : ls.Pairwise fun l m => ∀ x ∈ l, ∀ y ∈ m, x.1 ≠ y.1
  union : u.Pairwise fun x y => x.1 < y.1
  mem : ∀ x, x ∈ u ↔ ∃ l ∈ ls, x ∈ l

variable {ls : List (List (κ × Slice))}

lemma IsMerge.ordered (h : IsMerge (children.map list) u) : Ordered (fun k : κ => k) id children u where
  mem_view _ _ := Iff.rfl
  sorted c hc := h.sorted _ (mem_map_of_mem hc)
  union := h.union
  mem x := by simp [h.mem x]

lemma IsMerge.ordered_reverse (h : IsMerge (children.map list) u) :
    Ordered (OrderDual.toDual : κ → κᵒᵈ) List.reverse children u where
  mem_view _ _ := mem_reverse
  sorted c hc := pairwise_reverse.2 (h.sorted _ (mem_map_of_mem hc))
  union := pairwise_reverse.2 h.union
  mem x := by simp [h.mem x]

def PlacedAt (direction : Direction) (x : κ × Slice) (children : List (Child κ)) : Prop :=
  match direction with
  | .forward => Placed id (fun y => x.1 ≤ y.1) children
  | .reverse => Placed List.reverse (fun y => y.1 ≤ x.1) children

structure Follows (ls : List (List (κ × Slice))) (u : List (κ × Slice)) (m : MergingIterator κ) (c : Child κ) :
    Prop where
  lists : m.children.map Cursor.list = ls
  list : c.list = u
  shows : (m.current = none ∧ c.current = none) ∨ ∃ i child x, m.current = some i ∧ m.children[i]? = some child ∧
    child.current = some x ∧ c.current = some x ∧ PlacedAt m.direction x m.children

lemma follows_findBest {direction : Direction} (hord : Ordered r view m.children u)
    (hcs : ∀ c i, (c, i) ∈ cs ↔ m.children[i]? = some c) (hp : ∀ x y, p x = true → r x.1 ≤ r y.1 → p y = true)
    (hat : ∀ x, Placed view (fun y => r x.1 ≤ r y.1) m.children → PlacedAt direction x m.children)
    (hplaced : Placed view p m.children) (hlist : c.list = u) (hcurrent : c.current = (view u).find? p) :
    Follows (m.children.map list) u ⟨m.children, findBest r cs, direction⟩ c := by
  refine ⟨rfl, hlist, ?_⟩
  rcases hord.findBest hcs hp hplaced with ⟨hbest, hnone⟩ | ⟨i, child, x, hbest, hi, hx, hsome, hx'⟩
  · exact .inl ⟨hbest, hcurrent.trans hnone⟩
  · exact .inr ⟨i, child, x, hbest, hi, hx, hcurrent.trans hsome, hat x hx'⟩

lemma follows_findSmallest (h : IsMerge ls u) (hlists : m.children.map list = ls) (hlist : c.list = u)
    (hp : ∀ x y, p x = true → x.1 ≤ y.1 → p y = true) (hplaced : Placed id p m.children) (hcurrent : c.current = u.find? p) :
    Follows ls u { m.findSmallest with direction := .forward } c := by
  subst hlists
  exact follows_findBest h.ordered (fun c i => by simp [mem_zipIdx_iff_getElem?]) hp (fun _ hx => hx) hplaced hlist hcurrent

lemma follows_findLargest (h : IsMerge ls u) (hlists : m.children.map list = ls) (hlist : c.list = u)
    (hp : ∀ x y, p x = true → y.1 ≤ x.1 → p y = true) (hplaced : Placed List.reverse p m.children)
    (hcurrent : c.current = u.reverse.find? p) : Follows ls u { m.findLargest with direction := .reverse } c := by
  subst hlists
  exact follows_findBest h.ordered_reverse (fun c i => by simp [mem_zipIdx_iff_getElem?]) hp (fun _ hx => hx) hplaced hlist
    hcurrent

lemma IsMerge.ne (h : IsMerge (children.map list) u) {j : Nat} {d : Child κ} (hij : i ≠ j)
    (hc : children[i]? = some c) (hd : children[j]? = some d) (hx : x ∈ c.list) (hy : y ∈ d.list) : x.1 ≠ y.1 := by
  have hdiff := pairwise_iff_getElem.1 (pairwise_map.1 h.different)
  obtain ⟨hi, rfl⟩ := List.getElem?_eq_some_iff.1 hc
  obtain ⟨hj, rfl⟩ := List.getElem?_eq_some_iff.1 hd
  rcases Nat.lt_or_gt_of_ne hij with hlt | hgt
  · exact hdiff i j hi hj hlt x hx y hy
  · exact (hdiff j i hj hi hgt y hy x hx).symm

lemma follows_seek (h : IsMerge ls u) (hf : Follows ls u m c) (hp : ∀ x y, p x = true → x.1 ≤ y.1 → p y = true) :
    Follows ls u { findSmallest { m with children := m.children.map (.seek p) } with direction := .forward } (c.seek p) := by
  refine follows_findSmallest h ((map_list (list_seek _)).trans hf.lists) (by rw [list_seek, hf.list]) hp ?_ ?_
  · intro d hd
    obtain ⟨d, -, rfl⟩ := mem_map.1 hd
    rw [list_seek]
    exact current_seek _ d
  · rw [current_seek, hf.list]

lemma follows_seekToLast (h : IsMerge ls u) (hf : Follows ls u m c) : Follows ls u m.seekToLast c.seekToLast := by
  refine follows_findLargest h ((map_list list_seekToLast).trans hf.lists) (by rw [list_seekToLast, hf.list])
    (p := fun _ => true) (fun _ _ _ _ => rfl) ?_ ?_
  · intro d hd
    obtain ⟨d, -, rfl⟩ := mem_map.1 hd
    rw [list_seekToLast, current_seekToLast, find?_of_forall fun _ _ => rfl]
  · rw [current_seekToLast, hf.list, find?_of_forall fun _ _ => rfl]

/-! ## Steps -/

lemma list_seekAfter (k : κ) (c : Child κ) : (seekAfter k c).list = c.list := by
  unfold seekAfter
  dsimp only
  split_ifs <;> simp

lemma list_seekBefore (k : κ) (c : Child κ) : (seekBefore k c).list = c.list := by
  unfold seekBefore
  dsimp only
  split_ifs <;> simp

lemma current_seekAfter {k : κ} (hne : ∀ y ∈ c.list, k ≠ y.1) : (seekAfter k c).current = c.list.find? fun y => k ≤ y.1 := by
  unfold seekAfter
  dsimp only
  rw [if_neg, current_seek]
  rw [current_seek, Option.any_eq_true]
  rintro ⟨y, hy, hk⟩
  exact hne y (mem_of_find?_eq_some hy) (of_decide_eq_true hk)

lemma current_seekBefore {k : κ} (hc : c.list.Pairwise fun x y => x.1 < y.1) :
    (seekBefore k c).current = c.list.reverse.find? fun y => y.1 < k := by
  obtain ⟨l, r, hseek, hlist, hl, hr⟩ := c.exists_seek fun x => k ≤ x.1
  rw [hlist] at hc
  have hafter : ∀ y ∈ r, k ≤ y.1 := by
    cases r with
    | nil => exact forall_mem_nil _
    | cons z r =>
      have hz : k ≤ z.1 := of_decide_eq_true (hr z rfl)
      refine forall_mem_cons.2 ⟨hz, fun y hy => hz.trans ?_⟩
      exact (rel_of_pairwise_cons (pairwise_append.1 hc).2.1 hy).le
  unfold seekBefore
  dsimp only
  rw [hseek, prev_onFirst, current_onLast, hlist, reverse_append, find?_append_of_not, find?_of_forall]
  · exact fun y hy => decide_eq_true (not_le.1 (of_decide_eq_false (hl y (mem_reverse.1 hy))))
  · exact fun y hy => decide_eq_false (not_lt.2 (hafter y (mem_reverse.1 hy)))

structure Shows (m : MergingIterator κ) (i : Nat) (child : Child κ) (x : κ × Slice) : Prop where
  current : m.current = some i
  getChild : m.children[i]? = some child
  shown : child.current = some x
  sorted : child.list.Pairwise fun x y => x.1 < y.1
  others : ∀ j d, i ≠ j → m.children[j]? = some d → ∀ z ∈ d.list, x.1 ≠ z.1
  placed : PlacedAt m.direction x m.children

lemma Follows.exists_shows (h : IsMerge ls u) (hf : Follows ls u m c) (hx : c.current = some x) :
    ∃ i child, Shows m i child x := by
  rcases hf.shows with ⟨-, hnone⟩ | ⟨i, child, y, hi, hchild, hy, hcur, hat⟩
  · rw [hx] at hnone
    cases hnone
  · rw [hx] at hcur
    cases hcur
    have hlists := hf.lists
    subst hlists
    refine ⟨i, child, hi, hchild, hy, ?_, fun j d hij hd z hz => ?_, hat⟩
    · exact h.sorted _ (mem_map_of_mem (mem_of_getElem? hchild))
    · exact h.ne hij hchild hd (mem_list_of_current hy) hz

lemma follows_next (h : IsMerge ls u) (hf : Follows ls u m c) (hx : c.current = some x) :
    Follows ls u (m.next x.1) c.next := by
  obtain ⟨i, child, hs⟩ := hf.exists_shows h hx
  have hstep : ∀ cs : List (Child κ), cs.map list = ls → cs[i]? = some child →
      (∀ j d, i ≠ j → cs[j]? = some d → d.current = d.list.find? fun y => x.1 < y.1) →
      Follows ls u { findSmallest { m with children := cs.modify i .next } with direction := .forward } c.next := by
    intro cs hlists hi hothers
    refine follows_findSmallest h ((map_modify list_next i).trans hlists) (by rw [list_next, hf.list])
      (p := fun y => x.1 < y.1) (fun y z hy hle => decide_eq_true ((of_decide_eq_true hy).trans_le hle)) ?_ ?_
    · refine forall_modify hi ?_ hothers
      rw [list_next]
      exact current_next hs.sorted hs.shown
    · rw [current_next (hf.list ▸ h.union) hx, hf.list]
  have hlt : ∀ j d, i ≠ j → m.children[j]? = some d →
      (d.list.find? fun y => x.1 ≤ y.1) = d.list.find? fun y => x.1 < y.1 := by
    intro j d hij hd
    refine find?_congr fun z hz => ?_
    simp only [(hs.others j d hij hd z hz).le_iff_lt]
  have hcurrent := hs.current
  cases hdir : m.direction with
  | forward =>
    have hat : Placed id (fun y => x.1 ≤ y.1) m.children := by simpa [PlacedAt, hdir] using hs.placed
    have hnext := hstep m.children hf.lists hs.getChild fun j d hij hd =>
      (hat d (mem_of_getElem? hd)).trans (hlt j d hij hd)
    simpa [next, hdir, moveCurrent, hcurrent, findSmallest] using hnext
  | reverse =>
    have hnext := hstep (m.moveOthers (seekAfter x.1)) ((map_moveOthers (list_seekAfter _)).trans hf.lists)
      (by simp [getElem?_moveOthers hcurrent, hs.getChild]) fun j d hij hd => by
        rw [getElem?_moveOthers hcurrent, Option.map_eq_some_iff] at hd
        obtain ⟨d, hd, rfl⟩ := hd
        rw [if_neg hij, list_seekAfter, current_seekAfter (hs.others j d hij hd), hlt j d hij hd]
    simpa [next, hdir, moveCurrent, hcurrent, findSmallest] using hnext

lemma follows_prev (h : IsMerge ls u) (hf : Follows ls u m c) (hx : c.current = some x) :
    Follows ls u (m.prev x.1) c.prev := by
  obtain ⟨i, child, hs⟩ := hf.exists_shows h hx
  have hstep : ∀ cs : List (Child κ), cs.map list = ls → cs[i]? = some child →
      (∀ j d, i ≠ j → cs[j]? = some d → d.current = d.list.reverse.find? fun y => y.1 < x.1) →
      Follows ls u { findLargest { m with children := cs.modify i .prev } with direction := .reverse } c.prev := by
    intro cs hlists hi hothers
    refine follows_findLargest h ((map_modify list_prev i).trans hlists) (by rw [list_prev, hf.list])
      (p := fun y => y.1 < x.1) (fun y z hy hle => decide_eq_true (hle.trans_lt (of_decide_eq_true hy))) ?_ ?_
    · refine forall_modify hi ?_ hothers
      rw [list_prev]
      exact current_prev hs.sorted hs.shown
    · rw [current_prev (hf.list ▸ h.union) hx, hf.list]
  have hcurrent := hs.current
  cases hdir : m.direction with
  | forward =>
    have hnext := hstep (m.moveOthers (seekBefore x.1)) ((map_moveOthers (list_seekBefore _)).trans hf.lists)
      (by simp [getElem?_moveOthers hcurrent, hs.getChild]) fun j d hij hd => by
        rw [getElem?_moveOthers hcurrent, Option.map_eq_some_iff] at hd
        obtain ⟨d, hd, rfl⟩ := hd
        have hsorted := h.sorted _ (hf.lists ▸ mem_map_of_mem (mem_of_getElem? hd))
        rw [if_neg hij, list_seekBefore, current_seekBefore hsorted]
    simpa [prev, hdir, moveCurrent, hcurrent, findLargest] using hnext
  | reverse =>
    have hat : Placed List.reverse (fun y => y.1 ≤ x.1) m.children := by simpa [PlacedAt, hdir] using hs.placed
    have hnext := hstep m.children hf.lists hs.getChild fun j d hij hd => by
      rw [hat d (mem_of_getElem? hd)]
      refine find?_congr fun z hz => ?_
      simp only [(hs.others j d hij hd z (mem_reverse.1 hz)).symm.le_iff_lt]
    simpa [prev, hdir, moveCurrent, hcurrent, findLargest] using hnext

lemma Follows.shown (hf : Follows ls u m c) : m.shown = c.current ∧ m.valid = c.valid := by
  rcases hf.shows with ⟨hm, hc⟩ | ⟨i, child, y, hi, hchild, hy, hcur, -⟩
  · simp [MergingIterator.shown, valid, Cursor.valid, hm, hc]
  · simp [MergingIterator.shown, valid, Cursor.valid, hi, hchild, hy, hcur]

lemma Follows.call (h : IsMerge ls u) (call : IteratorCall κ) (hf : Follows ls u m c) :
    (m.call call = none ∧ mapCall c call = none) ∨
    ∃ m' c', m.call call = some m' ∧ mapCall c call = some c' ∧ Follows ls u m' c' := by
  cases call with
  | seek target =>
    exact .inr ⟨_, _, rfl, rfl, follows_seek h hf fun x y hx hle => decide_eq_true ((of_decide_eq_true hx).trans hle)⟩
  | seekToFirst =>
    have hfirst := follows_seek h hf (p := fun _ => true) fun _ _ _ _ => rfl
    rw [Cursor.seek_true] at hfirst
    exact .inr ⟨_, _, rfl, rfl, hfirst⟩
  | seekToLast => exact .inr ⟨_, _, rfl, rfl, follows_seekToLast h hf⟩
  | next =>
    cases hc : c.current with
    | none => exact .inl (by simp [MergingIterator.call, hf.shown.1, mapCall, Cursor.valid, hc])
    | some x =>
      exact .inr ⟨_, _, by simp [MergingIterator.call, hf.shown.1, hc], by simp [mapCall, Cursor.valid, hc],
        follows_next h hf hc⟩
  | prev =>
    cases hc : c.current with
    | none => exact .inl (by simp [MergingIterator.call, hf.shown.1, mapCall, Cursor.valid, hc])
    | some x =>
      exact .inr ⟨_, _, by simp [MergingIterator.call, hf.shown.1, hc], by simp [mapCall, Cursor.valid, hc],
        follows_prev h hf hc⟩

/-- Whatever calls are made, the iterator shows what a cursor on the sorted union of the children shows. -/
theorem mergingIterator_shows_union (children : List (Child κ)) (u : List (κ × Slice))
    (h : IsMerge (children.map Cursor.list) u) (calls : List (IteratorCall κ)) :
    (run MergingIterator.call ⟨children, none, .forward⟩ calls).map (fun m => (m.valid, m.shown)) =
    (run mapCall (.off u) calls).map fun c => (c.valid, c.current) := by
  have h0 : Follows (children.map list) u ⟨children, none, .forward⟩ (.off u) := ⟨rfl, rfl, .inl ⟨rfl, rfl⟩⟩
  rcases run_related (fun _ _ call hf => Follows.call h call hf) h0 calls with ⟨hm, hc⟩ | ⟨m, c, hm, hc, hf⟩
  · rw [hm, hc]
    rfl
  · rw [hm, hc, Option.map_some, Option.map_some, hf.shown.1, hf.shown.2]

theorem mergingIterator_shows_union_sample :
    let children : List (Cursor (Nat × Slice)) := [.off [(1, [10]), (4, [40])], .off [], .off [(2, [20])]]
    let u : List (Nat × Slice) := [(1, [10]), (2, [20]), (4, [40])]
    IsMerge (children.map Cursor.list) u ∧ (run MergingIterator.call ⟨children, none, .forward⟩ [.seek 3, .prev, .next]).map
      (fun m => (m.valid, m.shown)) = some (true, some (4, [40])) := by
  intro children u
  have h : IsMerge (children.map list) u := by
    refine ⟨by decide, by decide, by decide, fun x => ?_⟩
    simp [u, children, list]
    tauto
  exact ⟨h, (mergingIterator_shows_union children u h _).trans (by decide)⟩

end Calls

end MergingIterator

end RallyDB.Table
