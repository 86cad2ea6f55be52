import Mathlib.Tactic

/-!
# Bidirectional cursors on a list
-/

namespace RallyDB.Lib

open List

variable {α : Type*}

inductive Cursor (α : Type*) where
  | off (list : List α)
  | on (before : List α) (x : α) (after : List α)
  deriving DecidableEq

namespace Cursor

def list : Cursor α → List α
  | off l => l
  | on before x after => before.reverse ++ x :: after

def current : Cursor α → Option α
  | off _ => none
  | on _ x _ => some x

variable (c : Cursor α)

def valid : Bool := c.current.isSome

def onFirst (before after : List α) : Cursor α :=
  match after with
  | [] => off before.reverse
  | x :: after => on before x after

def onLast (before after : List α) : Cursor α :=
  match before with
  | [] => off after
  | x :: before => on before x after

def seekToFirst : Cursor α := onFirst [] c.list

def seekToLast : Cursor α := onLast c.list.reverse []

variable (p : α → Bool)

def seek (c : Cursor α) : Cursor α :=
  onFirst (c.list.takeWhile fun x => !p x).reverse (c.list.dropWhile fun x => !p x)

def next : Cursor α → Cursor α
  | off l => off l
  | on before x after => onFirst (x :: before) after

def prev : Cursor α → Cursor α
  | off l => off l
  | on before x after => onLast before (x :: after)

def left : Cursor α → Nat
  | off _ => 0
  | on _ _ after => after.length + 1

def passed : Cursor α → Nat
  | off _ => 0
  | on before _ _ => before.length + 1

/-! ## Moves keep the list -/

@[simp] lemma list_onFirst (before after : List α) : (onFirst before after).list = before.reverse ++ after := by
  cases after <;> simp [onFirst, list]

@[simp] lemma list_onLast (before after : List α) : (onLast before after).list = before.reverse ++ after := by
  cases before <;> simp [onLast, list]

@[simp] lemma list_seekToFirst : c.seekToFirst.list = c.list := by simp [seekToFirst]

@[simp] lemma list_seekToLast : c.seekToLast.list = c.list := by simp [seekToLast]

@[simp] lemma list_seek (c : Cursor α) : (c.seek p).list = c.list := by simp [seek]

@[simp] lemma list_next : c.next.list = c.list := by
  cases c with
  | off l => rfl
  | on before x after =>
    rw [next, list_onFirst]
    simp [list]

@[simp] lemma list_prev : c.prev.list = c.list := by
  cases c with
  | off l => rfl
  | on before x after =>
    rw [prev, list_onLast]
    rfl

lemma left_next_lt (before : List α) (x : α) (after : List α) : (on before x after).next.left < (on before x after).left := by
  cases after <;> simp [next, onFirst, left]

lemma passed_prev_lt (before : List α) (x : α) (after : List α) :
    (on before x after).prev.passed < (on before x after).passed := by
  cases before <;> simp [prev, onLast, passed]

/-! ## Where moves end -/

@[simp] lemma current_onFirst (before after : List α) : (onFirst before after).current = after.head? := by
  cases after <;> rfl

@[simp] lemma current_onLast (before after : List α) : (onLast before after).current = before.head? := by
  cases before <;> rfl

lemma current_seekToFirst : c.seekToFirst.current = c.list.head? := by simp [seekToFirst]

lemma current_seekToLast : c.seekToLast.current = c.list.reverse.head? := by simp [seekToLast]

lemma current_seek (c : Cursor α) : (c.seek p).current = c.list.find? p := by
  rw [seek, current_onFirst]
  induction c.list with
  | nil => rfl
  | cons x l ih =>
    cases hp : p x with
    | true => simp [hp]
    | false => simpa [hp] using ih

lemma next_onLast (before after : List α) :
    (if (onLast before after).valid then (onLast before after).next else (onLast before after).seekToFirst) =
    onFirst before after := by
  cases before <;> rfl

lemma prev_onFirst (before after : List α) :
    (if (onFirst before after).valid then (onFirst before after).prev else (onFirst before after).seekToLast) =
    onLast before after := by
  cases after with
  | nil => simp [onFirst, valid, current, seekToLast, list]
  | cons x after => rfl

lemma seek_true : (seek fun _ : α => true) = seekToFirst := by
  funext c
  unfold seek seekToFirst
  cases c.list <;> rfl

lemma exists_seek (c : Cursor α) : ∃ l r, c.seek p = onFirst l.reverse r ∧ c.list = l ++ r ∧
    (∀ x ∈ l, p x = false) ∧ ∀ x ∈ r.head?, p x = true := by
  refine ⟨_, _, rfl, takeWhile_append_dropWhile.symm, ?_⟩
  induction c.list with
  | nil => simp
  | cons x l ih => cases hx : p x <;> simp_all

lemma seek_append {p : α → Bool} {c : Cursor α} {l m r : List α} (h : c.list = l ++ (m ++ r)) (hl : ∀ x ∈ l, p x = false)
    (hr : ∀ x ∈ r, p x = true) :
    c.seek p = onFirst ((m.takeWhile fun x => !p x).reverse ++ l.reverse) ((m.dropWhile fun x => !p x) ++ r) := by
  have hpass : ∀ x ∈ l, (!p x) = true := by simpa using hl
  have hm : (m ++ r).takeWhile (fun x => !p x) = m.takeWhile (fun x => !p x) ∧
      (m ++ r).dropWhile (fun x => !p x) = m.dropWhile (fun x => !p x) ++ r := by
    clear h
    induction m with
    | nil => cases r <;> simp_all
    | cons x m ih => cases hx : p x <;> simp_all
  rw [seek, h, takeWhile_append_of_pos hpass, dropWhile_append_of_pos hpass, hm.1, hm.2, reverse_append]

lemma find?_append_of_not {p : α → Bool} {l m : List α} (h : ∀ x ∈ l, p x = false) : (l ++ m).find? p = m.find? p := by
  rw [find?_append, find?_eq_none.2 (by simpa using h), Option.none_or]

lemma find?_of_forall {p : α → Bool} {l : List α} (h : ∀ x ∈ l, p x = true) : l.find? p = l.head? := by
  cases l with
  | nil => rfl
  | cons x l => simp [h x mem_cons_self]

variable {κ : Type*} [LinearOrder κ] {key : α → κ}

lemma current_next {c : Cursor α} (hl : c.list.Pairwise fun x y => key x < key y) {x : α} (hx : c.current = some x) :
    c.next.current = c.list.find? fun y => key x < key y := by
  cases c with
  | off l => cases hx
  | on before y after =>
    cases hx
    obtain ⟨-, hafter, hbefore⟩ := pairwise_append.1 hl
    rw [next, current_onFirst, list, append_cons, find?_append_of_not, find?_of_forall]
    · intro y hy
      exact decide_eq_true (rel_of_pairwise_cons hafter hy)
    · intro y hy
      rcases mem_append.1 hy with hy | hy
      · exact decide_eq_false (lt_asymm (hbefore y hy x mem_cons_self))
      · rw [mem_singleton.1 hy]
        exact decide_eq_false (lt_irrefl _)

lemma current_prev {c : Cursor α} (hl : c.list.Pairwise fun x y => key x < key y) {x : α} (hx : c.current = some x) :
    c.prev.current = c.list.reverse.find? fun y => key y < key x := by
  cases c with
  | off l => cases hx
  | on before y after =>
    cases hx
    obtain ⟨-, hafter, hbefore⟩ := pairwise_append.1 hl
    rw [prev, current_onLast, list, reverse_append, reverse_reverse, find?_append_of_not, find?_of_forall]
    · intro y hy
      exact decide_eq_true (hbefore y (mem_reverse.2 hy) x mem_cons_self)
    · intro y hy
      rcases mem_cons.1 (mem_reverse.1 hy) with rfl | hy
      · exact decide_eq_false (lt_irrefl _)
      · exact decide_eq_false (lt_asymm (rel_of_pairwise_cons hafter hy))

end Cursor

end RallyDB.Lib
