import Mathlib.Tactic

/-!
# Lists: counting, sorted lists and their pieces
-/

namespace RallyDB.Lib

open List

variable {α : Type*}

variable {p q : α → Bool} {l : List α}

lemma countP_lt_countP (h : ∀ x ∈ l, p x → q x) {a : α} (ha : a ∈ l)
    (hp : p a = false) (hq : q a = true) : l.countP p < l.countP q := by
  induction l with
  | nil => cases ha
  | cons b l ih =>
    have hb := h b (by simp)
    have hl : ∀ x ∈ l, p x → q x := fun x hx => h x (by simp [hx])
    simp only [countP_cons]
    rcases mem_cons.1 ha with rfl | ha
    · have := countP_mono_left hl
      simp [hp, hq]
      omega
    · have := ih hl ha
      cases hpb : p b <;> cases hqb : q b <;> simp_all
      omega

lemma rel_or_rel_of_pairwise {R : α → α → Prop} (h : l.Pairwise R) {a b : α} (ha : a ∈ l)
    (hb : b ∈ l) (hne : a ≠ b) : R a b ∨ R b a := by
  have : Std.Symm fun a b => R a b ∨ R b a := ⟨fun _ _ => Or.symm⟩
  exact (h.imp (S := fun a b => R a b ∨ R b a) .inl).forall ha hb hne

lemma foldl_greatest {β : Type*} [LinearOrder β] (p : α → β) (l : List α) (b : α) :
    (∀ a ∈ b :: l, p a ≤ l.foldl (fun k a => if k < p a then p a else k) (p b)) ∧
    ∃ a ∈ b :: l, p a = l.foldl (fun k a => if k < p a then p a else k) (p b) := by
  induction l generalizing b with
  | nil => simp
  | cons c l ih =>
    rw [foldl_cons]
    by_cases h : p b < p c
    · rw [if_pos h]
      obtain ⟨hle, a, ha, heq⟩ := ih c
      exact ⟨forall_mem_cons.2 ⟨h.le.trans (hle c mem_cons_self), hle⟩, a, mem_cons_of_mem _ ha, heq⟩
    · rw [if_neg h]
      obtain ⟨hle, a, ha, heq⟩ := ih b
      obtain ⟨hb, hl⟩ := forall_mem_cons.1 hle
      exact ⟨forall_mem_cons.2 ⟨hb, forall_mem_cons.2 ⟨(not_lt.1 h).trans hb, hl⟩⟩, a,
        (mem_cons.1 ha).elim (· ▸ mem_cons_self) fun ha => by simp [ha], heq⟩

lemma lexMeasure_lt {a a' b b' n : Nat} (ha : a' < a) (hb : b' ≤ n) : a' * (n + 1) + b' < a * (n + 1) + b := by
  have h := Nat.mul_le_mul_right (n + 1) (Nat.succ_le_of_lt ha)
  rw [Nat.succ_mul] at h
  omega

/-! ## Concatenations and their parts -/

variable {i c : Nat}

lemma flatMap_eq_append {α β : Type*} (f : α → List β) {xs : List α} {a : α} (h : xs[i]? = some a) :
    xs.flatMap f = (xs.take i).flatMap f ++ (f a ++ (xs.drop (i + 1)).flatMap f) := by
  obtain ⟨hi, hget⟩ := List.getElem?_eq_some_iff.1 h
  conv_lhs => rw [← take_append_drop i xs, drop_eq_getElem_cons hi, hget]
  rw [flatMap_append, flatMap_cons]

lemma flatMap_length_const {α β : Type*} {f : α → List β} {xs : List α}
    (h : ∀ a ∈ xs, (f a).length = c) : (xs.flatMap f).length = c * xs.length := by
  induction xs with
  | nil => simp
  | cons a xs ih =>
    rw [flatMap_cons, length_append, h a mem_cons_self,
      ih fun a ha => h a (mem_cons_of_mem _ ha), length_cons, Nat.mul_succ, add_comm]

lemma drop_flatMap_const {α β : Type*} {f : α → List β} {xs : List α} {a : α}
    (hc : ∀ a ∈ xs, (f a).length = c) (h : xs[i]? = some a) (rest : List β) :
    (xs.flatMap f ++ rest).drop (c * i) = f a ++ ((xs.drop (i + 1)).flatMap f ++ rest) := by
  have hi : i ≤ xs.length := (List.getElem?_eq_some_iff.1 h).1.le
  have hlen : ((xs.take i).flatMap f).length = c * i := by
    rw [flatMap_length_const fun a ha => hc a (mem_of_mem_take ha), length_take, min_eq_left hi]
  rw [flatMap_eq_append f h, append_assoc, drop_left' hlen, append_assoc]

lemma isPrefix_snoc {α : Type*} {xs ys : List α} {a : α} (h : xs <+: ys) (ha : ys[xs.length]? = some a) :
    xs ++ [a] <+: ys := by
  obtain ⟨t, rfl⟩ := h
  cases t with
  | nil => simp at ha
  | cons b t =>
    obtain rfl : b = a := by simpa using ha
    exact ⟨t, by simp⟩

lemma takeWhile_congr (h : ∀ x ∈ l, p x = q x) : l.takeWhile p = l.takeWhile q := by
  induction l with
  | nil => rfl
  | cons a l ih =>
    rw [takeWhile_cons, takeWhile_cons, h a mem_cons_self, ih fun x hx => h x (mem_cons_of_mem _ hx)]

lemma forall_mem_dropWhile_not (h : l.Pairwise fun x y => p x → p y) : ∀ x ∈ l.dropWhile (fun x => !p x), p x := by
  induction l with
  | nil => exact fun x hx => absurd hx not_mem_nil
  | cons a l ih =>
    cases ha : p a with
    | false => simpa [ha] using ih h.of_cons
    | true =>
      have hall : ∀ x ∈ l, p x := fun x hx => rel_of_pairwise_cons h hx ha
      simpa [ha] using hall

lemma sum_indicator [DecidableEq α] (g : α → Int) {m : List α} (hl : l.Nodup) (hm : m.Nodup)
    (hsub : ∀ x ∈ m, x ∈ l) : (l.map fun x => if x ∈ m then g x else 0).sum = (m.map g).sum := by
  induction m generalizing l with
  | nil => simp
  | cons a m ih =>
    rw [nodup_cons] at hm
    have ha : a ∈ l := hsub a mem_cons_self
    have hperm := perm_cons_erase ha
    have herase : ∀ x ∈ l.erase a, (if x ∈ a :: m then g x else 0) = if x ∈ m then g x else 0 := by
      intro x hx
      have hne : x ≠ a := fun he => (List.Nodup.not_mem_erase hl) (he ▸ hx)
      simp [hne]
    have hsub' : ∀ x ∈ m, x ∈ l.erase a := by
      intro x hx
      have hne : x ≠ a := fun he => hm.1 (he ▸ hx)
      exact (mem_erase_of_ne hne).2 (hsub x (mem_cons_of_mem _ hx))
    rw [(hperm.map _).sum_eq, map_cons, sum_cons, if_pos mem_cons_self, map_congr_left herase,
      ih (hl.erase a) hm.2 hsub', map_cons, sum_cons]

lemma sum_map_set {f : α → Nat} {a b : α} (h : l[i]? = some a) : ((l.set i b).map f).sum + f a = (l.map f).sum + f b := by
  induction l generalizing i with
  | nil => simp at h
  | cons c l ih =>
    cases i with
    | zero =>
      simp only [getElem?_cons_zero, Option.some.injEq] at h
      subst h
      simp only [set_cons_zero, map_cons, sum_cons]
      omega
    | succ i =>
      have hl := ih h
      simp only [set_cons_succ, map_cons, sum_cons]
      omega

end RallyDB.Lib
