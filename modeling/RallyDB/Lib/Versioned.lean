import RallyDB.Lib.Lists

/-!
# Multi-version stores
-/

namespace RallyDB.Lib

open List

variable {α κ : Type*} (key : α → κ) (seq : α → Nat)

/-! ## Newest entries -/

structure IsNewest (u : κ) (s : Nat) (S : Set α) (a : α) : Prop where
  mem : a ∈ S
  key_eq : key a = u
  seq_le : seq a ≤ s
  newest : ∀ b ∈ S, key b = u → seq b ≤ s → seq b ≤ seq a

def Newer (l m : List α) : Prop := ∀ a ∈ l, ∀ b ∈ m, key a = key b → seq b < seq a

def NewestFirst (l : List α) : Prop := l.Pairwise fun a b => key a = key b → seq b < seq a

def readAt [DecidableEq κ] (u : κ) (s : Nat) (l : List α) : Option α := l.find? fun a => key a = u ∧ seq a ≤ s

variable {key seq}

variable {l m : List α}

lemma newestFirst_append :
    NewestFirst key seq (l ++ m) ↔ NewestFirst key seq l ∧ NewestFirst key seq m ∧ Newer key seq l m :=
  pairwise_append

lemma newestFirst_flatten {ls : List (List α)} :
    NewestFirst key seq ls.flatten ↔ (∀ l ∈ ls, NewestFirst key seq l) ∧ ls.Pairwise (Newer key seq) :=
  pairwise_flatten

lemma readAt_isNewest [DecidableEq κ] (hl : NewestFirst key seq l) {u : κ} {s : Nat} {a : α}
    (h : readAt key seq u s l = some a) : IsNewest key seq u s {b | b ∈ l} a := by
  obtain ⟨hp, front, back, rfl, hfront⟩ := find?_eq_some_iff_append.1 h
  simp only [decide_eq_true_eq] at hp
  refine ⟨by simp, hp.1, hp.2, ?_⟩
  intro b hb hbu hbs
  rw [Set.mem_ofPred_eq, mem_append, mem_cons] at hb
  rcases hb with hb | rfl | hb
  · have := hfront b hb
    simp [hbu, hbs] at this
  · exact le_refl _
  · have hcons := (newestFirst_append.1 hl).2.1
    exact (rel_of_pairwise_cons hcons hb (hp.1.trans hbu.symm)).le

lemma readAt_eq_none [DecidableEq κ] {u : κ} {s : Nat} : readAt key seq u s l = none ↔ ∀ b ∈ l, key b = u → s < seq b := by
  simp [readAt]

lemma NewestFirst.eq_of_key_seq (hl : NewestFirst key seq l) {a b : α} (ha : a ∈ l) (hb : b ∈ l)
    (hk : key a = key b) (hs : seq a = seq b) : a = b := by
  by_contra hne
  rcases rel_or_rel_of_pairwise hl ha hb hne with h | h
  · exact absurd hs (h hk).ne'
  · exact absurd hs (h hk.symm).ne

lemma readAt_eq_some_iff [DecidableEq κ] (hl : NewestFirst key seq l) {u : κ} {s : Nat} {a : α} :
    readAt key seq u s l = some a ↔ IsNewest key seq u s {b | b ∈ l} a := by
  refine ⟨readAt_isNewest hl, fun h => ?_⟩
  cases hr : readAt key seq u s l with
  | none => exact absurd (readAt_eq_none.1 hr a h.mem h.key_eq) (not_lt.2 h.seq_le)
  | some b =>
    have hb := readAt_isNewest hl hr
    have hs : seq b = seq a := le_antisymm (h.newest b hb.mem hb.key_eq hb.seq_le) (hb.newest a h.mem h.key_eq h.seq_le)
    rw [hl.eq_of_key_seq hb.mem h.mem (hb.key_eq.trans h.key_eq.symm) hs]

lemma readAt_congr [DecidableEq κ] (hl : NewestFirst key seq l) (hm : NewestFirst key seq m)
    (hmem : ∀ a, a ∈ l ↔ a ∈ m) {s t : Nat} (hs : ∀ a ∈ l, seq a ≤ s ∧ seq a ≤ t) (u : κ) :
    readAt key seq u s l = readAt key seq u t m := by
  refine Option.ext fun a => ?_
  rw [readAt_eq_some_iff hl, readAt_eq_some_iff hm]
  constructor
  · intro h
    refine ⟨(hmem a).1 h.mem, h.key_eq, (hs a h.mem).2, fun b hb hu _ => ?_⟩
    exact h.newest b ((hmem b).2 hb) hu (hs b ((hmem b).2 hb)).1
  · intro h
    have ha := (hmem a).2 h.mem
    refine ⟨ha, h.key_eq, (hs a ha).1, fun b hb hu _ => ?_⟩
    exact h.newest b ((hmem b).1 hb) hu (hs b hb).2

def Retains (key : α → κ) (seq : α → Nat) (dead : α → Prop) (s : Nat) (H S : Set α) : Prop :=
  ∀ u a, IsNewest key seq u s H a → a ∈ S ∨ dead a ∧ ∀ b ∈ S, key b = u → s < seq b

variable {dead : α → Prop} {s : Nat} {H S T : Set α}

section

variable (h : Retains key seq dead s H S)
include h

lemma Retains.forget {q : Nat} (hq : q ≤ s) (hS : S ⊆ H) (hT : T ⊆ S)
    (hgone : ∀ a ∈ S, a ∈ T ∨ (∃ p ∈ H, key p = key a ∧ seq a < seq p ∧ seq p ≤ q) ∨
    dead a ∧ ∀ b ∈ T, key b = key a → seq a < seq b) : Retains key seq dead s H T := by
  intro u a ha
  rcases h u a ha with haS | ⟨hdead, hnone⟩
  · rcases hgone a haS with haT | ⟨p, hp, hkey, hlt, hpq⟩ | ⟨hdead, hnewer⟩
    · exact .inl haT
    · have := ha.newest p hp (hkey.trans ha.key_eq) (hpq.trans hq)
      omega
    · refine .inr ⟨hdead, fun b hb hbu => ?_⟩
      have hlt := hnewer b hb (hbu.trans ha.key_eq.symm)
      by_contra hbs
      have := ha.newest b (hS (hT hb)) hbu (not_lt.1 hbs)
      omega
  · exact .inr ⟨hdead, fun b hb => hnone b (hT hb)⟩

lemma Retains.add_later {N : Set α} (hN : ∀ a ∈ N, s < seq a) : Retains key seq dead s (N ∪ H) (N ∪ S) := by
  intro u a ha
  have hmem : a ∈ H := by
    rcases ha.mem with hn | hm
    · exact absurd (hN a hn) (not_lt.2 ha.seq_le)
    · exact hm
  have ha' : IsNewest key seq u s H a :=
    ⟨hmem, ha.key_eq, ha.seq_le, fun b hb => ha.newest b (.inr hb)⟩
  rcases h u a ha' with haS | ⟨hdead, hnone⟩
  · exact .inl (.inr haS)
  · refine .inr ⟨hdead, ?_⟩
    rintro b (hb | hb) hbu
    · exact hN b hb
    · exact hnone b hb hbu

lemma Retains.add_now {N : Set α} {t : Nat} (hst : s ≤ t) (hS : S ⊆ H)
    (hH : ∀ a ∈ H, seq a ≤ s) (hN : ∀ a ∈ N, s < seq a) : Retains key seq dead t (N ∪ H) (N ∪ S) := by
  intro u a ha
  rcases ha.mem with hn | hm
  · exact .inl (.inl hn)
  have ha' : IsNewest key seq u s H a :=
    ⟨hm, ha.key_eq, hH a hm, fun b hb hbu hbs => ha.newest b (.inr hb) hbu (hbs.trans hst)⟩
  rcases h u a ha' with haS | ⟨hdead, hnone⟩
  · exact .inl (.inr haS)
  · refine .inr ⟨hdead, ?_⟩
    rintro b (hb | hb) hbu
    · by_contra hbt
      have h1 := ha.newest b (.inl hb) hbu (not_lt.1 hbt)
      have h2 := hN b hb
      have h3 := hH a hm
      omega
    · exact absurd (hnone b hb hbu) (not_lt.2 (hH b (hS hb)))

end

lemma Retains.readAt_eq [DecidableEq κ] {h : List α} (hr : Retains key seq dead s {a | a ∈ h} {a | a ∈ l})
    (hh : NewestFirst key seq h) (hl : NewestFirst key seq l) (hsub : ∀ a ∈ l, a ∈ h) (u : κ) :
    readAt key seq u s l = readAt key seq u s h ∨
    readAt key seq u s l = none ∧ ∃ a, readAt key seq u s h = some a ∧ dead a := by
  cases hread : readAt key seq u s h with
  | none =>
    left
    rw [readAt_eq_none] at hread ⊢
    exact fun b hb => hread b (hsub b hb)
  | some a =>
    have ha := readAt_isNewest hh hread
    rcases hr u a ha with haS | ⟨hdead, hnone⟩
    · left
      exact (readAt_eq_some_iff hl).2 ⟨haS, ha.key_eq, ha.seq_le, fun b hb => ha.newest b (hsub b hb)⟩
    · exact .inr ⟨readAt_eq_none.2 hnone, a, rfl, hdead⟩

end RallyDB.Lib
