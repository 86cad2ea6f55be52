import Mathlib.Tactic

/-!
# Association lists
-/

namespace RallyDB.Lib

open List
open Prod (fst snd)

variable {κ ν M : Type*} [DecidableEq κ] [AddCommMonoid M]

def adjust (l : List (κ × ν)) (k : κ) (f : ν → ν) : List (κ × ν) :=
  l.map fun p => if p.1 = k then (p.1, f p.2) else p

def remove (l : List (κ × ν)) (k : κ) : List (κ × ν) := l.filter fun p => p.1 ≠ k

variable {l : List (κ × ν)} {a k : κ} {v : ν} {f : ν → ν}

@[simp] lemma keys_adjust : (adjust l k f).map fst = l.map fst := by
  rw [adjust, map_map]
  refine map_congr_left fun p _ => ?_
  dsimp only [Function.comp]
  split_ifs <;> rfl

lemma adjust_of_not_mem (h : k ∉ l.map fst) : adjust l k f = l := by
  rw [adjust]
  refine (map_congr_left fun p hp => if_neg ?_).trans (map_id l)
  rintro rfl
  exact h (mem_map_of_mem hp)

lemma remove_of_not_mem (h : k ∉ l.map fst) : remove l k = l := by
  refine filter_eq_self.2 fun p hp => decide_eq_true ?_
  rintro rfl
  exact h (mem_map_of_mem hp)

lemma map_remove_eq {ι : Type*} [DecidableEq ι] {m : List (κ × ι)} {n : List (ι × ν)} {k : κ} {i : ι}
    (hk : (m.map fst).Nodup) (hi : (m.map snd).Nodup) (h : m.map snd = n.map fst)
    (hmem : (k, i) ∈ m) : (remove m k).map snd = (remove n i).map fst := by
  have hm : (remove m k).map snd = (m.map snd).filter fun j => decide (j ≠ i) := by
    rw [filter_map, remove]
    congr 1
    refine filter_congr fun p hp => decide_eq_decide.2 (not_congr ⟨fun he => ?_, fun he => ?_⟩)
    · rw [inj_on_of_nodup_map hk hp hmem he]
    · rw [inj_on_of_nodup_map hi hp hmem he]
  rw [hm, h, filter_map]
  rfl

variable (g : ν → M)

def total (l : List (κ × ν)) : M := (l.map fun p => g p.2).sum

omit [DecidableEq κ] in
@[simp] lemma total_cons : total g ((k, v) :: l) = g v + total g l := by simp [total]

variable [BEq κ] [LawfulBEq κ]

omit [DecidableEq κ] in
lemma lookup_cons_ne (h : a ≠ k) : ((k, v) :: l).lookup a = l.lookup a := by
  have hb : (a == k) = false := by simpa using h
  rw [lookup_cons, hb]

lemma lookup_adjust : (adjust l k f).lookup a = if a = k then (l.lookup a).map f else l.lookup a := by
  induction l with
  | nil => simp [adjust]
  | cons p l ih =>
    obtain ⟨b, w⟩ := p
    rw [adjust, map_cons, ← adjust]
    by_cases hab : a = b
    · subst hab
      by_cases hak : a = k <;> simp [hak]
    · rw [lookup_cons_ne hab, ← ih]
      split_ifs <;> exact lookup_cons_ne hab

lemma lookup_remove : (remove l k).lookup a = if a = k then none else l.lookup a := by
  induction l with
  | nil => simp [remove]
  | cons p l ih =>
    obtain ⟨b, w⟩ := p
    by_cases hbk : b = k
    · rw [remove, filter_cons_of_neg (by simpa using hbk), ← remove, ih]
      split_ifs with hak
      · rfl
      · rw [lookup_cons_ne (hbk ▸ hak)]
    · rw [remove, filter_cons_of_pos (by simpa using hbk), ← remove]
      by_cases hab : a = b
      · subst hab
        simp [hbk]
      · rw [lookup_cons_ne hab, lookup_cons_ne hab, ih]

lemma mem_of_lookup (h : l.lookup k = some v) : (k, v) ∈ l := by
  induction l with
  | nil => cases h
  | cons p l ih =>
    obtain ⟨b, w⟩ := p
    by_cases hkb : k = b
    · subst hkb
      simp only [lookup_cons_self, Option.some.injEq] at h
      rw [h]
      exact mem_cons_self
    · rw [lookup_cons_ne hkb] at h
      exact mem_cons_of_mem _ (ih h)

omit [DecidableEq κ] in
lemma lookup_of_mem (hl : (l.map fst).Nodup) (h : (k, v) ∈ l) : l.lookup k = some v := by
  induction l with
  | nil => cases h
  | cons p l ih =>
    obtain ⟨b, w⟩ := p
    rw [map_cons, nodup_cons] at hl
    rcases mem_cons.1 h with he | hmem
    · cases he
      exact lookup_cons_self
    · have hne : k ≠ b := by
        rintro rfl
        exact hl.1 (mem_map.2 ⟨(k, v), hmem, rfl⟩)
      rw [lookup_cons_ne hne]
      exact ih hl.2 hmem

lemma total_adjust (hl : (l.map fst).Nodup) (h : l.lookup k = some v) :
    total g (adjust l k f) + g v = total g l + g (f v) := by
  induction l with
  | nil => cases h
  | cons p l ih =>
    obtain ⟨b, w⟩ := p
    rw [map_cons, nodup_cons] at hl
    rw [adjust, map_cons, ← adjust]
    by_cases hkb : k = b
    · subst hkb
      simp only [lookup_cons_self, Option.some.injEq] at h
      subst h
      rw [adjust_of_not_mem hl.1, if_pos rfl, total_cons, total_cons, add_comm (g (f w)), add_assoc,
        add_comm (g (f w)), ← add_assoc, add_comm (total g l)]
    · rw [lookup_cons_ne hkb] at h
      rw [if_neg (Ne.symm hkb), total_cons, total_cons, add_assoc, ih hl.2 h, add_assoc]

lemma total_remove (hl : (l.map fst).Nodup) (h : l.lookup k = some v) : total g (remove l k) + g v = total g l := by
  induction l with
  | nil => cases h
  | cons p l ih =>
    obtain ⟨b, w⟩ := p
    rw [map_cons, nodup_cons] at hl
    by_cases hkb : k = b
    · subst hkb
      simp only [lookup_cons_self, Option.some.injEq] at h
      subst h
      rw [remove, filter_cons_of_neg (by simp), ← remove, remove_of_not_mem hl.1, total_cons, add_comm]
    · rw [lookup_cons_ne hkb] at h
      rw [remove, filter_cons_of_pos (by simpa using Ne.symm hkb), ← remove, total_cons, total_cons, add_assoc, ih hl.2 h]

end RallyDB.Lib
