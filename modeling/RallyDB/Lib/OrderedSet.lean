import Mathlib.Data.List.TakeWhile
import Mathlib.Tactic

/-!
# Ordered sets as lists
-/

namespace RallyDB.Lib

open List

variable {α β : Type*}

def setInsert (lt : α → α → Bool) (a : α) : List α → List α
  | [] => [a]
  | b :: l => if lt a b then a :: b :: l else if lt b a then b :: setInsert lt a l else b :: l

def setMerge (lt : α → α → Bool) : List α → List α → List α
  | base, [] => base
  | base, a :: added =>
    base.takeWhile (fun b => !lt a b) ++ a :: setMerge lt (base.dropWhile fun b => !lt a b) added

lemma mem_setMerge {lt : α → α → Bool} {base added : List α} {b : α} :
    b ∈ setMerge lt base added ↔ b ∈ base ∨ b ∈ added := by
  induction added generalizing base with
  | nil => simp [setMerge]
  | cons a added ih =>
    have hbase : b ∈ base ↔ b ∈ base.takeWhile (fun b => !lt a b) ∨ b ∈ base.dropWhile fun b => !lt a b := by
      rw [← mem_append, takeWhile_append_dropWhile]
    rw [setMerge, mem_append, mem_cons, mem_cons, ih, hbase]
    tauto

variable [LinearOrder β]

def Ascending (rank : α → β) (l : List α) : Prop := l.Pairwise fun a b => rank a < rank b

variable {rank : α → β} {a b : α} {l l' : List α}

lemma Ascending.eq_of_mem_iff (h : Ascending rank l) (h' : Ascending rank l') (hmem : ∀ a, a ∈ l ↔ a ∈ l') : l = l' := by
  have : Std.Irrefl fun a b => rank a < rank b := ⟨fun a => lt_irrefl (rank a)⟩
  have : Std.Antisymm fun a b => rank a < rank b := ⟨fun a b h h' => absurd h' h.not_gt⟩
  exact List.Pairwise.eq_of_mem_iff h h' hmem

lemma Ascending.filter (h : Ascending rank l) (p : α → Bool) : Ascending rank (l.filter p) := List.Pairwise.filter p h

variable {lt : α → α → Bool} (hlt : ∀ a b, lt a b = true ↔ rank a < rank b)

include hlt

lemma mem_setInsert (h : Ascending rank l) : b ∈ setInsert lt a l ↔ b ∈ l ∨ b = a ∧ ∀ c ∈ l, rank c ≠ rank a := by
  induction l with
  | nil => simp [setInsert]
  | cons c l ih =>
    obtain ⟨hc, hl⟩ := pairwise_cons.1 h
    unfold setInsert
    by_cases hac : rank a < rank c
    · have hfresh : ∀ d ∈ c :: l, rank d ≠ rank a := by
        intro d hd
        rcases mem_cons.1 hd with rfl | hd
        · exact hac.ne'
        · exact (hac.trans (hc d hd)).ne'
      rw [if_pos ((hlt a c).2 hac), mem_cons]
      exact ⟨fun hb => hb.elim (fun hb => .inr ⟨hb, hfresh⟩) .inl, fun hb => hb.elim .inr fun hb => .inl hb.1⟩
    · rw [if_neg (fun hno => hac ((hlt a c).1 hno))]
      by_cases hca : rank c < rank a
      · rw [if_pos ((hlt c a).2 hca), mem_cons, mem_cons, ih hl, forall_mem_cons]
        have := hca.ne
        tauto
      · rw [if_neg (fun hno => hca ((hlt c a).1 hno)), forall_mem_cons]
        have heq : rank c = rank a := le_antisymm (not_lt.1 hac) (not_lt.1 hca)
        tauto

lemma Ascending.setInsert (h : Ascending rank l) : Ascending rank (setInsert lt a l) := by
  induction l with
  | nil => exact pairwise_singleton _ _
  | cons c l ih =>
    obtain ⟨hc, hl⟩ := pairwise_cons.1 h
    unfold Lib.setInsert
    split_ifs with hac hca
    · refine pairwise_cons.2 ⟨fun d hd => ?_, h⟩
      rcases mem_cons.1 hd with rfl | hd
      · exact (hlt a _).1 hac
      · exact ((hlt a c).1 hac).trans (hc d hd)
    · refine pairwise_cons.2 ⟨fun d hd => ?_, ih hl⟩
      rcases (mem_setInsert hlt hl).1 hd with hd | ⟨rfl, -⟩
      · exact hc d hd
      · exact (hlt c _).1 hca
    · exact h

lemma setInsert_of_gt (h : ∀ b ∈ l, rank b < rank a) : setInsert lt a l = l ++ [a] := by
  induction l with
  | nil => rfl
  | cons c l ih =>
    obtain ⟨hc, hl⟩ := forall_mem_cons.1 h
    unfold Lib.setInsert
    rw [if_neg (fun hno => hc.not_gt ((hlt a c).1 hno)), if_pos ((hlt c a).2 hc), ih hl]
    rfl

lemma ascending_foldl_setInsert (as : List α) (h : Ascending rank l) :
    Ascending rank (as.foldl (fun l a => setInsert lt a l) l) := by
  induction as generalizing l with
  | nil => exact h
  | cons a as ih => exact ih (h.setInsert hlt)

lemma foldl_setInsert_of_ascending (h : Ascending rank l) : l.foldl (fun l a => setInsert lt a l) [] = l := by
  suffices H : ∀ (rest seen : List α), Ascending rank (seen ++ rest) →
      rest.foldl (fun l a => setInsert lt a l) seen = seen ++ rest by
    exact H l [] h
  intro rest
  induction rest with
  | nil => simp
  | cons a rest ih =>
    intro seen h
    rw [foldl_cons, setInsert_of_gt hlt fun b hb => (pairwise_append.1 h).2.2 b hb a mem_cons_self]
    rw [append_cons] at h
    rw [ih _ h, ← append_cons]

lemma mem_foldl_setInsert (as : List α) {m : List α} (hl : Ascending rank l) (hm : Ascending rank m)
    (hmem : ∀ c, c ∈ l ↔ c ∈ l' ∨ c ∈ m) (hfresh : ∀ a ∈ as, ∀ c ∈ l', rank c ≠ rank a) :
    b ∈ as.foldl (fun l a => setInsert lt a l) l ↔ b ∈ l' ∨ b ∈ as.foldl (fun l a => setInsert lt a l) m := by
  induction as generalizing l m with
  | nil => exact hmem b
  | cons a as ih =>
    obtain ⟨ha, has⟩ := forall_mem_cons.1 hfresh
    refine ih (hl.setInsert hlt) (hm.setInsert hlt) (fun c => ?_) has
    rw [mem_setInsert hlt hl, mem_setInsert hlt hm, hmem c]
    have hranks : (∀ c ∈ l, rank c ≠ rank a) ↔ ∀ c ∈ m, rank c ≠ rank a :=
      ⟨fun h c hc => h c ((hmem c).2 (.inr hc)), fun h c hc => ((hmem c).1 hc).elim (ha c) (h c)⟩
    rw [hranks]
    tauto

lemma mem_of_mem_foldl_setInsert (as : List α) (hl : Ascending rank l)
    (h : b ∈ as.foldl (fun l a => setInsert lt a l) l) : b ∈ l ∨ b ∈ as := by
  induction as generalizing l with
  | nil => exact .inl h
  | cons a as ih =>
    rcases ih (hl.setInsert hlt) h with h | h
    · rcases (mem_setInsert hlt hl).1 h with h | ⟨rfl, -⟩
      · exact .inl h
      · exact .inr mem_cons_self
    · exact .inr (mem_cons_of_mem a h)

lemma Ascending.lt_of_mem_dropWhile (h : Ascending rank l) (hb : b ∈ l.dropWhile fun b => !lt a b) : rank a < rank b := by
  induction l with
  | nil => cases hb
  | cons c l ih =>
    obtain ⟨hc, hl⟩ := pairwise_cons.1 h
    by_cases hac : lt a c = true
    · rw [dropWhile_cons_of_neg (by simp [hac])] at hb
      rcases mem_cons.1 hb with rfl | hb
      · exact (hlt a b).1 hac
      · exact ((hlt a c).1 hac).trans (hc b hb)
    · rw [dropWhile_cons_of_pos (by simp [hac])] at hb
      exact ih hl hb

lemma Ascending.setMerge {base added : List α} (hbase : Ascending rank base) (hadded : Ascending rank added)
    (hne : ∀ a ∈ added, ∀ b ∈ base, rank b ≠ rank a) : Ascending rank (setMerge lt base added) := by
  induction added generalizing base with
  | nil => exact hbase
  | cons a added ih =>
    obtain ⟨ha, hrest⟩ := pairwise_cons.1 hadded
    obtain ⟨hnea, hnerest⟩ := forall_mem_cons.1 hne
    have hbefore : ∀ b ∈ base.takeWhile (fun b => !lt a b), rank b < rank a := fun b hb => by
      have hle : ¬ rank a < rank b := by
        have := mem_takeWhile_imp hb
        rw [Bool.not_eq_true', ← Bool.not_eq_true] at this
        exact fun hno => this ((hlt a b).2 hno)
      exact lt_of_le_of_ne (not_lt.1 hle) (hnea b ((takeWhile_sublist _).mem hb))
    have hafter : ∀ b ∈ base.dropWhile (fun b => !lt a b), rank a < rank b := fun b hb =>
      hbase.lt_of_mem_dropWhile hlt hb
    have hmerged : Ascending rank (Lib.setMerge lt (base.dropWhile fun b => !lt a b) added) :=
      ih (hbase.sublist (dropWhile_sublist _)) hrest fun x hx b hb => hnerest x hx b ((dropWhile_sublist _).mem hb)
    have hlast : ∀ b ∈ Lib.setMerge lt (base.dropWhile fun b => !lt a b) added, rank a < rank b := fun b hb =>
      (mem_setMerge.1 hb).elim (hafter b) (ha b)
    refine pairwise_append.2 ⟨hbase.sublist (takeWhile_sublist _), pairwise_cons.2 ⟨hlast, hmerged⟩, ?_⟩
    intro b hb c hc
    rcases mem_cons.1 hc with rfl | hc
    · exact hbefore b hb
    · exact (hbefore b hb).trans (hlast c hc)

end RallyDB.Lib
