import RallyDB.Lib.Machine

/-!
# Executions without end
-/

namespace RallyDB.Lib

open List

variable {σ α : Type*}

structure Execution (step : σ → α → Option σ) (init : σ) where
  state : Nat → σ
  action : Nat → Option α
  start : state 0 = init
  next : ∀ n, match action n with
    | none => state (n + 1) = state n
    | some a => step (state n) a = some (state (n + 1))

namespace Execution

variable {step : σ → α → Option σ} {init : σ} {e : Execution step init} {n m : Nat} {a : α}

lemma step_of_action (h : e.action n = some a) : step (e.state n) a = some (e.state (n + 1)) := by
  have hn := e.next n
  rwa [h] at hn

lemma state_of_idle (h : e.action n = none) : e.state (n + 1) = e.state n := by
  have hn := e.next n
  rwa [h] at hn

def Meets (e : Execution step init) (C : σ → α → Prop) : Prop := ∀ n a, e.action n = some a → C (e.state n) a

variable {C : σ → α → Prop} {I P Q : σ → Prop}

lemma Meets.invariant_from (hmeets : e.Meets C)
    (hstep : ∀ s a s', I s → C s a → step s a = some s' → I s') (hI : I (e.state n)) (hle : n ≤ m) : I (e.state m) := by
  induction m, hle using Nat.le_induction with
  | base => exact hI
  | succ m _ ih =>
    cases ha : e.action m with
    | none => rwa [state_of_idle ha]
    | some a => exact hstep _ a _ ih (hmeets m a ha) (step_of_action ha)

lemma Meets.invariant (hmeets : e.Meets C) (h0 : I init)
    (hstep : ∀ s a s', I s → C s a → step s a = some s' → I s') (n : Nat) : I (e.state n) :=
  hmeets.invariant_from hstep (e.start.symm ▸ h0) (Nat.zero_le n)

lemma meets_true (e : Execution step init) : e.Meets fun _ _ => True := fun _ _ _ => trivial

lemma invariant_from (hstep : ∀ s a s', I s → step s a = some s' → I s') (hI : I (e.state n))
    (hle : n ≤ m) : I (e.state m) :=
  e.meets_true.invariant_from (fun s a s' hs _ => hstep s a s' hs) hI hle

lemma invariant (h0 : I init) (hstep : ∀ s a s', I s → step s a = some s' → I s') (n : Nat) : I (e.state n) :=
  invariant_from hstep (e.start.symm ▸ h0) (Nat.zero_le n)

def ofRun (step : σ → α → Option σ) (init : σ) (as : List α) (h : (run step init as).isSome) : Execution step init where
  state n := (run step init (as.take n)).getD init
  action n := as[n]?
  start := rfl
  next n := by
    obtain ⟨s', hs'⟩ := Option.isSome_iff_exists.1 h
    by_cases hn : n < as.length
    · have hsplit : as = as.take n ++ as[n] :: as.drop (n + 1) := by simp
      rw [hsplit] at hs'
      obtain ⟨t, ht, hrest⟩ := run_append.1 hs'
      obtain ⟨u, hu, -⟩ := run_cons.1 hrest
      have hnext : run step init (as.take (n + 1)) = some u := by
        rw [take_succ_eq_append_getElem hn]
        exact run_append.2 ⟨t, ht, run_cons.2 ⟨u, hu, rfl⟩⟩
      rw [getElem?_eq_getElem hn]
      dsimp only
      rw [ht, hnext]
      exact hu
    · have hle : as.length ≤ n := Nat.not_lt.1 hn
      rw [getElem?_eq_none hle]
      dsimp only
      rw [take_of_length_le hle, take_of_length_le (Nat.le_succ_of_le hle)]

def WeaklyFair (e : Execution step init) (a : α) : Prop :=
  ∀ n, (∀ m ≥ n, (step (e.state m) a).isSome) → ∃ m ≥ n, e.action m = some a

lemma WeaklyFair.leadsTo_of_meets (hfair : e.WeaklyFair a) (hmeets : e.Meets C)
    (hen : ∀ s, P s → (step s a).isSome) (hkeep : ∀ s b s', P s → C s b → step s b = some s' → P s' ∨ Q s')
    (htake : ∀ s s', P s → step s a = some s' → Q s') (hP : P (e.state n)) : ∃ m ≥ n, Q (e.state m) := by
  by_contra hnever
  push Not at hnever
  have hall : ∀ m ≥ n, P (e.state m) := fun m hm => by
    induction m, hm using Nat.le_induction with
    | base => exact hP
    | succ m hm ih =>
      cases hb : e.action m with
      | none => rwa [state_of_idle hb]
      | some b =>
        exact (hkeep _ b _ ih (hmeets m b hb) (step_of_action hb)).resolve_right (hnever _ (Nat.le_succ_of_le hm))
  obtain ⟨m, hm, ha⟩ := hfair n fun m hm => hen _ (hall m hm)
  exact hnever _ (Nat.le_succ_of_le hm) (htake _ _ (hall m hm) (step_of_action ha))

lemma WeaklyFair.leadsTo (hfair : e.WeaklyFair a) (hen : ∀ s, P s → (step s a).isSome)
    (hkeep : ∀ s b s', P s → step s b = some s' → P s' ∨ Q s') (htake : ∀ s s', P s → step s a = some s' → Q s')
    (hP : P (e.state n)) : ∃ m ≥ n, Q (e.state m) :=
  hfair.leadsTo_of_meets e.meets_true hen (fun s b s' hs _ => hkeep s b s' hs) htake hP

variable {as : List α} {s' : σ}

variable {h : (run step init as).isSome}

lemma ofRun_meets (hc : StepsMeet step C init as) : (ofRun step init as h).Meets C := by
  intro n a ha
  have hn : n < as.length := (List.getElem?_eq_some_iff.1 ha).1
  have hsplit : as = as.take n ++ a :: as.drop (n + 1) := by
    rw [← (List.getElem?_eq_some_iff.1 ha).2]
    simp
  obtain ⟨s', hs'⟩ := Option.isSome_iff_exists.1 h
  rw [hsplit] at hs' hc
  obtain ⟨t, ht, -⟩ := run_append.1 hs'
  have hstate : (ofRun step init as h).state n = t := by
    show (run step init (as.take n)).getD init = t
    rw [ht]
    rfl
  rw [hstate]
  exact hc.of_append ht

lemma ofRun_weaklyFair (hr : run step init as = some s') (ha : step s' a = none) : (ofRun step init as h).WeaklyFair a := by
  intro n hen
  have hlast : (ofRun step init as h).state (n + as.length) = s' := by
    show (run step init (as.take (n + as.length))).getD init = s'
    rw [take_of_length_le (Nat.le_add_left _ _), hr]
    rfl
  have hsome := hen (n + as.length) (Nat.le_add_right _ _)
  rw [hlast, ha] at hsome
  cases hsome

end Execution

end RallyDB.Lib
