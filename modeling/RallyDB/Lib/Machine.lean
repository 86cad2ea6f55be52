import Mathlib.Tactic

/-!
# Runs of a partial step function
-/

namespace RallyDB.Lib

variable {σ α : Type*} (step : σ → α → Option σ)

def run (s : σ) : List α → Option σ
  | [] => some s
  | a :: as => (step s a).bind fun s' => run s' as

def StepsMeet (C : σ → α → Prop) (s : σ) : List α → Prop
  | [] => True
  | a :: as => C s a ∧ ∀ s', step s a = some s' → StepsMeet C s' as

variable {step}

instance StepsMeet.decidable {C : σ → α → Prop} [∀ s a, Decidable (C s a)] :
    (s : σ) → (as : List α) → Decidable (StepsMeet step C s as)
  | _, [] => isTrue trivial
  | s, a :: as =>
    match h : step s a with
    | none => decidable_of_iff (C s a) (by simp [StepsMeet, h])
    | some t =>
      have := StepsMeet.decidable (C := C) t as
      decidable_of_iff (C s a ∧ StepsMeet step C t as) (by simp [StepsMeet, h])

lemma guard_eq_some {c : Prop} [Decidable c] {s s' : σ} : (if c then some s else none) = some s' ↔ c ∧ s = s' := by
  rw [Option.ite_none_right_eq_some, Option.some.injEq]

@[simp] lemma run_nil {s : σ} : run step s [] = some s := rfl

lemma run_cons {s s' : σ} {a : α} {as : List α} :
    run step s (a :: as) = some s' ↔ ∃ t, step s a = some t ∧ run step t as = some s' := by
  simp [run, Option.bind_eq_some_iff]

lemma run_append {s s' : σ} {as bs : List α} :
    run step s (as ++ bs) = some s' ↔ ∃ t, run step s as = some t ∧ run step t bs = some s' := by
  induction as generalizing s with
  | nil => simp
  | cons a as ih =>
    simp only [List.cons_append, run_cons, ih]
    constructor
    · rintro ⟨t, ht, u, hu, hs⟩
      exact ⟨u, ⟨t, ht, hu⟩, hs⟩
    · rintro ⟨u, ⟨t, ht, hu⟩, hs⟩
      exact ⟨t, ht, u, hu, hs⟩

lemma exists_run {P : σ → Prop} [DecidablePred P] {s : σ} {as : List α}
    (h : (run step s as).any (fun t => decide (P t)) = true) : ∃ t, run step s as = some t ∧ P t := by
  obtain ⟨t, ht, hp⟩ := (Option.any_eq_true _ _).1 h
  exact ⟨t, ht, of_decide_eq_true hp⟩

lemma run_invariant {C : σ → α → Prop} {I : σ → Prop} (hstep : ∀ s a s', I s → C s a → step s a = some s' → I s')
    {s s' : σ} {as : List α} (hs : I s) (hc : StepsMeet step C s as) (hr : run step s as = some s') : I s' := by
  induction as generalizing s with
  | nil => simp only [run_nil, Option.some.injEq] at hr; exact hr ▸ hs
  | cons a as ih =>
    obtain ⟨t, ht, hr⟩ := run_cons.1 hr
    exact ih (hstep s a t hs hc.1 ht) (hc.2 t ht) hr

lemma stepsMeet_iff_reached {C : σ → α → Prop} {I P : σ → Prop} (hI : ∀ s a s', I s → step s a = some s' → I s')
    (hP : ∀ s a s', I s → P s → step s a = some s' → (P s' ↔ C s a))
    {s s' : σ} {as : List α} (hs : I s) (hp : P s) (hr : run step s as = some s') :
    StepsMeet step C s as ↔ ∀ pre rest t, as = pre ++ rest → run step s pre = some t → P t := by
  induction as generalizing s with
  | nil =>
    refine ⟨fun _ pre rest t he ht => ?_, fun _ => trivial⟩
    obtain ⟨rfl, -⟩ := List.append_eq_nil_iff.1 he.symm
    cases ht
    exact hp
  | cons a as ih =>
    obtain ⟨t, ht, hr⟩ := run_cons.1 hr
    constructor
    · rintro ⟨hc, hrest⟩ pre rest u he hu
      cases pre with
      | nil =>
        cases hu
        exact hp
      | cons b pre =>
        cases he
        obtain ⟨t', ht', hu⟩ := run_cons.1 hu
        cases ht.symm.trans ht'
        have hpt := (hP s a t hs hp ht).2 hc
        exact (ih (hI s a t hs ht) hpt hr).1 (hrest t ht) pre rest u rfl hu
    · intro hall
      have hpt : P t := hall [a] as t rfl (run_cons.2 ⟨t, ht, rfl⟩)
      refine ⟨(hP s a t hs hp ht).1 hpt, fun t' ht' => ?_⟩
      cases ht.symm.trans ht'
      refine (ih (hI s a t hs ht) hpt hr).2 fun pre rest u he hu => ?_
      exact hall (a :: pre) rest u (by rw [he]; rfl) (run_cons.2 ⟨t, ht, hu⟩)

lemma StepsMeet.of_append {C : σ → α → Prop} {s t : σ} {as bs : List α} {a : α}
    (h : StepsMeet step C s (as ++ a :: bs)) (hr : run step s as = some t) : C t a := by
  induction as generalizing s with
  | nil =>
    cases hr
    exact h.1
  | cons b as ih =>
    obtain ⟨u, hu, hr⟩ := run_cons.1 hr
    exact ih (h.2 u hu) hr

lemma stepsMeet_of_forall {P : α → Prop} {s : σ} {as : List α} (h : ∀ a ∈ as, P a) :
    StepsMeet step (fun _ a => P a) s as := by
  induction as generalizing s with
  | nil => trivial
  | cons a as ih => exact ⟨h a (by simp), fun _ _ => ih fun b hb => h b (by simp [hb])⟩

lemma run_history {C : σ → α → Prop} {I : List α → σ → Prop} {s : σ} (h0 : I [] s)
    (hstep : ∀ as a t t', I as t → C t a → step t a = some t' → I (as ++ [a]) t')
    {as : List α} {s' : σ} (hc : StepsMeet step C s as) (hr : run step s as = some s') : I as s' := by
  -- Induction on what is still to be run, with the prefix `pre` already taken.
  suffices H : ∀ (rest pre : List α) (t : σ), I pre t → StepsMeet step C t rest →
      run step t rest = some s' → I (pre ++ rest) s' by
    simpa using H as [] s h0 hc hr
  intro rest
  induction rest with
  | nil =>
    intro pre t ht _ hr
    simp only [run_nil, Option.some.injEq] at hr
    simpa [hr] using ht
  | cons a rest ih =>
    intro pre t ht hc hr
    obtain ⟨u, hu, hr⟩ := run_cons.1 hr
    simpa using ih (pre ++ [a]) u (hstep pre a t u ht hc.1 hu) (hc.2 u hu) hr

lemma run_related {τ : Type*} {step' : τ → α → Option τ} {R : σ → τ → Prop}
    (hstep : ∀ s t a, R s t → (step s a = none ∧ step' t a = none) ∨
    ∃ s' t', step s a = some s' ∧ step' t a = some t' ∧ R s' t') {s : σ} {t : τ} (h : R s t) (as : List α) :
    (run step s as = none ∧ run step' t as = none) ∨
    ∃ s' t', run step s as = some s' ∧ run step' t as = some t' ∧ R s' t' := by
  induction as generalizing s t with
  | nil => exact .inr ⟨s, t, rfl, rfl, h⟩
  | cons a as ih =>
    rcases hstep s t a h with ⟨hs, ht⟩ | ⟨s', t', hs, ht, hR⟩
    · exact .inl ⟨by simp [run, hs], by simp [run, ht]⟩
    · simpa only [run, hs, ht, Option.bind_some] using ih hR

lemma run_map_eq {τ γ : Type*} {step' : τ → α → Option τ} {R : σ → τ → Prop} {f : σ → γ} {g : τ → γ}
    (hstep : ∀ s t a, R s t → (step s a = none ∧ step' t a = none) ∨
    ∃ s' t', step s a = some s' ∧ step' t a = some t' ∧ R s' t') {s : σ} {t : τ} (h : R s t) (as : List α)
    (hview : ∀ s t, R s t → f s = g t) : (run step s as).map f = (run step' t as).map g := by
  rcases run_related hstep h as with ⟨hs, ht⟩ | ⟨s', t', hs, ht, h'⟩
  · rw [hs, ht]
    rfl
  · rw [hs, ht, Option.map_some, Option.map_some, hview s' t' h']

end RallyDB.Lib
