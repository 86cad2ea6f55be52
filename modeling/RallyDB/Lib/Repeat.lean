import Mathlib.Tactic

/-!
# Loops that run until a round changes nothing
-/

namespace RallyDB.Lib

variable {σ : Type*} {body : σ → σ} {done : σ → σ → Bool} {s t : σ}

def repeatUntil (body : σ → σ) (done : σ → σ → Bool) : Nat → σ → Option σ
  | 0, _ => none
  | fuel + 1, s => if done s (body s) then some (body s) else repeatUntil body done fuel (body s)

lemma repeatUntil_some {fuel : Nat} (h : repeatUntil body done fuel s = some t) :
    ∃ n, done (body^[n] s) (body^[n + 1] s) = true ∧ t = body^[n + 1] s := by
  induction fuel generalizing s with
  | zero => cases h
  | succ fuel ih =>
    rw [repeatUntil] at h
    split_ifs at h with hdone
    · cases h
      exact ⟨0, hdone, rfl⟩
    · obtain ⟨n, hn, ht⟩ := ih h
      exact ⟨n + 1, hn, ht⟩

lemma exists_repeatUntil {β : Type*} [Preorder β] [WellFoundedLT β] (rank : σ → β)
    (h : ∀ n, done (body^[n + 1] s) (body^[n + 2] s) = false → rank (body^[n + 1] s) < rank (body^[n] s)) :
    ∃ fuel t, repeatUntil body done fuel s = some t := by
  have hlast : ∀ n, done (body^[n] s) (body^[n + 1] s) = true → ∃ fuel t, repeatUntil body done fuel (body^[n] s) = some t := by
    intro n hdone
    rw [Function.iterate_succ_apply'] at hdone
    exact ⟨1, body (body^[n] s), if_pos hdone⟩
  have hall : ∀ b n, rank (body^[n] s) = b → ∃ fuel t, repeatUntil body done fuel (body^[n] s) = some t := by
    intro b
    induction b using WellFoundedLT.induction with
    | _ b ih =>
      rintro n rfl
      cases hdone : done (body^[n] s) (body^[n + 1] s) with
      | true => exact hlast n hdone
      | false =>
        have hnext : ∃ fuel t, repeatUntil body done fuel (body^[n + 1] s) = some t := by
          cases hdone' : done (body^[n + 1] s) (body^[n + 2] s) with
          | true => exact hlast (n + 1) hdone'
          | false => exact ih _ (h n hdone') (n + 1) rfl
        obtain ⟨fuel, t, ht⟩ := hnext
        rw [Function.iterate_succ_apply'] at hdone ht
        refine ⟨fuel + 1, t, ?_⟩
        rw [repeatUntil, hdone]
        exact ht
  exact hall _ 0 rfl

lemma repeatUntil_none (inside : σ → Prop) (hbody : ∀ s, inside s → inside (body s))
    (hdone : ∀ s, inside s → done s (body s) = false) (hs : inside s) (fuel : Nat) :
    repeatUntil body done fuel s = none := by
  induction fuel generalizing s with
  | zero => rfl
  | succ fuel ih =>
    rw [repeatUntil, hdone s hs]
    exact ih (hbody s hs)

end RallyDB.Lib
