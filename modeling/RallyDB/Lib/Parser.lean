import Mathlib.Data.Option.Basic

/-!
# Parsers that read from the front of a list
-/

namespace RallyDB.Lib

variable {α β γ : Type*}

def IgnoresRest (get : List γ → Option (α × List γ)) : Prop :=
  ∀ input v rest, get input = some (v, rest) → ∀ more, get (input ++ more) = some (v, rest ++ more)

lemma ignoresRest_pure (a : α) : IgnoresRest fun input : List γ => some (a, input) := by
  rintro input v rest ⟨⟩ more
  rfl

lemma IgnoresRest.bind {get : List γ → Option (α × List γ)} {f : α → List γ → Option (β × List γ)} (h : IgnoresRest get)
    (hf : ∀ a, IgnoresRest (f a)) : IgnoresRest fun input => (get input).bind fun p => f p.1 p.2 := by
  intro input v rest hg more
  obtain ⟨⟨a, mid⟩, ha, hv⟩ := Option.bind_eq_some_iff.1 hg
  exact Option.bind_eq_some_iff.2 ⟨_, h input a mid ha more, hf a mid v rest hv more⟩

lemma IgnoresRest.filter {get : List γ → Option (α × List γ)} (h : IgnoresRest get) (p : α → Prop) [DecidablePred p] :
    IgnoresRest fun input => (get input).bind fun q => if p q.1 then some q else none := by
  intro input v rest hg more
  obtain ⟨q, ha, hv⟩ := Option.bind_eq_some_iff.1 hg
  obtain ⟨hp, hq⟩ := Option.ite_none_right_eq_some.1 hv
  cases hq
  exact Option.bind_eq_some_iff.2 ⟨_, h input v rest ha more, if_pos hp⟩

/-- A parser that takes all of `l` finds nothing in a proper part of it. -/
lemma IgnoresRest.eq_nil {get : List γ → Option (α × List γ)} (h : IgnoresRest get) {l m rest : List γ} {v w : α}
    (hl : get l = some (v, rest)) (hm : get (l ++ m) = some (w, [])) : m = [] := by
  have he := (h l v rest hl m).symm.trans hm
  simp only [Option.some.injEq, Prod.mk.injEq, List.append_eq_nil_iff] at he
  exact he.2.2

end RallyDB.Lib
