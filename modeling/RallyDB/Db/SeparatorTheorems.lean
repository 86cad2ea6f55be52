import RallyDB.Db.Lemmas.Builder

/-!
# Short separators
-/

namespace RallyDB.Db

open Util Descriptor

variable {a b : Slice}

lemma le_bytewiseFindShortSuccessor (key : Slice) : key ≤ bytewiseFindShortSuccessor key := by
  induction key with
  | nil => exact le_refl _
  | cons byte rest ih =>
    unfold bytewiseFindShortSuccessor
    split_ifs with h
    · have hlt : byte < 0xff := lt_of_le_of_ne (UInt8.le_iff_toNat_le.2 (Nat.le_of_lt_succ (UInt8.toNat_lt byte))) h
      exact (List.cons_lt_cons_iff.2 (.inl (lt_add_one_of_lt_max hlt).1)).le
    · rcases ih.lt_or_eq with hlt | heq
      · exact (List.cons_lt_cons_iff.2 (.inr ⟨rfl, hlt⟩)).le
      · rw [← heq]

lemma internalKeyCompare_isLE_iff : (internalKeyCompare a b).isLE ↔ keyRank a ≤ keyRank b := by
  rw [le_iff_lt_or_eq, ← internalKeyCompare_lt_iff, ← internalKeyCompare_eq_iff]
  cases internalKeyCompare a b <;> simp

lemma shortened_isInternalKey {key : Slice} (tmp : Slice) (h : (parseInternalKey key).isSome) :
    (parseInternalKey (shortened key tmp)).isSome := by
  unfold shortened
  dsimp only
  split_ifs
  · have hk : (⟨tmp, kMaxSequenceNumber, kValueTypeForSeek⟩ : InternalKey Slice).Storable := le_refl _
    exact Option.isSome_iff_exists.2 ⟨_, parseInternalKey_encode hk⟩
  · exact h

/-- A separator lies from the first key on and before the second, and a successor is not before its key; this holds for
byte strings and for internal keys, where the results are internal keys. -/
theorem separators_bound : (∀ start limit : Slice, start < limit →
    start ≤ bytewiseFindShortestSeparator start limit ∧ bytewiseFindShortestSeparator start limit < limit) ∧
    (∀ key : Slice, key ≤ bytewiseFindShortSuccessor key) ∧
    (∀ a b t : Slice, (parseInternalKey a).isSome → (parseInternalKey b).isSome → internalKeyCompare a b = .lt →
    t = internalFindShortestSeparator a b → (parseInternalKey t).isSome ∧ (internalKeyCompare a t).isLE ∧
    internalKeyCompare t b = .lt ∧ (∀ x, (internalKeyCompare x a).isLE → (internalKeyCompare x t).isLE) ∧
    ∀ x, (internalKeyCompare b x).isLE → internalKeyCompare t x = .lt) ∧
    ∀ key t : Slice, (parseInternalKey key).isSome → t = internalFindShortSuccessor key →
    (parseInternalKey t).isSome ∧ (internalKeyCompare key t).isLE ∧
    ∀ x, (internalKeyCompare x key).isLE → (internalKeyCompare x t).isLE := by
  simp only [internalKeyCompare_isLE_iff, internalKeyCompare_lt_iff]
  refine ⟨?_, le_bytewiseFindShortSuccessor, ?_, ?_⟩
  · intro start limit h
    rcases bytewiseFindShortestSeparator_spec start limit with he | ⟨hs, hl⟩
    · rw [he]
      exact ⟨le_refl _, h⟩
    · exact ⟨hs.le, hl⟩
  · rintro a b _ ha _ h rfl
    obtain ⟨hs, hp⟩ := internalFindShortestSeparator_spec h
    exact ⟨shortened_isInternalKey _ ha, hs.le, hp.lt, fun x hx => hx.trans hs.le, fun x hx => hp.lt.trans_le hx⟩
  · rintro key _ hk rfl
    have hs := internalFindShortSuccessor_spec key
    exact ⟨shortened_isInternalKey _ hk, hs.le, fun x hx => hx.trans hs.le⟩

theorem separators_bound_of_bytes : bytewiseFindShortestSeparator [1, 2] [3] = [2] ∧ ([2] : Slice) < [3] ∧
    internalKeyCompare (internalFindShortestSeparator [1, 2, 1, 5, 0, 0, 0, 0, 0, 0] [3, 1, 4, 0, 0, 0, 0, 0, 0])
    [3, 1, 4, 0, 0, 0, 0, 0, 0] = .lt :=
  ⟨by decide, (separators_bound.1 [1, 2] [3] (by decide)).2,
    (separators_bound.2.2.1 _ _ _ (by decide) (by decide) (by decide) rfl).2.2.1⟩

end RallyDB.Db
