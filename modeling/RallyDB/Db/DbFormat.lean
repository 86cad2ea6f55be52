import RallyDB.Util.Coding

/-!
# Internal keys (`db/dbformat.h`, `db/dbformat.cc`)
-/

namespace RallyDB.Db

def kNumLevels : Nat := 7

def kMaxMemCompactLevel : Nat := 2

def kMaxSequenceNumber : Nat := 2 ^ 56 - 1

inductive ValueType where
  | deletion
  | value
  deriving DecidableEq

def ValueType.code : ValueType → Nat
  | .deletion => 0
  | .value => 1

def kValueTypeForSeek : ValueType := .value

def packSequenceAndType (seq : Nat) (t : ValueType) : Nat := seq * 256 + t.code

structure InternalKey (κ : Type*) where
  userKey : κ
  sequence : Nat
  type : ValueType
  deriving DecidableEq

abbrev Entry (κ : Type*) := InternalKey κ × Slice

instance Entry.instLawfulBEqSlice : LawfulBEq (Entry Slice) := inferInstance

variable {κ : Type*}

def InternalKey.tag (k : InternalKey κ) : Nat := packSequenceAndType k.sequence k.type

lemma ValueType.code_lt (t : ValueType) : t.code < 256 := by cases t <;> decide

lemma ValueType.code_injective {s t : ValueType} (h : s.code = t.code) : s = t := by
  cases s <;> cases t <;> first | rfl | cases h

lemma tag_injective {s s' : Nat} {t t' : ValueType}
    (h : packSequenceAndType s t = packSequenceAndType s' t') : s = s' ∧ t = t' := by
  unfold packSequenceAndType at h
  have h1 := t.code_lt
  have h2 := t'.code_lt
  exact ⟨by omega, ValueType.code_injective (by omega)⟩

variable [LinearOrder κ]

instance : LinearOrder (InternalKey κ) :=
  LinearOrder.lift' (fun k => toLex (k.userKey, OrderDual.toDual k.tag)) <| by
    rintro ⟨u, s, t⟩ ⟨u', s', t'⟩ h
    have h' : u = u' ∧ packSequenceAndType s t = packSequenceAndType s' t' := by
      simpa [InternalKey.tag] using h
    obtain ⟨rfl, ht⟩ := h'
    obtain ⟨rfl, rfl⟩ := tag_injective ht
    rfl

variable {a b : InternalKey κ}

lemma InternalKey.lt_iff : a < b ↔ a.userKey < b.userKey ∨ a.userKey = b.userKey ∧ b.tag < a.tag :=
  Prod.Lex.toLex_lt_toLex

lemma InternalKey.le_iff : a ≤ b ↔ a.userKey < b.userKey ∨ a.userKey = b.userKey ∧ b.tag ≤ a.tag :=
  Prod.Lex.toLex_le_toLex

lemma InternalKey.user_le_of_le (h : a ≤ b) : a.userKey ≤ b.userKey := by
  rcases InternalKey.le_iff.1 h with h | ⟨h, _⟩
  · exact h.le
  · exact h.le

lemma InternalKey.lt_of_user_lt (h : a.userKey < b.userKey) : a < b :=
  InternalKey.lt_iff.2 (.inl h)

lemma InternalKey.sequence_le_of_le (h : a ≤ b) (hu : a.userKey = b.userKey) : b.sequence ≤ a.sequence := by
  rcases InternalKey.le_iff.1 h with h | ⟨_, h⟩
  · exact absurd hu h.ne
  · have h1 := a.type.code_lt
    simp only [InternalKey.tag, packSequenceAndType] at h
    omega

def lookupKey (u : κ) (s : Nat) : InternalKey κ := ⟨u, s, kValueTypeForSeek⟩

lemma lookupKey_le_iff {u : κ} {s : Nat} {k : InternalKey κ} :
    lookupKey u s ≤ k ↔ u < k.userKey ∨ u = k.userKey ∧ k.sequence ≤ s := by
  have h1 : k.type.code ≤ ValueType.code .value := by cases k.type <;> decide
  have h2 := ValueType.code_lt .value
  simp only [InternalKey.le_iff, lookupKey, InternalKey.tag, packSequenceAndType, kValueTypeForSeek]
  constructor
  · rintro (h | ⟨h, h'⟩)
    · exact .inl h
    · exact .inr ⟨h, by omega⟩
  · rintro (h | ⟨h, h'⟩)
    · exact .inl h
    · exact .inr ⟨h, by omega⟩

end RallyDB.Db
