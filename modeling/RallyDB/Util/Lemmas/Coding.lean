import RallyDB.Lib.Parser
import RallyDB.Util.Coding

/-!
# What the readers of varints and strings accept
-/

namespace RallyDB.Util

open Lib List

inductive VarintBytes : Slice → Nat → Prop where
  | last {b : UInt8} (h : b.toNat < 128) : VarintBytes [b] b.toNat
  | more {b : UInt8} {s : Slice} {n : Nat} (h : 128 ≤ b.toNat) (hs : VarintBytes s n) :
    VarintBytes (b :: s) (b.toNat % 128 + 128 * n)

def IsVarint32 (s : Slice) (n : Nat) : Prop := ∃ m, VarintBytes s m ∧ s.length ≤ 5 ∧ n = m % 2 ^ 32

def IsLengthPrefixed (s value : Slice) : Prop := ∃ len, IsVarint32 len value.length ∧ s = len ++ value

variable {bits last shift result v : Nat} {input rest value : Slice}

lemma shift_le_of_getVarintLoop (h : getVarintLoop bits last input shift result = some (v, rest)) : shift ≤ last := by
  cases input with
  | nil => cases h
  | cons b input =>
    unfold getVarintLoop at h
    by_contra hgt
    rw [if_neg hgt] at h
    cases h

lemma or_shiftLeft_mod {x : Nat} (hr : result < 2 ^ shift) (hs : shift ≤ bits) :
    result ||| (x <<< shift % 2 ^ bits) = (result + x * 2 ^ shift) % 2 ^ bits := by
  have hpow : 2 ^ bits = 2 ^ shift * 2 ^ (bits - shift) := by rw [← Nat.pow_add, Nat.add_sub_cancel' hs]
  have hx : x <<< shift % 2 ^ bits = 2 ^ shift * (x % 2 ^ (bits - shift)) := by
    rw [Nat.shiftLeft_eq, mul_comm, hpow, Nat.mul_mod_mul_left]
  have hdiv : (2 ^ shift * x + result) / 2 ^ shift = x := by
    rw [Nat.mul_add_div (Nat.two_pow_pos _), Nat.div_eq_of_lt hr, add_zero]
  rw [hx, Nat.or_comm, ← Nat.two_pow_add_eq_or_of_lt hr, add_comm result, mul_comm x, hpow, Nat.mod_mul, hdiv,
    Nat.mul_add_mod, Nat.mod_eq_of_lt hr, add_comm]

lemma varintBytes_of_getVarintLoop (hlast : last < bits) (hr : result < 2 ^ shift)
    (h : getVarintLoop bits last input shift result = some (v, rest)) : ∃ used m, input = used ++ rest ∧ VarintBytes used m ∧
    shift + 7 * used.length ≤ last + 7 ∧ v = (result + m * 2 ^ shift) % 2 ^ bits := by
  induction input generalizing shift result with
  | nil => cases h
  | cons b input ih =>
    have hs : shift ≤ last := shift_le_of_getVarintLoop h
    unfold getVarintLoop at h
    rw [if_pos hs] at h
    split_ifs at h with hmore
    · have hle : 128 ≤ b.toNat := not_lt.1 fun hlt => hmore ((and_128_eq_zero_iff (UInt8.toNat_lt b)).2 hlt)
      have hs' := shift_le_of_getVarintLoop h
      have hand : b.toNat &&& 127 = b.toNat % 128 := Nat.and_two_pow_sub_one_eq_mod b.toNat 7
      have hlt : result + b.toNat % 128 * 2 ^ shift < 2 ^ (shift + 7) := by
        have hpow : 2 ^ (shift + 7) = 128 * 2 ^ shift := by rw [Nat.pow_add, mul_comm]
        have hb : b.toNat % 128 ≤ 127 := Nat.le_of_lt_succ (Nat.mod_lt b.toNat (by decide))
        have hmul := Nat.mul_le_mul_right (2 ^ shift) hb
        omega
      have hbits : 2 ^ (shift + 7) ≤ 2 ^ bits := Nat.pow_le_pow_right (by decide) (by omega)
      rw [hand, or_shiftLeft_mod hr (by omega), Nat.mod_eq_of_lt (hlt.trans_le hbits)] at h
      obtain ⟨used, m, rfl, hused, hlen, rfl⟩ := ih hlt h
      refine ⟨b :: used, _, rfl, .more hle hused, by rw [length_cons]; omega, ?_⟩
      rw [Nat.pow_add]
      ring_nf
    · cases h
      have hlt : b.toNat < 128 := (and_128_eq_zero_iff (UInt8.toNat_lt b)).1 (not_not.1 hmore)
      exact ⟨[b], b.toNat, rfl, .last hlt, by simp; omega, or_shiftLeft_mod hr (hs.trans hlast.le)⟩

lemma isVarint32_of_getVarint32 (h : getVarint32 input = some (v, rest)) :
    ∃ used, input = used ++ rest ∧ IsVarint32 used v := by
  unfold getVarint32 at h
  split at h
  · cases h
  · rename_i b s
    split_ifs at h with hone
    · cases h
      have hlt : b.toNat < 128 := (and_128_eq_zero_iff (UInt8.toNat_lt b)).1 hone
      exact ⟨[b], rfl, _, .last hlt, by simp, (Nat.mod_eq_of_lt (hlt.trans (by decide))).symm⟩
    · obtain ⟨used, m, hin, hused, hlen, hv⟩ := varintBytes_of_getVarintLoop (by decide) (by decide) h
      exact ⟨used, hin, m, hused, by omega, by simpa using hv⟩

lemma isLengthPrefixed_of_get (h : getLengthPrefixedSlice input = some (value, rest)) :
    ∃ used, input = used ++ rest ∧ IsLengthPrefixed used value := by
  unfold getLengthPrefixedSlice at h
  split at h
  · rename_i len mid hlen
    split_ifs at h with hle
    cases h
    obtain ⟨used, rfl, hused⟩ := isVarint32_of_getVarint32 hlen
    refine ⟨used ++ mid.take len, by simp, used, ?_, rfl⟩
    rwa [length_take_of_le hle]
  · cases h

lemma IsLengthPrefixed.length_lt {s : Slice} (h : IsLengthPrefixed s value) : value.length < 2 ^ 32 := by
  obtain ⟨len, ⟨m, -, -, hm⟩, -⟩ := h
  rw [hm]
  exact Nat.mod_lt _ (by decide)

lemma ignoresRest_getVarintLoop (bits last shift result : Nat) :
    IgnoresRest fun input => getVarintLoop bits last input shift result := by
  intro input v rest h more
  dsimp only at h ⊢
  induction input generalizing shift result with
  | nil => cases h
  | cons b input ih =>
    rw [cons_append]
    unfold getVarintLoop at h ⊢
    split_ifs at h ⊢
    · exact ih _ _ h
    · cases h
      rfl

lemma ignoresRest_getVarint64 : IgnoresRest getVarint64 := ignoresRest_getVarintLoop 64 63 0 0

lemma ignoresRest_getVarint32 : IgnoresRest getVarint32 := by
  intro input v rest h more
  cases input with
  | nil => cases h
  | cons b input =>
    rw [cons_append]
    unfold getVarint32 at h ⊢
    dsimp only at h ⊢
    split_ifs at h ⊢
    · cases h
      rfl
    · exact ignoresRest_getVarintLoop 32 28 0 0 _ _ _ h more

lemma ignoresRest_getLengthPrefixedSlice : IgnoresRest getLengthPrefixedSlice := by
  intro input v rest h more
  unfold getLengthPrefixedSlice at h ⊢
  cases hlen : getVarint32 input with
  | none =>
    rw [hlen] at h
    cases h
  | some p =>
    rw [hlen] at h
    rw [ignoresRest_getVarint32 input p.1 p.2 hlen more]
    dsimp only at h ⊢
    split_ifs at h with hle
    cases h
    rw [if_pos (by rw [length_append]; omega), take_append_of_le_length hle, drop_append_of_le_length hle]

end RallyDB.Util
