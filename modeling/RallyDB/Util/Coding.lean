import Mathlib.Tactic

/-!
# Endian-neutral encodings (`util/coding.h`, `util/coding.cc`)
-/

namespace RallyDB

open List Nat

abbrev Slice := List UInt8

namespace Util

/-! ## Fixed-width numbers -/

def encodeFixed : Nat → Nat → Slice
  | 0, _ => []
  | w + 1, v => UInt8.ofNat v :: encodeFixed w (v / 256)

def decodeFixed : Nat → Slice → Nat
  | 0, _ => 0
  | w + 1, s => (s.headD 0).toNat + 256 * decodeFixed w s.tail

def encodeFixed32 (v : Nat) : Slice := encodeFixed 4 v

def encodeFixed64 (v : Nat) : Slice := encodeFixed 8 v

def decodeFixed32 (s : Slice) : Nat := decodeFixed 4 s

def decodeFixed64 (s : Slice) : Nat := decodeFixed 8 s

@[simp] lemma encodeFixed_length (w v : Nat) : (encodeFixed w v).length = w := by
  induction w generalizing v with
  | zero => rfl
  | succ w ih => simp [encodeFixed, ih]

@[simp] lemma encodeFixed32_length (v : Nat) : (encodeFixed32 v).length = 4 := encodeFixed_length 4 v

@[simp] lemma encodeFixed64_length (v : Nat) : (encodeFixed64 v).length = 8 := encodeFixed_length 8 v

lemma decodeFixed_encodeFixed (w v : Nat) (rest : Slice) : decodeFixed w (encodeFixed w v ++ rest) = v % 256 ^ w := by
  induction w generalizing v with
  | zero => simp [decodeFixed, mod_one]
  | succ w ih =>
    simp only [encodeFixed, decodeFixed, cons_append, headD_cons, tail_cons, ih, UInt8.toNat_ofNat']
    rw [show 256 ^ (w + 1) = 256 * 256 ^ w from pow_succ', mod_mul]

variable {v result shift bits : Nat}

lemma decodeFixed32_encodeFixed32 (h : v < 2 ^ 32) (rest : Slice) : decodeFixed32 (encodeFixed32 v ++ rest) = v := by
  rw [decodeFixed32, encodeFixed32, decodeFixed_encodeFixed]
  exact mod_eq_of_lt h

lemma decodeFixed64_encodeFixed64 (h : v < 2 ^ 64) (rest : Slice) : decodeFixed64 (encodeFixed64 v ++ rest) = v := by
  rw [decodeFixed64, encodeFixed64, decodeFixed_encodeFixed]
  exact mod_eq_of_lt h

/-! ## Varints -/

def varintMore (v : Nat) : UInt8 := UInt8.ofNat (v ||| 128)

def encodeVarint64 (v : Nat) : Slice :=
  if 128 ≤ v then varintMore v :: encodeVarint64 (v >>> 7) else [UInt8.ofNat v]
termination_by v
decreasing_by
  rw [Nat.shiftRight_eq_div_pow]
  omega

def encodeVarint32 (v : Nat) : Slice :=
  if v < 2 ^ 7 then [UInt8.ofNat v]
  else if v < 2 ^ 14 then [varintMore v, UInt8.ofNat (v >>> 7)]
  else if v < 2 ^ 21 then [varintMore v, varintMore (v >>> 7), UInt8.ofNat (v >>> 14)]
  else if v < 2 ^ 28 then
    [varintMore v, varintMore (v >>> 7), varintMore (v >>> 14), UInt8.ofNat (v >>> 21)]
  else
    [varintMore v, varintMore (v >>> 7), varintMore (v >>> 14), varintMore (v >>> 21), UInt8.ofNat (v >>> 28)]

def getVarintLoop (bits last : Nat) : Slice → Nat → Nat → Option (Nat × Slice)
  | [], _, _ => none
  | byte :: rest, shift, result =>
    if shift ≤ last then
      if byte.toNat &&& 128 ≠ 0 then
        getVarintLoop bits last rest (shift + 7) (result ||| ((byte.toNat &&& 127) <<< shift % 2 ^ bits))
      else some (result ||| (byte.toNat <<< shift % 2 ^ bits), rest)
    else none

def getVarint32 (input : Slice) : Option (Nat × Slice) :=
  match input with
  | [] => getVarintLoop 32 28 [] 0 0
  | byte :: rest =>
    if byte.toNat &&& 128 = 0 then some (byte.toNat, rest) else getVarintLoop 32 28 (byte :: rest) 0 0

def getVarint64 (input : Slice) : Option (Nat × Slice) := getVarintLoop 64 63 input 0 0

lemma encodeVarint64_of_lt (h : v < 128) : encodeVarint64 v = [UInt8.ofNat v] := by
  rw [encodeVarint64, if_neg (by omega)]

lemma encodeVarint64_of_le (h : 128 ≤ v) : encodeVarint64 v = varintMore v :: encodeVarint64 (v / 128) := by
  rw [encodeVarint64, if_pos h, shiftRight_eq_div_pow]

lemma encodeVarint32_eq (h : v < 2 ^ 32) : encodeVarint32 v = encodeVarint64 v := by
  have e (n : Nat) : v >>> n = v / 2 ^ n := Nat.shiftRight_eq_div_pow v n
  unfold encodeVarint32
  simp only [e]
  split_ifs with h1 h2 h3 h4
  · rw [encodeVarint64_of_lt (by omega)]
  · rw [encodeVarint64_of_le (by omega), encodeVarint64_of_lt (by omega)]
    rfl
  · rw [encodeVarint64_of_le (by omega), encodeVarint64_of_le (by omega), encodeVarint64_of_lt (by omega)]
    simp only [Nat.div_div_eq_div_mul, Nat.reduceMul, Nat.reducePow]
  · rw [encodeVarint64_of_le (by omega), encodeVarint64_of_le (by omega),
      encodeVarint64_of_le (by omega), encodeVarint64_of_lt (by omega)]
    simp only [Nat.div_div_eq_div_mul, Nat.reduceMul, Nat.reducePow]
  · rw [encodeVarint64_of_le (by omega), encodeVarint64_of_le (by omega),
      encodeVarint64_of_le (by omega), encodeVarint64_of_le (by omega), encodeVarint64_of_lt (by omega)]
    simp only [Nat.div_div_eq_div_mul, Nat.reduceMul, Nat.reducePow]

lemma varintMore_toNat (v : Nat) : (varintMore v).toNat = v % 128 + 128 := by
  have h := (by decide +kernel : ∀ b : Fin 256, b.1 ||| 128 = b.1 % 128 + 128) ⟨v % 2 ^ 8, mod_lt v (by decide)⟩
  rw [varintMore, UInt8.toNat_ofNat', or_mod_two_pow]
  simp only [reducePow, reduceMod] at h ⊢
  rw [h]
  omega

lemma and_128_eq_zero_iff {b : Nat} (h : b < 256) : b &&& 128 = 0 ↔ b < 128 := by
  exact (by decide +kernel : ∀ b : Fin 256, b.1 &&& 128 = 0 ↔ b.1 < 128) ⟨b, h⟩

lemma or_shiftLeft_eq {x : Nat} (hr : result < 2 ^ shift) (hx : x * 2 ^ shift < 2 ^ bits) :
    result ||| (x <<< shift % 2 ^ bits) = result + x * 2 ^ shift := by
  rw [Nat.shiftLeft_eq, Nat.mod_eq_of_lt hx, mul_comm x, Nat.or_comm, ← Nat.two_pow_add_eq_or_of_lt hr, add_comm]

lemma getVarintLoop_encode (bits last : Nat) (hlast : ∀ s, 7 ∣ s → s < bits → s ≤ last) (rest : Slice)
    (v shift result : Nat) (hs : 7 ∣ shift) (hv : shift = 0 ∨ 0 < v) (hb : 0 < bits)
    (hr : result < 2 ^ shift) (hlt : v * 2 ^ shift < 2 ^ bits) :
    getVarintLoop bits last (encodeVarint64 v ++ rest) shift result = some (result + v * 2 ^ shift, rest) := by
  induction v using Nat.strongRecOn generalizing shift result with
  | ind v ih =>
    have hshift : shift ≤ last := by
      apply hlast _ hs
      rcases hv with h0 | hpos
      · omega
      · exact (Nat.pow_lt_pow_iff_right (by decide)).1 (lt_of_le_of_lt (Nat.le_mul_of_pos_left _ hpos) hlt)
    by_cases h : v < 128
    · rw [encodeVarint64_of_lt h]
      have hb : (UInt8.ofNat v).toNat = v := by
        rw [UInt8.toNat_ofNat']
        omega
      simp only [cons_append, nil_append, getVarintLoop, hb, hshift, if_true]
      rw [if_neg (not_not.2 ((and_128_eq_zero_iff (by omega)).2 h)), or_shiftLeft_eq hr hlt]
    · rw [encodeVarint64_of_le (by omega)]
      have hsplit : v * 2 ^ shift = v % 128 * 2 ^ shift + v / 128 * 2 ^ (shift + 7) := by
        calc v * 2 ^ shift = (v % 128 + 128 * (v / 128)) * 2 ^ shift := by rw [Nat.mod_add_div]
          _ = _ := by rw [Nat.pow_add]; ring
      have hand : (v % 128 + 128) &&& 127 = v % 128 := by
        rw [show 127 = 2 ^ 7 - 1 by rfl, Nat.and_two_pow_sub_one_eq_mod]
        omega
      have hmore : ¬ (v % 128 + 128) &&& 128 = 0 := by
        rw [and_128_eq_zero_iff (by omega)]
        omega
      simp only [cons_append, getVarintLoop, varintMore_toNat, hshift, if_true, hand]
      rw [if_pos hmore, or_shiftLeft_eq hr (by omega), ih (v / 128) (by omega) (shift + 7) _ (by omega) (.inr (by omega))]
      · rw [hsplit, add_assoc]
      · have : v % 128 * 2 ^ shift ≤ 127 * 2 ^ shift := Nat.mul_le_mul_right _ (by omega)
        rw [Nat.pow_add]
        omega
      · omega

lemma getVarint64_encode (h : v < 2 ^ 64) (rest : Slice) : getVarint64 (encodeVarint64 v ++ rest) = some (v, rest) := by
  have := getVarintLoop_encode 64 63 (by omega) rest v 0 0 (by omega) (.inl rfl) (by omega) (by omega) (by omega)
  simpa [getVarint64] using this

lemma getVarint32_encode (h : v < 2 ^ 32) (rest : Slice) : getVarint32 (encodeVarint32 v ++ rest) = some (v, rest) := by
  have hloop := getVarintLoop_encode 32 28 (by omega) rest v 0 0 (by omega) (.inl rfl) (by omega) (by omega) (by omega)
  rw [encodeVarint32_eq h]
  by_cases hv : v < 128
  · have hb : (UInt8.ofNat v).toNat = v := by
      rw [UInt8.toNat_ofNat']
      omega
    rw [encodeVarint64_of_lt hv]
    simp only [cons_append, nil_append, getVarint32, hb]
    rw [if_pos ((and_128_eq_zero_iff (by omega)).2 hv)]
  · rw [encodeVarint64_of_le (by omega)] at hloop ⊢
    have hmore : ¬ (v % 128 + 128) &&& 128 = 0 := by
      rw [and_128_eq_zero_iff (by omega)]
      omega
    simp only [cons_append, getVarint32, varintMore_toNat] at hloop ⊢
    rw [if_neg hmore, hloop]
    simp

variable {input rest value : Slice}

lemma length_getVarintLoop {last : Nat}
    (h : getVarintLoop bits last input shift result = some (v, rest)) : rest.length < input.length := by
  induction input generalizing shift result with
  | nil => cases h
  | cons byte input ih =>
    unfold getVarintLoop at h
    split_ifs at h
    · exact (ih h).trans (lt_succ_self _)
    · cases h
      exact lt_succ_self _

lemma length_getVarint32 (h : getVarint32 input = some (v, rest)) : rest.length < input.length := by
  unfold getVarint32 at h
  split at h
  · cases h
  · split_ifs at h
    · cases h
      exact lt_succ_self _
    · exact length_getVarintLoop h

lemma length_getVarint64 (h : getVarint64 input = some (v, rest)) : rest.length < input.length := length_getVarintLoop h

def putLengthPrefixedSlice (value : Slice) : Slice := encodeVarint32 (value.length % 2 ^ 32) ++ value

def getLengthPrefixedSlice (input : Slice) : Option (Slice × Slice) :=
  match getVarint32 input with
  | some (len, input) => if len ≤ input.length then some (input.take len, input.drop len) else none
  | none => none

lemma getLengthPrefixedSlice_put (h : value.length < 2 ^ 32) (rest : Slice) :
    getLengthPrefixedSlice (putLengthPrefixedSlice value ++ rest) = some (value, rest) := by
  unfold getLengthPrefixedSlice putLengthPrefixedSlice
  rw [mod_eq_of_lt h, append_assoc, getVarint32_encode h]
  simp

lemma length_getLengthPrefixedSlice (h : getLengthPrefixedSlice input = some (value, rest)) :
    rest.length < input.length := by
  unfold getLengthPrefixedSlice at h
  split at h
  · rename_i hlen
    split_ifs at h
    cases h
    have := length_getVarint32 hlen
    rw [length_drop]
    omega
  · cases h

end Util

end RallyDB
