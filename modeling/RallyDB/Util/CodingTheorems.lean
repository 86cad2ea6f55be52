import RallyDB.Util.Lemmas.Coding

/-!
# Main results about the encodings
-/

namespace RallyDB.Util

open Lib List

def varintLengthLoop (v len : Nat) : Nat :=
  if 128 ≤ v then varintLengthLoop (v >>> 7) (len + 1) else len
termination_by v
decreasing_by
  rw [Nat.shiftRight_eq_div_pow]
  omega

def varintLength (v : Nat) : Nat := varintLengthLoop v 1

lemma varintLengthLoop_eq (v len : Nat) : varintLengthLoop v len + 1 = len + (encodeVarint64 v).length := by
  fun_induction varintLengthLoop v len with
  | case1 v len h ih =>
    rw [ih, encodeVarint64.eq_def v, if_pos h, length_cons]
    omega
  | case2 v len h => rw [encodeVarint64_of_lt (not_le.1 h), length_singleton]

lemma varintLength_eq (v : Nat) : varintLength v = (encodeVarint64 v).length :=
  Nat.succ.inj ((varintLengthLoop_eq v 1).trans (add_comm _ _))

/-- `read` takes back `v`, of which `written` is the encoding, and nothing of what follows; it takes no proper part of the
encoding, and never more than `most` bytes. -/
structure ReadsVarint (read : Slice → Option (Nat × Slice)) (most v : Nat) (written rest : Slice) : Prop where
  reads_back : read (written ++ rest) = some (v, rest)
  length : varintLength v = written.length
  proper : ∀ s, s <+: written → s ≠ written → read s = none
  bounded : ∀ input w left, read input = some (w, left) → ∃ used, input = used ++ left ∧ used.length ≤ most

lemma eq_none_of_proper {read : Slice → Option (Nat × Slice)} (h : IgnoresRest read) {v : Nat} {written : Slice}
    (hw : read written = some (v, [])) (s : Slice) (hs : s <+: written) (hne : s ≠ written) : read s = none := by
  obtain ⟨m, rfl⟩ := hs
  by_contra hsome
  obtain ⟨⟨w, left⟩, hread⟩ := Option.ne_none_iff_exists'.1 hsome
  have hm := h.eq_nil hread hw
  exact hne (by rw [hm, append_nil])

lemma readsVarint32 (v : UInt32) (rest : Slice) : ReadsVarint getVarint32 5 v.toNat (encodeVarint32 v.toNat) rest where
  reads_back := getVarint32_encode v.toNat_lt rest
  length := by rw [varintLength_eq, encodeVarint32_eq v.toNat_lt]
  proper := eq_none_of_proper ignoresRest_getVarint32 (by simpa using getVarint32_encode v.toNat_lt [])
  bounded input w left h := by
    obtain ⟨used, hin, -, -, hlen, -⟩ := isVarint32_of_getVarint32 h
    exact ⟨used, hin, hlen⟩

lemma readsVarint64 (v : UInt64) (rest : Slice) : ReadsVarint getVarint64 10 v.toNat (encodeVarint64 v.toNat) rest where
  reads_back := getVarint64_encode v.toNat_lt rest
  length := varintLength_eq _
  proper := eq_none_of_proper ignoresRest_getVarint64 (by simpa using getVarint64_encode v.toNat_lt [])
  bounded input w left h := by
    obtain ⟨used, -, hin, -, hlen, -⟩ := varintBytes_of_getVarintLoop (by decide) (by decide) h
    exact ⟨used, hin, by omega⟩

lemma getLengthPrefixedSlice_put_iff (value rest : Slice) :
    getLengthPrefixedSlice (putLengthPrefixedSlice value ++ rest) = some (value, rest) ↔ value.length < 2 ^ 32 := by
  refine ⟨fun h => ?_, fun h => getLengthPrefixedSlice_put h rest⟩
  obtain ⟨used, -, hused⟩ := isLengthPrefixed_of_get h
  exact hused.length_lt

/-- Numbers are read back as they were written; strings are just when they are shorter than `2 ^ 32` bytes. -/
theorem coding_reads_back_iff (v : UInt32) (w : UInt64) (value rest : Slice) :
    ReadsVarint getVarint32 5 v.toNat (encodeVarint32 v.toNat) rest ∧
    ReadsVarint getVarint64 10 w.toNat (encodeVarint64 w.toNat) rest ∧
    (decodeFixed32 (encodeFixed32 v.toNat ++ rest) = v.toNat ∧ (encodeFixed32 v.toNat ++ rest).drop 4 = rest) ∧
    (decodeFixed64 (encodeFixed64 w.toNat ++ rest) = w.toNat ∧ (encodeFixed64 w.toNat ++ rest).drop 8 = rest) ∧
    getLengthPrefixedSlice (putLengthPrefixedSlice value ++ rest) = some (value, rest) ↔
    value.length < 2 ^ 32 := by
  rw [← getLengthPrefixedSlice_put_iff value rest]
  refine ⟨fun h => h.2.2.2.2, fun h => ⟨readsVarint32 v rest, readsVarint64 w rest, ⟨?_, ?_⟩, ⟨?_, ?_⟩, h⟩⟩
  · exact decodeFixed32_encodeFixed32 v.toNat_lt rest
  · exact drop_left' (encodeFixed32_length _)
  · exact decodeFixed64_encodeFixed64 w.toNat_lt rest
  · exact drop_left' (encodeFixed64_length _)

/-- A string of `2 ^ 32` bytes is written with the length 0. -/
theorem long_slice_not_read_back : getLengthPrefixedSlice (putLengthPrefixedSlice (List.replicate (2 ^ 32) 0) ++ []) ≠
    some (List.replicate (2 ^ 32) 0, []) := by
  rw [Ne, getLengthPrefixedSlice_put_iff, length_replicate]
  exact lt_irrefl _

end RallyDB.Util
