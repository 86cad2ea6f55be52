import RallyDB.Table.Format

/-!
# Handles and footers are read back
-/

namespace RallyDB.Table

open Util List BlockHandle

def BlockHandle.Fits (h : BlockHandle) : Prop := h.offset < 2 ^ 64 ∧ h.size < 2 ^ 64

lemma BlockHandle.decode_encode {h : BlockHandle} (hf : h.Fits) (rest : Slice) :
    decode (h.encode ++ rest) = .ok (h, rest) := by
  unfold decode encode
  rw [append_assoc, getVarint64_encode hf.1]
  dsimp only
  rw [getVarint64_encode hf.2]

lemma encodeVarint64_length_le {v : Nat} (n : Nat) (h : v < 128 ^ (n + 1)) : (encodeVarint64 v).length ≤ n + 1 := by
  induction n generalizing v with
  | zero => rw [encodeVarint64_of_lt (by omega), length_singleton]
  | succ n ih =>
    by_cases hv : v < 128
    · rw [encodeVarint64_of_lt hv, length_singleton]
      omega
    · rw [encodeVarint64_of_le (by omega), length_cons]
      have := ih (v := v / 128) (Nat.div_lt_of_lt_mul (by rw [← Nat.pow_succ']; exact h))
      omega

lemma BlockHandle.encode_length_le {h : BlockHandle} (hf : h.Fits) : h.encode.length ≤ 20 := by
  have hpow : 2 ^ 64 ≤ 128 ^ (9 + 1) := by decide
  have h1 := encodeVarint64_length_le 9 (hf.1.trans_le hpow)
  have h2 := encodeVarint64_length_le 9 (hf.2.trans_le hpow)
  rw [encode, length_append]
  omega

variable {f : Footer} (h1 : f.metaindexHandle.Fits) (h2 : f.indexHandle.Fits)
include h1 h2

lemma Footer.encode_eq : ∃ padding, f.encode = f.metaindexHandle.encode ++ (f.indexHandle.encode ++ (padding ++
    (encodeFixed32 (kTableMagicNumber % 2 ^ 32) ++ encodeFixed32 (kTableMagicNumber / 2 ^ 32)))) ∧
    (f.metaindexHandle.encode ++ (f.indexHandle.encode ++ padding)).length = kMaxHandlesLength := by
  have l1 := encode_length_le h1
  have l2 := encode_length_le h2
  have hle : (f.metaindexHandle.encode ++ f.indexHandle.encode).length ≤ kMaxHandlesLength := by
    rw [length_append, kMaxHandlesLength]
    omega
  refine ⟨List.replicate (kMaxHandlesLength - (f.metaindexHandle.encode ++ f.indexHandle.encode).length) 0, ?_, ?_⟩
  · unfold Footer.encode
    dsimp only
    rw [take_of_length_le hle]
    simp only [append_assoc]
  · rw [← append_assoc, length_append, length_replicate]
    omega

lemma Footer.encode_length : f.encode.length = kFooterLength := by
  obtain ⟨padding, he, hl⟩ := Footer.encode_eq h1 h2
  rw [he]
  simp only [length_append, encodeFixed32_length] at hl ⊢
  rw [kMaxHandlesLength] at hl
  rw [kFooterLength]
  omega

lemma Footer.decode_encode : Footer.decode f.encode = .ok f := by
  obtain ⟨padding, he, hl⟩ := Footer.encode_eq h1 h2
  have hlen := Footer.encode_length h1 h2
  set magic := encodeFixed32 (kTableMagicNumber % 2 ^ 32) ++ encodeFixed32 (kTableMagicNumber / 2 ^ 32) with hm
  have hdrop : f.encode.drop kMaxHandlesLength = magic := by
    have hsplit : f.encode = (f.metaindexHandle.encode ++ (f.indexHandle.encode ++ padding)) ++ magic := by
      rw [he, append_assoc, append_assoc]
    rw [hsplit, drop_left' hl]
  have hlo : decodeFixed32 (f.encode.drop kMaxHandlesLength) = kTableMagicNumber % 2 ^ 32 := by
    rw [hdrop, hm, decodeFixed32_encodeFixed32 (by decide)]
  have hhi : decodeFixed32 (f.encode.drop (kMaxHandlesLength + 4)) = kTableMagicNumber / 2 ^ 32 := by
    have := decodeFixed32_encodeFixed32 (v := kTableMagicNumber / 2 ^ 32) (by decide) []
    rw [append_nil] at this
    rw [← drop_drop, hdrop, hm, drop_left' (encodeFixed32_length _), this]
  unfold Footer.decode
  dsimp only
  rw [if_neg (by rw [hlen]; exact lt_irrefl _), hlo, hhi, if_neg (by decide), he]
  rw [BlockHandle.decode_encode h1]
  show (BlockHandle.decode _ >>= fun _ => _) = _
  rw [BlockHandle.decode_encode h2]
  rfl

end RallyDB.Table
