import RallyDB.Db.LogScan

/-!
# Physical records in the contents of a log
-/

namespace RallyDB.Db.Log

open Util Table List Reader Writer

section Image

variable (crc : Crc32c) (t : RecordType) (data : Slice)

def image : Slice := Writer.header crc t data ++ data

@[simp] lemma length_header : (header crc t data).length = kHeaderSize := by
  simp [header, kHeaderSize]

@[simp] lemma length_image : (image crc t data).length = kHeaderSize + data.length := by
  rw [image, length_append, length_header]

variable {data}

lemma lengthOfHeader_header (hdata : data.length < 2 ^ 16) (rest : Slice) :
    lengthOfHeader (header crc t data ++ rest) = data.length := by
  have hhigh : data.length >>> 8 % 256 = data.length / 256 := by
    rw [Nat.shiftRight_eq_div_pow]
    omega
  have hlow : data.length &&& 255 = data.length % 256 := Nat.and_two_pow_sub_one_eq_mod _ 8
  unfold lengthOfHeader header
  simp only [append_assoc, drop_append, encodeFixed32_length, drop_eq_nil_of_le, le_refl]
  simp [hhigh, hlow]
  rw [Nat.or_comm, ← Nat.shiftLeft_add_eq_or_of_lt (by omega), Nat.shiftLeft_eq]
  omega

lemma typeOfByte_header (rest : Slice) : typeOfByte (((header crc t data ++ rest).drop 6).headD 0) = t.toNat := by
  unfold header
  simp [drop_append]
  cases t <;> rfl

lemma checksumOk_image (rest : Slice) : checksumOk crc (image crc t data ++ rest) data.length = true := by
  have hstored : decodeFixed32 (image crc t data ++ rest) = (mask (crc.extend (crc.value [t.byte]) data)).toNat := by
    unfold image header
    rw [append_assoc, append_assoc]
    exact decodeFixed32_encodeFixed32 (UInt32.toNat_lt _) _
  have hcovered : ((image crc t data ++ rest).drop 6).take (1 + data.length) = t.byte :: data := by
    unfold image header
    simp [drop_append, drop_eq_nil_of_le, add_comm 1]
  unfold checksumOk
  rw [hstored, hcovered, UInt32.ofNat_toNat, unmask_mask, Crc32c.value, crc.extend_append]
  exact beq_self_eq_true _

end Image

/-! ## Records at positions -/

structure Holds (crc : Crc32c) (contents : Slice) (s : Nat) (t : RecordType) (data : Slice) : Prop where
  image : image crc t data <+: contents.drop s
  fits : s + kHeaderSize + data.length ≤ blockEnd s

variable {crc : Crc32c} {contents : Slice} {q s : Nat} {t : RecordType} {data : Slice}

lemma blockEnd_le (q : Nat) : blockEnd q ≤ q + kBlockSize := by
  unfold blockEnd kBlockSize
  omega

lemma Holds.length_lt (h : Holds crc contents s t data) : data.length < 2 ^ 16 := by
  have hfits := h.fits
  have hend := blockEnd_le s
  have hB : kBlockSize = 32768 := rfl
  omega

lemma Holds.le_length (h : Holds crc contents s t data) : s + kHeaderSize + data.length ≤ contents.length := by
  have hlen := h.image.length_le
  rw [length_image, length_drop] at hlen
  have hH : kHeaderSize = 7 := rfl
  omega

variable {contents' p : Slice}

lemma Holds.mono (h : Holds crc contents s t data) (hle : contents <+: contents') : Holds crc contents' s t data := by
  obtain ⟨rest, rfl⟩ := hle
  refine ⟨h.image.trans ?_, h.fits⟩
  rw [drop_append_of_le_length (by have := h.le_length; omega)]
  exact prefix_append _ _

lemma Holds.of_le (h : Holds crc contents s t data) (hp : List.IsPrefix p contents)
    (hle : s + kHeaderSize + data.length ≤ p.length) : Holds crc p s t data := by
  refine ⟨prefix_of_prefix_length_le h.image (hp.drop s) ?_, h.fits⟩
  rw [length_image, length_drop]
  omega

lemma physicalAt_of_holds (ht : t ≠ .zero) (h : Holds crc contents (start q) t data) :
    physicalAt crc contents q = .record t.toNat data (start q + kHeaderSize + data.length) := by
  have hle := h.le_length
  have hfits := h.fits
  have hlimit : start q + kHeaderSize + data.length ≤ min (blockEnd (start q)) contents.length := le_min hfits hle
  obtain ⟨rest, hrest⟩ := h.image
  have hbuffer : ((contents.drop (start q)).take (min (blockEnd (start q)) contents.length - start q)) =
      image crc t data ++ rest.take (min (blockEnd (start q)) contents.length - start q - (kHeaderSize + data.length)) := by
    rw [← hrest, take_append, length_image, take_of_length_le (by rw [length_image]; omega)]
  have hlength : ∀ x, lengthOfHeader (image crc t data ++ x) = data.length := fun x => by
    rw [image, append_assoc]
    exact lengthOfHeader_header crc t h.length_lt _
  have htype : ∀ x, typeOfByte (((image crc t data ++ x).drop 6).headD 0) = t.toNat := fun x => by
    rw [image, append_assoc]
    exact typeOfByte_header crc t _
  have hzero : ¬ (t.toNat = RecordType.zero.toNat ∧ data.length = 0) := fun hz => by
    cases t <;> simp_all [RecordType.toNat]
  unfold physicalAt parseAt
  dsimp only
  rw [if_neg (by omega), hbuffer, hlength, htype, if_neg (by simp), if_neg hzero, checksumOk_image, if_pos rfl]
  congr 1
  rw [image, append_assoc, drop_append_of_le_length (by simp), ← length_header crc t data, drop_length,
    nil_append, take_left']
  rfl

lemma physicalAt_of_torn (h : Holds crc contents (start q) t data) (hp : List.IsPrefix p contents)
    (hlt : p.length < start q + kHeaderSize + data.length) : physicalAt crc p q = .eof := by
  have hfits := h.fits
  unfold physicalAt parseAt
  dsimp only
  rw [min_eq_right (by omega)]
  by_cases hshort : p.length < start q + kHeaderSize
  · rw [if_pos hshort]
  · rw [if_neg hshort]
    have hheader : header crc t data <+: p.drop (start q) := by
      refine prefix_of_prefix_length_le ((prefix_append _ _).trans h.image) (hp.drop _) ?_
      rw [length_header, length_drop]
      omega
    have hlength : lengthOfHeader ((p.drop (start q)).take (p.length - start q)) = data.length := by
      obtain ⟨rest, hrest⟩ := hheader
      rw [take_of_length_le (by rw [length_drop]), ← hrest]
      exact lengthOfHeader_header crc t h.length_lt rest
    rw [hlength, if_pos, if_pos (by omega)]
    rw [length_take, length_drop]
    omega

lemma physicalAt_of_short (hlt : contents.length < q + kHeaderSize) : physicalAt crc contents q = .eof := by
  unfold physicalAt
  have := le_start q
  rw [if_pos (by omega)]

lemma physicalAt_of_length_le (hle : contents.length ≤ q) : physicalAt crc contents q = .eof :=
  physicalAt_of_short (hle.trans_lt (Nat.lt_add_of_pos_right (by decide)))

variable {pending : Option Slice}

lemma replay_of_length_le (hle : contents.length ≤ q) :
    replay crc contents q pending = [] := replay_eof (physicalAt_of_length_le hle)

variable {b q'' n : Nat}

lemma start_of_boundary (h : b % kBlockSize = 0) : start b = b := by
  unfold start blockEnd
  unfold kBlockSize kHeaderSize at *
  split_ifs <;> omega

lemma start_le_boundary (h : b % kBlockSize = 0) (hle : q ≤ b) : start q ≤ b := by
  unfold start blockEnd
  unfold kBlockSize kHeaderSize at *
  split_ifs <;> omega

lemma blockEnd_le_boundary (h : b % kBlockSize = 0) (hlt : q < b) : blockEnd q ≤ b := by
  unfold blockEnd
  unfold kBlockSize at *
  omega

lemma blockEnd_mod (q : Nat) : blockEnd q % kBlockSize = 0 := Nat.mul_mod_left _ _

/-! ## Chains of physical records -/

inductive Chain (crc : Crc32c) (contents : Slice) : Nat → List (RecordType × Slice) → Nat → Prop where
  | nil (q : Nat) : Chain crc contents q [] q
  | cons {q q' : Nat} {t : RecordType} {data : Slice} {xs : List (RecordType × Slice)}
      (head : Holds crc contents (start q) t data)
      (tail : Chain crc contents (start q + kHeaderSize + data.length) xs q') :
      Chain crc contents q ((t, data) :: xs) q'

inductive Fragmented : Bool → Slice → List (RecordType × Slice) → Prop where
  | last (begin : Bool) (data : Slice) : Fragmented begin data [(Writer.fragmentType begin true, data)]
  | more {begin : Bool} {data left : Slice} {xs : List (RecordType × Slice)} (rest : Fragmented false left xs) :
      Fragmented begin (data ++ left) ((Writer.fragmentType begin false, data) :: xs)

variable {xs : List (RecordType × Slice)} {q' : Nat}

lemma Chain.mono (h : Chain crc contents q xs q') (hle : contents <+: contents') : Chain crc contents' q xs q' := by
  induction h with
  | nil q => exact .nil q
  | cons head tail ih => exact .cons (head.mono hle) ih

lemma Chain.le (h : Chain crc contents q xs q') : q ≤ q' := by
  induction h with
  | nil q => exact le_rfl
  | @cons q q' t data xs head tail ih =>
    have := le_start q
    omega

lemma Chain.append {ys : List (RecordType × Slice)} (h : Chain crc contents q xs q')
    (h' : Chain crc contents q' ys q'') : Chain crc contents q (xs ++ ys) q'' := by
  induction h with
  | nil q => exact h'
  | cons head tail ih => exact .cons head (ih h')

lemma fragmentType_ne_zero (begin last : Bool) : fragmentType begin last ≠ .zero := by
  cases begin <;> cases last <;> decide

lemma fragmentType_ne_eof (begin last : Bool) : (fragmentType begin last).toNat ≠ kEof := by
  cases begin <;> cases last <;> decide

lemma replay_holds {begin last : Bool} (h : Holds crc contents (start q) (fragmentType begin last) data) :
    replay crc contents q pending = (fragmentStep pending (fragmentType begin last).toNat data).1 ++
    replay crc contents (start q + kHeaderSize + data.length)
    (fragmentStep pending (fragmentType begin last).toNat data).2 :=
  replay_record (physicalAt_of_holds (fragmentType_ne_zero begin last) h) (fragmentType_ne_eof begin last)

lemma fragmentStep_first (data : Slice) : fragmentStep none (fragmentType true false).toNat data = ([], some data) := rfl

lemma fragmentStep_middle (scratch data : Slice) :
    fragmentStep (some scratch) (fragmentType false false).toNat data = ([], some (scratch ++ data)) := rfl

lemma fragmentStep_last (scratch data : Slice) :
    fragmentStep (some scratch) (fragmentType false true).toNat data = ([some (scratch ++ data)], none) := rfl

section

variable (h : Chain crc contents q xs q')
include h

lemma replay_rest {left : Slice} (hf : Fragmented false left xs) (scratch : Slice) :
    replay crc contents q (some scratch) = some (scratch ++ left) :: replay crc contents q' none := by
  generalize hbegin : false = begin at hf
  induction hf generalizing q scratch with
  | last begin data =>
    subst hbegin
    cases h with
    | cons head tail =>
      cases tail
      rw [replay_holds head, fragmentStep_last, singleton_append]
  | @more begin data left xs rest ih =>
    subst hbegin
    cases h with
    | cons head tail =>
      rw [replay_holds head, fragmentStep_middle, nil_append, ← append_assoc]
      exact ih tail (scratch ++ data) rfl

lemma replay_whole {record : Slice} (hf : Fragmented true record xs)
    (pending : Option Slice) : replay crc contents q pending =
    (if pending.getD [] = [] then [] else [none]) ++ some record :: replay crc contents q' none := by
  cases hf with
  | last _ _ =>
    cases h with
    | cons head tail =>
      cases tail
      rw [replay_holds head]
      show _ ++ [some record] ++ _ = _
      rw [append_assoc]
      rfl
  | more rest =>
    cases h with
    | cons head tail =>
      rw [replay_holds head]
      show _ ++ replay crc contents _ (some _) = _
      rw [replay_rest tail rest]
      rfl

lemma replay_torn {begin : Bool} {left : Slice} (hf : Fragmented begin left xs)
    (hp : List.IsPrefix p contents) (hlt : p.length < q')
    (hpending : pending.isSome = !begin) : replay crc p q pending = [] := by
  induction hf generalizing q pending with
  | last begin data =>
    cases h with
    | cons head tail =>
      cases tail
      exact replay_eof (physicalAt_of_torn head hp hlt)
  | @more begin data left xs rest ih =>
    cases h with
    | cons head tail =>
      by_cases htorn : p.length < start q + kHeaderSize + data.length
      · exact replay_eof (physicalAt_of_torn head hp htorn)
      · have head' := head.of_le hp (not_lt.1 htorn)
        cases begin with
        | true =>
          obtain rfl : pending = none := by simpa using hpending
          rw [replay_holds head', fragmentStep_first, nil_append]
          exact ih tail rfl
        | false =>
          obtain ⟨scratch, rfl⟩ := Option.isSome_iff_exists.1 hpending
          rw [replay_holds head', fragmentStep_middle, nil_append]
          exact ih tail rfl

end

inductive Spread (crc : Crc32c) (contents : Slice) : Nat → Bool → Slice → Nat → Prop where
  | last {q : Nat} {begin : Bool} {data : Slice} (head : Holds crc contents (start q) (Writer.fragmentType begin true) data) :
      Spread crc contents q begin data (start q + kHeaderSize + data.length)
  | more {q q' : Nat} {begin : Bool} {data left : Slice}
      (head : Holds crc contents (start q) (Writer.fragmentType begin false) data)
      (full : start q + kHeaderSize + data.length = blockEnd (start q))
      (rest : Spread crc contents (blockEnd (start q)) false left q') : Spread crc contents q begin (data ++ left) q'

variable {begin : Bool} {left : Slice}

lemma Spread.mono (h : Spread crc contents q begin left q') (hle : contents <+: contents') :
    Spread crc contents' q begin left q' := by
  induction h with
  | last head => exact .last (head.mono hle)
  | more head full rest ih => exact .more (head.mono hle) full ih

lemma Spread.exists_chain (h : Spread crc contents q begin left q') :
    ∃ xs, Chain crc contents q xs q' ∧ Fragmented begin left xs := by
  induction h with
  | last head => exact ⟨_, .cons head (.nil _), .last _ _⟩
  | more head full rest ih =>
    obtain ⟨xs, hchain, hfragments⟩ := ih
    rw [← full] at hchain
    exact ⟨_, .cons head hchain, .more hfragments⟩

/-! ## Records -/

inductive Records (crc : Crc32c) (contents : Slice) : Nat → List (Slice × Nat) → Nat → Prop where
  | nil (q : Nat) : Records crc contents q [] q
  | cons {q q' q'' : Nat} {record : Slice} {xs : List (RecordType × Slice)} {rs : List (Slice × Nat)}
      (chain : Chain crc contents q xs q') (fragments : Fragmented true record xs)
      (tail : Records crc contents q' rs q'') : Records crc contents q ((record, q') :: rs) q''

variable {rs : List (Slice × Nat)}

lemma Records.mono (h : Records crc contents q rs q') (hle : contents <+: contents') : Records crc contents' q rs q' := by
  induction h with
  | nil q => exact .nil q
  | cons chain fragments tail ih => exact .cons (chain.mono hle) fragments ih

lemma Records.append {rs' : List (Slice × Nat)} (h : Records crc contents q rs q')
    (h' : Records crc contents q' rs' q'') : Records crc contents q (rs ++ rs') q'' := by
  induction h with
  | nil q => exact h'
  | cons chain fragments tail ih => exact .cons chain fragments (ih h')

lemma Records.le (h : Records crc contents q rs q') : q ≤ q' := by
  induction h with
  | nil q => exact le_rfl
  | cons chain fragments tail ih => exact chain.le.trans ih

lemma Records.le_of_mem (h : Records crc contents q rs q') {r : Slice × Nat} (hr : r ∈ rs) : q ≤ r.2 := by
  induction h with
  | nil q => cases hr
  | cons chain fragments tail ih =>
    cases hr with
    | head => exact chain.le
    | tail _ hr => exact chain.le.trans (ih hr)

def completeIn (rs : List (Slice × Nat)) (n : Nat) : List Slice := (rs.filter (·.2 ≤ n)).map (·.1)

section

variable (h : Records crc contents q rs q')
include h

lemma Records.mem_le {r : Slice × Nat} (hr : r ∈ rs) : r.2 ≤ q' := by
  induction h with
  | nil q => cases hr
  | cons chain fragments tail ih =>
    cases hr with
    | head => exact tail.le
    | tail _ hr => exact ih hr

lemma Records.completeIn_of_le (hle : q' ≤ n) : completeIn rs n = rs.map (·.1) := by
  have hall : rs.filter (·.2 ≤ n) = rs := filter_eq_self.2 fun r hr => decide_eq_true ((h.mem_le hr).trans hle)
  rw [completeIn, hall]

lemma Records.completeIn_of_lt (hlt : n < q) (record : Slice) : completeIn ((record, q) :: rs) n = [] := by
  simp only [completeIn, map_eq_nil_iff, filter_eq_nil_iff, decide_eq_true_eq]
  intro r hr
  cases hr with
  | head => exact not_le.2 hlt
  | tail _ hr => exact not_le.2 (hlt.trans_le (h.le_of_mem hr))

end

lemma Chain.of_le (h : Chain crc contents q xs q') (hp : List.IsPrefix p contents)
    (hle : q' ≤ p.length) : Chain crc p q xs q' := by
  induction h with
  | nil q => exact .nil q
  | cons head tail ih => exact .cons (head.of_le hp (tail.le.trans hle)) (ih hle)

lemma replay_records (h : Records crc contents q rs q') (hp : List.IsPrefix p contents) : replay crc p q none =
    (completeIn rs p.length).map some ++ if q' ≤ p.length then replay crc p q' none else [] := by
  induction h with
  | nil q =>
    split_ifs with hle
    · rfl
    · exact replay_of_length_le (not_le.1 hle).le
  | @cons q q' q'' record xs rs chain fragments tail ih =>
    by_cases hle : q' ≤ p.length
    · have hwhole := replay_whole (chain.of_le hp hle) fragments none
      rw [hwhole, ih]
      simp [completeIn, hle]
    · have htorn : replay crc p q none = [] := replay_torn chain fragments hp (not_le.1 hle) rfl
      rw [htorn, tail.completeIn_of_lt (not_le.1 hle), if_neg (fun hno => hle (tail.le.trans hno))]
      rfl

end RallyDB.Db.Log
