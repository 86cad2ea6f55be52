import RallyDB.Db.Lemmas.LogLayout
import RallyDB.Db.Lemmas.LogReader

/-!
# A reader that starts at an offset
-/

namespace RallyDB.Db.Log

open Util Table List RecordType

lemma sub64_of_le {a b : Nat} (h : b ≤ a) (ha : a < 2 ^ 64) : sub64 a b = a - b := by
  unfold sub64
  rw [Nat.mod_eq_of_lt (h.trans_lt ha)]
  omega

namespace Reader

variable {crc : Crc32c} {contents : Slice} {r r' : Reader} {q i : Nat} {t : RecordType} {data : Slice}

def base (r : Reader) : Reader := { r with initialOffset := 0, resyncing := false }

structure Offset (r : Reader) (contents : Slice) (i q : Nat) : Prop where
  base : r.base.At contents q
  initialOffset : r.initialOffset = i
  length_lt : contents.length < 2 ^ 64

lemma Offset.position (h : r.Offset contents i q) : sub64 r.endOfBufferOffset r.buffer.length = q := by
  have hlength : r.buffer.length = r.endOfBufferOffset - q := h.base.length_buffer
  have hle : q ≤ r.endOfBufferOffset := h.base.le
  have hle' : r.endOfBufferOffset ≤ contents.length := h.base.le_length
  have hlt := h.length_lt
  rw [sub64_of_le (by omega) (by omega)]
  omega

lemma Offset.lt (h : r.Offset contents i q) : q < 2 ^ 64 :=
  lt_of_le_of_lt (h.base.le.trans h.base.le_length) h.length_lt

lemma Offset.physicalRecordOffset {s : Nat} (h : r.Offset contents i (s + kHeaderSize + data.length)) :
    r.physicalRecordOffset data.length = s := by
  have hlt := h.lt
  unfold Reader.physicalRecordOffset
  rw [h.position, sub64_of_le (by omega) hlt, sub64_of_le (by omega) (by omega)]
  omega

lemma Offset.advance (h : r.Offset contents i q) {n : Nat} (hn : n ≤ r.buffer.length) :
    ({ r with buffer := r.buffer.drop n } : Reader).Offset contents i (q + n) :=
  ⟨h.base.advance hn, h.initialOffset, h.length_lt⟩

lemma Offset.filled (h : r.Offset contents i q) (hlen : r.buffer.length < kHeaderSize) (heof : r.eof = false) :
    r.filled.Offset contents i (start q) := ⟨h.base.filled hlen heof, h.initialOffset, h.length_lt⟩

def read (i s : Nat) (t : RecordType) (data : Slice) : Nat × Slice := if s < i then (kBadRecord, []) else (t.toNat, data)

lemma Offset.parseRecord (h : r.Offset contents i q) (ht : t ≠ .zero) (hholds : Holds crc contents q t data)
    (hlen : kHeaderSize ≤ r.buffer.length) :
    ∃ r', r'.Offset contents i (q + kHeaderSize + data.length) ∧ r'.reports = r.reports ∧ r'.resyncing = r.resyncing ∧
    r.parseRecord crc = (r', read i q t data) := by
  have hpos : 0 < r.buffer.length := lt_of_lt_of_le (by decide) hlen
  have hlimit : r.endOfBufferOffset = min (blockEnd q) contents.length := h.base.limit_eq hpos
  have hbuffer : r.buffer = (contents.drop q).take (r.endOfBufferOffset - q) := h.base.buffer
  have hfits := hholds.fits
  have hle := hholds.le_length
  obtain ⟨rest, hrest⟩ : ∃ rest, r.buffer = image crc t data ++ rest := by
    obtain ⟨rest, hrest⟩ := hholds.image
    rw [hbuffer, ← hrest, take_append, take_of_length_le (by rw [length_image]; omega)]
    exact ⟨_, rfl⟩
  have hlength : lengthOfHeader r.buffer = data.length := by
    rw [hrest, image, append_assoc]
    exact lengthOfHeader_header crc t hholds.length_lt _
  have htype : typeOfByte ((r.buffer.drop 6).headD 0) = t.toNat := by
    rw [hrest, image, append_assoc]
    exact typeOfByte_header crc t _
  have hzero : ¬ (t.toNat = zero.toNat ∧ data.length = 0) := fun hz => by
    cases t <;> simp_all [RecordType.toNat]
  have hok : checksumOk crc r.buffer data.length = true := by
    rw [hrest]
    exact checksumOk_image crc t rest
  have henough : kHeaderSize + data.length ≤ r.buffer.length := by
    rw [hrest, length_append, length_image]
    omega
  have hfragment : (r.buffer.drop kHeaderSize).take data.length = data := by
    rw [hrest, image, append_assoc, drop_append_of_le_length (by simp), ← length_header crc t data,
      drop_length, nil_append, take_left']
    rfl
  have hnext := h.advance henough
  rw [← add_assoc] at hnext
  refine ⟨_, hnext, rfl, rfl, ?_⟩
  unfold Reader.parseRecord
  dsimp only
  rw [hlength, htype, if_neg (not_lt.2 henough), if_neg hzero, hok, Bool.not_true, Bool.and_false,
    if_neg Bool.false_ne_true, hfragment, hnext.physicalRecordOffset, h.initialOffset]
  unfold read
  split_ifs <;> rfl

lemma Offset.readPhysicalRecord (h : r.Offset contents i q) (ht : t ≠ .zero) (hholds : Holds crc contents (start q) t data) :
    ∃ r', r'.Offset contents i (start q + kHeaderSize + data.length) ∧ r'.reports = r.reports ∧
    r'.resyncing = r.resyncing ∧ r.readPhysicalRecord crc = (r', read i (start q) t data) := by
  by_cases hlen : r.buffer.length < kHeaderSize
  · cases heof : r.eof with
    | true =>
      -- the file does not end before the record
      have hlength : r.buffer.length = r.endOfBufferOffset - q := h.base.length_buffer
      have hE : r.endOfBufferOffset = contents.length := (h.base.short heof).1
      have hle := hholds.le_length
      have hq := le_start q
      omega
    | false =>
      have hnext := h.filled hlen heof
      have hlength : r.filled.buffer.length = r.filled.endOfBufferOffset - start q := hnext.base.length_buffer
      have henough : kHeaderSize ≤ r.filled.buffer.length := by
        by_contra hshort
        have hE : r.filled.endOfBufferOffset = contents.length :=
          (hnext.base.short (decide_eq_true ((not_le.1 hshort).trans (by decide)))).1
        have hle := hholds.le_length
        omega
      have hsound : r.file.faults = [] := h.base.sound
      rw [readPhysicalRecord_eq_filled hsound hlen heof, if_neg (not_lt.2 henough)]
      exact hnext.parseRecord ht hholds henough
  · have hstart := h.base.start_eq (not_lt.1 hlen)
    rw [readPhysicalRecord_eq_parseRecord (not_lt.1 hlen)]
    rw [hstart] at hholds ⊢
    exact h.parseRecord ht hholds (not_lt.1 hlen)

lemma readPhysicalRecord_exhausted (hsound : r.file.faults = []) (hbuffer : r.buffer = []) (hfile : r.file.remaining = []) :
    (r.readPhysicalRecord crc).2.1 = kEof ∧ (r.readPhysicalRecord crc).1.reports = r.reports := by
  have hlen : r.buffer.length < kHeaderSize := by
    rw [hbuffer]
    decide
  cases heof : r.eof with
  | true =>
    rw [readPhysicalRecord_of_eof hlen heof]
    exact ⟨rfl, rfl⟩
  | false =>
    have hshort : r.filled.buffer.length < kHeaderSize := by
      show (r.file.remaining.take kBlockSize).length < kHeaderSize
      rw [hfile]
      decide
    rw [readPhysicalRecord_eq_filled hsound hlen heof, if_pos hshort]
    exact ⟨rfl, rfl⟩

/-! ## Turns of the loop -/

lemma readLoop_of_eof (s : Scan) (h : (r.readPhysicalRecord crc).2.1 = kEof) :
    (r.readLoop crc s).2 = none ∧ (r.readLoop crc s).1.reports = (r.readPhysicalRecord crc).1.reports := by
  rw [readLoop, if_pos h]
  refine ⟨rfl, ?_⟩
  unfold resync
  split_ifs <;> rfl

variable {type q1 q2 : Nat}

lemma readLoop_of_read {fragment : Slice} (s : Scan)
    (hread : r.readPhysicalRecord crc = (r', type, fragment)) (heof : type ≠ kEof) :
    r.readLoop crc s =
      if (r'.resync type).2 then (r'.resync type).1.readLoop crc s
      else
        match (r'.resync type).1.turn s type fragment with
        | .done r'' record => (r'', record)
        | .next r'' s' => r''.readLoop crc s' := by
  rw [readLoop, hread, if_neg heof]
  split_ifs
  · rfl
  · split <;> simp_all

lemma resync_of_ne (hmiddle : type ≠ middle.toNat) (hlast : type ≠ last.toNat) :
    r.resync type = ({ r with resyncing := false }, false) := by
  obtain ⟨file, checksum, buffer, eof, last, endOffset, offset, resyncing, reports⟩ := r
  unfold resync
  cases resyncing with
  | true => rw [if_pos rfl, if_neg hmiddle, decide_eq_false hlast]
  | false => rfl

lemma resync_last (h : r.resyncing = true) : r.resync last.toNat = ({ r with resyncing := false }, true) := by
  unfold resync
  rw [h]
  rfl

lemma resync_middle (h : r.resyncing = true) : r.resync middle.toNat = (r, true) := by
  unfold resync
  rw [h]
  rfl

structure Reaches (contents : Slice) (i : Nat) (r r' : Reader) (q : Nat) : Prop where
  offset : r'.Offset contents i q
  resyncing : r'.resyncing = false
  reports : r'.reports = r.reports

lemma Offset.reaches (h : r'.Offset contents i q) (hreports : r'.reports = r.reports) :
    Reaches contents i r { r' with resyncing := false } q := ⟨⟨h.base, h.initialOffset, h.length_lt⟩, rfl, hreports⟩

lemma Reaches.lastRecordOffset (h : Reaches contents i r r' q) (n : Nat) :
    Reaches contents i r { r' with lastRecordOffset := n } q :=
  ⟨⟨{ h.offset.base with }, h.offset.initialOffset, h.offset.length_lt⟩, h.resyncing, h.reports⟩

section Turns

variable (h : r.Offset contents i q) (hholds : Holds crc contents (start q) t data)
include h hholds

variable {s : Scan}

lemma readLoop_before (ht : t ≠ .zero) (hlt : start q < i) (hs : s.inFragmentedRecord = false) :
    ∃ r', r.readLoop crc s = r'.readLoop crc s ∧ Reaches contents i r r' (start q + kHeaderSize + data.length) := by
  obtain ⟨r1, hoffset, hreports, hresyncing, hread⟩ := h.readPhysicalRecord ht hholds
  rw [read, if_pos hlt] at hread
  refine ⟨_, ?_, hoffset.reaches hreports⟩
  rw [readLoop_of_read s hread (by decide), resync_of_ne (by decide) (by decide), if_neg Bool.false_ne_true]
  simp [turn, hs, kBadRecord, kEof, kMaxRecordType, RecordType.toNat]

lemma readLoop_resync_middle (ht : t = .middle) (hle : i ≤ start q) (hr : r.resyncing = true) (s : Scan) :
    ∃ r' : Reader, r.readLoop crc s = r'.readLoop crc s ∧ r'.Offset contents i (start q + kHeaderSize + data.length) ∧
    r'.resyncing = true ∧ r'.reports = r.reports := by
  subst ht
  obtain ⟨r1, hoffset, hreports, hresyncing, hread⟩ := h.readPhysicalRecord (by decide) hholds
  rw [read, if_neg (not_lt.2 hle)] at hread
  refine ⟨r1, ?_, hoffset, hresyncing.trans hr, hreports⟩
  rw [readLoop_of_read s hread (by decide), resync_middle (hresyncing.trans hr), if_pos rfl]

lemma readLoop_resync_last (ht : t = .last) (hle : i ≤ start q) (hr : r.resyncing = true) (s : Scan) :
    ∃ r', r.readLoop crc s = r'.readLoop crc s ∧ Reaches contents i r r' (start q + kHeaderSize + data.length) := by
  subst ht
  obtain ⟨r1, hoffset, hreports, hresyncing, hread⟩ := h.readPhysicalRecord (by decide) hholds
  rw [read, if_neg (not_lt.2 hle)] at hread
  refine ⟨_, ?_, hoffset.reaches hreports⟩
  rw [readLoop_of_read s hread (by decide), resync_last (hresyncing.trans hr), if_pos rfl]

lemma readLoop_full (ht : t = .full) (hle : i ≤ start q) (hs : s.inFragmentedRecord = false) :
    ∃ r', r.readLoop crc s = (r', some data) ∧ r'.lastRecordOffset = start q ∧
    Reaches contents i r r' (start q + kHeaderSize + data.length) := by
  subst ht
  obtain ⟨r1, hoffset, hreports, hresyncing, hread⟩ := h.readPhysicalRecord (by decide) hholds
  rw [read, if_neg (not_lt.2 hle)] at hread
  have hreached := hoffset.reaches hreports
  refine ⟨_, ?_, ?_, hreached.lastRecordOffset (start q)⟩
  · rw [readLoop_of_read s hread (by decide), resync_of_ne (by decide) (by decide), if_neg Bool.false_ne_true]
    simp [turn, reportUnfinished, hs, hreached.offset.physicalRecordOffset]
  · rfl

lemma readLoop_first (ht : t = .first) (hle : i ≤ start q) (hs : s.inFragmentedRecord = false) :
    ∃ r', r.readLoop crc s = r'.readLoop crc ⟨true, data, start q⟩ ∧
    Reaches contents i r r' (start q + kHeaderSize + data.length) := by
  subst ht
  obtain ⟨r1, hoffset, hreports, hresyncing, hread⟩ := h.readPhysicalRecord (by decide) hholds
  rw [read, if_neg (not_lt.2 hle)] at hread
  have hreached := hoffset.reaches hreports
  refine ⟨_, ?_, hreached⟩
  rw [readLoop_of_read s hread (by decide), resync_of_ne (by decide) (by decide), if_neg Bool.false_ne_true]
  simp [turn, reportUnfinished, hs, hreached.offset.physicalRecordOffset, RecordType.toNat]

lemma readLoop_orphan (ht : t = .middle ∨ t = .last) (hle : i ≤ start q) (hr : r.resyncing = false)
    (hs : s.inFragmentedRecord = false) :
    ∃ r' : Reader, r.readLoop crc s = r'.readLoop crc s ∧ r'.Offset contents i (start q + kHeaderSize + data.length) ∧
    r'.resyncing = false ∧ ∃ report, r'.reports = report :: r.reports := by
  have hzero : t ≠ .zero := by
    rcases ht with rfl | rfl <;> decide
  obtain ⟨r1, hoffset, hreports, hresyncing, hread⟩ := h.readPhysicalRecord hzero hholds
  rw [read, if_neg (not_lt.2 hle)] at hread
  have hreported : ∀ reason, r1.reportCorruption data.length reason =
      { r1 with reports := (data.length, .corruption reason) :: r1.reports } := by
    intro reason
    have hlt := hoffset.lt
    unfold reportCorruption reportDrop
    rw [if_pos]
    rw [hoffset.position, hoffset.initialOffset, sub64_of_le (by omega) hlt]
    omega
  obtain ⟨reason, hloop⟩ : ∃ reason, r.readLoop crc s = (r1.reportCorruption data.length reason).readLoop crc s := by
    rcases ht with rfl | rfl
    · refine ⟨"missing start of fragmented record(1)", ?_⟩
      rw [readLoop_of_read s hread (by decide), resync_of_not (hresyncing.trans hr), if_neg Bool.false_ne_true, turn,
        if_neg (by decide), if_neg (by decide), if_pos rfl, hs, Bool.not_false, if_pos rfl]
    · refine ⟨"missing start of fragmented record(2)", ?_⟩
      rw [readLoop_of_read s hread (by decide), resync_of_not (hresyncing.trans hr), if_neg Bool.false_ne_true, turn,
        if_neg (by decide), if_neg (by decide), if_neg (by decide), if_pos rfl, hs, Bool.not_false, if_pos rfl]
  rw [hreported] at hloop
  exact ⟨_, hloop, ⟨{ hoffset.base with }, hoffset.initialOffset, hoffset.length_lt⟩, hresyncing.trans hr, _,
    congrArg (List.cons _) hreports⟩

lemma readLoop_middle (ht : t = .middle) (hle : i ≤ start q) (hr : r.resyncing = false) (scratch : Slice) (n : Nat) :
    ∃ r', r.readLoop crc ⟨true, scratch, n⟩ = r'.readLoop crc ⟨true, scratch ++ data, n⟩ ∧
    Reaches contents i r r' (start q + kHeaderSize + data.length) := by
  subst ht
  obtain ⟨r1, hoffset, hreports, hresyncing, hread⟩ := h.readPhysicalRecord (by decide) hholds
  rw [read, if_neg (not_lt.2 hle)] at hread
  refine ⟨r1, ?_, hoffset, hresyncing.trans hr, hreports⟩
  rw [readLoop_of_read _ hread (by decide), resync_of_not (hresyncing.trans hr), if_neg Bool.false_ne_true]
  rfl

lemma readLoop_last (ht : t = .last) (hle : i ≤ start q) (hr : r.resyncing = false) (scratch : Slice) (n : Nat) :
    ∃ r', r.readLoop crc ⟨true, scratch, n⟩ = (r', some (scratch ++ data)) ∧ r'.lastRecordOffset = n ∧
    Reaches contents i r r' (start q + kHeaderSize + data.length) := by
  subst ht
  obtain ⟨r1, hoffset, hreports, hresyncing, hread⟩ := h.readPhysicalRecord (by decide) hholds
  rw [read, if_neg (not_lt.2 hle)] at hread
  have hreached : Reaches contents i r r1 _ := ⟨hoffset, hresyncing.trans hr, hreports⟩
  refine ⟨_, ?_, rfl, hreached.lastRecordOffset n⟩
  rw [readLoop_of_read _ hread (by decide), resync_of_not (hresyncing.trans hr), if_neg Bool.false_ne_true]
  rfl

end Turns

/-! ## Records -/

lemma Reaches.trans {r1 r2 : Reader} (h : Reaches contents i r r1 q1) (h' : Reaches contents i r1 r2 q2) :
    Reaches contents i r r2 q2 := ⟨h'.offset, h'.resyncing, h'.reports.trans h.reports⟩

variable {left record : Slice} {q' : Nat}

variable {begin : Bool}

lemma le_next (hle : i ≤ start q) : i ≤ start (blockEnd (start q)) := hle.trans ((lt_blockEnd _).le.trans (le_start _))

lemma readLoop_rest (h : r.Offset contents i q) (hspread : Spread crc contents q begin left q')
    (hbegin : begin = false) (hle : i ≤ start q) (hr : r.resyncing = false) (scratch : Slice) (n : Nat) :
    ∃ r', r.readLoop crc ⟨true, scratch, n⟩ = (r', some (scratch ++ left)) ∧ r'.lastRecordOffset = n ∧
    Reaches contents i r r' q' := by
  induction hspread generalizing r scratch with
  | last head =>
    subst hbegin
    exact readLoop_last h head rfl hle hr scratch n
  | @more q q' begin data left head full rest ih =>
    subst hbegin
    obtain ⟨r1, hloop, hreached⟩ := readLoop_middle h head rfl hle hr scratch n
    rw [full] at hreached
    obtain ⟨r2, hloop2, hlast, hreached2⟩ := ih hreached.offset rfl (le_next hle) hreached.resyncing (scratch ++ data)
    rw [append_assoc] at hloop2
    exact ⟨r2, hloop.trans hloop2, hlast, hreached.trans hreached2⟩

lemma readLoop_record (h : r.Offset contents i q) (hspread : Spread crc contents q begin record q')
    (hbegin : begin = true) (hle : i ≤ start q) {s : Scan} (hs : s.inFragmentedRecord = false) :
    ∃ r', r.readLoop crc s = (r', some record) ∧ r'.lastRecordOffset = start q ∧ Reaches contents i r r' q' := by
  cases hspread with
  | last head =>
    subst hbegin
    exact readLoop_full h head rfl hle hs
  | @more q q' begin data left head full rest =>
    subst hbegin
    obtain ⟨r1, hloop, hreached⟩ := readLoop_first h head rfl hle hs
    rw [full] at hreached
    obtain ⟨r2, hloop2, hlast, hreached2⟩ :=
      readLoop_rest hreached.offset rest rfl (le_next hle) hreached.resyncing data (start q)
    exact ⟨r2, hloop.trans hloop2, hlast, hreached.trans hreached2⟩

lemma readLoop_resync (h : r.Offset contents i q) (hspread : Spread crc contents q begin left q')
    (hbegin : begin = false) (hle : i ≤ start q) (hr : r.resyncing = true) (s : Scan) :
    ∃ r', r.readLoop crc s = r'.readLoop crc s ∧ Reaches contents i r r' q' := by
  induction hspread generalizing r with
  | last head =>
    subst hbegin
    exact readLoop_resync_last h head rfl hle hr s
  | @more q q' begin data left head full rest ih =>
    subst hbegin
    obtain ⟨r1, hloop, hoffset, hresyncing, hreports⟩ := readLoop_resync_middle h head rfl hle hr s
    rw [full] at hoffset
    obtain ⟨r2, hloop2, hreached⟩ := ih hoffset rfl (le_next hle) hresyncing
    exact ⟨r2, hloop.trans hloop2, hreached.offset, hreached.resyncing, hreached.reports.trans hreports⟩

structure Skips (contents : Slice) (i : Nat) (r r' : Reader) (q : Nat) (P : Prop) : Prop where
  offset : r'.Offset contents i q
  resyncing : r'.resyncing = false
  reports : ∃ l, r'.reports = l ++ r.reports ∧ (l = [] ↔ P)

lemma Reaches.skips {P : Prop} (h : Reaches contents i r r' q) (hP : P) : Skips contents i r r' q P :=
  ⟨h.offset, h.resyncing, [], h.reports, iff_of_true rfl hP⟩

lemma Reaches.trans_skips {r1 r2 : Reader} {P : Prop} (h : Reaches contents i r r1 q1)
    (h' : Skips contents i r1 r2 q2 P) : Skips contents i r r2 q2 P := by
  obtain ⟨l, hl, hP⟩ := h'.reports
  exact ⟨h'.offset, h'.resyncing, l, by rw [hl, h.reports], hP⟩

lemma blockEnd_mono {a b : Nat} (h : a ≤ b) : blockEnd a ≤ blockEnd b := by
  unfold blockEnd kBlockSize
  omega

lemma readLoop_unbegun (h : r.Offset contents i q) (hspread : Spread crc contents q begin left q')
    (hbegin : begin = false) (hq : q % kBlockSize = 0) (hi : i % kBlockSize ≠ 0) (hr : r.resyncing = false ∨ q < i)
    {s : Scan} (hs : s.inFragmentedRecord = false) :
    ∃ r', r.readLoop crc s = r'.readLoop crc s ∧ Skips contents i r r' q' (q' ≤ blockEnd i) := by
  induction hspread generalizing r with
  | @last q begin data head =>
    subst hbegin
    have hstart := start_of_boundary hq
    by_cases hlt : q < i
    · obtain ⟨r', hloop, hreached⟩ := readLoop_before h head (by decide) (hstart.trans_lt hlt) hs
      refine ⟨r', hloop, hreached.skips (head.fits.trans ?_)⟩
      rw [hstart]
      exact blockEnd_mono hlt.le
    · obtain ⟨r', hloop, hoffset, hresyncing, report, hreports⟩ :=
        readLoop_orphan h head (.inr rfl) (hstart.symm ▸ not_lt.1 hlt) (hr.resolve_right hlt) hs
      have hne : i ≠ q := fun hiq => hi (hiq ▸ hq)
      have hbehind := blockEnd_le_boundary hq (lt_of_le_of_ne (not_lt.1 hlt) hne)
      have hH : kHeaderSize = 7 := rfl
      refine ⟨r', hloop, hoffset, hresyncing, [report], hreports, ?_⟩
      exact iff_of_false (cons_ne_nil _ _) (by omega)
  | @more q q' begin data left head full rest ih =>
    subst hbegin
    have hstart := start_of_boundary hq
    have hnext := blockEnd_mod (start q)
    by_cases hlt : q < i
    · obtain ⟨r1, hloop, hreached⟩ := readLoop_before h head (by decide) (hstart.trans_lt hlt) hs
      rw [full] at hreached
      obtain ⟨r2, hloop2, hskips⟩ := ih hreached.offset rfl hnext (.inl hreached.resyncing)
      exact ⟨r2, hloop.trans hloop2, hreached.trans_skips hskips⟩
    · obtain ⟨r1, hloop, hoffset, hresyncing, report, hreports⟩ :=
        readLoop_orphan h head (.inl rfl) (hstart.symm ▸ not_lt.1 hlt) (hr.resolve_right hlt) hs
      rw [full] at hoffset
      obtain ⟨r2, hloop2, hskips⟩ := ih hoffset rfl hnext (.inl hresyncing)
      obtain ⟨l, hl, -⟩ := hskips.reports
      have hne : i ≠ q := fun hiq => hi (hiq ▸ hq)
      have hbehind := blockEnd_le_boundary hq (lt_of_le_of_ne (not_lt.1 hlt) hne)
      have hlt_end := lt_blockEnd (start q)
      obtain ⟨xs, hchain, -⟩ := rest.exists_chain
      have hle := hchain.le
      refine ⟨r2, hloop.trans hloop2, hskips.offset, hskips.resyncing, l ++ [report], ?_, ?_⟩
      · rw [hl, hreports, append_assoc]
        rfl
      · exact iff_of_false (by simp) (by omega)

lemma readLoop_record_before (h : r.Offset contents i q)
    (hspread : Spread crc contents q begin record q') (hlt : start q < i) (hi : i % kBlockSize ≠ 0) {s : Scan}
    (hs : s.inFragmentedRecord = false) :
    ∃ r', r.readLoop crc s = r'.readLoop crc s ∧ Skips contents i r r' q' (q' ≤ blockEnd i) := by
  cases hspread with
  | last head =>
    obtain ⟨r', hloop, hreached⟩ := readLoop_before h head (fragmentType_ne_zero _ _) hlt hs
    exact ⟨r', hloop, hreached.skips (head.fits.trans (blockEnd_mono hlt.le))⟩
  | more head full rest =>
    obtain ⟨r1, hloop, hreached⟩ := readLoop_before h head (fragmentType_ne_zero _ _) hlt hs
    rw [full] at hreached
    obtain ⟨r2, hloop2, hskips⟩ :=
      readLoop_unbegun hreached.offset rest rfl (blockEnd_mod _) hi (.inl hreached.resyncing) hs
    exact ⟨r2, hloop.trans hloop2, hreached.trans_skips hskips⟩

end Reader

end RallyDB.Db.Log
