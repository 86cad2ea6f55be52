import RallyDB.Db.Lemmas.LogOffset
import RallyDB.Db.LogTheorems

/-!
# Reading a log from an offset
-/

namespace RallyDB.Db.Log

open Util Table List Writer

structure Span where
  record : Slice
  first : Nat
  stop : Nat

def spansOf (crc : Crc32c) (w : Writer) : List LogOp → List Span
  | [] => []
  | .addRecord record :: ops =>
    let w' := (w.addRecord crc record).1
    ⟨record, w.switchBlock.size, w'.size⟩ :: spansOf crc w' ops
  | .reopen :: ops => spansOf crc (Writer.reopen w.dest w.size) ops

def readFrom (crc : Crc32c) (contents : Slice) (initialOffset : Nat) : List Slice × List (Nat × Error) :=
  let r := (Reader.new ⟨contents, []⟩ true initialOffset).readAll crc
  (r.2, r.1.reports)

def Span.Straddles (x : Span) (i : Nat) : Prop := x.first < i ∧ blockEnd i < x.stop

instance (x : Span) (i : Nat) : Decidable (x.Straddles i) := inferInstanceAs (Decidable (_ ∧ _))

def CutsRecord (spans : List Span) (i : Nat) : Prop :=
  0 < i % kBlockSize ∧ i % kBlockSize ≤ kBlockSize - 6 ∧ ∃ x ∈ spans, x.Straddles i

variable {crc : Crc32c} {contents : Slice} {q q' i b : Nat} {spans : List Span} {r : Reader}

/-! ## Records in the file -/

inductive Spans (crc : Crc32c) (contents : Slice) : Nat → List Span → Nat → Prop where
  | nil (q : Nat) : Spans crc contents q [] q
  | cons {q q' q'' : Nat} {record : Slice} {spans : List Span} (head : Spread crc contents q true record q')
      (tail : Spans crc contents q' spans q'') : Spans crc contents q (⟨record, start q, q'⟩ :: spans) q''

lemma spans_writeLog {w : Writer} (hsound : w.dest.faults = []) (hsynced : w.Synced) (ops : List LogOp) :
    Spans crc (writeLog crc w ops).1.dest.contents w.size (spansOf crc w ops) (writeLog crc w ops).1.size := by
  induction ops generalizing w with
  | nil => exact .nil _
  | cons op ops ih =>
    cases op with
    | addRecord record =>
      have hpads := hsynced.pads_of_sound hsound
      obtain ⟨hok, hsound'⟩ := addFragments_of_sound crc true record hsound
      obtain ⟨hsynced', -, hspread⟩ := addFragments_spread hsynced hpads hok
      have htail := ih hsound' hsynced'
      have hhead := hspread.mono (@writeLog_isPrefix crc _ ops)
      unfold spansOf
      dsimp only
      rw [show w.switchBlock.size = start w.size from hpads]
      exact .cons hhead htail
    | reopen => exact ih hsound (synced_reopen _)

variable {begin : Bool} {record : Slice}

lemma Spread.start_lt (h : Spread crc contents q begin record q') : start q < q' := by
  have hH : kHeaderSize = 7 := rfl
  cases h with
  | last head => omega
  | more head full rest =>
    obtain ⟨xs, hchain, -⟩ := rest.exists_chain
    exact (lt_blockEnd _).trans_le hchain.le

lemma Spread.congr_start (h : Spread crc contents q begin record q')
    (hb : start b = start q) : Spread crc contents b begin record q' := by
  cases h with
  | last head =>
    rw [← hb] at head ⊢
    exact .last head
  | more head full rest =>
    rw [← hb] at head full rest
    exact .more head full rest

structure Span.Within (x : Span) (q q' : Nat) : Prop where
  le_first : start q ≤ x.first
  fits : x.first + kHeaderSize ≤ blockEnd x.first
  first_lt : x.first < x.stop
  stop_le : x.stop ≤ q'

lemma Spans.le (h : Spans crc contents q spans q') : q ≤ q' := by
  induction h with
  | nil q => exact le_rfl
  | @cons q q' q'' record spans head tail ih => exact ((le_start q).trans head.start_lt.le).trans ih

lemma Spans.within (h : Spans crc contents q spans q') {x : Span} (hx : x ∈ spans) : x.Within q q' := by
  induction h with
  | nil q => cases hx
  | @cons q q' q'' record spans head tail ih =>
    cases hx with
    | head => exact ⟨le_rfl, start_add_le q, head.start_lt, tail.le⟩
    | tail _ hx =>
      have hin := ih hx
      exact ⟨(head.start_lt.le.trans (le_start q')).trans hin.le_first, hin.fits, hin.first_lt, hin.stop_le⟩

lemma Spread.exists_inside (h : Spread crc contents q begin record q')
    (hb : b % kBlockSize = 0) (hlt : start q < b) (hlt' : b < q') : ∃ left, Spread crc contents b false left q' := by
  induction h with
  | last head =>
    have hfits := head.fits
    have hle := blockEnd_le_boundary hb hlt
    omega
  | @more q q' begin data left head full rest ih =>
    rcases eq_or_lt_of_le (blockEnd_le_boundary hb hlt) with heq | hnext
    · exact ⟨left, heq ▸ rest⟩
    · exact ih (by rw [start_of_boundary (blockEnd_mod _)]; exact hnext) hlt'

lemma Spans.exists_block (h : Spans crc contents q spans q') (hb : b % kBlockSize = 0) (hle : q ≤ b) (hle' : b ≤ q') :
    ∃ before behind, (∀ x ∈ before, x.first < b ∧ x.stop ≤ b) ∧
    ((spans = before ++ behind ∧ Spans crc contents b behind q') ∨
    ∃ x left, spans = before ++ x :: behind ∧ x.first < b ∧ Spread crc contents b false left x.stop ∧
    Spans crc contents x.stop behind q') := by
  induction h with
  | nil q =>
    refine ⟨[], [], (fun x hx => by cases hx), .inl ⟨rfl, ?_⟩⟩
    rw [le_antisymm hle' hle]
    exact .nil q
  | @cons q q' q'' record spans head tail ih =>
    by_cases hstart : start q = b
    · refine ⟨[], _, (fun x hx => by cases hx), .inl ⟨rfl, ?_⟩⟩
      have hb' : start b = start q := by rw [start_of_boundary hb, hstart]
      rw [← hb']
      exact .cons (head.congr_start hb') tail
    · have hlt : start q < b := lt_of_le_of_ne (start_le_boundary hb hle) hstart
      by_cases hend : q' ≤ b
      · obtain ⟨before, behind, hbefore, hcases⟩ := ih hend hle'
        refine ⟨⟨record, start q, q'⟩ :: before, behind, ?_, ?_⟩
        · intro x hx
          cases hx with
          | head => exact ⟨hlt, hend⟩
          | tail _ hx => exact hbefore x hx
        · rcases hcases with ⟨rfl, hbehind⟩ | ⟨x, left, rfl, hx⟩
          · exact .inl ⟨rfl, hbehind⟩
          · exact .inr ⟨x, left, rfl, hx⟩
      · obtain ⟨left, hinside⟩ := head.exists_inside hb hlt (not_le.1 hend)
        exact ⟨[], spans, (fun x hx => by cases hx), .inr ⟨_, left, rfl, hlt, hinside, tail⟩⟩

/-! ## Reading on -/

namespace Reader

def readOn (crc : Crc32c) (p : Reader × Option Slice) : Reader × List Slice :=
  match p.2 with
  | none => (p.1, [])
  | some record => ((p.1.readAll crc).1, record :: (p.1.readAll crc).2)

lemma readAll_eq_readOn (r : Reader) : r.readAll crc = readOn crc (r.readRecord crc) := by
  rw [readAll]
  unfold readOn
  split
  · rename_i hread
    rw [hread]
  · rename_i hread
    rw [hread]

lemma Offset.readLoop_end (crc : Crc32c) (h : r.Offset contents i contents.length) (s : Scan) :
    (r.readLoop crc s).2 = none ∧ (r.readLoop crc s).1.reports = r.reports := by
  have hlength : r.buffer.length = r.endOfBufferOffset - contents.length := h.base.length_buffer
  have hle : contents.length ≤ r.endOfBufferOffset := h.base.le
  have hle' : r.endOfBufferOffset ≤ contents.length := h.base.le_length
  have hfile : r.file.remaining = contents.drop r.endOfBufferOffset := h.base.remaining
  have hbuffer : r.buffer = [] := eq_nil_of_length_eq_zero (by omega)
  rw [drop_eq_nil_of_le hle] at hfile
  have hsound : r.file.faults = [] := h.base.sound
  obtain ⟨heof, hreports⟩ := @readPhysicalRecord_exhausted crc r hsound hbuffer hfile
  obtain ⟨hnone, hloop⟩ := readLoop_of_eof s heof
  exact ⟨hnone, hloop.trans hreports⟩

lemma readAll_behind (h : Spans crc contents q spans q') (hend : q' = contents.length) (hr : r.Offset contents i q)
    (hresyncing : r.resyncing = false) (hle : i ≤ start q) (hlast : i ≤ r.lastRecordOffset) :
    (r.readAll crc).2 = spans.map (·.record) ∧ (r.readAll crc).1.reports = r.reports := by
  have hread : ∀ r : Reader, r.initialOffset = i → i ≤ r.lastRecordOffset →
      r.readRecord crc = r.readLoop crc ⟨false, [], 0⟩ := by
    intro r hi hlast
    unfold readRecord
    dsimp only
    rw [hi, if_neg (not_lt.2 hlast), if_pos rfl]
  induction h generalizing r with
  | nil q =>
    subst hend
    obtain ⟨hnone, hreports⟩ := hr.readLoop_end crc ⟨false, [], 0⟩
    rw [readAll_eq_readOn, hread r hr.initialOffset hlast, readOn, hnone]
    exact ⟨rfl, hreports⟩
  | @cons q q' q'' record spans head tail ih =>
    obtain ⟨r', hloop, hlast', hreached⟩ := readLoop_record hr head rfl hle (s := ⟨false, [], 0⟩) rfl
    have hle' : i ≤ start q' := (hle.trans head.start_lt.le).trans (le_start q')
    obtain ⟨hrecords, hreports⟩ := ih hend hreached.offset hreached.resyncing hle' (hlast'.symm ▸ hle)
    rw [readAll_eq_readOn, hread r hr.initialOffset hlast, hloop]
    exact ⟨congrArg (record :: ·) hrecords, hreports.trans hreached.reports⟩

structure Reads (crc : Crc32c) (contents : Slice) (i : Nat) (r : Reader) (spans : List Span) : Prop where
  records : (readOn crc (r.readLoop crc ⟨false, [], 0⟩)).2 = (spans.filter (i ≤ ·.first)).map (·.record)
  reports : ∃ l, (readOn crc (r.readLoop crc ⟨false, [], 0⟩)).1.reports = l ++ r.reports ∧
    (l = [] ↔ ∀ x ∈ spans, ¬ x.Straddles i)

lemma reads_end (h : r.Offset contents i contents.length) : Reads crc contents i r [] := by
  obtain ⟨hdone, hreports⟩ := h.readLoop_end crc ⟨false, [], 0⟩
  constructor
  · rw [readOn, hdone]
    rfl
  · rw [readOn, hdone]
    exact ⟨[], hreports, iff_of_true rfl fun x hx => by cases hx⟩

lemma filter_eq_self_of_within (h : Spans crc contents q spans q') (hle : i ≤ start q) :
    spans.filter (i ≤ ·.first) = spans :=
  filter_eq_self.2 fun _ hx => decide_eq_true (hle.trans (h.within hx).le_first)

lemma not_straddles_of_le {x : Span} (h : i ≤ x.first) : ¬ x.Straddles i := fun hx => absurd hx.1 (not_lt.2 h)

lemma reads_behind (h : Spans crc contents q spans q') (hend : q' = contents.length) (hr : r.Offset contents i q)
    (hle : i ≤ start q) : Reads crc contents i r spans := by
  have hnone : ∀ x ∈ spans, ¬ x.Straddles i := fun x hx => not_straddles_of_le (hle.trans (h.within hx).le_first)
  have hall := filter_eq_self_of_within h hle
  cases h with
  | nil =>
    subst hend
    exact reads_end hr
  | @cons q q' q'' record spans head tail =>
    obtain ⟨r', hloop, hlast, hreached⟩ := readLoop_record hr head rfl hle (s := ⟨false, [], 0⟩) rfl
    have hle' : i ≤ start q' := (hle.trans head.start_lt.le).trans (le_start q')
    obtain ⟨hrecords, hreports⟩ :=
      readAll_behind tail hend hreached.offset hreached.resyncing hle' (hlast.symm ▸ hle)
    constructor
    · rw [hall, hloop]
      exact congrArg (record :: ·) hrecords
    · rw [hloop]
      exact ⟨[], hreports.trans hreached.reports, iff_of_true rfl hnone⟩

lemma Reads.of_skips {r' : Reader} {x : Span} (h : Reads crc contents i r' spans)
    (hloop : r.readLoop crc ⟨false, [], 0⟩ = r'.readLoop crc ⟨false, [], 0⟩) (hlt : x.first < i)
    (hskips : ∃ l, r'.reports = l ++ r.reports ∧ (l = [] ↔ ¬ x.Straddles i)) : Reads crc contents i r (x :: spans) := by
  obtain ⟨l, hl, hnone⟩ := h.reports
  obtain ⟨l0, hl0, hnone0⟩ := hskips
  constructor
  · rw [hloop, filter_cons_of_neg (by simpa using hlt)]
    exact h.records
  · refine ⟨l ++ l0, ?_, ?_⟩
    · rw [hloop, hl, hl0, append_assoc]
    · rw [append_eq_nil_iff, hnone, hnone0, forall_mem_cons]
      exact and_comm

lemma Skips.straddles {r' : Reader} {x : Span} (h : Skips contents i r r' q (x.stop ≤ blockEnd i)) (hlt : x.first < i) :
    ∃ l, r'.reports = l ++ r.reports ∧ (l = [] ↔ ¬ x.Straddles i) := by
  obtain ⟨l, hl, hnone⟩ := h.reports
  refine ⟨l, hl, hnone.trans ?_⟩
  rw [Span.Straddles, not_and, not_lt]
  exact ⟨fun hle _ => hle, fun himp => himp hlt⟩

lemma reads_of_spans (h : Spans crc contents q spans q') (hend : q' = contents.length) (hr : r.Offset contents i q)
    (hi : i % kBlockSize ≠ 0) : Reads crc contents i r spans := by
  induction h generalizing r with
  | nil q =>
    subst hend
    exact reads_end hr
  | @cons q q' q'' record spans head tail ih =>
    by_cases hle : i ≤ start q
    · exact reads_behind (.cons head tail) hend hr hle
    · obtain ⟨r', hloop, hskips⟩ := readLoop_record_before hr head (not_le.1 hle) hi (s := ⟨false, [], 0⟩) rfl
      exact (ih hend hskips.offset).of_skips (x := ⟨record, start q, q'⟩) hloop (not_le.1 hle)
        (Skips.straddles (x := ⟨record, start q, q'⟩) hskips (not_le.1 hle))

/-! ## The initial block -/

def blockStart (i : Nat) : Nat :=
  if kBlockSize - 6 < i % kBlockSize then i - i % kBlockSize + kBlockSize else i - i % kBlockSize

lemma blockStart_mod (i : Nat) : blockStart i % kBlockSize = 0 := by
  unfold blockStart kBlockSize
  split_ifs <;> omega

lemma blockStart_le (i : Nat) : blockStart i ≤ blockEnd i := by
  unfold blockStart blockEnd kBlockSize
  split_ifs <;> omega

lemma blockStart_lt_iff (i : Nat) : blockStart i < i ↔ 0 < i % kBlockSize ∧ i % kBlockSize ≤ kBlockSize - 6 := by
  unfold blockStart kBlockSize
  split_ifs <;> omega

lemma lt_of_lt_blockStart {s : Nat} (hfits : s + kHeaderSize ≤ blockEnd s) (hlt : s < blockStart i) : s < i := by
  have hle := blockEnd_le_boundary (blockStart_mod i) hlt
  unfold blockStart at *
  unfold kBlockSize kHeaderSize at *
  split_ifs at * <;> omega

def atBlock (contents : Slice) (i b : Nat) : Reader :=
  { Reader.new ⟨contents.drop b, []⟩ true i with endOfBufferOffset := b }

lemma readRecord_new (hpos : 0 < i) :
    (Reader.new ⟨contents, []⟩ true i).readRecord crc = (atBlock contents i (blockStart i)).readLoop crc ⟨false, [], 0⟩ := by
  have hskip : (Reader.new ⟨contents, []⟩ true i).skipToInitialBlock = (atBlock contents i (blockStart i), true) := by
    unfold skipToInitialBlock
    by_cases hb : 0 < blockStart i
    · exact if_pos hb
    · have hzero := Nat.eq_zero_of_not_pos hb
      refine (if_neg hb).trans ?_
      rw [hzero]
      exact congrArg (fun b => (({ Reader.new ⟨contents, []⟩ true i with endOfBufferOffset := b } : Reader), true)) hzero
  unfold readRecord
  dsimp only
  rw [if_pos (show (Reader.new ⟨contents, []⟩ true i).lastRecordOffset < (Reader.new ⟨contents, []⟩ true i).initialOffset
    from hpos), hskip, if_pos rfl]

lemma atBlock_offset (hlength : contents.length < 2 ^ 64) (hb : b % kBlockSize = 0) (hle : b ≤ contents.length) :
    (atBlock contents i b).Offset contents i b where
  base := {
    sound := rfl
    checksum := rfl
    initialOffset := rfl
    resyncing := rfl
    le := le_rfl
    le_length := hle
    le_blockEnd := (lt_blockEnd b).le
    buffer := by
      show [] = (contents.drop b).take (b - b)
      rw [Nat.sub_self, take_zero]
    remaining := rfl
    whole := fun _ => hb
    short := fun h => by cases h }
  initialOffset := rfl
  length_lt := hlength

lemma atBlock_end (crc : Crc32c) (i : Nat) (hle : contents.length ≤ b) :
    readOn crc ((atBlock contents i b).readLoop crc ⟨false, [], 0⟩) =
    (((atBlock contents i b).readLoop crc ⟨false, [], 0⟩).1, []) ∧
    ((atBlock contents i b).readLoop crc ⟨false, [], 0⟩).1.reports = [] := by
  obtain ⟨heof, hreports⟩ := @readPhysicalRecord_exhausted crc (atBlock contents i b) rfl rfl (drop_eq_nil_of_le hle)
  obtain ⟨hnone, hloop⟩ := readLoop_of_eof ⟨false, [], 0⟩ heof
  rw [readOn, hnone]
  exact ⟨rfl, hloop.trans hreports⟩

end Reader

open Reader

lemma cutsRecord_iff : CutsRecord spans i ↔ blockStart i < i ∧ ∃ x ∈ spans, x.Straddles i := by
  rw [blockStart_lt_iff, CutsRecord, and_assoc]

lemma filter_before {before rest : List Span} (h : ∀ x ∈ before, x.first < i) :
    (before ++ rest).filter (i ≤ ·.first) = rest.filter (i ≤ ·.first) := by
  rw [filter_append, filter_eq_nil_iff.2, nil_append]
  intro x hx
  simpa using h x hx

lemma readOn_atBlock (h : Spans crc contents 0 spans contents.length) (hlength : contents.length < 2 ^ 64) (hpos : 0 < i)
    (hle : blockStart i ≤ contents.length) :
    let p := readOn crc ((atBlock contents i (blockStart i)).readLoop crc ⟨false, [], 0⟩)
    p.2 = (spans.filter (i ≤ ·.first)).map (·.record) ∧
      (p.1.reports = [] ↔ (blockStart i < i → ∀ x ∈ spans, ¬ x.Straddles i)) := by
  intro p
  have hb := blockStart_mod i
  have hoffset : (atBlock contents i (blockStart i)).Offset contents i (blockStart i) := atBlock_offset hlength hb hle
  have hinside : blockStart i < i → i % kBlockSize ≠ 0 := fun hlt => ((blockStart_lt_iff i).1 hlt).1.ne'
  obtain ⟨before, behind, hbefore, hcases⟩ := h.exists_block hb (Nat.zero_le _) hle
  have hfirst : ∀ x ∈ spans, x.first < blockStart i → x.first < i := fun x hx hlt =>
    lt_of_lt_blockStart (h.within hx).fits hlt
  have hnone : ∀ x ∈ before, ¬ x.Straddles i := fun x hx hs =>
    absurd hs.2 (not_lt.2 ((hbefore x hx).2.trans (blockStart_le i)))
  have hrest : ∀ rest, spans = before ++ rest → Reads crc contents i (atBlock contents i (blockStart i)) rest →
      (blockStart i < i ∨ ∀ x ∈ rest, ¬ x.Straddles i) → p.2 = (spans.filter (i ≤ ·.first)).map (·.record) ∧
        (p.1.reports = [] ↔ (blockStart i < i → ∀ x ∈ spans, ¬ x.Straddles i)) := by
    rintro rest rfl ⟨hrecords, l, hl, hl_nil⟩ hcases
    rw [filter_before fun x hx => hfirst x (mem_append_left _ hx) (hbefore x hx).1]
    rw [show p.1.reports = l ++ [] from hl, append_nil, hl_nil, forall_mem_append]
    exact ⟨hrecords, fun hall _ => ⟨hnone, hall⟩, fun himp => hcases.elim (fun hlt => (himp hlt).2) id⟩
  rcases hcases with ⟨hspans, hbehind⟩ | ⟨x, left, hspans, hx, hspread, hbehind⟩
  · -- the block begins with a record
    by_cases hlt : blockStart i < i
    · exact hrest behind hspans (reads_of_spans hbehind rfl hoffset (hinside hlt)) (.inl hlt)
    · have hle_start : i ≤ start (blockStart i) := by rw [start_of_boundary hb]; exact not_lt.1 hlt
      exact hrest behind hspans (reads_behind hbehind rfl hoffset hle_start)
        (.inr fun y hy => not_straddles_of_le (hle_start.trans (hbehind.within hy).le_first))
  · -- the block begins with a fragment of `x`
    have hx_first : x.first < i := hfirst x (by simp [hspans]) hx
    by_cases hlt : blockStart i < i
    · obtain ⟨r', hloop, hskips⟩ := readLoop_unbegun hoffset hspread rfl hb (hinside hlt) (.inr hlt)
        (s := ⟨false, [], 0⟩) rfl
      exact hrest _ hspans ((reads_of_spans hbehind rfl hskips.offset (hinside hlt)).of_skips hloop hx_first
        (hskips.straddles hx_first)) (.inl hlt)
    · have hstart : i ≤ start (blockStart i) := by
        rw [start_of_boundary hb]
        exact not_lt.1 hlt
      obtain ⟨r', hloop, hreached⟩ := readLoop_resync hoffset hspread rfl hstart (decide_eq_true hpos) ⟨false, [], 0⟩
      have hstop : i ≤ start x.stop := hstart.trans (hspread.start_lt.le.trans (le_start _))
      obtain ⟨hrecords, l, hl, hl_nil⟩ := reads_behind hbehind rfl hreached.offset hstop
      rw [← hloop] at hrecords hl
      refine ⟨hrecords.trans ?_, ?_⟩
      · rw [hspans, filter_before fun y hy => hfirst y (by simp [hspans, hy]) (hbefore y hy).1,
          filter_cons_of_neg (by simpa using hx_first)]
      · have hnil : l = [] := hl_nil.2 fun y hy => not_straddles_of_le (hstop.trans (hbehind.within hy).le_first)
        have hreports : p.1.reports = [] := by
          rw [show p.1.reports = l ++ r'.reports from hl, hnil, hreached.reports]
          rfl
        exact iff_of_true hreports fun hno => absurd hno hlt

lemma readFrom_spans (h : Spans crc contents 0 spans contents.length) (hlength : contents.length < 2 ^ 64) (i : Nat) :
    (readFrom crc contents i).1 = (spans.filter (i ≤ ·.first)).map (·.record) ∧
    ((readFrom crc contents i).2 = [] ↔ ¬ CutsRecord spans i) := by
  have hcuts : ¬ CutsRecord spans i ↔ (blockStart i < i → ∀ x ∈ spans, ¬ x.Straddles i) := by
    rw [cutsRecord_iff]
    push Not
    rfl
  unfold readFrom
  dsimp only
  rw [readAll_eq_readOn, hcuts]
  rcases Nat.eq_zero_or_pos i with rfl | hpos
  · have hoffset : (Reader.new ⟨contents, []⟩ true 0).Offset contents 0 0 := ⟨at_new contents, rfl, hlength⟩
    obtain ⟨hrecords, l, hl, hnone⟩ := reads_behind h rfl hoffset (Nat.zero_le _)
    have hnil : l = [] := hnone.2 fun x _ => not_straddles_of_le (Nat.zero_le _)
    refine ⟨hrecords, iff_of_true ?_ fun hno => absurd hno (Nat.not_lt_zero _)⟩
    exact hl.trans (by rw [hnil]; rfl)
  · rw [readRecord_new hpos]
    by_cases hle : blockStart i ≤ contents.length
    · exact readOn_atBlock h hlength hpos hle
    · -- the offset is in the trailer of the last block
      obtain ⟨hread, hreports⟩ := atBlock_end crc i (not_le.1 hle).le
      rw [hread]
      have hbefore : ∀ x ∈ spans, x.first < i := fun x hx => lt_of_lt_blockStart (h.within hx).fits
        (((h.within hx).first_lt.trans_le (h.within hx).stop_le).trans (not_le.1 hle))
      refine ⟨?_, iff_of_true hreports fun _ x hx hs => ?_⟩
      · have hnil := @filter_before i spans [] hbefore
        rw [append_nil] at hnil
        rw [hnil]
        rfl
      · have hend := (h.within hx).stop_le.trans ((not_le.1 hle).le.trans (blockStart_le i))
        exact absurd hs.2 (not_lt.2 hend)

/-- From an offset on, the reader returns the records that begin behind it and reports nothing, if and only if the offset
does not cut a record. -/
theorem readFrom_writeLog_iff (crc : Crc32c) (ops : List LogOp) (initialOffset : Nat) :
    let log := writeLog crc (Writer.new ⟨[], []⟩) ops
    let spans := spansOf crc (Writer.new ⟨[], []⟩) ops
    log.1.size < 2 ^ 64 → initialOffset ≤ log.1.size → (readFrom crc log.1.dest.contents initialOffset =
          ((spans.filter (initialOffset ≤ ·.first)).map (·.record), []) ↔
        ¬ CutsRecord spans initialOffset) := by
  intro log spans hlength _
  obtain ⟨hrecords, hreports⟩ := readFrom_spans (spans_writeLog rfl synced_new ops) hlength initialOffset
  rw [Prod.ext_iff]
  exact ⟨fun hread => hreports.1 hread.2, fun hcuts => ⟨hrecords, hreports.2 hcuts⟩⟩

theorem readFrom_writeLog_iff_two :
    let log := writeLog .bitwise (Writer.new ⟨[], []⟩) [.addRecord [1, 2], .addRecord [3]]
    log.1.size < 2 ^ 64 ∧ 1 ≤ log.1.size ∧ readFrom .bitwise log.1.dest.contents 1 = ([[3]], []) := by
  have hsize : (writeLog .bitwise (new ⟨[], []⟩) [.addRecord [1, 2], .addRecord [3]]).1.size = 17 := by
    decide +kernel
  have hcuts : ¬ CutsRecord (spansOf .bitwise (new ⟨[], []⟩) [.addRecord [1, 2], .addRecord [3]]) 1 := by
    unfold CutsRecord
    decide +kernel
  have hread := (readFrom_writeLog_iff .bitwise [.addRecord [1, 2], .addRecord [3]] 1
    (by rw [hsize]; decide) (by rw [hsize]; decide)).2 hcuts
  refine ⟨by rw [hsize]; decide, by rw [hsize]; decide, hread.trans (Prod.ext ?_ rfl)⟩
  decide +kernel

lemma Spread.add_length_le (h : Spread crc contents q begin record q') : start q + kHeaderSize + record.length ≤ q' := by
  induction h with
  | last head => exact le_rfl
  | @more q q' begin data left head full rest ih =>
    rw [start_of_boundary (blockEnd_mod _)] at ih
    rw [length_append]
    omega

lemma Spread.le_add_length (h : Spread crc contents q begin record q') : q' ≤ start q + 2 * (kHeaderSize + record.length) ∧
    (q % kBlockSize = 0 → q' ≤ q + kHeaderSize + 2 * record.length) := by
  induction h with
  | @last q begin data head =>
    refine ⟨by omega, fun hq => ?_⟩
    rw [start_of_boundary hq]
    omega
  | @more q q' begin data left head full rest ih =>
    have hrest := ih.2 (blockEnd_mod _)
    rw [length_append]
    refine ⟨by omega, fun hq => ?_⟩
    have hstart := start_of_boundary hq
    have hend := lt_blockEnd q
    rw [hstart] at full hrest
    have hblock : q + kBlockSize ≤ blockEnd q := by
      unfold blockEnd
      unfold kBlockSize at *
      omega
    have hB : kBlockSize = 32768 := rfl
    have hH : kHeaderSize = 7 := rfl
    omega

/-- A record longer than a block, read from behind its first byte: the rest of it is reported as corruption. -/
theorem readFrom_cut_record :
    let log := writeLog .bitwise (Writer.new ⟨[], []⟩) [.addRecord (List.replicate 32762 0)]
    1 ≤ log.1.size ∧ log.1.size < 2 ^ 64 ∧ (readFrom .bitwise log.1.dest.contents 1).1 = [] ∧
      (readFrom .bitwise log.1.dest.contents 1).2 ≠ [] := by
  intro log
  have hspans : Spans .bitwise log.1.dest.contents 0 [⟨List.replicate 32762 0, 0, log.1.size⟩] log.1.size :=
    spans_writeLog rfl synced_new [.addRecord (List.replicate 32762 0)]
  obtain ⟨hle, hge⟩ : 32769 ≤ log.1.size ∧ log.1.size ≤ 65538 := by
    cases hspans with
    | cons head tail =>
      have hle := head.add_length_le
      have hge := head.le_add_length.1
      rw [length_replicate] at hle hge
      exact ⟨hle, hge⟩
  have hlt : log.1.size < 2 ^ 64 := hge.trans_lt (by decide)
  obtain ⟨hrecords, hreports⟩ := readFrom_spans hspans hlt 1
  refine ⟨le_trans (by decide) hle, hlt, hrecords, ?_⟩
  rw [Ne, hreports, not_not]
  exact ⟨by decide, by decide, _, mem_singleton_self _, Nat.zero_lt_one, lt_of_lt_of_le (by decide) hle⟩

end RallyDB.Db.Log
