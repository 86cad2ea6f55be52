import RallyDB.Db.LogScan

/-!
# The reader scans the contents of its file
-/

namespace RallyDB.Db.Log.Reader

open Util Table List RecordType

variable {crc : Crc32c} {contents : Slice} {r : Reader} {q : Nat}

structure At (r : Reader) (contents : Slice) (q : Nat) : Prop where
  sound : r.file.faults = []
  checksum : r.checksum = true
  initialOffset : r.initialOffset = 0
  resyncing : r.resyncing = false
  le : q ≤ r.endOfBufferOffset
  le_length : r.endOfBufferOffset ≤ contents.length
  le_blockEnd : r.endOfBufferOffset ≤ blockEnd q
  buffer : r.buffer = (contents.drop q).take (r.endOfBufferOffset - q)
  remaining : r.file.remaining = contents.drop r.endOfBufferOffset
  whole : r.eof = false → r.endOfBufferOffset % kBlockSize = 0
  short : r.eof = true → r.endOfBufferOffset = contents.length ∧ contents.length < blockEnd q

lemma at_new (contents : Slice) : (Reader.new ⟨contents, []⟩ true 0).At contents 0 where
  sound := rfl
  checksum := rfl
  initialOffset := rfl
  resyncing := rfl
  le := le_rfl
  le_length := Nat.zero_le _
  le_blockEnd := Nat.zero_le _
  buffer := rfl
  remaining := rfl
  whole _ := rfl
  short h := by cases h

lemma At.length_buffer (h : r.At contents q) : r.buffer.length = r.endOfBufferOffset - q := by
  rw [h.buffer, length_take, length_drop]
  have := h.le_length
  omega

lemma blockEnd_eq_of_lt {q q' : Nat} (hle : q ≤ q') (hlt : q' < blockEnd q) : blockEnd q' = blockEnd q := by
  unfold blockEnd kBlockSize at *
  omega

variable {n type : Nat}

lemma At.advance (h : r.At contents q) (hn : n ≤ r.buffer.length) :
    ({ r with buffer := r.buffer.drop n } : Reader).At contents (q + n) := by
  have hlen := h.length_buffer
  have hle := h.le
  refine { h with le := ?_, le_blockEnd := ?_, buffer := ?_, short := ?_, .. }
  · show q + n ≤ r.endOfBufferOffset
    omega
  · show r.endOfBufferOffset ≤ blockEnd (q + n)
    by_cases hlt : q + n < blockEnd q
    · rw [blockEnd_eq_of_lt (Nat.le_add_right q n) hlt]
      exact h.le_blockEnd
    · have := h.le_blockEnd
      have := lt_blockEnd (q + n)
      omega
  · show r.buffer.drop n = _
    rw [h.buffer, drop_take, drop_drop, Nat.sub_sub]
  · intro heof
    obtain ⟨hE, hshort⟩ := h.short heof
    refine ⟨hE, ?_⟩
    have hlt : q + n < blockEnd q := by omega
    rw [blockEnd_eq_of_lt (Nat.le_add_right q n) hlt]
    exact hshort

lemma At.reportCorruption (h : r.At contents q) (bytes : Nat) (reason : String) :
    (r.reportCorruption bytes reason).At contents q := by
  unfold Reader.reportCorruption Reader.reportDrop
  split_ifs
  · exact { h with }
  · exact h

lemma At.clear (h : r.At contents q) : ({ r with buffer := [] } : Reader).At contents r.endOfBufferOffset := by
  have hadv := h.advance le_rfl
  have hq : q + r.buffer.length = r.endOfBufferOffset := by
    have := h.length_buffer
    have := h.le
    omega
  rw [hq, drop_length] at hadv
  exact hadv

/-! ## Physical records -/

def Follows (contents : Slice) (r : Reader) (p : Reader × Nat × Slice) : Physical → Prop
  | .eof => p.2.1 = kEof ∧ p.1.reports = r.reports ∧ p.1.resyncing = false
  | .bad next reported => p.2.1 = kBadRecord ∧ p.1.At contents next ∧ (reported = false → p.1.reports = r.reports)
  | .record type fragment next => p.2 = (type, fragment) ∧ p.1.At contents next ∧ p.1.reports = r.reports

section

variable (h : r.At contents q)
include h

lemma At.limit_eq (hpos : 0 < r.buffer.length) : r.endOfBufferOffset = min (blockEnd q) contents.length := by
  have hlen := h.length_buffer
  have hle := h.le_length
  have hblock := h.le_blockEnd
  cases heof : r.eof with
  | true =>
    obtain ⟨hE, hshort⟩ := h.short heof
    omega
  | false =>
    have hmod := h.whole heof
    have hE : r.endOfBufferOffset = blockEnd q := by
      unfold blockEnd kBlockSize at *
      omega
    omega

lemma At.eof_iff (hpos : 0 < r.buffer.length) : r.eof = true ↔ contents.length < blockEnd q := by
  constructor
  · exact fun heof => (h.short heof).2
  · intro hlt
    cases heof : r.eof with
    | true => rfl
    | false =>
      have hmod := h.whole heof
      have hlen := h.length_buffer
      have hle := h.le_length
      unfold blockEnd kBlockSize at *
      omega

lemma parseRecord_follows (hlen : kHeaderSize ≤ r.buffer.length) :
    Follows contents r (r.parseRecord crc) (parseAt crc contents q r.endOfBufferOffset) := by
  have hpos : 0 < r.buffer.length := lt_of_lt_of_le (by decide) hlen
  have hinitial : ∀ n, ¬ n < r.initialOffset := by
    rw [h.initialOffset]
    exact Nat.not_lt_zero
  unfold parseRecord parseAt
  dsimp only
  have hchecksum : ∀ b : Bool, (r.checksum && b) = b := by
    rw [h.checksum]
    exact Bool.true_and
  rw [← h.buffer, hchecksum]
  by_cases hshort : r.buffer.length < kHeaderSize + lengthOfHeader r.buffer
  · rw [if_pos hshort, if_pos hshort]
    by_cases heof : r.eof = true
    · rw [if_neg (by simp [heof]), if_pos ((h.eof_iff hpos).1 heof)]
      exact ⟨rfl, rfl, h.resyncing⟩
    · rw [if_pos (by simp [heof]), if_neg (fun hlt => heof ((h.eof_iff hpos).2 hlt))]
      exact ⟨rfl, h.clear.reportCorruption _ _, fun hno => by cases hno⟩
  · rw [if_neg hshort, if_neg hshort]
    by_cases hzero : typeOfByte ((r.buffer.drop 6).headD 0) = zero.toNat ∧ lengthOfHeader r.buffer = 0
    · rw [if_pos hzero, if_pos hzero]
      exact ⟨rfl, h.clear, fun _ => rfl⟩
    · rw [if_neg hzero, if_neg hzero]
      cases hok : checksumOk crc r.buffer (lengthOfHeader r.buffer) with
      | false =>
        rw [Bool.not_false, if_pos rfl, if_neg Bool.false_ne_true]
        exact ⟨rfl, h.clear.reportCorruption _ _, fun hno => by cases hno⟩
      | true =>
        rw [Bool.not_true, if_neg Bool.false_ne_true, if_pos rfl, if_neg (hinitial _)]
        have hadvance := h.advance (not_lt.1 hshort)
        rw [← add_assoc] at hadvance
        exact ⟨rfl, hadvance, rfl⟩

lemma At.start_of_short (hlen : r.buffer.length < kHeaderSize) (heof : r.eof = false) : start q = r.endOfBufferOffset := by
  have hbuffer := h.length_buffer
  have hmod := h.whole heof
  have hle := h.le
  have hblock := h.le_blockEnd
  unfold start
  unfold blockEnd kBlockSize kHeaderSize at *
  split_ifs <;> omega

end

def filled (r : Reader) : Reader :=
  { r with
    file := ⟨r.file.remaining.drop kBlockSize, []⟩
    buffer := r.file.remaining.take kBlockSize
    endOfBufferOffset := r.endOfBufferOffset + (r.file.remaining.take kBlockSize).length
    eof := decide ((r.file.remaining.take kBlockSize).length < kBlockSize) }

lemma readPhysicalRecord_eq_filled (hsound : r.file.faults = []) (hlen : r.buffer.length < kHeaderSize)
    (heof : r.eof = false) : r.readPhysicalRecord crc =
      if r.filled.buffer.length < kHeaderSize then ({ r.filled with buffer := [] }, kEof, [])
      else r.filled.parseRecord crc := by
  have hread : r.file.read kBlockSize =
      (⟨r.file.remaining.drop kBlockSize, []⟩, .ok (r.file.remaining.take kBlockSize)) := by
    unfold SequentialFile.read
    rw [hsound]
    rfl
  unfold readPhysicalRecord
  rw [if_pos hlen, heof, Bool.not_false, if_pos rfl, hread]
  rfl

lemma readPhysicalRecord_eq_parseRecord (hlen : kHeaderSize ≤ r.buffer.length) :
    r.readPhysicalRecord crc = r.parseRecord crc := by
  unfold readPhysicalRecord
  rw [if_neg (not_lt.2 hlen)]

lemma readPhysicalRecord_of_eof (hlen : r.buffer.length < kHeaderSize) (heof : r.eof = true) :
    r.readPhysicalRecord crc = ({ r with buffer := [] }, kEof, []) := by
  unfold readPhysicalRecord
  rw [if_pos hlen, heof]
  rfl

lemma At.filled (h : r.At contents q) (hlen : r.buffer.length < kHeaderSize) (heof : r.eof = false) :
    r.filled.At contents (start q) := by
  have hmod := h.whole heof
  rw [h.start_of_short hlen heof]
  unfold Reader.filled
  rw [h.remaining]
  have hdata : ((contents.drop r.endOfBufferOffset).take kBlockSize).length =
      min kBlockSize (contents.length - r.endOfBufferOffset) := by
    rw [length_take, length_drop]
  have hend : blockEnd r.endOfBufferOffset = r.endOfBufferOffset + kBlockSize := by
    unfold blockEnd kBlockSize at *
    omega
  have hle := h.le_length
  refine ⟨rfl, h.checksum, h.initialOffset, h.resyncing, Nat.le_add_right _ _, ?_, ?_, ?_, ?_, ?_, ?_⟩
  · dsimp only
    omega
  · dsimp only
    omega
  · dsimp only
    rw [Nat.add_sub_cancel_left, length_take]
    exact take_eq_take_min
  · dsimp only
    rw [drop_drop, hdata]
    by_cases hfull : kBlockSize ≤ contents.length - r.endOfBufferOffset
    · rw [min_eq_left hfull]
    · rw [drop_eq_nil_of_le (by omega), drop_eq_nil_of_le (by omega)]
  · intro hfull
    have hge := of_decide_eq_false hfull
    dsimp only
    unfold kBlockSize at *
    omega
  · intro hfew
    have hlt := of_decide_eq_true hfew
    dsimp only
    omega

lemma At.start_eq (h : r.At contents q) (hlen : kHeaderSize ≤ r.buffer.length) : start q = q := by
  have hlimit := h.le_blockEnd
  have hlength := h.length_buffer
  have hle := h.le
  unfold start
  rw [if_neg (by omega)]

lemma readPhysicalRecord_follows (crc : Crc32c) (h : r.At contents q) :
    Follows contents r (r.readPhysicalRecord crc) (physicalAt crc contents q) := by
  unfold physicalAt
  dsimp only
  by_cases hlen : r.buffer.length < kHeaderSize
  · cases heof : r.eof with
    | true =>
      -- the rest of the file is shorter than a header
      have hlimit : min (blockEnd (start q)) contents.length < start q + kHeaderSize := by
        obtain ⟨hE, -⟩ := h.short heof
        have hbuffer := h.length_buffer
        have hle := h.le
        have := le_start q
        omega
      rw [readPhysicalRecord_of_eof hlen heof, if_pos hlimit]
      exact ⟨rfl, rfl, h.resyncing⟩
    | false =>
      have hnext := h.filled hlen heof
      have hlength := hnext.length_buffer
      rw [readPhysicalRecord_eq_filled h.sound hlen heof]
      by_cases hshort : r.filled.buffer.length < kHeaderSize
      · have hlimit : min (blockEnd (start q)) contents.length < start q + kHeaderSize := by
          have hE := hnext.short (decide_eq_true (hshort.trans (by decide)))
          omega
        rw [if_pos hshort, if_pos hlimit]
        exact ⟨rfl, rfl, h.resyncing⟩
      · have hpos : 0 < r.filled.buffer.length := lt_of_lt_of_le (by decide) (not_lt.1 hshort)
        have hlimit := hnext.limit_eq hpos
        have hle := hnext.le
        rw [if_neg hshort, if_neg (by omega), ← hlimit]
        exact parseRecord_follows hnext (not_lt.1 hshort)
  · have hpos : 0 < r.buffer.length := lt_of_lt_of_le (by decide) (not_lt.1 hlen)
    have hlimit := h.limit_eq hpos
    have hlength := h.length_buffer
    have hle := h.le
    rw [readPhysicalRecord_eq_parseRecord (not_lt.1 hlen), h.start_eq (not_lt.1 hlen), if_neg (by omega), ← hlimit]
    exact parseRecord_follows h (not_lt.1 hlen)

/-! ## Records -/

def Scan.pending (s : Scan) : Option Slice := if s.inFragmentedRecord then some s.scratch else none

def Reported (contents : Slice) (r r' : Reader) (q n : Nat) : Prop :=
  r'.At contents q ∧ (n = 0 → r'.reports = r.reports)

section

variable (h : r.At contents q)
include h

lemma At.reported_corruption (bytes : Nat) (reason : String) : Reported contents r (r.reportCorruption bytes reason) q 1 :=
  ⟨h.reportCorruption bytes reason, fun hno => by cases hno⟩

lemma At.reported_unfinished (s : Scan) (reason : String) :
    Reported contents r (r.reportUnfinished s reason) q (if s.pending.getD [] = [] then 0 else 1) := by
  obtain ⟨inFragmentedRecord, scratch, offset⟩ := s
  cases inFragmentedRecord with
  | false => exact ⟨h, fun _ => rfl⟩
  | true =>
    cases scratch with
    | nil => exact ⟨h, fun _ => rfl⟩
    | cons b scratch => exact h.reported_corruption _ _

lemma At.lastRecordOffset (n : Nat) : ({ r with lastRecordOffset := n } : Reader).At contents q :=
  { h with }

lemma turn_spec (s : Scan) (fragment : Slice) (htype : type ≠ kEof) : ∃ n, match r.turn s type fragment with
      | .next r' s' => Reported contents r r' q n ∧
          fragmentStep s.pending type fragment = (List.replicate n none, s'.pending)
      | .done r' record => Reported contents r r' q n ∧
          ∃ data, record = some data ∧
            fragmentStep s.pending type fragment = (List.replicate n none ++ [some data], none) := by
  have hunfinished : (if s.pending.getD [] = [] then [] else [none] : List (Option Slice)) =
      List.replicate (if s.pending.getD [] = [] then 0 else 1) none := by
    split_ifs <;> rfl
  unfold turn fragmentStep
  dsimp only
  rw [hunfinished, if_neg htype]
  by_cases hfull : type = full.toNat
  · rw [if_pos hfull, if_pos hfull]
    have hr := h.reported_unfinished s "partial record without end(1)"
    exact ⟨_, ⟨hr.1.lastRecordOffset _, hr.2⟩, fragment, rfl, rfl⟩
  rw [if_neg hfull, if_neg hfull]
  by_cases hfirst : type = first.toNat
  · rw [if_pos hfirst, if_pos hfirst]
    exact ⟨_, h.reported_unfinished s _, rfl⟩
  rw [if_neg hfirst, if_neg hfirst]
  obtain ⟨inFragmentedRecord, scratch, offset⟩ := s
  by_cases hmiddle : type = middle.toNat
  · rw [if_pos hmiddle, if_pos hmiddle]
    cases inFragmentedRecord with
    | false => exact ⟨1, h.reported_corruption _ _, rfl⟩
    | true => exact ⟨0, ⟨h, fun _ => rfl⟩, rfl⟩
  rw [if_neg hmiddle, if_neg hmiddle]
  by_cases hlast : type = last.toNat
  · rw [if_pos hlast, if_pos hlast]
    cases inFragmentedRecord with
    | false => exact ⟨1, h.reported_corruption _ _, rfl⟩
    | true => exact ⟨0, ⟨h.lastRecordOffset _, fun _ => rfl⟩, _, rfl, rfl⟩
  rw [if_neg hlast, if_neg hlast]
  by_cases hbad : type = kBadRecord
  · rw [if_pos hbad, if_pos hbad]
    cases inFragmentedRecord with
    | false => exact ⟨0, ⟨h, fun _ => rfl⟩, rfl⟩
    | true => exact ⟨1, h.reported_corruption _ _, rfl⟩
  rw [if_neg hbad, if_neg hbad]
  exact ⟨1, h.reported_corruption _ _, rfl⟩

end

def Gives (crc : Crc32c) (contents : Slice) (r : Reader) (p : Reader × Option Slice) (events : List (Option Slice)) : Prop :=
  ∃ n, (n = 0 → p.1.reports = r.reports) ∧
    match p.2 with
    | none => events = List.replicate n none
    | some data => ∃ q, p.1.At contents q ∧ events = List.replicate n none ++ some data :: replay crc contents q none

variable {p : Reader × Option Slice} {events : List (Option Slice)}

lemma Gives.after {r' : Reader} (h : Gives crc contents r' p events) (hr : n = 0 → r'.reports = r.reports) :
    Gives crc contents r p (List.replicate n none ++ events) := by
  obtain ⟨m, hreports, hp⟩ := h
  refine ⟨n + m, fun hzero => (hreports (by omega)).trans (hr (by omega)), ?_⟩
  cases hdata : p.2 with
  | none =>
    rw [hdata] at hp
    dsimp only at hp ⊢
    rw [hp, replicate_add]
  | some data =>
    rw [hdata] at hp
    obtain ⟨q, hq, hevents⟩ := hp
    exact ⟨q, hq, by rw [hevents, replicate_add, append_assoc]⟩

lemma Gives.nil (h : Gives crc contents r p []) : p.2 = none ∧ p.1.reports = r.reports := by
  obtain ⟨n, hreports, hevents⟩ := h
  cases hdata : p.2 with
  | none =>
    rw [hdata] at hevents
    cases n with
    | zero => exact ⟨rfl, hreports rfl⟩
    | succ n => cases hevents
  | some data =>
    rw [hdata] at hevents
    obtain ⟨q, -, hevents⟩ := hevents
    exact absurd hevents.symm (by simp)

lemma Gives.some_cons {data : Slice} (h : Gives crc contents r p (some data :: events)) :
    p.2 = some data ∧ p.1.reports = r.reports ∧ ∃ q, p.1.At contents q ∧ replay crc contents q none = events := by
  obtain ⟨n, hreports, hevents⟩ := h
  cases hdata : p.2 with
  | none =>
    rw [hdata] at hevents
    cases n <;> cases hevents
  | some data' =>
    rw [hdata] at hevents
    obtain ⟨q, hat, hevents⟩ := hevents
    cases n with
    | zero =>
      cases hevents
      exact ⟨rfl, hreports rfl, q, hat, rfl⟩
    | succ n => cases hevents

lemma resync_of_not (h : r.resyncing = false) : r.resync type = (r, false) := by
  unfold resync
  rw [h]
  rfl

lemma readPhysicalRecord_eof (h : r.At contents q) (heof : (r.readPhysicalRecord crc).2.1 = kEof)
    (pending : Option Slice) : replay crc contents q pending = [] ∧ (r.readPhysicalRecord crc).1.reports = r.reports ∧
    (r.readPhysicalRecord crc).1.resyncing = false := by
  have hfollows := readPhysicalRecord_follows crc h
  cases hp : physicalAt crc contents q with
  | eof =>
    rw [hp] at hfollows
    exact ⟨replay_eof hp, hfollows.2⟩
  | bad next reported =>
    rw [hp] at hfollows
    exact absurd (hfollows.1.symm.trans heof) (by decide)
  | record type fragment next =>
    rw [hp] at hfollows
    obtain ⟨hvalue, hat, hreports⟩ := hfollows
    rw [hvalue] at heof
    dsimp only at heof
    rw [heof] at hp
    exact ⟨replay_record_eof hp, hreports, hat.resyncing⟩

lemma readPhysicalRecord_next (h : r.At contents q) (heof : (r.readPhysicalRecord crc).2.1 ≠ kEof) :
    ∃ next n, Reported contents r (r.readPhysicalRecord crc).1 next n ∧
    ∀ pending step, fragmentStep pending (r.readPhysicalRecord crc).2.1 (r.readPhysicalRecord crc).2.2 = step →
    replay crc contents q pending = List.replicate n none ++ (step.1 ++ replay crc contents next step.2) := by
  have hfollows := readPhysicalRecord_follows crc h
  cases hp : physicalAt crc contents q with
  | eof =>
    rw [hp] at hfollows
    exact absurd hfollows.1 heof
  | bad next reported =>
    rw [hp] at hfollows
    obtain ⟨htype, hat, hreports⟩ := hfollows
    refine ⟨next, if reported then 1 else 0, ⟨hat, fun hzero => hreports (by simpa using hzero)⟩, ?_⟩
    rintro pending step rfl
    rw [htype, replay_bad hp, append_assoc]
    cases reported <;> rfl
  | record type fragment next =>
    rw [hp] at hfollows
    obtain ⟨hvalue, hat, hreports⟩ := hfollows
    rw [hvalue] at heof ⊢
    refine ⟨next, 0, ⟨hat, fun _ => hreports⟩, ?_⟩
    rintro pending step rfl
    exact replay_record hp heof

lemma readLoop_gives (s : Scan) :
    ∀ {q : Nat}, r.At contents q → Gives crc contents r (r.readLoop crc s) (replay crc contents q s.pending) := by
  fun_induction readLoop crc r s
  case case1 r s p p' heof =>
    intro q h
    obtain ⟨hreplay, hreports, hresyncing⟩ := readPhysicalRecord_eof h heof s.pending
    rw [hreplay]
    have hp' : p' = (p.1, false) := resync_of_not hresyncing
    rw [hp']
    exact ⟨0, fun _ => hreports, rfl⟩
  case case2 r s p p' heof hskip ih =>
    intro q h
    obtain ⟨next, n, ⟨hat, -⟩, -⟩ := readPhysicalRecord_next h heof
    have hp' : p' = (p.1, false) := resync_of_not hat.resyncing
    rw [hp'] at hskip
    cases hskip
  case case3 r s p p' heof hskip r' record' hturn =>
    intro q h
    obtain ⟨next, n, ⟨hat, hreports⟩, hreplay⟩ := readPhysicalRecord_next h heof
    have hp' : p' = (p.1, false) := resync_of_not hat.resyncing
    obtain ⟨m, hm⟩ := turn_spec hat s p.2.2 heof
    rw [hp'] at hturn
    rw [hturn] at hm
    obtain ⟨⟨hat', hreports'⟩, data, rfl, hstep⟩ := hm
    rw [hreplay _ _ hstep]
    exact Gives.after ⟨m, hreports', next, hat', by simp⟩ hreports
  case case4 r s p p' heof hskip r' s' hturn ih =>
    intro q h
    obtain ⟨next, n, ⟨hat, hreports⟩, hreplay⟩ := readPhysicalRecord_next h heof
    have hp' : p' = (p.1, false) := resync_of_not hat.resyncing
    obtain ⟨m, hm⟩ := turn_spec hat s p.2.2 heof
    rw [hp'] at hturn
    rw [hturn] at hm
    obtain ⟨⟨hat', hreports'⟩, hstep⟩ := hm
    rw [hreplay _ _ hstep]
    exact ((ih hat').after hreports').after hreports

lemma readRecord_gives (crc : Crc32c) (h : r.At contents q) :
    Gives crc contents r (r.readRecord crc) (replay crc contents q none) := by
  unfold readRecord
  rw [h.initialOffset, if_neg (Nat.not_lt_zero _)]
  exact readLoop_gives ⟨false, [], 0⟩ h

lemma readAll_eq_replay : ∀ {q : Nat}, r.At contents q → (r.readAll crc).2 = (replay crc contents q none).reduceOption ∧
    (none ∉ replay crc contents q none → (r.readAll crc).1.reports = r.reports) := by
  fun_induction readAll crc r
  case case1 r r' hread =>
    intro q h
    obtain ⟨n, hreports, hevents⟩ := readRecord_gives crc h
    rw [hread] at hreports hevents
    dsimp only at hevents
    rw [hevents]
    refine ⟨by simp [List.reduceOption], fun hnone => hreports ?_⟩
    simpa using hnone
  case case2 r r' record hread rest ih =>
    intro q h
    obtain ⟨n, hreports, hevents⟩ := readRecord_gives crc h
    rw [hread] at hreports hevents
    obtain ⟨next, hat, hevents⟩ := hevents
    obtain ⟨hrecords, hrest⟩ := ih hat
    rw [hevents]
    refine ⟨?_, fun hnone => ?_⟩
    · rw [reduceOption_append, reduceOption_replicate_none, reduceOption_cons_of_some, ← hrecords]
      rfl
    · simp only [mem_append, mem_cons, not_or] at hnone
      have hn : n = 0 := by simpa using hnone.1
      exact (hrest hnone.2.2).trans (hreports hn)

end RallyDB.Db.Log.Reader
