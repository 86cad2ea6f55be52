import RallyDB.Db.LogWriter

/-!
# The log reader (`db/log_reader.cc`)
-/

namespace RallyDB.Db.Log

open Util Table List

def kEof : Nat := kMaxRecordType + 1

def kBadRecord : Nat := kMaxRecordType + 2

def sub64 (a b : Nat) : Nat := (a + 2 ^ 64 - b % 2 ^ 64) % 2 ^ 64

structure Reader where
  file : SequentialFile
  checksum : Bool
  buffer : Slice
  eof : Bool
  lastRecordOffset : Nat
  endOfBufferOffset : Nat
  initialOffset : Nat
  resyncing : Bool
  -- the calls of the reporter, the last one first
  reports : List (Nat × Error)

namespace Reader

def new (file : SequentialFile) (checksum : Bool) (initialOffset : Nat) : Reader where
  file := file
  checksum := checksum
  buffer := []
  eof := false
  lastRecordOffset := 0
  endOfBufferOffset := 0
  initialOffset := initialOffset
  resyncing := decide (0 < initialOffset)
  reports := []

variable (r : Reader)

def reportDrop (bytes : Nat) (reason : Error) : Reader :=
  if r.initialOffset ≤ sub64 (sub64 r.endOfBufferOffset r.buffer.length) bytes then
    { r with reports := (bytes, reason) :: r.reports }
  else r

def reportCorruption (bytes : Nat) (reason : String) : Reader := r.reportDrop bytes (.corruption reason)

def skipToInitialBlock : Reader × Bool :=
  let offsetInBlock := r.initialOffset % kBlockSize
  let blockStart := r.initialOffset - offsetInBlock
  -- don't search a block if we'd be in the trailer
  let blockStart := if kBlockSize - 6 < offsetInBlock then blockStart + kBlockSize else blockStart
  let r := { r with endOfBufferOffset := blockStart }
  if 0 < blockStart then
    match r.file.skip blockStart with
    | (file, .error e) => ({ r with file := file }.reportDrop blockStart e, false)
    | (file, .ok _) => ({ r with file := file }, true)
  else (r, true)

def typeOfByte (b : UInt8) : Nat := if b.toNat < 128 then b.toNat else b.toNat + (2 ^ 32 - 256)

def lengthOfHeader (header : Slice) : Nat := ((header.drop 4).headD 0).toNat ||| (((header.drop 5).headD 0).toNat <<< 8)

def physicalRecordOffset (length : Nat) : Nat :=
  sub64 (sub64 (sub64 r.endOfBufferOffset r.buffer.length) kHeaderSize) length

variable (crc : Crc32c)

def checksumOk (buffer : Slice) (length : Nat) : Bool :=
  unmask (UInt32.ofNat (decodeFixed32 buffer)) == crc.value ((buffer.drop 6).take (1 + length))

def parseRecord (r : Reader) : Reader × Nat × Slice :=
  let length := lengthOfHeader r.buffer
  let type := typeOfByte ((r.buffer.drop 6).headD 0)
  if r.buffer.length < kHeaderSize + length then
    let dropSize := r.buffer.length
    let r := { r with buffer := [] }
    if !r.eof then (r.reportCorruption dropSize "bad record length", kBadRecord, [])
    else (r, kEof, [])
  else if type = RecordType.zero.toNat ∧ length = 0 then ({ r with buffer := [] }, kBadRecord, [])
  else if r.checksum && !checksumOk crc r.buffer length then
    let dropSize := r.buffer.length
    (({ r with buffer := [] } : Reader).reportCorruption dropSize "checksum mismatch", kBadRecord, [])
  else
    let fragment := (r.buffer.drop kHeaderSize).take length
    let r := { r with buffer := r.buffer.drop (kHeaderSize + length) }
    -- skip physical record that started before the initial offset
    if r.physicalRecordOffset length < r.initialOffset then
      (r, kBadRecord, [])
    else (r, type, fragment)

def readPhysicalRecord (r : Reader) : Reader × Nat × Slice :=
  if r.buffer.length < kHeaderSize then
    if !r.eof then
      match r.file.read kBlockSize with
      | (file, .error e) =>
        let r := ({ r with file := file, buffer := [] } : Reader).reportDrop kBlockSize e
        ({ r with eof := true }, kEof, [])
      | (file, .ok data) =>
        let r := { r with
          file := file
          buffer := data
          endOfBufferOffset := r.endOfBufferOffset + data.length
          eof := decide (data.length < kBlockSize) }
        if r.buffer.length < kHeaderSize then ({ r with buffer := [] }, kEof, []) else r.parseRecord crc
    else ({ r with buffer := [] }, kEof, [])
  else r.parseRecord crc

/-! ## Records -/

def left (r : Reader) : Nat := r.buffer.length + r.file.remaining.length

@[simp] lemma left_reportDrop (r : Reader) (bytes : Nat) (e : Error) : (r.reportDrop bytes e).left = r.left := by
  unfold reportDrop
  split_ifs <;> rfl

@[simp] lemma left_reportCorruption (r : Reader) (bytes : Nat) (e : String) :
    (r.reportCorruption bytes e).left = r.left := left_reportDrop r bytes _

lemma left_parseRecord (r : Reader) (hr : kHeaderSize ≤ r.buffer.length) : (r.parseRecord crc).1.left < r.left := by
  have hpos : 0 < kHeaderSize := by decide
  have hclear : ({ r with buffer := [] } : Reader).left < r.left := by
    unfold left
    simp only [length_nil]
    omega
  unfold parseRecord
  dsimp only
  split_ifs
  · rw [left_reportCorruption]
    exact hclear
  · exact hclear
  · exact hclear
  · rw [left_reportCorruption]
    exact hclear
  all_goals
    unfold left
    simp only [length_drop]
    omega

lemma left_readPhysicalRecord (r : Reader) :
    (r.readPhysicalRecord crc).1.left < r.left ∨ (r.readPhysicalRecord crc).2.1 = kEof := by
  unfold readPhysicalRecord
  split_ifs with hlen heof
  · split
    · exact .inr rfl
    · rename_i file data hread
      dsimp only
      split_ifs with hshort
      · exact .inr rfl
      · refine .inl (lt_of_lt_of_le (left_parseRecord crc _ (not_lt.1 hshort)) ?_)
        unfold SequentialFile.read at hread
        split at hread
        · cases hread
        · cases hread
          unfold left
          simp only [length_take, length_drop]
          omega
  · exact .inr rfl
  · exact .inl (left_parseRecord crc r (not_lt.1 hlen))

structure Scan where
  inFragmentedRecord : Bool
  scratch : Slice
  prospectiveRecordOffset : Nat

inductive Turn where
  | next (r : Reader) (s : Scan)
  | done (r : Reader) (record : Option Slice)

def reportUnfinished (r : Reader) (s : Scan) (reason : String) : Reader :=
  if s.inFragmentedRecord ∧ s.scratch ≠ [] then r.reportCorruption s.scratch.length reason else r

@[simp] lemma left_reportUnfinished (r : Reader) (s : Scan) (reason : String) :
    (r.reportUnfinished s reason).left = r.left := by
  unfold reportUnfinished
  split_ifs
  · exact left_reportCorruption _ _ _
  · rfl

@[simp] lemma left_lastRecordOffset (r : Reader) (n : Nat) : ({ r with lastRecordOffset := n } : Reader).left = r.left :=
  rfl

def turn (r : Reader) (s : Scan) (type : Nat) (fragment : Slice) : Turn :=
  if type = RecordType.full.toNat then
    .done { r.reportUnfinished s "partial record without end(1)" with
      lastRecordOffset := r.physicalRecordOffset fragment.length } (some fragment)
  else if type = RecordType.first.toNat then
    .next (r.reportUnfinished s "partial record without end(2)") ⟨true, fragment, r.physicalRecordOffset fragment.length⟩
  else if type = RecordType.middle.toNat then
    if !s.inFragmentedRecord then .next (r.reportCorruption fragment.length "missing start of fragmented record(1)") s
    else .next r { s with scratch := s.scratch ++ fragment }
  else if type = RecordType.last.toNat then
    if !s.inFragmentedRecord then .next (r.reportCorruption fragment.length "missing start of fragmented record(2)") s
    else .done { r with lastRecordOffset := s.prospectiveRecordOffset } (some (s.scratch ++ fragment))
  else if type = kEof then .done r none
  else if type = kBadRecord then
    if s.inFragmentedRecord then
      .next (r.reportCorruption s.scratch.length "error in middle of record")
        { s with inFragmentedRecord := false, scratch := [] }
    else .next r s
  else
    .next (r.reportCorruption (fragment.length + if s.inFragmentedRecord then s.scratch.length else 0)
      ("unknown record type " ++ toString type)) { s with inFragmentedRecord := false, scratch := [] }

def resync (r : Reader) (type : Nat) : Reader × Bool :=
  if r.resyncing then
    if type = RecordType.middle.toNat then (r, true)
    else ({ r with resyncing := false }, decide (type = RecordType.last.toNat))
  else (r, false)

@[simp] lemma left_resync (r : Reader) (type : Nat) : (r.resync type).1.left = r.left := by
  unfold resync
  split_ifs <;> rfl

variable {r r' : Reader} {fragment record : Slice}

lemma left_turn {s s' : Scan} {type : Nat} (h : r.turn s type fragment = .next r' s') : r'.left = r.left := by
  unfold turn at h
  split_ifs at h
  all_goals
    cases h
    simp only [left_reportUnfinished, left_reportCorruption]

lemma left_turn_done {s : Scan} {type : Nat} {record : Option Slice}
    (h : r.turn s type fragment = .done r' record) : r'.left = r.left := by
  unfold turn at h
  split_ifs at h
  · injection h with hr
    rw [← hr, left_lastRecordOffset]
    exact left_reportUnfinished _ _ _
  · injection h with hr
    rw [← hr, left_lastRecordOffset]
  · injection h with hr
    rw [← hr]

def readLoop (r : Reader) (s : Scan) : Reader × Option Slice :=
  let p := r.readPhysicalRecord crc
  let q := p.1.resync p.2.1
  if p.2.1 = kEof then (q.1, none)
  else if q.2 then readLoop q.1 s
  else
    match _ : q.1.turn s p.2.1 p.2.2 with
    | .done r' record => (r', record)
    | .next r' s' => readLoop r' s'
termination_by r.left
decreasing_by
  · rename_i hne _
    have hq : q.1.left = p.1.left := left_resync _ _
    rw [hq]
    exact (left_readPhysicalRecord crc r).resolve_right hne
  · rename_i hne _ ht
    have hq : q.1.left = p.1.left := left_resync _ _
    rw [left_turn ht, hq]
    exact (left_readPhysicalRecord crc r).resolve_right hne

def readRecord (r : Reader) : Reader × Option Slice :=
  let start := if r.lastRecordOffset < r.initialOffset then r.skipToInitialBlock else (r, true)
  if start.2 then start.1.readLoop crc ⟨false, [], 0⟩ else (start.1, none)

lemma left_skipToInitialBlock (r : Reader) : r.skipToInitialBlock.1.left ≤ r.left := by
  unfold skipToInitialBlock
  dsimp only
  generalize (if kBlockSize - 6 < r.initialOffset % kBlockSize then _ else _ : Nat) = blockStart
  split_ifs
  · split
    · rename_i hskip
      rw [left_reportDrop]
      unfold SequentialFile.skip at hskip
      split at hskip
      · cases hskip
        exact le_rfl
      · cases hskip
    · rename_i hskip
      unfold SequentialFile.skip at hskip
      split at hskip
      · cases hskip
      · cases hskip
        unfold left
        simp only [length_drop]
        omega
  · exact le_rfl

lemma left_readLoop {s : Scan} (h : (r.readLoop crc s).2 = some record) : (r.readLoop crc s).1.left < r.left := by
  fun_induction readLoop crc r s with
  | case1 r s p q heof => cases h
  | case2 r s p q heof hskip ih =>
    have hq : q.1.left = p.1.left := left_resync _ _
    have hp : p.1.left < r.left := (left_readPhysicalRecord crc r).resolve_right heof
    have := ih h
    omega
  | case3 r s p q heof hskip r' record' hturn =>
    have hq : q.1.left = p.1.left := left_resync _ _
    have hp : p.1.left < r.left := (left_readPhysicalRecord crc r).resolve_right heof
    have hr : r'.left = q.1.left := left_turn_done hturn
    show r'.left < r.left
    omega
  | case4 r s p q heof hskip r' s' hturn ih =>
    have hq : q.1.left = p.1.left := left_resync _ _
    have hp : p.1.left < r.left := (left_readPhysicalRecord crc r).resolve_right heof
    have := ih h
    have hr := left_turn hturn
    omega

lemma left_readRecord (h : (r.readRecord crc).2 = some record) : (r.readRecord crc).1.left < r.left := by
  unfold readRecord at h ⊢
  dsimp only at h ⊢
  split_ifs at h ⊢ with hskip hok
  · exact lt_of_lt_of_le (left_readLoop crc h) (left_skipToInitialBlock r)
  · exact left_readLoop crc h

def readAll (r : Reader) : Reader × List Slice :=
  match _ : r.readRecord crc with
  | (r', none) => (r', [])
  | (r', some record) =>
    let rest := readAll r'
    (rest.1, record :: rest.2)
termination_by r.left
decreasing_by
  rename_i h
  have hsome : (r.readRecord crc).2 = some record := by rw [h]
  have hlt := left_readRecord crc hsome
  rw [h] at hlt
  exact hlt

end Reader

end RallyDB.Db.Log
