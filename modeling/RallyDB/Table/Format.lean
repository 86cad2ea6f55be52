import RallyDB.Util.Crc32c

/-!
# Blocks in a file (`table/format.h`, `table/format.cc`, `TableBuilder::WriteRawBlock`)
-/

namespace RallyDB.Table

open Util List

inductive Error where
  | corruption (msg : String)
  | ioError (msg : String)
  | invalidArgument (msg : String)
  deriving DecidableEq

abbrev Status := Except Error Unit

structure RandomAccessFile where
  read : Nat → Nat → Except Error Slice

/-- A file whose `Read` returns nothing but its bytes. Inside the file every class of `Env` is like this; beyond its end a
read with direct I/O is not, nor one from a mapping if the sum of offset and size wraps around. -/
structure HonestFile (bytes : Slice) extends RandomAccessFile where
  read_honest : ∀ {offset n s}, read offset n = .ok s → s <+: (bytes.drop offset).take n
  -- offsets in a file are 64-bit numbers
  size_lt : bytes.length < 2 ^ 64

def RandomAccessFile.ReadsAll (file : RandomAccessFile) (bytes : Slice) : Prop :=
  ∀ offset n, file.read offset n = .ok ((bytes.drop offset).take n)

def HonestFile.reliable (bytes : Slice) (h : bytes.length < 2 ^ 64) : HonestFile bytes where
  read offset n := .ok ((bytes.drop offset).take n)
  read_honest := by
    rintro offset n s ⟨⟩
    exact prefix_rfl
  size_lt := h

structure BlockHandle where
  offset : Nat
  size : Nat
  deriving DecidableEq

def kNoCompression : UInt8 := 0

def kBlockTrailerSize : Nat := 5

variable (crc : Crc32c)

variable (data : Slice)

def blockTrailer (type : UInt8) : Slice :=
  type :: encodeFixed32 (mask (crc.extend (crc.value data) [type])).toNat

def rawBlock : Slice := data ++ blockTrailer crc data kNoCompression

/-- What is done with the contents of a block of another type than `kNoCompression`. -/
abbrev Uncompress := UInt8 → Slice → Except Error Slice

def noCompression : Uncompress := fun _ _ => .error (.corruption "bad block type")

def readStoredBlock (uncompress : Uncompress) (crc : Crc32c) (file : RandomAccessFile) (verifyChecksums : Bool)
    (handle : BlockHandle) : Except Error Slice :=
  let n := handle.size
  match file.read handle.offset (n + kBlockTrailerSize) with
  | .error e => .error e
  | .ok data =>
    if data.length ≠ n + kBlockTrailerSize then .error (.corruption "truncated block read")
    else if verifyChecksums ∧
        unmask (UInt32.ofNat (decodeFixed32 (data.drop (n + 1)))) ≠ crc.value (data.take (n + 1)) then
      .error (.corruption "block checksum mismatch")
    else
      let type := (data.drop n).headD 0
      if type = kNoCompression then .ok (data.take n) else uncompress type (data.take n)

/-- `ReadBlock` of a build without Snappy. -/
abbrev readBlock := readStoredBlock noCompression

/-! ## Handles and the footer -/

def BlockHandle.encode (h : BlockHandle) : Slice := encodeVarint64 h.offset ++ encodeVarint64 h.size

def BlockHandle.decode (input : Slice) : Except Error (BlockHandle × Slice) :=
  match getVarint64 input with
  | none => .error (.corruption "bad block handle")
  | some (offset, input) =>
    match getVarint64 input with
    | none => .error (.corruption "bad block handle")
    | some (size, input) => .ok (⟨offset, size⟩, input)

structure Footer where
  metaindexHandle : BlockHandle
  indexHandle : BlockHandle
  deriving DecidableEq

def kMaxHandlesLength : Nat := 40

def kFooterLength : Nat := 48

def kTableMagicNumber : Nat := 0xdb4775248b80fb57

def Footer.encode (f : Footer) : Slice :=
  let handles := f.metaindexHandle.encode ++ f.indexHandle.encode
  handles.take kMaxHandlesLength ++ List.replicate (kMaxHandlesLength - handles.length) 0 ++
    encodeFixed32 (kTableMagicNumber % 2 ^ 32) ++ encodeFixed32 (kTableMagicNumber / 2 ^ 32)

def Footer.decode (input : Slice) : Except Error Footer :=
  if input.length < kFooterLength then .error (.corruption "not an sstable (footer too short)")
  else
    let magicLo := decodeFixed32 (input.drop kMaxHandlesLength)
    let magicHi := decodeFixed32 (input.drop (kMaxHandlesLength + 4))
    if magicHi * 2 ^ 32 + magicLo ≠ kTableMagicNumber then
      .error (.corruption "not an sstable (bad magic number)")
    else do
      let (metaindexHandle, input) ← BlockHandle.decode input
      let (indexHandle, _) ← BlockHandle.decode input
      return ⟨metaindexHandle, indexHandle⟩

@[simp] lemma blockTrailer_length (type : UInt8) :
    (blockTrailer crc data type).length = kBlockTrailerSize := by simp [blockTrailer, kBlockTrailerSize]

@[simp] lemma rawBlock_length : (rawBlock crc data).length = data.length + kBlockTrailerSize := by simp [rawBlock]

variable {bytes : Slice} {crc : Crc32c} {verify : Bool}

lemma readBlock_ok {file : HonestFile bytes} {handle : BlockHandle} {s : Slice}
    (h : readBlock crc file.toRandomAccessFile verify handle = .ok s) :
    s = (bytes.drop handle.offset).take handle.size ∧ s.length = handle.size := by
  unfold readBlock readStoredBlock noCompression at h
  dsimp only at h
  split at h
  · cases h
  · rename_i data hread
    have hdata := file.read_honest hread
    split_ifs at h with h1 h2 h3
    cases h
    have hlen : data.length = handle.size + kBlockTrailerSize := not_not.1 h1
    have heq : data = (bytes.drop handle.offset).take (handle.size + kBlockTrailerSize) := by
      rw [prefix_iff_eq_take.1 hdata, hlen, take_take, Nat.min_self]
    constructor
    · rw [heq, take_take, min_eq_left (Nat.le_add_right _ _)]
    · rw [length_take, hlen]
      exact min_eq_left (Nat.le_add_right _ _)

lemma trailer_type (crc : Crc32c) (data : Slice) (type : UInt8) :
    ((data ++ blockTrailer crc data type).drop data.length).headD 0 = type := by
  rw [drop_left]
  rfl

lemma trailer_checksum (crc : Crc32c) (data : Slice) (type : UInt8) :
    unmask (UInt32.ofNat (decodeFixed32 ((data ++ blockTrailer crc data type).drop (data.length + 1)))) =
    crc.value ((data ++ blockTrailer crc data type).take (data.length + 1)) := by
  have htake : (data ++ blockTrailer crc data type).take (data.length + 1) = data ++ [type] := by
    rw [take_append, take_of_length_le (by omega), Nat.add_sub_cancel_left]
    rfl
  have hcrc : (data ++ blockTrailer crc data type).drop (data.length + 1) =
      encodeFixed32 (mask (crc.extend (crc.value data) [type])).toNat ++ [] := by
    rw [← drop_drop, drop_left, append_nil]
    rfl
  rw [hcrc, decodeFixed32_encodeFixed32 (UInt32.toNat_lt _), UInt32.ofNat_toNat, unmask_mask, htake]
  exact crc.extend_append 0 _ _

lemma readStoredBlock_at (uncompress : Uncompress) (verify : Bool) {file : RandomAccessFile} (hread : file.ReadsAll bytes)
    {offset : Nat} {data : Slice} {type : UInt8}
    (hbytes : (bytes.drop offset).take (data.length + kBlockTrailerSize) = data ++ blockTrailer crc data type) :
    readStoredBlock uncompress crc file verify ⟨offset, data.length⟩ =
      if type = kNoCompression then .ok data else uncompress type data := by
  unfold readStoredBlock
  simp only [hread offset, hbytes]
  rw [if_neg (by simp), if_neg (fun h => h.2 (trailer_checksum crc data type)), trailer_type, take_left]

lemma readBlock_rawBlock (crc : Crc32c) (verify : Bool) (before data after : Slice) {file : RandomAccessFile}
    (hread : file.ReadsAll bytes) (hc : bytes = before ++ (rawBlock crc data ++ after)) :
    readBlock crc file verify ⟨before.length, data.length⟩ = .ok data := by
  have hbytes : (bytes.drop before.length).take (data.length + kBlockTrailerSize) = rawBlock crc data := by
    rw [hc, drop_left, ← rawBlock_length crc data, take_left]
  rw [readBlock, readStoredBlock_at noCompression verify hread hbytes, if_pos rfl]

end RallyDB.Table
