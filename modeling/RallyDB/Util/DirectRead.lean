import RallyDB.Table.Format

/-!
# Random access files on Posix (`util/env_posix.cc`, `util/read_buffer.cc`)
-/

namespace RallyDB.Util

open Table List

structure PosixFile where
  bytes : Slice
  size_lt : bytes.length < 2 ^ 63

structure PageSize where
  lg : Nat
  lg_lt : lg < 64

variable (p : PageSize)

def PageSize.bytes : UInt64 := UInt64.ofNat (2 ^ p.lg)

variable (file : PosixFile)

def PosixFile.pread (size offset : Nat) : Except Error Slice := .ok ((file.bytes.drop offset).take size)

variable (before : Nat → UInt8)

def readInto (data : Slice) (i : Nat) : UInt8 := (data[i]?).getD (before i)

def bufferSlice (buf : Nat → UInt8) (start size : Nat) : Slice := (List.range size).map fun i => buf (start + i)

def PosixFile.read (file : PosixFile) (offset n : UInt64) : Slice × Status :=
  match file.pread n.toNat offset.toNat with
  | .error e => ([], .error e)
  | .ok data => (bufferSlice (readInto before data) 0 data.length, .ok ())

def getBeforeAlignedValue (val alignment : UInt64) : UInt64 := val - (val &&& (alignment - 1))

def getAfterAlignedValue (val alignment : UInt64) : UInt64 :=
  let mod := val &&& (alignment - 1)
  val + if mod = 0 then 0 else alignment - mod

structure DirectIOAlignData where
  offset : UInt64
  size : UInt64
  userOffset : UInt64

def newAlignedData (offset n alignment : UInt64) : DirectIOAlignData :=
  let alignedOffset := getBeforeAlignedValue offset alignment
  let userDataOffset := offset - alignedOffset
  { offset := alignedOffset
    size := getAfterAlignedValue (n + userDataOffset) alignment
    userOffset := userDataOffset }

def PosixFile.directRead (page : PageSize) (pageAligned : Bool) (file : PosixFile) (offset n : UInt64) : Slice × Status :=
  let alignment := if pageAligned then page.bytes else 512
  let data := newAlignedData offset n alignment
  match file.pread data.size.toNat data.offset.toNat with
  | .error e => ([], .error e)
  | .ok read => (bufferSlice (readInto before read) data.userOffset.toNat n.toNat, .ok ())

/-! ## The aligned window -/

@[simp] lemma bufferSlice_length (buf : Nat → UInt8) (start size : Nat) : (bufferSlice buf start size).length = size := by
  simp [bufferSlice]

lemma bufferSlice_readInto {before : Nat → UInt8} {data : Slice} {start size : Nat} (h : start + size ≤ data.length) :
    bufferSlice (readInto before data) start size = (data.drop start).take size := by
  apply ext_getElem
  · rw [bufferSlice_length, length_take, length_drop]
    omega
  · intro i hi _
    rw [bufferSlice_length] at hi
    have hlt : start + i < data.length := by omega
    simp [bufferSlice, readInto, getElem?_eq_getElem hlt]

lemma PageSize.bytes_toNat : p.bytes.toNat = 2 ^ p.lg :=
  UInt64.toNat_ofNat_of_lt' (Nat.pow_lt_pow_right (by norm_num) p.lg_lt)

lemma PageSize.and_sub_one_toNat (val : UInt64) : (val &&& (p.bytes - 1)).toNat = val.toNat % 2 ^ p.lg := by
  have hle : 1 ≤ p.bytes := UInt64.le_iff_toNat_le.2 (p.bytes_toNat ▸ Nat.one_le_two_pow)
  rw [UInt64.toNat_and, UInt64.toNat_sub_of_le _ _ hle, p.bytes_toNat]
  exact Nat.and_two_pow_sub_one_eq_mod _ _

lemma getBeforeAlignedValue_toNat (val : UInt64) :
    (getBeforeAlignedValue val p.bytes).toNat = val.toNat - val.toNat % 2 ^ p.lg := by
  have hle : val &&& (p.bytes - 1) ≤ val := UInt64.le_iff_toNat_le.2 (p.and_sub_one_toNat val ▸ Nat.mod_le _ _)
  rw [getBeforeAlignedValue, UInt64.toNat_sub_of_le _ _ hle, p.and_sub_one_toNat]

lemma getAfterAlignedValue_spec {val : UInt64} (h : val.toNat + 2 ^ p.lg ≤ 2 ^ 64) :
    2 ^ p.lg ∣ (getAfterAlignedValue val p.bytes).toNat ∧ val.toNat ≤ (getAfterAlignedValue val p.bytes).toNat ∧
    (getAfterAlignedValue val p.bytes).toNat < val.toNat + 2 ^ p.lg := by
  have hmod := p.and_sub_one_toNat val
  have hlt := Nat.mod_lt val.toNat (Nat.two_pow_pos p.lg)
  simp only [getAfterAlignedValue]
  by_cases hz : val &&& (p.bytes - 1) = 0
  · rw [hz] at hmod
    rw [if_pos hz, UInt64.add_zero]
    exact ⟨Nat.dvd_of_mod_eq_zero hmod.symm, le_refl _, Nat.lt_add_of_pos_right (Nat.two_pow_pos _)⟩
  · have hpos : (val &&& (p.bytes - 1)).toNat ≠ 0 := fun h0 => hz (UInt64.toNat_inj.1 h0)
    have hslop : (p.bytes - (val &&& (p.bytes - 1))).toNat = 2 ^ p.lg - val.toNat % 2 ^ p.lg := by
      rw [UInt64.toNat_sub_of_le _ _ (UInt64.le_iff_toNat_le.2 (by rw [p.bytes_toNat]; omega)), p.bytes_toNat, hmod]
    rw [if_neg hz, UInt64.toNat_add, hslop, Nat.mod_eq_of_lt (by omega)]
    refine ⟨?_, by omega, by omega⟩
    have hle := Nat.mod_le val.toNat (2 ^ p.lg)
    have hadd : val.toNat + (2 ^ p.lg - val.toNat % 2 ^ p.lg) = val.toNat - val.toNat % 2 ^ p.lg + 2 ^ p.lg := by omega
    exact hadd ▸ Nat.dvd_add (Nat.dvd_sub_mod _) (Nat.dvd_refl _)

lemma newAlignedData_spec (offset n : UInt64)
    (h : n.toNat + offset.toNat % 2 ^ p.lg + 2 ^ p.lg ≤ 2 ^ 64) {data : DirectIOAlignData}
    (hdata : newAlignedData offset n p.bytes = data) : data.offset.toNat = offset.toNat - offset.toNat % 2 ^ p.lg ∧
    data.offset.toNat + data.userOffset.toNat = offset.toNat ∧ 2 ^ p.lg ∣ data.size.toNat ∧
    n.toNat + data.userOffset.toNat ≤ data.size.toNat ∧
    data.size.toNat < n.toNat + data.userOffset.toNat + 2 ^ p.lg := by
  subst hdata
  simp only [newAlignedData]
  have hoff := getBeforeAlignedValue_toNat p offset
  have hmod := Nat.mod_le offset.toNat (2 ^ p.lg)
  have huser : (offset - getBeforeAlignedValue offset p.bytes).toNat = offset.toNat % 2 ^ p.lg := by
    rw [UInt64.toNat_sub_of_le _ _ (UInt64.le_iff_toNat_le.2 (by omega)), hoff]
    omega
  have hsum : (n + (offset - getBeforeAlignedValue offset p.bytes)).toNat = n.toNat + offset.toNat % 2 ^ p.lg := by
    have hpos := Nat.two_pow_pos p.lg
    rw [UInt64.toNat_add, huser, Nat.mod_eq_of_lt (by omega)]
  have hsize := getAfterAlignedValue_spec p (by rw [hsum]; exact h)
  rw [hsum] at hsize
  rw [huser]
  exact ⟨hoff, by omega, hsize⟩

/-- The aligned stretch from `start` to `stop` holds the `n` bytes at `offset`. -/
structure PageSize.Covers (p : PageSize) (offset n start stop : Nat) : Prop where
  start_dvd : 2 ^ p.lg ∣ start
  stop_dvd : 2 ^ p.lg ∣ stop
  start_le : start ≤ offset
  le_stop : offset + n ≤ stop

/-- As long as the aligned length is below `2 ^ 64`, the window of a direct read is the smallest aligned one that holds
the bytes asked for, and they begin where it says. -/
theorem newAlignedData_least (p : PageSize) (offset n : UInt64)
    (h : n.toNat + offset.toNat % 2 ^ p.lg + 2 ^ p.lg ≤ 2 ^ 64) {data : DirectIOAlignData}
    (hdata : newAlignedData offset n p.bytes = data) :
    p.Covers offset.toNat n.toNat data.offset.toNat (data.offset.toNat + data.size.toNat) ∧
    data.offset.toNat + data.userOffset.toNat = offset.toNat ∧ ∀ start stop,
    p.Covers offset.toNat n.toNat start stop → start ≤ data.offset.toNat ∧ data.offset.toNat + data.size.toNat ≤ stop := by
  obtain ⟨hoff, huser, hdvd, hle, hlt⟩ := newAlignedData_spec p offset n h hdata
  have hmod := Nat.mod_lt offset.toNat (Nat.two_pow_pos p.lg)
  have hoffdvd : 2 ^ p.lg ∣ data.offset.toNat := hoff ▸ Nat.dvd_sub_mod _
  refine ⟨⟨hoffdvd, Nat.dvd_add hoffdvd hdvd, by omega, by omega⟩, huser, fun start stop hw => ⟨?_, ?_⟩⟩
  · have hstart := hw.start_le
    exact Nat.le_of_lt_add_of_dvd (by omega) hw.start_dvd hoffdvd
  · have hstop := hw.le_stop
    exact Nat.le_of_lt_add_of_dvd (by omega) (Nat.dvd_add hoffdvd hdvd) hw.stop_dvd

theorem newAlignedData_least_page : PageSize.Covers ⟨12, by decide⟩ 5000 100 4096 8192 := by
  have hdata : newAlignedData 5000 100 (PageSize.bytes ⟨12, by decide⟩) = ⟨4096, 4096, 904⟩ := rfl
  simpa using (newAlignedData_least _ 5000 100 (by decide) hdata).1

lemma exists_bytes_eq (page : PageSize) (pageAligned : Bool) :
    ∃ p : PageSize, (if pageAligned then page.bytes else 512) = p.bytes := by
  cases pageAligned with
  | false => exact ⟨⟨9, by decide⟩, rfl⟩
  | true => exact ⟨page, rfl⟩

variable {before before' : Nat → UInt8} {page : PageSize} {pageAligned : Bool}

lemma PosixFile.read_eq (offset n : UInt64) :
    file.read before offset n = ((file.bytes.drop offset.toNat).take n.toNat, .ok ()) := by
  simp only [read, pread]
  rw [bufferSlice_readInto (by omega), drop_zero, take_length]

lemma PosixFile.directRead_length (offset n : UInt64) :
    (file.directRead before page pageAligned offset n).1.length = n.toNat := by
  simp [directRead, pread]

lemma PosixFile.directRead_eq {offset n : UInt64} (h : offset.toNat + n.toNat ≤ file.bytes.length) :
    file.directRead before page pageAligned offset n = ((file.bytes.drop offset.toNat).take n.toNat, .ok ()) := by
  have hlt := file.size_lt
  obtain ⟨p, hp⟩ := exists_bytes_eq page pageAligned
  have hmod := Nat.mod_le offset.toNat (2 ^ p.lg)
  have hpow : 2 ^ p.lg ≤ 2 ^ 63 := Nat.pow_le_pow_right (by decide) (Nat.le_of_lt_succ p.lg_lt)
  obtain ⟨-, hoff, -, hsize, -⟩ := newAlignedData_spec p offset n (by omega) rfl
  simp only [directRead, pread]
  rw [hp, bufferSlice_readInto (by rw [length_take, length_drop]; omega), drop_take, drop_drop, hoff,
    take_take, min_eq_left (by omega)]

/-- A direct read returns what a buffered read returns just when nothing is asked for or the file does not end before the
last byte that is asked for: otherwise it is longer. -/
theorem directRead_eq_read_iff (before before' : Nat → UInt8) (page : PageSize) (pageAligned : Bool) (file : PosixFile)
    (offset n : UInt64) : file.directRead before page pageAligned offset n = file.read before' offset n ↔
    n = 0 ∨ offset.toNat + n.toNat ≤ file.bytes.length := by
  constructor
  · intro h
    have hlen := congrArg (fun r => r.1.length) h
    simp only [file.directRead_length, file.read_eq, length_take, length_drop] at hlen
    by_cases hn : n = 0
    · exact .inl hn
    · have hpos : n.toNat ≠ 0 := fun h0 => hn (UInt64.toNat_inj.1 h0)
      right
      omega
  · rintro (rfl | h)
    · rw [file.read_eq]
      simp [PosixFile.directRead, PosixFile.pread, bufferSlice]
    · rw [file.directRead_eq h, file.read_eq]

/-- Four bytes are read from the third byte of a file of four: two bytes of the buffer are returned that were not read. -/
theorem directRead_beyond_end : ∃ file : PosixFile, file.bytes = [1, 2, 3, 4] ∧
    file.read (fun _ => 0) 2 4 = ([3, 4], .ok ()) ∧
    file.directRead (fun _ => 0) ⟨12, by decide⟩ false 2 4 = ([3, 4, 0, 0], .ok ()) :=
  ⟨⟨[1, 2, 3, 4], by decide⟩, rfl, rfl, rfl⟩

/-! ## The classes of files -/

end RallyDB.Util
