import RallyDB.Db.KeyEncoding
import RallyDB.Util.Hash

/-!
# The bloom filter (`util/bloom.cc`)
-/

namespace RallyDB.Util

def bloomHash (key : Slice) (index : Nat) : UInt32 :=
  let h := hash key 0xbc9f2d21
  let delta := (h >>> 17) ||| (h <<< 15)
  h + delta * UInt32.ofNat index

def probesFor (bitsPerKey : Nat) : Nat := max 1 (min 30 (bitsPerKey * 69 / 100))

def setBit (array : Slice) (bitpos : Nat) : Slice := array.modify (bitpos / 8) (· ||| 1 <<< UInt8.ofNat (bitpos % 8))

def bitSet (array : Slice) (bitpos : Nat) : Bool := (array[bitpos / 8]?).getD 0 &&& 1 <<< UInt8.ofNat (bitpos % 8) ≠ 0

def addProbes (bits : Nat) (delta : UInt32) : Nat → UInt32 → Slice → Slice
  | 0, _, array => array
  | k + 1, h, array => addProbes bits delta k (h + delta) (setBit array (h.toNat % bits))

def probesSet (bits : Nat) (delta : UInt32) (array : Slice) : Nat → UInt32 → Bool
  | 0, _ => true
  | k + 1, h => bitSet array (h.toNat % bits) && probesSet bits delta array k (h + delta)

def rotate (h : UInt32) : UInt32 := (h >>> 17) ||| (h <<< 15)

def addBloomKey (bits k index : Nat) (array key : Slice) : Slice :=
  let h := bloomHash key index
  addProbes bits (rotate h) k h array

def bloomBytes (n bitsPerKey : Nat) : Nat :=
  let bits := n * bitsPerKey
  let bits := if bits < 64 then 64 else bits
  (bits + 7) / 8

def bloomName : Slice :=
  [108, 101, 118, 101, 108, 100, 98, 46, 66, 117, 105, 108, 116, 105, 110, 66,
    108, 111, 111, 109, 70, 105, 108, 116, 101, 114, 50]

def bloomFilterPolicy (bitsPerKey : Nat) : FilterPolicy where
  name := bloomName
  createFilter keys index :=
    let bytes := bloomBytes keys.length bitsPerKey
    let bits := bytes * 8
    let array := keys.foldl (addBloomKey bits (probesFor bitsPerKey) index) (List.replicate bytes 0)
    (array ++ [UInt8.ofNat (probesFor bitsPerKey)], keys)
  keyMayMatch key bloomFilter index :=
    let len := bloomFilter.length
    if len < 2 then false
    else
      let bits := (len - 1) * 8
      let k := ((bloomFilter[len - 1]?).getD 0).toNat
      if 30 < k then true
      else
        let h := bloomHash key index
        probesSet bits (rotate h) bloomFilter k h

variable {array : Slice} {bits p q k index bitsPerKey : Nat} {h delta : UInt32}

open List

@[simp] lemma setBit_length : (setBit array p).length = array.length := length_modify _ _ _

lemma mask_ne_zero (r : Nat) : (1 : UInt8) <<< UInt8.ofNat (r % 8) ≠ 0 := by
  have hlt : r % 8 < 8 := Nat.mod_lt _ (by decide)
  generalize r % 8 = s at hlt
  revert s
  decide

lemma or_and_byte (a b c : UInt8) : (a ||| b) &&& c = (a &&& c) ||| (b &&& c) := by
  apply UInt8.toBitVec_inj.1
  ext i
  simp [Bool.and_or_distrib_right]

lemma bitSet_setBit_self (hp : p / 8 < array.length) : bitSet (setBit array p) p = true := by
  rw [bitSet, setBit, getElem?_modify_eq, getElem?_eq_getElem hp]
  simp only [Option.map_eq_map, Option.map_some, Option.getD_some, decide_eq_true_eq]
  rw [or_and_byte, UInt8.and_self]
  intro h
  exact mask_ne_zero p (UInt8.or_eq_zero_iff.1 h).2

lemma bitSet_setBit (hq : bitSet array q = true) : bitSet (setBit array p) q = true := by
  by_cases hpq : p / 8 = q / 8
  · simp only [bitSet, setBit, hpq, getElem?_modify_eq, decide_eq_true_eq] at hq ⊢
    cases hbyte : array[q / 8]? with
    | none =>
      rw [hbyte] at hq
      exact hq
    | some b =>
      rw [hbyte] at hq
      simp only [Option.map_eq_map, Option.map_some, Option.getD_some] at hq ⊢
      rw [or_and_byte]
      exact fun h => hq (UInt8.or_eq_zero_iff.1 h).1
  · rwa [bitSet, setBit, getElem?_modify_ne _ _ hpq]

/-! ## Probes -/

@[simp] lemma addProbes_length : (addProbes bits delta k h array).length = array.length := by
  induction k generalizing h array with
  | zero => rfl
  | succ k ih => rw [addProbes, ih, setBit_length]

lemma bitSet_addProbes (hq : bitSet array q = true) : bitSet (addProbes bits delta k h array) q = true := by
  induction k generalizing h array with
  | zero => exact hq
  | succ k ih => exact ih (bitSet_setBit hq)

lemma probesSet_addProbes (hbits : 0 < bits) (hlen : array.length * 8 = bits) :
    probesSet bits delta (addProbes bits delta k h array) k h = true := by
  induction k generalizing h array with
  | zero => rfl
  | succ k ih =>
    have hlt : h.toNat % bits / 8 < array.length := by
      have := Nat.mod_lt h.toNat hbits
      omega
    rw [probesSet, addProbes, Bool.and_eq_true]
    exact ⟨bitSet_addProbes (bitSet_setBit_self hlt), ih (by rwa [setBit_length])⟩

lemma probesSet_mono {array' : Slice} (hall : ∀ q, bitSet array q = true → bitSet array' q = true)
    (hset : probesSet bits delta array k h = true) : probesSet bits delta array' k h = true := by
  induction k generalizing h with
  | zero => rfl
  | succ k ih =>
    rw [probesSet, Bool.and_eq_true] at hset ⊢
    exact ⟨hall _ hset.1, ih hset.2⟩

@[simp] lemma addBloomKey_length (array key : Slice) : (addBloomKey bits k index array key).length = array.length :=
  addProbes_length

lemma foldl_addBloomKey_length (keys : List Slice) (array : Slice) :
    (keys.foldl (addBloomKey bits k index) array).length = array.length := by
  induction keys generalizing array with
  | nil => rfl
  | cons key keys ih => rw [foldl_cons, ih, addBloomKey_length]

lemma bitSet_foldl (keys : List Slice) (hq : bitSet array q = true) :
    bitSet (keys.foldl (addBloomKey bits k index) array) q = true := by
  induction keys generalizing array with
  | nil => exact hq
  | cons key keys ih => exact ih (bitSet_addProbes hq)

lemma probesSet_foldl {keys : List Slice} (hbits : 0 < bits) (hlen : array.length * 8 = bits) {key : Slice}
    (hkey : key ∈ keys) :
    probesSet bits (rotate (bloomHash key index)) (keys.foldl (addBloomKey bits k index) array) k (bloomHash key index) = true := by
  induction keys generalizing array with
  | nil => cases hkey
  | cons first keys ih =>
    rw [foldl_cons]
    rcases mem_cons.1 hkey with rfl | hmem
    · exact probesSet_mono (fun q hq => bitSet_foldl keys hq) (probesSet_addProbes hbits hlen)
    · exact ih (by rwa [addBloomKey_length]) hmem

lemma bitSet_append {tail : Slice} (hq : bitSet array q = true) : bitSet (array ++ tail) q = true := by
  by_cases hlt : q / 8 < array.length
  · rwa [bitSet, getElem?_append_left hlt]
  · rw [bitSet, getElem?_eq_none (not_lt.1 hlt)] at hq
    simp at hq

lemma bloomBytes_pos (n bitsPerKey : Nat) : 8 ≤ bloomBytes n bitsPerKey := by
  unfold bloomBytes
  dsimp only
  split_ifs <;> omega

section

variable (bitsPerKey)

lemma createFilter_length (keys : List Slice) (index : Nat) :
    ((bloomFilterPolicy bitsPerKey).createFilter keys index).1.length = bloomBytes keys.length bitsPerKey + 1 := by
  simp [bloomFilterPolicy, foldl_addBloomKey_length]

lemma probesFor_le : probesFor bitsPerKey ≤ 30 := by
  unfold probesFor
  omega

lemma bloomFilterPolicy_sound : (bloomFilterPolicy bitsPerKey).Sound where
  keeps _ _ := rfl
  matches_of_mem := by
    intro keys index key hkey
    have hpos := bloomBytes_pos keys.length bitsPerKey
    have hk := probesFor_le bitsPerKey
    have hlen := createFilter_length bitsPerKey keys index
    set bytes := bloomBytes keys.length bitsPerKey with hbytes
    set array := keys.foldl (addBloomKey (bytes * 8) (probesFor bitsPerKey) index) (replicate bytes 0) with harray
    have hfilter : ((bloomFilterPolicy bitsPerKey).createFilter keys index).1 =
        array ++ [UInt8.ofNat (probesFor bitsPerKey)] := rfl
    have harrayLen : array.length = bytes := by rw [harray, foldl_addBloomKey_length, length_replicate]
    -- the reader finds the number of probes and of bits that the writer used
    have hlast : (((array ++ [UInt8.ofNat (probesFor bitsPerKey)])[bytes]?).getD 0).toNat = probesFor bitsPerKey := by
      rw [← harrayLen, getElem?_append_right le_rfl, Nat.sub_self]
      exact UInt8.toNat_ofNat_of_lt' (by unfold UInt8.size; omega)
    rw [hfilter] at hlen ⊢
    simp only [bloomFilterPolicy, hlen, Nat.add_sub_cancel, hlast]
    rw [if_neg (by omega), if_neg (by omega)]
    exact probesSet_mono (fun q hq => bitSet_append hq) (probesSet_foldl (by omega) (by rw [length_replicate]) hkey)
  length_eq keys i j := by rw [createFilter_length, createFilter_length]

end

-- keys that were not added can be told apart
example : (bloomFilterPolicy 10).keyMayMatch [120] ((bloomFilterPolicy 10).createFilter [[97], [98, 99]] 1).1 1 = false := by
  decide +kernel

end RallyDB.Util

namespace RallyDB.Db

open List Util

/-- The units that the policy for internal keys makes of the bloom filter match every key of the list, with any sequence,
and have one length. -/
theorem bloomUnits_sound (bitsPerKey : Nat) (keys : List (InternalKey Slice)) (n : Nat) :
    let policy := internalFilterPolicy (bloomFilterPolicy bitsPerKey)
    let units := policy.createUnits n 0 (keys.map InternalKey.encode)
    units.length = n ∧
      (∀ k ∈ keys, ∀ k' : InternalKey Slice, k'.userKey = k.userKey → ∀ (i : Nat) (f : Slice), units[i]? = some f →
        policy.keyMayMatch k'.encode f i = true) ∧
      ∀ f ∈ units, ∀ g ∈ units, f.length = g.length := by
  intro policy units
  have hsound := internalFilterPolicy_soundFor (bloomFilterPolicy_sound bitsPerKey)
  refine ⟨FilterPolicy.createUnits_length _ _ _, ?_, hsound.length_eq n _⟩
  intro k hk k' hsame i f hf
  refine hsound.matches_of_mem n _ k.encode (mem_map_of_mem hk) k'.encode ?_ i f hf
  rw [extractUserKey_encode, extractUserKey_encode, hsame]

end RallyDB.Db
