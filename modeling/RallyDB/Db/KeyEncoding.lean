import RallyDB.Db.DbFormat
import RallyDB.Util.Comparator
import RallyDB.Util.FilterPolicy

/-!
# Internal keys as bytes (`db/dbformat.h`, `db/dbformat.cc`)
-/

namespace RallyDB.Db

open Util List InternalKey

/-! ## Encoding -/

variable (internalKey : Slice)

def extractUserKey : Slice := internalKey.take (internalKey.length - 8)

def extractTag : Nat := decodeFixed64 (internalKey.drop (internalKey.length - 8))

def InternalKey.encode (k : InternalKey Slice) : Slice := k.userKey ++ encodeFixed64 k.tag

def parseInternalKey : Option (InternalKey Slice) :=
  if internalKey.length < 8 then none
  else
    let num := extractTag internalKey
    match num % 256 with
    | 0 => some ⟨extractUserKey internalKey, num / 256, .deletion⟩
    | 1 => some ⟨extractUserKey internalKey, num / 256, .value⟩
    | _ => none

def InternalKey.Storable (k : InternalKey Slice) : Prop := k.sequence ≤ kMaxSequenceNumber

variable {k a b : InternalKey Slice}

lemma InternalKey.Storable.tag_lt (h : k.Storable) : k.tag < 2 ^ 64 := by
  have hcode := k.type.code_lt
  unfold Storable kMaxSequenceNumber at h
  unfold tag packSequenceAndType
  omega

@[simp] lemma InternalKey.encode_length (k : InternalKey Slice) : k.encode.length = k.userKey.length + 8 := by
  simp [encode]

variable {u last sep key : Slice}

@[simp] lemma extractUserKey_append {t : Slice} (h : t.length = 8) : extractUserKey (u ++ t) = u := by
  rw [extractUserKey, length_append, h, Nat.add_sub_cancel, take_left]

lemma extractTag_append {n : Nat} (h : n < 2 ^ 64) : extractTag (u ++ encodeFixed64 n) = n := by
  rw [extractTag, length_append, encodeFixed64_length, Nat.add_sub_cancel, drop_left]
  have := decodeFixed64_encodeFixed64 h []
  rwa [append_nil] at this

@[simp] lemma extractUserKey_encode (k : InternalKey Slice) : extractUserKey k.encode = k.userKey :=
  extractUserKey_append (encodeFixed64_length _)

lemma extractTag_encode (h : k.Storable) : extractTag k.encode = k.tag :=
  extractTag_append h.tag_lt

lemma parseInternalKey_encode (h : k.Storable) : parseInternalKey k.encode = some k := by
  obtain ⟨u, s, t⟩ := k
  unfold parseInternalKey
  dsimp only
  rw [if_neg (by simp), extractTag_encode h, extractUserKey_encode]
  cases t with
  | deletion =>
    have hmod : s * 256 % 256 = 0 := by omega
    have hdiv : s * 256 / 256 = s := by omega
    simp [tag, packSequenceAndType, ValueType.code, hmod, hdiv]
  | value =>
    have hmod : (s * 256 + 1) % 256 = 1 := by omega
    have hdiv : (s * 256 + 1) / 256 = s := by omega
    simp [tag, packSequenceAndType, ValueType.code, hmod, hdiv]

/-! ## The comparator -/

def keyRank (k : Slice) : Slice ×ₗ Natᵒᵈ := toLex (extractUserKey k, OrderDual.toDual (extractTag k))

def internalKeyCompare (akey bkey : Slice) : Ordering :=
  match bytewiseCompare (extractUserKey akey) (extractUserKey bkey) with
  | .eq =>
    let anum := extractTag akey
    let bnum := extractTag bkey
    if bnum < anum then .lt else if anum < bnum then .gt else .eq
  | r => r

lemma keyRank_lt_iff {a b : Slice} : keyRank a < keyRank b ↔ extractUserKey a < extractUserKey b ∨
    extractUserKey a = extractUserKey b ∧ extractTag b < extractTag a := by
  simp only [keyRank, Prod.Lex.toLex_lt_toLex, OrderDual.toDual_lt_toDual]

lemma keyRank_le_iff {a b : Slice} : keyRank a ≤ keyRank b ↔ extractUserKey a < extractUserKey b ∨
    extractUserKey a = extractUserKey b ∧ extractTag b ≤ extractTag a := by
  simp only [keyRank, Prod.Lex.toLex_le_toLex, OrderDual.toDual_le_toDual]

lemma internalKeyCompare_lt_iff {a b : Slice} : internalKeyCompare a b = .lt ↔ keyRank a < keyRank b := by
  unfold internalKeyCompare
  rw [keyRank_lt_iff]
  cases h : bytewiseCompare (extractUserKey a) (extractUserKey b) with
  | lt => simp [bytewiseCompare_lt_iff.1 h]
  | eq =>
    have he := bytewiseCompare_eq_iff.1 h
    by_cases h1 : extractTag b < extractTag a
    · simp [h1, he]
    · by_cases h2 : extractTag a < extractTag b <;> simp [h1, h2, he]
  | gt =>
    have hlt : ¬ extractUserKey a < extractUserKey b := by
      rw [← bytewiseCompare_lt_iff, h]
      decide
    have hne : extractUserKey a ≠ extractUserKey b := by
      rw [Ne, ← bytewiseCompare_eq_iff, h]
      decide
    simp [hlt, hne]

lemma keyRank_encode_lt_iff (ha : a.Storable) (hb : b.Storable) : keyRank a.encode < keyRank b.encode ↔ a < b := by
  rw [keyRank_lt_iff, lt_iff, extractUserKey_encode, extractUserKey_encode, extractTag_encode ha, extractTag_encode hb]

lemma keyRank_encode_le_iff (ha : a.Storable) (hb : b.Storable) : keyRank a.encode ≤ keyRank b.encode ↔ a ≤ b := by
  rw [keyRank_le_iff, le_iff, extractUserKey_encode, extractUserKey_encode, extractTag_encode ha, extractTag_encode hb]

def shortened (key tmp : Slice) : Slice :=
  let userKey := extractUserKey key
  if tmp.length < userKey.length ∧ bytewiseCompare userKey tmp = .lt then
    tmp ++ encodeFixed64 (packSequenceAndType kMaxSequenceNumber kValueTypeForSeek)
  else key

def internalFindShortestSeparator (start limit : Slice) : Slice :=
  shortened start (bytewiseFindShortestSeparator (extractUserKey start) (extractUserKey limit))

def internalFindShortSuccessor (key : Slice) : Slice :=
  shortened key (bytewiseFindShortSuccessor (extractUserKey key))

lemma shortened_spec (key tmp : Slice) : shortened key tmp = key ∨
    extractUserKey (shortened key tmp) = tmp ∧ extractUserKey key < tmp := by
  unfold shortened
  dsimp only
  split_ifs with h
  · exact .inr ⟨extractUserKey_append (encodeFixed64_length _), bytewiseCompare_lt_iff.1 h.2⟩
  · exact .inl rfl

def Separates (last sep : Slice) : Prop := sep = last ∨ extractUserKey last < extractUserKey sep

lemma Separates.le (h : Separates last sep) : keyRank last ≤ keyRank sep := by
  rcases h with rfl | h
  · exact le_refl _
  · exact keyRank_le_iff.2 (.inl h)

def Precedes (last sep key : Slice) : Prop :=
  sep = last ∧ keyRank last < keyRank key ∨ extractUserKey sep < extractUserKey key

lemma Precedes.lt (h : Precedes last sep key) : keyRank sep < keyRank key := by
  rcases h with ⟨rfl, h⟩ | h
  · exact h
  · exact keyRank_lt_iff.2 (.inl h)

lemma Precedes.trans {key' : Slice} (h : Precedes last sep key) (hk : keyRank key ≤ keyRank key') :
    Precedes last sep key' := by
  rcases h with ⟨he, h⟩ | h
  · exact .inl ⟨he, h.trans_le hk⟩
  · rcases keyRank_le_iff.1 hk with hlt | ⟨heq, -⟩
    · exact .inr (h.trans hlt)
    · exact .inr (heq ▸ h)

lemma internalFindShortestSeparator_spec {start limit : Slice} (h : keyRank start < keyRank limit) :
    Separates start (internalFindShortestSeparator start limit) ∧
    Precedes start (internalFindShortestSeparator start limit) limit := by
  rcases shortened_spec start (bytewiseFindShortestSeparator (extractUserKey start) (extractUserKey limit)) with
    he | ⟨hu, hlt⟩
  · exact ⟨.inl he, .inl ⟨he, h⟩⟩
  · rw [← hu] at hlt
    refine ⟨.inr hlt, .inr ?_⟩
    rw [hu] at hlt
    rw [internalFindShortestSeparator, hu]
    rcases bytewiseFindShortestSeparator_spec (extractUserKey start) (extractUserKey limit) with he | hb
    · rw [he] at hlt
      exact absurd hlt (lt_irrefl _)
    · exact hb.2

lemma internalFindShortSuccessor_spec (key : Slice) : Separates key (internalFindShortSuccessor key) := by
  rcases shortened_spec key (bytewiseFindShortSuccessor (extractUserKey key)) with he | ⟨hu, hlt⟩
  · exact .inl he
  · rw [← hu] at hlt
    exact .inr hlt

variable (user : FilterPolicy)

def internalFilterPolicy : FilterPolicy where
  name := user.name
  createFilter keys index :=
    user.createFilter (if index = 0 then keys.map extractUserKey else keys) index
  keyMayMatch key filter index := user.keyMayMatch (extractUserKey key) filter index

lemma createUnits_internal_succ (n index : Nat) (keys : List Slice) :
    (internalFilterPolicy user).createUnits n (index + 1) keys = user.createUnits n (index + 1) keys := by
  induction n generalizing index keys with
  | zero => rfl
  | succ n ih =>
    have hcreate : (internalFilterPolicy user).createFilter keys (index + 1) = user.createFilter keys (index + 1) := rfl
    simp only [FilterPolicy.createUnits, hcreate, ih]

lemma createUnits_internal (n : Nat) (keys : List Slice) :
    (internalFilterPolicy user).createUnits n 0 keys = user.createUnits n 0 (keys.map extractUserKey) := by
  cases n with
  | zero => rfl
  | succ n =>
    have hcreate : (internalFilterPolicy user).createFilter keys 0 = user.createFilter (keys.map extractUserKey) 0 := rfl
    simp only [FilterPolicy.createUnits, hcreate, createUnits_internal_succ]

lemma internalFilterPolicy_soundFor {user : FilterPolicy} (h : user.Sound) :
    (internalFilterPolicy user).SoundFor fun k k' => extractUserKey k = extractUserKey k' where
  matches_of_mem := by
    intro n keys k hk k' hs i f hf
    rw [createUnits_internal] at hf
    exact h.soundFor.matches_of_mem n _ _ (mem_map_of_mem hk) _ hs i f hf
  length_eq := by
    intro n keys
    rw [createUnits_internal]
    exact h.soundFor.length_eq n _

end RallyDB.Db
