import RallyDB.Lib.Lists
import RallyDB.Table.Block
import RallyDB.Table.BlockBuilder

/-!
# A block that was built is searched correctly
-/

namespace RallyDB.Table

open Util List BlockIter BlockBuilder Nat
open BlockBuilder (finish)

structure Item where
  shared : Nat
  key : Slice
  value : Slice

def Item.entry (i : Item) : Slice × Slice := (i.key, i.value)

def Item.bytes (i : Item) : Slice := BlockBuilder.entryBytes i.shared i.key i.value

def Item.Follows (prev : Slice) (i : Item) : Prop :=
  i.shared ≤ prev.length ∧ i.shared ≤ i.key.length ∧ prev.take i.shared = i.key.take i.shared

def ItemsFrom : Slice → List Item → Prop
  | _, [] => True
  | last, i :: items => i.Follows last ∧ ItemsFrom i.key items

def lastKeyOf (prev : Slice) (items : List Item) : Slice := (items.getLast?.map Item.key).getD prev

def RestartAt (items : List Item) (offset : Nat) : Prop :=
  ∃ A i B, items = A ++ i :: B ∧ i.shared = 0 ∧ offset = (A.flatMap Item.bytes).length % 2 ^ 32

structure Encodes (b : BlockBuilder) (items : List Item) : Prop where
  buffer : b.buffer = items.flatMap Item.bytes
  chain : ItemsFrom [] items
  lastKey : b.lastKey = lastKeyOf [] items
  first : b.restarts[0]? = some 0
  restarts : ∀ j offset, b.restarts[j]? = some offset → j ≠ 0 → RestartAt items offset

/-! ## Building -/

variable {prev s rest : Slice} {i : Item}

lemma itemsFrom_append {items : List Item} (h : ItemsFrom prev items)
    (hi : i.Follows (lastKeyOf prev items)) : ItemsFrom prev (items ++ [i]) := by
  induction items generalizing prev with
  | nil => exact ⟨hi, trivial⟩
  | cons j items ih =>
    refine ⟨h.1, ih h.2 ?_⟩
    cases items with
    | nil => exact hi
    | cons k items =>
      have hlast : lastKeyOf prev (j :: k :: items) = lastKeyOf j.key (k :: items) := by
        simp [lastKeyOf, getLast?_eq_some_getLast]
      rwa [hlast] at hi

lemma ItemsFrom.restart {A B : List Item} (h : ItemsFrom prev (A ++ i :: B))
    (hi : i.shared = 0) : ItemsFrom [] (i :: B) := by
  induction A generalizing prev with
  | nil => exact ⟨⟨by simp [hi], by omega, by simp [hi]⟩, h.2⟩
  | cons j A ih => exact ih h.2

lemma RestartAt.append {items : List Item} {offset : Nat} (h : RestartAt items offset) (i : Item) :
    RestartAt (items ++ [i]) offset := by
  obtain ⟨A, j, B, rfl, hj, ho⟩ := h
  exact ⟨A, j, B ++ [i], by simp, hj, ho⟩

lemma encodes_new : Encodes .new [] where
  buffer := rfl
  chain := trivial
  lastKey := rfl
  first := rfl
  restarts := by
    intro j offset h hj
    simp [new, hj] at h

@[simp] lemma lastKeyOf_append (prev : Slice) (items : List Item) (i : Item) :
    lastKeyOf prev (items ++ [i]) = i.key := by simp [lastKeyOf]

lemma Encodes.add {b : BlockBuilder} {items : List Item} (h : Encodes b items) (interval : Nat) (key value : Slice) :
    ∃ i : Item, i.entry = (key, value) ∧ Encodes (b.add interval key value) (items ++ [i]) := by
  unfold BlockBuilder.add
  split_ifs with hc
  · -- the item shares what the two keys have in common
    refine ⟨⟨commonLength b.lastKey key, key, value⟩, rfl, ?_⟩
    constructor
    · simp [h.buffer, Item.bytes]
    · apply itemsFrom_append h.chain
      rw [← h.lastKey]
      exact ⟨commonLength_le_left _ _, commonLength_le_right _ _, take_commonLength _ _⟩
    · dsimp only
      rw [lastKeyOf_append, take_commonLength, take_append_drop]
    · exact h.first
    · intro j offset hj h0
      exact (h.restarts j offset hj h0).append _
  · refine ⟨⟨0, key, value⟩, rfl, ?_⟩
    constructor
    · simp [h.buffer, Item.bytes]
    · exact itemsFrom_append h.chain ⟨zero_le _, zero_le _, by simp⟩
    · rw [lastKeyOf_append]
    · rw [getElem?_append_left (List.getElem?_eq_some_iff.1 h.first).1]
      exact h.first
    · intro j offset hj h0
      rw [getElem?_append] at hj
      split_ifs at hj
      · exact (h.restarts j offset hj h0).append _
      · obtain rfl := mem_singleton.1 (mem_of_getElem? hj)
        exact ⟨items, _, [], rfl, rfl, by rw [h.buffer]⟩

lemma getVarint32_of_lt {b : UInt8} (h : b.toNat < 128) : getVarint32 (b :: s) = some (b.toNat, s) := by
  rw [getVarint32, if_pos ((and_128_eq_zero_iff b.toNat_lt).2 h)]

lemma decodeEntry_of_varints {s1 s2 s3 : Slice} {shared nonShared valueLength : Nat}
    (h1 : getVarint32 s = some (shared, s1)) (h2 : getVarint32 s1 = some (nonShared, s2))
    (h3 : getVarint32 s2 = some (valueLength, s3)) (hfit : nonShared + valueLength ≤ s3.length) :
    decodeEntry s = some (shared, nonShared, valueLength, s3) := by
  have l1 := length_getVarint32 h1
  have l2 := length_getVarint32 h2
  have l3 := length_getVarint32 h3
  match s, l1 with
  | [], l1 => simp at l1
  | [_], l1 =>
    simp only [length_singleton] at l1
    omega
  | [_, _], l1 =>
    simp only [length_cons, length_nil] at l1
    omega
  | b0 :: b1 :: b2 :: rest, _ =>
    unfold decodeEntry
    dsimp only
    rw [Option.filter_eq_some_iff]
    refine ⟨?_, decide_eq_true ((mod_le _ _).trans hfit)⟩
    split_ifs with hfast
    · have hor : b0.toNat ||| b1.toNat ||| b2.toNat < 128 := by
        simpa [UInt8.lt_iff_toNat_lt] using hfast
      have hb0 : b0.toNat < 128 := lt_of_le_of_lt (left_le_or.trans left_le_or) hor
      have hb1 : b1.toNat < 128 := lt_of_le_of_lt (right_le_or.trans left_le_or) hor
      have hb2 : b2.toNat < 128 := lt_of_le_of_lt right_le_or hor
      rw [getVarint32_of_lt hb0] at h1
      cases h1
      rw [getVarint32_of_lt hb1] at h2
      cases h2
      rw [getVarint32_of_lt hb2] at h3
      cases h3
      rfl
    · simp [h1, h2, h3]

lemma decodeEntry_bytes (hs : i.shared ≤ i.key.length) (hk : i.key.length < 2 ^ 32)
    (hv : i.value.length < 2 ^ 32) (rest : Slice) : decodeEntry (i.bytes ++ rest) =
    some (i.shared, i.key.length - i.shared, i.value.length, i.key.drop i.shared ++ (i.value ++ rest)) := by
  have e1 : i.shared % 2 ^ 32 = i.shared := mod_eq_of_lt (lt_of_le_of_lt hs hk)
  have e2 : (i.key.length - i.shared) % 2 ^ 32 = i.key.length - i.shared :=
    mod_eq_of_lt (lt_of_le_of_lt (sub_le _ _) hk)
  have e3 : i.value.length % 2 ^ 32 = i.value.length := mod_eq_of_lt hv
  simp only [Item.bytes, entryBytes, e1, e2, e3, append_assoc]
  apply decodeEntry_of_varints (getVarint32_encode (lt_of_le_of_lt hs hk) _)
    (getVarint32_encode (lt_of_le_of_lt (sub_le _ _) hk) _) (getVarint32_encode hv _)
  simp only [length_append, length_drop]
  omega

/-! ## The iterator of a finished block -/

structure IterOf (b : BlockBuilder) (it : BlockIter) : Prop where
  data : it.data = b.finish
  restarts : it.restarts = b.buffer.length
  numRestarts : it.numRestarts = b.restarts.length

def BlockIter.entry (it : BlockIter) : Option (Slice × Slice) :=
  if it.valid then some (it.key, it.value) else none

variable {b : BlockBuilder} {items : List Item} {it : BlockIter}

lemma IterOf.bytesFrom (h : IterOf b it) (offset : Nat) : it.bytesFrom offset = b.buffer.drop offset := by
  rw [BlockIter.bytesFrom, h.data, h.restarts, finish, append_assoc, take_left]

lemma IterOf.keyDelta (h : IterOf b it) (before : Slice) {n : Nat} (hbuf : b.buffer = before ++ rest)
    (hn : n ≤ rest.length) : it.keyDelta rest n = rest.take n := by
  have hoffset : it.restarts - rest.length = before.length := by
    rw [h.restarts, hbuf, length_append, Nat.add_sub_cancel]
  rw [BlockIter.keyDelta, hoffset, h.data, finish, hbuf, append_assoc, append_assoc, drop_left, take_append_of_le_length hn]

lemma IterOf.getRestartPoint (h : IterOf b it) {j offset : Nat} (hj : b.restarts[j]? = some offset)
    (ho : offset < 2 ^ 32) : it.getRestartPoint j = offset := by
  rw [BlockIter.getRestartPoint, h.data, h.restarts, finish, append_assoc, ← drop_drop,
    drop_left, mul_comm, Lib.drop_flatMap_const (fun _ _ => encodeFixed32_length _) hj,
    decodeFixed32_encodeFixed32 ho]

def Item.header (i : Item) : Slice :=
  encodeVarint32 (i.shared % 2 ^ 32) ++ (encodeVarint32 ((i.key.length - i.shared) % 2 ^ 32) ++
    encodeVarint32 (i.value.length % 2 ^ 32))

lemma Item.bytes_eq (i : Item) : i.bytes = i.header ++ (i.key.drop i.shared ++ i.value) := by
  simp [bytes, header, entryBytes]

lemma encodeVarint32_ne_nil (v : Nat) : encodeVarint32 v ≠ [] := by
  unfold encodeVarint32
  split_ifs <;> simp

lemma Item.bytes_pos (i : Item) : 0 < i.bytes.length := by
  have := length_pos_of_ne_nil (encodeVarint32_ne_nil (i.shared % 2 ^ 32))
  simp only [bytes, entryBytes, length_append]
  omega

lemma ItemsFrom.key_length {items : List Item} (h : ItemsFrom prev items)
    (hi : i ∈ items) : i.key.length ≤ prev.length + (items.flatMap Item.bytes).length ∧
    i.value.length ≤ (items.flatMap Item.bytes).length := by
  induction items generalizing prev with
  | nil => cases hi
  | cons j items ih =>
    have hj : j.key.length ≤ prev.length + j.bytes.length ∧ j.value.length ≤ j.bytes.length := by
      have := h.1.1
      have hlen := congrArg List.length j.bytes_eq
      simp only [length_append, length_drop] at hlen
      omega
    rw [flatMap_cons, length_append]
    rcases mem_cons.1 hi with rfl | hi
    · omega
    · have := ih h.2 hi
      omega

lemma IterOf.parseNextKey (h : IterOf b it) {before : Slice}
    (hbuf : b.buffer = before ++ (i.bytes ++ rest)) (hoff : it.nextEntryOffset = before.length)
    (hi : i.Follows it.key) (hk : i.key.length < 2 ^ 32) (hv : i.value.length < 2 ^ 32) :
    ∃ it', it.parseNextKey = (it', true) ∧ IterOf b it' ∧ it'.entry = some i.entry ∧ it'.key = i.key ∧
    it'.nextEntryOffset = (before ++ i.bytes).length ∧ it'.status = it.status := by
  obtain ⟨hs, hs', htake⟩ := hi
  have hlen : b.buffer.length = before.length + (i.bytes.length + rest.length) := by
    rw [hbuf, length_append, length_append]
  have hpos := i.bytes_pos
  have hbytes : it.bytesFrom before.length = i.bytes ++ rest := by
    rw [h.bytesFrom, hbuf, drop_left]
  have hrestarts := it.restarts_lt
  rw [h.restarts] at hrestarts
  set valueOffset := it.restarts - (i.key.drop i.shared ++ (i.value ++ rest)).length + (i.key.length - i.shared)
    with hvo
  have hparts := congrArg List.length i.bytes_eq
  simp only [length_append, length_drop] at hparts
  have hvalueOffset : valueOffset = (before ++ (i.header ++ i.key.drop i.shared)).length := by
    rw [hvo, h.restarts]
    simp only [length_append, length_drop]
    omega
  have hvalue : (it.data.drop valueOffset).take i.value.length = i.value := by
    have hdata : it.data = (before ++ (i.header ++ i.key.drop i.shared)) ++ (i.value ++ (rest ++
        (b.restarts.flatMap encodeFixed32 ++ encodeFixed32 b.restarts.length))) := by
      rw [h.data, finish, hbuf, i.bytes_eq]
      simp only [append_assoc]
    rw [hdata, hvalueOffset, drop_left, take_left]
  have hdelta : it.keyDelta (i.key.drop i.shared ++ (i.value ++ rest)) (i.key.length - i.shared) = i.key.drop i.shared := by
    rw [h.keyDelta (before ++ i.header), ← length_drop, take_left]
    · rw [hbuf, i.bytes_eq]
      simp only [append_assoc]
    · simp only [length_append, length_drop]
      omega
  refine ⟨{ it with
    current := before.length
    key := i.key
    valueOffset
    valueLength := i.value.length
    restartIndex := it.advanceRestart before.length it.restartIndex }, ?_, ⟨h.data, h.restarts, h.numRestarts⟩,
    ?_, rfl, ?_, rfl⟩
  · unfold BlockIter.parseNextKey
    dsimp only
    rw [hoff, if_neg (by rw [h.restarts]; omega), hbytes, decodeEntry_bytes hs' hk hv]
    dsimp only
    rw [if_neg (by omega), hdelta, htake, take_append_drop]
  · have hvalid : before.length < it.restarts := by
      rw [h.restarts]
      omega
    simp [BlockIter.entry, BlockIter.valid, hvalid, BlockIter.value, hvalue, Item.entry]
  · simp only [BlockIter.nextEntryOffset, hvalueOffset, length_append, length_drop]
    rw [Nat.mod_eq_of_lt (by omega)]
    omega

lemma IterOf.parseNextKey_end (h : IterOf b it) (hoff : it.nextEntryOffset = b.buffer.length) :
    ∃ it', it.parseNextKey = (it', false) ∧ it'.entry = none ∧ it'.status = it.status := by
  unfold BlockIter.parseNextKey
  dsimp only
  rw [if_pos (by rw [hoff, h.restarts])]
  exact ⟨_, rfl, by simp [BlockIter.entry, BlockIter.valid], rfl⟩

/-! ## Seeking -/

variable {cmp : Slice → Slice → Ordering} {target : Slice}

lemma IterOf.scan (items : List Item) (before : Slice) (h : IterOf b it)
    (hbuf : b.buffer = before ++ items.flatMap Item.bytes) (hoff : it.nextEntryOffset = before.length)
    (hchain : ItemsFrom it.key items) (hlen : ∀ i ∈ items, i.key.length < 2 ^ 32 ∧ i.value.length < 2 ^ 32) :
    (it.scan cmp target).entry = (items.find? fun i => cmp i.key target ≠ .lt).map Item.entry ∧
    (it.scan cmp target).status = it.status := by
  induction items generalizing it before with
  | nil =>
    have hend : before.length = b.buffer.length := by simp [hbuf]
    obtain ⟨it', hparse, hentry, hstatus⟩ := h.parseNextKey_end (hoff.trans hend)
    unfold scan
    split
    · rename_i it'' he
      cases hparse.symm.trans he
      exact ⟨hentry, hstatus⟩
    · rename_i it'' he
      cases hparse.symm.trans he
  | cons i items ih =>
    have hi := hlen i mem_cons_self
    obtain ⟨it', hparse, hiter, hentry, hkey, hnext, hstatus⟩ :=
      h.parseNextKey hbuf hoff hchain.1 hi.1 hi.2
    unfold scan
    split
    · rename_i it'' he
      cases hparse.symm.trans he
    · rename_i it'' he
      cases hparse.symm.trans he
      rw [hkey]
      split_ifs with hcmp
      · have hrest := ih (before ++ i.bytes) hiter (by rw [hbuf]; simp) hnext
          (by rw [hkey]; exact hchain.2) fun j hj => hlen j (mem_cons_of_mem _ hj)
        rw [find?_cons_of_neg (by simpa using hcmp), ← hstatus]
        exact hrest
      · rw [find?_cons_of_pos (by simpa using hcmp)]
        exact ⟨hentry, hstatus⟩

section

variable (cmp target)

def StartsBefore (b : BlockBuilder) (items : List Item) (j : Nat) : Prop :=
  ∃ A i B, items = A ++ i :: B ∧ i.shared = 0 ∧ b.restarts[j]? = some (A.flatMap Item.bytes).length ∧ cmp i.key target = .lt

lemma Encodes.item_lengths (h : Encodes b items) (hb : b.finish.length < 2 ^ 32) {i : Item} (hi : i ∈ items) :
    i.key.length < 2 ^ 32 ∧ i.value.length < 2 ^ 32 := by
  have hle := h.chain.key_length hi
  have hbuf : (items.flatMap Item.bytes).length < 2 ^ 32 := by
    rw [← h.buffer]
    simp only [finish, length_append] at hb
    omega
  simp only [length_nil] at hle
  omega

lemma Encodes.restart (h : Encodes b items) (hb : b.finish.length < 2 ^ 32) {j : Nat} (hj : j < b.restarts.length)
    (h0 : j ≠ 0) : ∃ A i B, items = A ++ i :: B ∧ i.shared = 0 ∧ b.restarts[j]? = some (A.flatMap Item.bytes).length ∧
    (A.flatMap Item.bytes).length < 2 ^ 32 := by
  obtain ⟨A, i, B, hitems, hs, hoff⟩ := h.restarts j _ (getElem?_eq_getElem hj) h0
  have hlt : (A.flatMap Item.bytes).length < 2 ^ 32 := by
    have hbuf := congrArg List.length h.buffer
    rw [hitems, flatMap_append, length_append] at hbuf
    simp only [finish, length_append] at hb
    omega
  refine ⟨A, i, B, hitems, hs, ?_, hlt⟩
  rw [getElem?_eq_getElem hj, hoff, mod_eq_of_lt hlt]

lemma IterOf.decode_restart (h : IterOf b it) (he : Encodes b items) (hb : b.finish.length < 2 ^ 32) {j : Nat}
    (hj : j < b.restarts.length) (h0 : j ≠ 0) :
    ∃ A i B rest, items = A ++ i :: B ∧ i.shared = 0 ∧ b.restarts[j]? = some (A.flatMap Item.bytes).length ∧
    decodeEntry (it.bytesFrom (it.getRestartPoint j)) =
    some (0, i.key.length, i.value.length, i.key ++ rest) ∧ it.keyDelta (i.key ++ rest) i.key.length = i.key := by
  obtain ⟨A, i, B, hitems, hs, hget, hlt⟩ := he.restart hb hj h0
  have hi := he.item_lengths hb (i := i) (by simp [hitems])
  refine ⟨A, i, B, i.value ++ B.flatMap Item.bytes, hitems, hs, hget, ?_, ?_⟩
  · rw [h.getRestartPoint hget hlt, h.bytesFrom, he.buffer, hitems, flatMap_append, drop_left,
      flatMap_cons, decodeEntry_bytes (by omega) hi.1 hi.2, hs]
    simp
  · rw [h.keyDelta (A.flatMap Item.bytes ++ i.header), take_left]
    · rw [he.buffer, hitems, flatMap_append, flatMap_cons, i.bytes_eq, hs]
      simp only [drop_zero, append_assoc]
    · simp

lemma IterOf.searchRestarts (left right : Nat)
    (h : IterOf b it) (he : Encodes b items) (hb : b.finish.length < 2 ^ 32) (hright : right < b.restarts.length) (hle : left ≤ right)
    (hleft : left = 0 ∨ StartsBefore cmp target b items left) :
    ∃ l, it.searchRestarts cmp target left right = some l ∧ l < b.restarts.length ∧
    (l = 0 ∨ StartsBefore cmp target b items l) := by
  fun_induction BlockIter.searchRestarts cmp target it left right with
  | case1 left right hlt mid nonShared valueLength rest hdec hcmp ih =>
    obtain ⟨A, i, B, rest', hitems, hs, hget, hdec', hdelta⟩ :=
      h.decode_restart he hb (j := mid) (by omega) (by omega)
    cases hdec.symm.trans hdec'
    rw [hdelta] at hcmp
    exact ih hright (by omega) (.inr ⟨A, i, B, hitems, hs, hget, hcmp⟩)
  | case2 left right hlt mid nonShared valueLength rest hdec hcmp ih =>
    exact ih (by omega) (by omega) hleft
  | case3 left right hlt mid hdec =>
    obtain ⟨A, i, B, rest', -, -, -, hdec', -⟩ := h.decode_restart he hb (j := mid) (by omega) (by omega)
    exact absurd hdec' (hdec _ _ _)
  | case4 left right hlt => exact ⟨left, rfl, by omega, hleft⟩

def Skips (items : List Item) : Prop :=
  ∀ A i B, items = A ++ i :: B → cmp i.key target = .lt →
    items.find? (fun x => cmp x.key target ≠ .lt) = (i :: B).find? fun x => cmp x.key target ≠ .lt

end

lemma IterOf.seek (target : Slice) (h : IterOf b it) (he : Encodes b items)
    (hb : b.finish.length < 2 ^ 32) (hskip : Skips cmp target items) (hvalid : it.valid = false) :
    (it.seek cmp target).entry = (items.find? fun i => cmp i.key target ≠ .lt).map Item.entry ∧
    (it.seek cmp target).status = it.status := by
  have hpos : 0 < b.restarts.length := (List.getElem?_eq_some_iff.1 he.first).1
  obtain ⟨l, hsearch, hl, hstart⟩ := h.searchRestarts cmp target 0 (it.numRestarts - 1) he hb
    (by rw [h.numRestarts]; omega) (zero_le _) (.inl rfl)
  have hseek : it.seek cmp target = (it.seekToRestartPoint l).scan cmp target := by
    simp [BlockIter.seek, hvalid, hsearch]
  have hiter : IterOf b (it.seekToRestartPoint l) := ⟨h.data, h.restarts, h.numRestarts⟩
  rw [hseek]
  rcases hstart with rfl | ⟨A, i, B, rfl, hs, hget, hlt⟩
  · have hpoint : it.getRestartPoint 0 = 0 := h.getRestartPoint he.first (by decide)
    exact hiter.scan items [] (by rw [he.buffer]; rfl)
      (by simp [BlockIter.seekToRestartPoint, BlockIter.nextEntryOffset, hpoint]) he.chain
      fun i hi => he.item_lengths hb hi
  · have hlen : (A.flatMap Item.bytes).length < 2 ^ 32 := by
      have hbuf := congrArg List.length he.buffer
      rw [flatMap_append, length_append] at hbuf
      simp only [finish, length_append] at hb
      omega
    have hpoint := h.getRestartPoint hget hlen
    rw [hskip A i B rfl hlt]
    refine hiter.scan (i :: B) (A.flatMap Item.bytes) (by rw [he.buffer, flatMap_append])
      (by rw [BlockIter.nextEntryOffset, BlockIter.seekToRestartPoint, hpoint, add_zero, Nat.mod_eq_of_lt hlen]) ?_
      fun j hj => he.item_lengths hb (mem_append_right _ hj)
    exact ItemsFrom.restart he.chain hs

lemma finish_drop_last (b : BlockBuilder) : b.finish.drop (b.finish.length - 4) = encodeFixed32 b.restarts.length := by
  have hlen : b.finish.length - 4 = (b.buffer ++ b.restarts.flatMap encodeFixed32).length := by
    simp only [finish, length_append, encodeFixed32_length, Nat.add_sub_cancel]
  rw [hlen, finish, drop_left]

lemma finish_length (b : BlockBuilder) : b.finish.length = b.buffer.length + 4 * b.restarts.length + 4 := by
  rw [finish, length_append, length_append, encodeFixed32_length, Lib.flatMap_length_const fun _ _ => encodeFixed32_length _]

lemma newIterator_finish (hr : 0 < b.restarts.length) (hb : b.finish.length < 2 ^ 32) :
    ∃ it, (Block.new b.finish).newIterator = .ok (some it) ∧ IterOf b it ∧ it.valid = false ∧ it.status = .ok () := by
  have hlen := finish_length b
  have hnum : numRestartsOf b.finish b.finish.length = b.restarts.length := by
    have := decodeFixed32_encodeFixed32 (v := b.restarts.length) (by omega) []
    rw [numRestartsOf, finish_drop_last]
    rwa [append_nil] at this
  have hblock : Block.new b.finish = ⟨b.finish, b.finish.length, b.buffer.length⟩ := by
    unfold Block.new
    dsimp only
    rw [hnum, if_neg (by omega), if_neg (by omega)]
    congr 1
    omega
  unfold Block.newIterator
  rw [hblock]
  dsimp only
  rw [hnum, if_neg (by omega), if_neg (by omega)]
  exact ⟨_, rfl, ⟨rfl, mod_eq_of_lt (by omega), rfl⟩, by simp [valid], rfl⟩

lemma Encodes.seek_skip (cmp : Slice → Slice → Ordering) (target : Slice) (he : Encodes b items)
    (hb : b.finish.length < 2 ^ 32) (hskip : Skips cmp target items) : (Block.new b.finish).seek cmp target =
    ((items.find? fun i => cmp i.key target ≠ .lt).map Item.entry, .ok ()) := by
  obtain ⟨it, hnew, hiter, hvalid, hstatus⟩ :=
    newIterator_finish (List.getElem?_eq_some_iff.1 he.first).1 hb
  obtain ⟨hentry, hst⟩ := hiter.seek target he hb hskip hvalid
  unfold Block.seek
  rw [hnew]
  exact Prod.ext hentry (hst.trans hstatus)

variable {α : Type*} [LinearOrder α]

lemma skips_of_sorted (rank : Slice → α) (target : Slice) (hcmp : ∀ a b, cmp a b = .lt ↔ rank a < rank b)
    (hsorted : items.Pairwise fun x y => rank x.key < rank y.key) : Skips cmp target items := by
  rintro A i B rfl hi
  have hnone : A.find? (fun x => cmp x.key target ≠ .lt) = none := by
    rw [find?_eq_none]
    intro a ha
    have hlt := (pairwise_append.1 hsorted).2.2 a ha i mem_cons_self
    simpa [hcmp] using hlt.trans ((hcmp _ _).1 hi)
  rw [find?_append, hnone, Option.none_or]

lemma Encodes.seek (cmp : Slice → Slice → Ordering) (rank : Slice → α) (target : Slice)
    (hcmp : ∀ a b, cmp a b = .lt ↔ rank a < rank b) (he : Encodes b items) (hb : b.finish.length < 2 ^ 32) (hsorted : items.Pairwise fun x y => rank x.key < rank y.key) :
    (Block.new b.finish).seek cmp target = ((items.find? fun i => cmp i.key target ≠ .lt).map Item.entry, .ok ()) :=
  he.seek_skip cmp target hb (skips_of_sorted rank target hcmp hsorted)

end RallyDB.Table
