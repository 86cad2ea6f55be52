import RallyDB.Lib.Lists
import RallyDB.Table.Lemmas.Units

/-!
# What a reader of the filter block knows
-/

namespace RallyDB.Table

/-! ## What the builder of the filter block has built -/

section

open Util List

variable {policy : FilterPolicy}

def groupUnit (policy : FilterPolicy) (i : Nat) (keys : List Slice) : Slice :=
  if keys = [] then [] else (policy.createUnits kAllFilterUnitsNumber 0 keys).getD i []

structure Builds (policy : FilterPolicy) (b : FilterBlockBuilder) (gs : List (List Slice)) : Prop where
  units : b.filterUnits = (List.range kAllFilterUnitsNumber).map fun i => gs.flatMap (groupUnit policy i)
  offsets : b.filterOffsets = (List.range gs.length).map fun j => ((gs.take j).flatMap (groupUnit policy 0)).length % 2 ^ 32

def Covers (gs : List (List Slice)) (added : List (Nat × Slice)) : Prop :=
  ∀ p ∈ added, ∃ g, gs[p.1 / kFilterBase]? = some g ∧ p.2 ∈ g

variable {b : FilterBlockBuilder} {gs : List (List Slice)}

lemma Builds.unitSize (h : Builds policy b gs) : b.unitSize = (gs.flatMap (groupUnit policy 0)).length := by
  rw [FilterBlockBuilder.unitSize, h.units]
  rfl

lemma Builds.offsets_length (h : Builds policy b gs) : b.filterOffsets.length = gs.length := by simp [h.offsets]

lemma builds_new : Builds policy .new [] where
  units := rfl
  offsets := rfl

lemma createUnits_eq_groupUnit {keys : List Slice} (h : keys ≠ []) : policy.createUnits kAllFilterUnitsNumber 0 keys =
    (List.range kAllFilterUnitsNumber).map fun i => groupUnit policy i keys := by
  apply ext_getElem
  · simp
  · intro i h1 h2
    simp [groupUnit, h, getElem?_eq_getElem h1]

lemma Builds.generateFilter (h : Builds policy b gs) :
    Builds policy (b.generateFilter policy) (gs ++ [b.keys]) ∧ (b.generateFilter policy).keys = [] := by
  have hoffsets : b.filterOffsets ++ [b.unitSize % 2 ^ 32] = (List.range (gs ++ [b.keys]).length).map
        fun j => (((gs ++ [b.keys]).take j).flatMap (groupUnit policy 0)).length % 2 ^ 32 := by
    rw [length_append, length_singleton, range_succ, map_append, h.offsets, h.unitSize]
    congr 1
    · apply map_congr_left
      intro j hj
      rw [take_append_of_le_length (mem_range.1 hj).le]
    · simp
  unfold FilterBlockBuilder.generateFilter
  dsimp only
  split_ifs with hk
  · refine ⟨⟨?_, hoffsets⟩, hk⟩
    simp [h.units, hk, groupUnit]
  · refine ⟨⟨?_, hoffsets⟩, rfl⟩
    dsimp only
    rw [h.units, createUnits_eq_groupUnit hk, zipWith_map, zipWith_self]
    simp

variable {added : List (Nat × Slice)}

lemma Covers.append (h : Covers gs added) (g : List Slice) : Covers (gs ++ [g]) added := by
  intro p hp
  obtain ⟨g', hg, hmem⟩ := h p hp
  exact ⟨g', by rw [getElem?_append_left (List.getElem?_eq_some_iff.1 hg).1, hg], hmem⟩

lemma Covers.of_append_nil (h : Covers (gs ++ [[]]) added) : Covers gs added := by
  intro p hp
  obtain ⟨g, hg, hmem⟩ := h p hp
  rw [getElem?_append] at hg
  split_ifs at hg with hlt
  · exact ⟨g, hg, hmem⟩
  · obtain rfl := mem_singleton.1 (mem_of_getElem? hg)
    cases hmem

lemma Builds.generateUpTo
    (index : Nat) (h : Builds policy b gs) (hc : Covers (gs ++ [b.keys]) added) (hle : gs.length ≤ index) :
    ∃ gs', Builds policy (b.generateUpTo policy index) gs' ∧
    Covers (gs' ++ [(b.generateUpTo policy index).keys]) added ∧ gs'.length = index := by
  fun_induction FilterBlockBuilder.generateUpTo policy index b generalizing gs with
  | case1 b hlt ih =>
    obtain ⟨hgen, hkeys⟩ := h.generateFilter
    rw [h.offsets_length] at hlt
    apply ih hgen
    · rw [hkeys]
      exact hc.append []
    · rw [length_append, length_singleton]
      exact hlt
  | case2 b hlt =>
    rw [h.offsets_length] at hlt
    exact ⟨gs, h, hc, by omega⟩

def addedKeys : Option Nat → List BuilderCall → List (Nat × Slice)
  | _, [] => []
  | _, .startBlock o :: calls => addedKeys (some o) calls
  | none, .addKey _ :: calls => addedKeys none calls
  | some o, .addKey key :: calls => (o, key) :: addedKeys (some o) calls

def startOffsets (calls : List BuilderCall) : List Nat :=
  calls.filterMap fun
    | .startBlock o => some o
    | .addKey _ => none

lemma Covers.addKey {keys : List Slice} (key : Slice)
    (h : Covers (gs ++ [keys]) added) : Covers (gs ++ [keys ++ [key]]) added := by
  intro p hp
  obtain ⟨g, hg, hmem⟩ := h p hp
  rw [getElem?_append] at hg
  split_ifs at hg with hlt
  · exact ⟨g, by rw [getElem?_append_left hlt, hg], hmem⟩
  · have hlt' : p.1 / kFilterBase - gs.length < 1 := (List.getElem?_eq_some_iff.1 hg).1
    obtain rfl := mem_singleton.1 (mem_of_getElem? hg)
    refine ⟨g ++ [key], ?_, mem_append_left _ hmem⟩
    rw [getElem?_append_right (by omega), Nat.lt_one_iff.1 hlt']
    rfl

lemma builds_calls (calls : List BuilderCall) (added : List (Nat × Slice)) (cur : Option Nat) (h : Builds policy b gs)
    (hc : Covers (gs ++ [b.keys]) added) (hcur : gs.length = cur.getD 0 / kFilterBase)
    (hle : ∀ o ∈ startOffsets calls, cur.getD 0 ≤ o) (hmono : (startOffsets calls).Pairwise (· ≤ ·)) :
    ∃ gs', Builds policy (calls.foldl (BuilderCall.apply policy) b) gs' ∧
    Covers (gs' ++ [(calls.foldl (BuilderCall.apply policy) b).keys]) (added ++ addedKeys cur calls) := by
  induction calls generalizing b gs added cur with
  | nil => exact ⟨gs, h, by simpa [addedKeys] using hc⟩
  | cons call calls ih =>
    cases call with
    | startBlock o =>
      simp only [startOffsets, filterMap_cons] at hle hmono
      have ho : cur.getD 0 ≤ o := hle o mem_cons_self
      obtain ⟨gs', h', hc', hlen⟩ := h.generateUpTo (o / kFilterBase) hc (hcur ▸ Nat.div_le_div_right ho)
      obtain ⟨hfirst, hmono'⟩ := pairwise_cons.1 hmono
      exact ih added (some o) h' hc' hlen hfirst hmono'
    | addKey key =>
      simp only [startOffsets, filterMap_cons] at hle hmono
      have hc' := hc.addKey key
      cases cur with
      | none => exact ih added none (b := b.addKey key) ⟨h.units, h.offsets⟩ hc' hcur hle hmono
      | some o =>
        have hnew : Covers (gs ++ [b.keys ++ [key]]) (added ++ [(o, key)]) := by
          intro p hp
          rcases mem_append.1 hp with hp | hp
          · exact hc' p hp
          · obtain rfl := mem_singleton.1 hp
            have hidx : o / kFilterBase = gs.length := hcur.symm
            exact ⟨b.keys ++ [key], by simp [hidx], mem_append_right _ mem_cons_self⟩
        have hrun := ih _ (some o) (b := b.addKey key) ⟨h.units, h.offsets⟩ hnew hcur hle hmono
        rw [append_assoc] at hrun
        exact hrun

lemma buildFilters_builds (policy : FilterPolicy) {calls : List BuilderCall} (hmono : (startOffsets calls).Pairwise (· ≤ ·)) :
    ∃ gs, Builds policy (buildFilters policy calls) gs ∧ Covers gs (addedKeys none calls) := by
  obtain ⟨gs, h, hc⟩ := builds_calls calls [] none (builds_new : Builds policy _ _)
    (fun _ hp => absurd hp not_mem_nil) rfl (fun _ _ => Nat.zero_le _) hmono
  rw [nil_append] at hc
  unfold buildFilters FilterBlockBuilder.returnFilters
  split_ifs with hk
  · rw [hk] at hc
    exact ⟨gs, h, hc.of_append_nil⟩
  · exact ⟨_, h.generateFilter.1, hc⟩

end

open Util List FilterBlockReader
open UInt8 (ofNat)

variable {policy : FilterPolicy} {same : Slice → Slice → Prop} {b : FilterBlockBuilder} {gs : List (List Slice)}

/-! ## The parts of a unit -/

variable {i j : Nat}

lemma groupUnit_length (hp : policy.SoundFor same) (hi : i < kAllFilterUnitsNumber)
    (g : List Slice) : (groupUnit policy i g).length = (groupUnit policy 0 g).length := by
  unfold groupUnit
  split_ifs
  · rfl
  · have hget (j : Nat) (hj : j < kAllFilterUnitsNumber) :
        (policy.createUnits kAllFilterUnitsNumber 0 g).getD j [] ∈ policy.createUnits kAllFilterUnitsNumber 0 g := by
      rw [getD_eq_getElem?_getD, getElem?_eq_getElem (by simpa using hj)]
      exact getElem_mem _
    exact hp.length_eq _ _ _ (hget i hi) _ (hget 0 (by decide))

lemma flatMap_groupUnit_length (hp : policy.SoundFor same) (hi : i < kAllFilterUnitsNumber) (gs : List (List Slice)) :
    (gs.flatMap (groupUnit policy i)).length = (gs.flatMap (groupUnit policy 0)).length := by
  induction gs with
  | nil => rfl
  | cons g gs ih => simp [groupUnit_length hp hi, ih]

variable {g : List Slice}

lemma groupUnit_matches (hp : policy.SoundFor same) (hi : i < kAllFilterUnitsNumber)
    {k k' : Slice} (hk : k ∈ g) (hs : same k k') : policy.keyMayMatch k' (groupUnit policy i g) i = true := by
  have hne : g ≠ [] := ne_nil_of_mem hk
  apply hp.matches_of_mem kAllFilterUnitsNumber g k hk k' hs
  rw [groupUnit, if_neg hne, getD_eq_getElem?_getD, getElem?_eq_getElem (by simpa using hi)]
  rfl

lemma unit_slice (hp : policy.SoundFor same) (hi : i < kAllFilterUnitsNumber) (hg : gs[j]? = some g) :
    ((gs.flatMap (groupUnit policy i)).drop ((gs.take j).flatMap (groupUnit policy 0)).length).take
    (groupUnit policy 0 g).length = groupUnit policy i g := by
  rw [← flatMap_groupUnit_length hp hi, ← groupUnit_length hp hi, Lib.flatMap_eq_append _ hg, drop_left, take_left]

lemma flatMap_take_succ (hg : gs[j]? = some g) (f : List Slice → Slice) :
    ((gs.take (j + 1)).flatMap f).length = ((gs.take j).flatMap f).length + (f g).length := by
  rw [take_add_one, hg]
  simp

lemma flatMap_take_le (j : Nat) (f : List Slice → Slice) : ((gs.take j).flatMap f).length ≤ (gs.flatMap f).length := by
  conv_rhs => rw [← take_append_drop j gs, flatMap_append, length_append]
  exact Nat.le_add_right _ _

lemma decodeFixed32_flatMap {l : List Nat} {x : Nat} (rest : Slice) (h : l[i]? = some x) (hx : x < 2 ^ 32) :
    decodeFixed32 ((l.flatMap encodeFixed32 ++ rest).drop (i * 4)) = x := by
  rw [mul_comm, Lib.drop_flatMap_const (fun _ _ => encodeFixed32_length _) h, decodeFixed32_encodeFixed32 hx]

structure ReaderOk (b : FilterBlockBuilder) (offset : Nat) (r : FilterBlockReader) : Prop where
  contents : ∃ tail, r.contents = (b.filterOffsets ++ [b.unitSize]).flatMap encodeFixed32 ++ tail
  diskOffset : r.diskOffset = offset
  diskSize : r.diskSize = b.unitSize
  allUnitsNumber : r.allUnitsNumber = kAllFilterUnitsNumber
  baseLg : r.baseLg = kFilterBaseLg
  num : r.num = b.filterOffsets.length
  units : r.filterUnits <+: b.filterUnits

lemma new_finish (uninit : FilterBlockReader) {offset : Nat} (hsize : b.unitSize < 2 ^ 32) (hoffset : offset < 2 ^ 64) :
    new uninit (b.finish ⟨offset, b.unitSize⟩) =
    { contents := b.finish ⟨offset, b.unitSize⟩
      diskOffset := offset
      diskSize := b.unitSize
      initUnitsNumber := kLoadFilterUnitsNumber
      allUnitsNumber := kAllFilterUnitsNumber
      baseLg := kFilterBaseLg
      num := b.filterOffsets.length
      reloadUnitsNumber := kLoadFilterUnitsNumber
      accessTime := 0
      sequence := 0
      filterUnits := [] } := by
  set A := (b.filterOffsets ++ [b.unitSize]).flatMap encodeFixed32 with hA
  have hlenA : A.length = 4 * b.filterOffsets.length + 4 := by
    rw [hA, Lib.flatMap_length_const fun _ _ => encodeFixed32_length _, length_append, length_singleton, mul_add]
  have hfinish : b.finish ⟨offset, b.unitSize⟩ =
      A ++ (encodeFixed64 offset ++ (encodeFixed32 b.unitSize ++ (encodeFixed32 kLoadFilterUnitsNumber ++
        (encodeFixed32 kAllFilterUnitsNumber ++ [ofNat kFilterBaseLg])))) := by
    simp [FilterBlockBuilder.finish, hA, append_assoc]
  have hlen : (b.finish ⟨offset, b.unitSize⟩).length = A.length + 21 := by
    rw [hfinish]
    simp
  -- each number of the tail is reached by dropping what stands before it
  have hnext {n k : Nat} {x rest : Slice} (h : (b.finish ⟨offset, b.unitSize⟩).drop n = x ++ rest) (hx : x.length = k) :
      (b.finish ⟨offset, b.unitSize⟩).drop (n + k) = rest := by rw [← drop_drop, h, drop_left' hx]
  have h21 := (congrArg (drop A.length) hfinish).trans drop_left
  have h13 := hnext h21 (encodeFixed64_length _)
  have h9 := hnext h13 (encodeFixed32_length _)
  have h5 := hnext h9 (encodeFixed32_length _)
  have h1 := hnext h5 (encodeFixed32_length _)
  unfold new
  dsimp only
  rw [if_neg (by omega), hlen, show A.length + 21 - 21 = A.length by omega, show A.length + 21 - 13 = A.length + 8 by omega,
    show A.length + 21 - 9 = A.length + 8 + 4 by omega, show A.length + 21 - 5 = A.length + 8 + 4 + 4 by omega,
    show A.length + 21 - 1 = A.length + 8 + 4 + 4 + 4 by omega, h21, h13, h9, h5, h1, decodeFixed64_encodeFixed64 hoffset,
    decodeFixed32_encodeFixed32 hsize, decodeFixed32_encodeFixed32 (by decide), decodeFixed32_encodeFixed32 (by decide),
    show (A.length + 21 - 25) / 4 = b.filterOffsets.length by omega]
  rfl

lemma readerOk_new (uninit : FilterBlockReader) {offset : Nat} (hsize : b.unitSize < 2 ^ 32) (hoffset : offset < 2 ^ 64) :
    ReaderOk b offset (.new uninit (b.finish ⟨offset, b.unitSize⟩)) := by
  rw [new_finish uninit hsize hoffset]
  refine ⟨⟨encodeFixed64 offset ++ (encodeFixed32 b.unitSize ++ (encodeFixed32 kLoadFilterUnitsNumber ++
    (encodeFixed32 kAllFilterUnitsNumber ++ [ofNat kFilterBaseLg]))), ?_⟩, rfl, rfl, rfl, rfl, rfl, ⟨_, rfl⟩⟩
  simp only [FilterBlockBuilder.finish, flatMap_append, flatMap_singleton, append_assoc]

/-! ## Loading and evicting -/

variable {offset : Nat} {r : FilterBlockReader}

lemma ReaderOk.withUnits (h : ReaderOk b offset r) {units : List Slice} {reload : Nat} (hu : units <+: b.filterUnits) :
    ReaderOk b offset { r with filterUnits := units, reloadUnitsNumber := reload } :=
  { h with units := hu }

lemma ReaderOk.updateState (sn : Nat) (h : ReaderOk b offset r) : ReaderOk b offset (r.updateState sn) := { h with }

lemma ReaderOk.take (h : ReaderOk b offset r) (n : Nat) : ReaderOk b offset { r with filterUnits := r.filterUnits.take n } :=
  h.withUnits (( take_prefix n _).trans h.units)

lemma ReaderOk.evictFilter (h : ReaderOk b offset r) : ReaderOk b offset r.evictFilter.1 := by
  obtain ⟨n, hn⟩ := r.evictFilter_take
  exact hn ▸ h.take n

lemma ReaderOk.cleanFilter (h : ReaderOk b offset r) : ReaderOk b offset r.cleanFilter.1 := by
  rw [r.cleanFilter_eq]
  exact h.withUnits nil_prefix

structure HoldsUnits (crc : Crc32c) (b : FilterBlockBuilder) (offset : Nat) (bytes : Slice) : Prop where
  sizes : ∀ u ∈ b.filterUnits, u.length = b.unitSize
  placed : ∃ before after, before.length = offset ∧ bytes = before ++ (writeRawFilters crc b.filterUnits ++ after)

lemma ReaderOk.loadFilter {crc : Crc32c} {bytes : Slice} (file : HonestFile bytes)
    (hf : HoldsUnits crc b offset bytes) (hb : b.filterUnits.length = kAllFilterUnitsNumber)
    (h : ReaderOk b offset r) : ReaderOk b offset (r.loadFilter crc file.toRandomAccessFile).1 := by
  rcases hload : r.loadFilter crc file.toRandomAccessFile with ⟨r', _ | _⟩
  · unfold FilterBlockReader.loadFilter at hload
    dsimp only at hload
    split_ifs at hload
    · cases hload
      exact h
    · split at hload <;> cases hload
      exact h
  · obtain ⟨data, rfl, hlt, hread⟩ := FilterBlockReader.loadFilter_ok hload
    obtain ⟨before, after, hbefore, hbytes⟩ := hf.placed
    rw [h.allUnitsNumber, ← hb] at hlt
    set i := r.filterUnits.length with hi
    have hu : b.filterUnits[i]? = some b.filterUnits[i] := getElem?_eq_getElem hlt
    have hraw : ∀ u ∈ b.filterUnits, (rawBlock crc u).length = b.unitSize + kBlockTrailerSize := by
      intro u hu
      rw [rawBlock_length, hf.sizes u hu]
    have hle : (b.unitSize + kBlockTrailerSize) * i ≤ (writeRawFilters crc b.filterUnits).length := by
      rw [writeRawFilters, Lib.flatMap_length_const hraw]
      exact Nat.mul_le_mul_left _ hlt.le
    have hoff : (r.diskOffset + (r.diskSize + kBlockTrailerSize) * i) % 2 ^ 64 =
        before.length + (b.unitSize + kBlockTrailerSize) * i := by
      rw [h.diskOffset, h.diskSize, ← hbefore]
      apply Nat.mod_eq_of_lt
      have hlt := file.size_lt
      rw [hbytes, length_append, length_append] at hlt
      omega
    have hdata := (readBlock_ok hread).1
    rw [hoff, h.diskSize, hbytes, ← drop_drop, drop_left, writeRawFilters,
      Lib.drop_flatMap_const hraw hu, rawBlock, append_assoc, ← hf.sizes _ (mem_of_getElem? hu),
      take_left] at hdata
    rw [hdata]
    exact h.withUnits (Lib.isPrefix_snoc h.units hu)

section

variable {crc : Crc32c} {bytes : Slice} (hf : HoldsUnits crc b offset bytes)
  (hb : b.filterUnits.length = kAllFilterUnitsNumber)
include hf hb

lemma ReaderOk.loadUpTo (file : HonestFile bytes) (target : Nat) (h : ReaderOk b offset r) :
    ReaderOk b offset (r.loadUpTo crc file.toRandomAccessFile target).1 :=
  FilterBlockReader.loadUpTo_induction (fun _ h => h.loadFilter file hf hb) target h

lemma ReaderOk.goBackToInitFilter (file : HonestFile bytes) (h : ReaderOk b offset r) :
    ReaderOk b offset (r.goBackToInitFilter crc file.toRandomAccessFile).1 :=
  FilterBlockReader.goBackToInitFilter_induction (fun _ h => h.loadFilter file hf hb) (fun _ n h => h.take n) h

lemma ReaderOk.apply (call : ReaderCall bytes) (h : ReaderOk b offset r) : ReaderOk b offset (call.apply crc r) := by
  cases call with
  | load file => exact h.loadFilter file hf hb
  | evict => exact h.evictFilter
  | clean => exact h.cleanFilter
  | goBackToInit file => exact h.goBackToInitFilter hf hb file
  | updateState sn => exact h.updateState sn

lemma ReaderOk.run (calls : List (ReaderCall bytes)) (h : ReaderOk b offset r) : ReaderOk b offset (r.run crc calls) := by
  induction calls generalizing r with
  | nil => exact h
  | cons call calls ih => exact ih (h.apply hf hb call)

end

lemma Builds.filterUnits_length (h : Builds policy b gs) : b.filterUnits.length = kAllFilterUnitsNumber := by
  simp [h.units]

lemma Builds.holdsUnits (h : Builds policy b gs) (hp : policy.SoundFor same) (crc : Crc32c) (before after : Slice) :
    HoldsUnits crc b before.length (before ++ (writeRawFilters crc b.filterUnits ++ after)) where
  sizes := by
    intro u hu
    rw [h.units] at hu
    obtain ⟨i, hi, rfl⟩ := mem_map.1 hu
    rw [h.unitSize, flatMap_groupUnit_length hp (mem_range.1 hi)]
  placed := ⟨before, after, rfl, rfl⟩

lemma Builds.offsets_get (h : Builds policy b gs) (hsize : b.unitSize < 2 ^ 32) (hj : j ≤ gs.length) :
    (b.filterOffsets ++ [b.unitSize])[j]? = some ((gs.take j).flatMap (groupUnit policy 0)).length ∧
    ((gs.take j).flatMap (groupUnit policy 0)).length ≤ b.unitSize := by
  have hle : ((gs.take j).flatMap (groupUnit policy 0)).length ≤ b.unitSize := by
    rw [h.unitSize]
    exact flatMap_take_le j _
  refine ⟨?_, hle⟩
  rcases hj.lt_or_eq with hlt | rfl
  · rw [getElem?_append_left (by rwa [h.offsets_length]), h.offsets, getElem?_map,
      getElem?_range hlt, Option.map_some, Nat.mod_eq_of_lt (lt_of_le_of_lt hle hsize)]
  · rw [getElem?_append_right h.offsets_length.le, h.offsets_length, Nat.sub_self, take_length, h.unitSize]
    rfl

lemma unitsMatch_of_forall {key : Slice} {start limit : Nat} (units : List Slice) (i : Nat)
    (h : ∀ j u, units[j]? = some u → policy.keyMayMatch key ((u.drop start).take (limit - start)) (i + j) = true) :
    unitsMatch policy key start limit i units = true := by
  induction units generalizing i with
  | nil => rfl
  | cons u units ih =>
    rw [unitsMatch, Bool.and_eq_true]
    refine ⟨h 0 u rfl, ih (i + 1) fun j v hv => ?_⟩
    have := h (j + 1) v (by simpa using hv)
    rwa [add_assoc, add_comm 1 j]

lemma ReaderOk.keyMayMatch (hp : policy.SoundFor same) (hb : Builds policy b gs) (hsize : b.unitSize < 2 ^ 32)
    (h : ReaderOk b offset r) {o : Nat} {k k' : Slice} (hg : gs[o / kFilterBase]? = some g)
    (hk : k ∈ g) (hs : same k k') : r.keyMayMatch policy o k' = true := by
  obtain ⟨tail, hcontents⟩ := h.contents
  have hj : o / kFilterBase < gs.length := (List.getElem?_eq_some_iff.1 hg).1
  have hindex : o >>> r.baseLg = o / kFilterBase := by
    rw [h.baseLg, Nat.shiftRight_eq_div_pow]
    rfl
  obtain ⟨hstart, hstartLe⟩ := hb.offsets_get hsize hj.le
  obtain ⟨hlimit, hlimitLe⟩ := hb.offsets_get hsize (j := o / kFilterBase + 1) hj
  have hsucc := flatMap_take_succ hg (groupUnit policy 0)
  unfold FilterBlockReader.keyMayMatch
  simp only [hindex, h.num, hb.offsets_length, hj, if_true, hcontents, ← Nat.succ_mul, Nat.succ_eq_add_one]
  rw [decodeFixed32_flatMap tail hstart (by omega), decodeFixed32_flatMap tail hlimit (by omega),
    if_pos ⟨by omega, by rw [h.diskSize]; exact hlimitLe⟩]
  apply unitsMatch_of_forall
  intro i u hu
  have hu' : b.filterUnits[i]? = some u := by
    obtain ⟨t, ht⟩ := h.units
    rw [← ht, getElem?_append_left (List.getElem?_eq_some_iff.1 hu).1, hu]
  have hi : i < kAllFilterUnitsNumber := hb.filterUnits_length ▸ (List.getElem?_eq_some_iff.1 hu').1
  rw [hb.units, getElem?_map, getElem?_range hi, Option.map_some, Option.some.injEq] at hu'
  rw [← hu', hsucc, Nat.add_sub_cancel_left, unit_slice hp hi hg, zero_add]
  exact groupUnit_matches hp hi hk hs

end RallyDB.Table
