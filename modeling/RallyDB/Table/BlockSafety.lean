import RallyDB.Table.BlockIteration

/-!
# Iterating over a block of arbitrary bytes
-/

namespace RallyDB.Table

open Util Lib List

structure EntryExtent where
  keyOffset : Nat
  nonShared : Nat
  valueLength : Nat
  deriving DecidableEq

def EntryExtent.fits (e : EntryExtent) : Bool := e.nonShared + e.valueLength < 2 ^ 32

def EntryExtent.Inside (e : EntryExtent) (contents : Slice) : Prop :=
  e.keyOffset + e.nonShared + e.valueLength ≤ contents.length

namespace BlockIter

variable {cmp : Slice → Slice → Ordering} {target : Slice} {it it' : BlockIter} {contents : Slice}

def entryAt (it : BlockIter) (offset : Nat) : Option EntryExtent :=
  (decodeEntry (it.bytesFrom offset)).map fun d => ⟨it.restarts - d.2.2.2.length, d.2.1, d.2.2.1⟩

/-! ## What a call reads -/

def scanParses (cmp : Slice → Slice → Ordering) (target : Slice) (it : BlockIter) : List (BlockIter × BlockIter) :=
  match _h : it.parseNextKey with
  | (_, false) => []
  | (it', true) => (it, it') :: if cmp it'.key target = .lt then scanParses cmp target it' else []
termination_by it.restarts - it.nextEntryOffset
decreasing_by
  obtain ⟨h1, h2, h3⟩ := parseNextKey_true _h
  omega

def scanToParses (limit : Nat) (it : BlockIter) : List (BlockIter × BlockIter) :=
  match _h : it.parseNextKey with
  | (_, false) => []
  | (it', true) => (it, it') :: if it'.nextEntryOffset < limit then scanToParses limit it' else []
termination_by it.restarts - it.nextEntryOffset
decreasing_by
  obtain ⟨h1, h2, h3⟩ := parseNextKey_true _h
  omega

def oneParse (it : BlockIter) : List (BlockIter × BlockIter) :=
  if it.parseNextKey.2 then [(it, it.parseNextKey.1)] else []

def searchEntries (cmp : Slice → Slice → Ordering) (target : Slice) (it : BlockIter) (left right : Nat) : List EntryExtent :=
  if left < right then
    let mid := (left + right + 1) / 2
    match decodeEntry (it.bytesFrom (it.getRestartPoint mid)) with
    | some (0, nonShared, valueLength, rest) =>
      ⟨it.restarts - rest.length, nonShared, valueLength⟩ ::
        if cmp (it.keyDelta rest nonShared) target = .lt then it.searchEntries cmp target mid right
        else it.searchEntries cmp target left (mid - 1)
    | _ => []
  else []
termination_by right - left

section

variable (cmp it)

def seekBounds (target : Slice) : Nat × Nat :=
  let currentKeyCompare := if it.valid then cmp it.key target else .eq
  (if currentKeyCompare = .lt then it.restartIndex else 0,
    if currentKeyCompare = .gt then it.restartIndex else it.numRestarts - 1)

def seekParses (target : Slice) : List (BlockIter × BlockIter) :=
  let currentKeyCompare := if it.valid then cmp it.key target else .eq
  if it.valid ∧ currentKeyCompare = .eq then []
  else
    match it.searchRestarts cmp target (it.seekBounds cmp target).1 (it.seekBounds cmp target).2 with
    | none => []
    | some left =>
      if left = it.restartIndex ∧ currentKeyCompare = .lt then it.scanParses cmp target
      else (it.seekToRestartPoint left).scanParses cmp target

def parses : Db.IteratorCall Slice → List (BlockIter × BlockIter)
  | .seek target => it.seekParses cmp target
  | .seekToFirst => (it.seekToRestartPoint 0).oneParse
  | .seekToLast => (it.seekToRestartPoint (it.numRestarts - 1)).scanToParses it.restarts
  | .next => it.oneParse
  | .prev =>
    match it.prevRestart it.current it.restartIndex with
    | none => []
    | some index => (it.seekToRestartPoint index).scanToParses it.current

def probes : Db.IteratorCall Slice → List EntryExtent
  | .seek target =>
    if it.valid ∧ cmp it.key target = .eq then []
    else it.searchEntries cmp target (it.seekBounds cmp target).1 (it.seekBounds cmp target).2
  | _ => []

def NoWrap (call : Db.IteratorCall Slice) : Prop :=
  ((it.parses cmp call).all fun p => (p.1.entryAt p.1.nextEntryOffset).all EntryExtent.fits) = true ∧
    ((it.probes cmp call).all EntryExtent.fits) = true

instance NoWrap.instDecidable (call : Db.IteratorCall Slice) :
    Decidable (it.NoWrap cmp call) := inferInstanceAs (Decidable (_ ∧ _))

end

structure ReadsInside (cmp : Slice → Slice → Ordering) (contents : Slice) (it : BlockIter)
    (call : Db.IteratorCall Slice) : Prop where
  parses : ∀ p ∈ it.parses cmp call, ∃ e, p.1.entryAt p.1.nextEntryOffset = some e ∧ e.Inside contents
  probes : ∀ e ∈ it.probes cmp call, e.Inside contents
  increasing : ∀ p ∈ it.parses cmp call, p.2.current = p.1.nextEntryOffset ∧ p.2.current < p.2.nextEntryOffset

def Same (it it' : BlockIter) : Prop := it'.data = it.data ∧ it'.restarts = it.restarts

lemma Same.trans {it'' : BlockIter} (h : Same it it') (h' : Same it' it'') : Same it it'' :=
  ⟨h'.1.trans h.1, h'.2.trans h.2⟩

variable {e : EntryExtent}

lemma entryAt_fits {offset : Nat} (h : it.entryAt offset = some e) (hfits : e.fits = true) :
    e.keyOffset + e.nonShared + e.valueLength ≤ it.restarts := by
  obtain ⟨⟨shared, nonShared, valueLength, rest⟩, hdec, rfl⟩ := Option.map_eq_some_iff.1 h
  obtain ⟨hlt, hmod⟩ := decodeEntry_length hdec
  have hlen : (it.bytesFrom offset).length ≤ it.restarts := by
    simp only [bytesFrom, length_drop, length_take]
    omega
  have hsum : nonShared + valueLength < 2 ^ 32 := of_decide_eq_true hfits
  rw [Nat.mod_eq_of_lt hsum] at hmod
  dsimp only
  omega

lemma parseNextKey_same (it : BlockIter) : Same it it.parseNextKey.1 := by
  unfold parseNextKey
  dsimp only
  split_ifs
  · exact ⟨rfl, rfl⟩
  · split
    · exact ⟨rfl, rfl⟩
    · split_ifs <;> exact ⟨rfl, rfl⟩

lemma parseNextKey_false (h : it.parseNextKey = (it', false)) : it'.valid = false := by
  unfold parseNextKey at h
  dsimp only at h
  split_ifs at h
  · cases h
    simp [valid]
  · split at h
    · cases h
      simp [valid, corruptionError]
    · split_ifs at h
      · cases h
        simp [valid, corruptionError]
      · cases h

lemma entryAt_of_parse (h : it.parseNextKey = (it', true)) : ∃ e, it.entryAt it.nextEntryOffset = some e ∧
    it'.valueOffset + it'.valueLength = e.keyOffset + e.nonShared + e.valueLength := by
  unfold parseNextKey at h
  dsimp only at h
  split_ifs at h
  · cases h
  · split at h
    · cases h
    · rename_i shared nonShared valueLength rest hdec
      split_ifs at h
      · cases h
      · cases h
        refine ⟨⟨it.restarts - rest.length, nonShared, valueLength⟩, ?_, rfl⟩
        rw [entryAt, hdec]
        rfl

/-! ## All entries of a call -/

def Parsed (it : BlockIter) (p : BlockIter × BlockIter) : Prop := p.1.parseNextKey = (p.2, true) ∧ Same it p.1

def Found (it' : BlockIter) (ps : List (BlockIter × BlockIter)) : Prop := it'.valid = false ∨ ∃ p ∈ ps, p.2 = it'

variable {ps : List (BlockIter × BlockIter)}

lemma Found.cons (h : Found it' ps) (p : BlockIter × BlockIter) : Found it' (p :: ps) := by
  rcases h with hinvalid | ⟨q, hq, he⟩
  · exact .inl hinvalid
  · exact .inr ⟨q, mem_cons_of_mem p hq, he⟩

lemma scan_of_false (h : it.parseNextKey = (it', false)) : it.scan cmp target = it' := by
  unfold scan
  split
  · rename_i it'' h'
    cases h.symm.trans h'
    rfl
  · rename_i it'' h'
    cases h.symm.trans h'

lemma scan_of_true (h : it.parseNextKey = (it', true)) :
    it.scan cmp target = if cmp it'.key target = .lt then it'.scan cmp target else it' := by
  conv_lhs => unfold scan
  split
  · rename_i it'' h'
    cases h.symm.trans h'
  · rename_i it'' h'
    cases h.symm.trans h'
    rfl

lemma scanTo_of_false {limit : Nat} (h : it.parseNextKey = (it', false)) : it.scanTo limit = it' := by
  unfold scanTo
  split
  · rename_i it'' h'
    cases h.symm.trans h'
    rfl
  · rename_i it'' h'
    cases h.symm.trans h'

lemma scanTo_of_true {limit : Nat} (h : it.parseNextKey = (it', true)) :
    it.scanTo limit = if it'.nextEntryOffset < limit then it'.scanTo limit else it' := by
  conv_lhs => unfold scanTo
  split
  · rename_i it'' h'
    cases h.symm.trans h'
  · rename_i it'' h'
    cases h.symm.trans h'
    rfl

structure Loop (it it' : BlockIter) (ps : List (BlockIter × BlockIter)) : Prop where
  parsed : ∀ p ∈ ps, Parsed it p
  same : Same it it'
  found : Found it' ps

lemma Loop.of_false (h : it.parseNextKey = (it', false)) : Loop it it' [] := by
  have hsame := parseNextKey_same it
  rw [h] at hsame
  exact ⟨by simp, hsame, .inl (parseNextKey_false h)⟩

lemma Loop.of_true (h : it.parseNextKey = (it', true)) : Loop it it' [(it, it')] := by
  have hsame := parseNextKey_same it
  rw [h] at hsame
  refine ⟨fun p hp => ?_, hsame, .inr ⟨(it, it'), by simp, rfl⟩⟩
  rw [mem_singleton.1 hp]
  exact ⟨h, rfl, rfl⟩

lemma Loop.cons {last : BlockIter} (h : it.parseNextKey = (it', true))
    (hloop : Loop it' last ps) : Loop it last ((it, it') :: ps) := by
  have hsame := (Loop.of_true h).same
  refine ⟨fun p hp => ?_, hsame.trans hloop.same, hloop.found.cons _⟩
  rcases mem_cons.1 hp with rfl | hp
  · exact ⟨h, rfl, rfl⟩
  · exact ⟨(hloop.parsed p hp).1, hsame.trans (hloop.parsed p hp).2⟩

lemma Loop.of_same {first last : BlockIter} (h : Same it first) (hloop : Loop first last ps) : Loop it last ps :=
  ⟨fun p hp => ⟨(hloop.parsed p hp).1, h.trans (hloop.parsed p hp).2⟩, h.trans hloop.same, hloop.found⟩

section

variable (cmp target)

lemma scan_loop (it : BlockIter) : Loop it (it.scan cmp target) (it.scanParses cmp target) := by
  fun_induction scanParses cmp target it with
  | case1 it it' h =>
    rw [scan_of_false h]
    exact Loop.of_false h
  | case2 it it' h ih =>
    rw [scan_of_true h]
    split_ifs
    · exact ih.cons h
    · exact Loop.of_true h

lemma scanTo_loop (limit : Nat) (it : BlockIter) : Loop it (it.scanTo limit) (it.scanToParses limit) := by
  fun_induction scanToParses limit it with
  | case1 it it' h =>
    rw [scanTo_of_false h]
    exact Loop.of_false h
  | case2 it it' h ih =>
    rw [scanTo_of_true h]
    split_ifs
    · exact ih.cons h
    · exact Loop.of_true h

lemma oneParse_loop (it : BlockIter) : Loop it it.parseNextKey.1 it.oneParse := by
  rw [oneParse]
  cases h : it.parseNextKey with
  | mk it' found =>
    cases found with
    | false => exact Loop.of_false h
    | true => exact Loop.of_true h

lemma seekToRestartPoint_same (it : BlockIter) (index : Nat) : Same it (it.seekToRestartPoint index) := ⟨rfl, rfl⟩

lemma seek_loop (it : BlockIter) :
    (it.seek cmp target = it ∧ it.seekParses cmp target = []) ∨ Loop it (it.seek cmp target) (it.seekParses cmp target) := by
  rw [seek, seekParses, seekBounds]
  generalize (if it.valid then cmp it.key target else .eq) = currentKeyCompare
  by_cases hstay : it.valid ∧ currentKeyCompare = .eq
  · rw [if_pos hstay, if_pos hstay]
    exact .inl ⟨rfl, rfl⟩
  · right
    rw [if_neg hstay, if_neg hstay]
    dsimp only
    cases it.searchRestarts cmp target (if currentKeyCompare = .lt then it.restartIndex else 0)
        (if currentKeyCompare = .gt then it.restartIndex else it.numRestarts - 1) with
    | none => exact ⟨by simp, ⟨rfl, rfl⟩, .inl (by simp [corruptionError, valid])⟩
    | some left =>
      dsimp only
      by_cases hskip : left = it.restartIndex ∧ currentKeyCompare = .lt
      · rw [if_pos hskip, if_pos hskip]
        exact scan_loop cmp target it
      · rw [if_neg hskip, if_neg hskip]
        exact (scan_loop cmp target _).of_same (it.seekToRestartPoint_same left)

end

lemma call_loop {call : Db.IteratorCall Slice} (h : it.call cmp call = some it') :
    (it' = it ∧ it.parses cmp call = []) ∨ Loop it it' (it.parses cmp call) := by
  cases call with
  | seek target =>
    cases h
    exact it.seek_loop cmp target
  | seekToFirst =>
    cases h
    exact .inr ((oneParse_loop _).of_same (it.seekToRestartPoint_same 0))
  | seekToLast =>
    cases h
    exact .inr ((scanTo_loop _ _).of_same (it.seekToRestartPoint_same _))
  | next =>
    rw [BlockIter.call] at h
    split_ifs at h
    cases h
    exact .inr it.oneParse_loop
  | prev =>
    rw [BlockIter.call] at h
    split_ifs at h
    cases h
    right
    rw [prev, parses]
    cases it.prevRestart it.current it.restartIndex with
    | none => exact ⟨by simp, ⟨rfl, rfl⟩, .inl (by simp [valid])⟩
    | some index => exact (scanTo_loop _ _).of_same (it.seekToRestartPoint_same index)

lemma mem_searchEntries {left right : Nat} (h : e ∈ it.searchEntries cmp target left right) :
    ∃ offset, it.entryAt offset = some e := by
  fun_induction searchEntries cmp target it left right with
  | case1 left right hlt mid nonShared valueLength rest hdec ih1 ih2 =>
    rcases mem_cons.1 h with rfl | h
    · exact ⟨it.getRestartPoint mid, by rw [entryAt, hdec]; rfl⟩
    · split_ifs at h
      · exact ih1 h
      · exact ih2 h
  | case2 left right hlt mid hdec => cases h
  | case3 left right hlt => cases h

lemma mem_probes {call : Db.IteratorCall Slice} (h : e ∈ it.probes cmp call) : ∃ offset, it.entryAt offset = some e := by
  cases call with
  | seek target =>
    rw [probes] at h
    split_ifs at h
    · cases h
    · exact mem_searchEntries h
  | seekToFirst => cases h
  | seekToLast => cases h
  | next => cases h
  | prev => cases h

/-! ## Runs -/

structure Within (contents : Slice) (it : BlockIter) : Prop where
  restarts : it.restarts ≤ contents.length
  value : it.valid = true → it.valueOffset + it.valueLength ≤ contents.length

lemma Within.call {call : Db.IteratorCall Slice} (h : Within contents it) (hwrap : it.NoWrap cmp call)
    (hcall : it.call cmp call = some it') : Within contents it' := by
  rcases call_loop hcall with ⟨rfl, -⟩ | hloop
  · exact h
  · refine ⟨by rw [hloop.same.2]; exact h.restarts, fun hvalid => ?_⟩
    rcases hloop.found with hinvalid | ⟨p, hp, rfl⟩
    · rw [hinvalid] at hvalid
      cases hvalid
    · obtain ⟨hparse, hsame⟩ := hloop.parsed p hp
      obtain ⟨e, he, hend⟩ := entryAt_of_parse hparse
      have hfits := all_eq_true.1 hwrap.1 p hp
      rw [he, Option.all_some] at hfits
      rw [hend]
      exact (entryAt_fits he hfits).trans (by rw [hsame.2]; exact h.restarts)

lemma Within.readsInside {call : Db.IteratorCall Slice} (h : Within contents it) (hwrap : it.NoWrap cmp call)
    (hcall : it.call cmp call = some it') : it.ReadsInside cmp contents call := by
  have hparsed : ∀ p ∈ it.parses cmp call, Parsed it p := by
    rcases call_loop hcall with ⟨-, hnil⟩ | hloop
    · rw [hnil]
      simp
    · exact hloop.parsed
  refine ⟨fun p hp => ?_, fun e he => ?_, fun p hp => ?_⟩
  · obtain ⟨hparse, hsame⟩ := hparsed p hp
    obtain ⟨e, he, -⟩ := entryAt_of_parse hparse
    have hfits := all_eq_true.1 hwrap.1 p hp
    rw [he, Option.all_some] at hfits
    exact ⟨e, he, (entryAt_fits he hfits).trans (by rw [hsame.2]; exact h.restarts)⟩
  · obtain ⟨offset, hoffset⟩ := mem_probes he
    exact (entryAt_fits hoffset (all_eq_true.1 hwrap.2 e he)).trans h.restarts
  · obtain ⟨hparse, -⟩ := hparsed p hp
    obtain ⟨-, -, -, hcurrent, -⟩ := parseNextKey_fields hparse
    exact ⟨hcurrent, hcurrent ▸ (parseNextKey_true hparse).2.2⟩

lemma within_new (h : (Block.new contents).newIterator = .ok (some it)) : Within contents it := by
  have hoffset : (Block.new contents).restartOffset ≤ contents.length := by
    unfold Block.new
    dsimp only
    split_ifs
    · exact Nat.zero_le _
    · exact Nat.zero_le _
    · exact Nat.sub_le _ _
  unfold Block.newIterator at h
  dsimp only at h
  split_ifs at h
  · cases h
  · cases h
    refine ⟨(Nat.mod_le _ _).trans hoffset, fun hvalid => ?_⟩
    simp [valid] at hvalid

end BlockIter

/-- A call is safe: it reads only from the contents, its entries lie one after the other, and the value it leaves lies in the
contents. -/
def BlockIter.SafeCall (cmp : Slice → Slice → Ordering) (contents : Slice) (it : BlockIter)
    (call : Db.IteratorCall Slice) : Prop :=
  ∀ it', it.call cmp call = some it' → it.ReadsInside cmp contents call ∧ it'.Within contents

/-- All calls of an iterator on arbitrary bytes are safe, as long as no entry that they decode has lengths that wrap around. -/
theorem blockIter_calls_safe (cmp : Slice → Slice → Ordering) (contents : Slice) (it : BlockIter)
    (hnew : (Block.new contents).newIterator = .ok (some it)) (calls : List (Db.IteratorCall Slice))
    (hwrap : StepsMeet (BlockIter.call cmp) (BlockIter.NoWrap cmp) it calls) :
    StepsMeet (BlockIter.call cmp) (BlockIter.SafeCall cmp contents) it calls := by
  have hwithin := BlockIter.within_new hnew
  clear hnew
  induction calls generalizing it with
  | nil => trivial
  | cons call calls ih =>
    refine ⟨fun it' hcall => ⟨hwithin.readsInside hwrap.1 hcall, hwithin.call hwrap.1 hcall⟩, fun it' hcall => ?_⟩
    exact ih it' (hwrap.2 it' hcall) (hwithin.call hwrap.1 hcall)

def wrappingBlock : Slice := [0, 255, 255, 255, 255, 15, 1, 0, 0, 0, 0, 1, 0, 0, 0]

def smallBlock : Slice := [0, 1, 1, 97, 7, 0, 1, 1, 98, 8, 0, 0, 0, 0, 1, 0, 0, 0]

theorem blockIter_calls_safe_small : ∃ it, (Block.new smallBlock).newIterator = .ok (some it) ∧
    StepsMeet (BlockIter.call bytewiseCompare) (BlockIter.SafeCall bytewiseCompare smallBlock) it
    [.seek [98], .prev, .next, .seekToLast] :=
  ⟨_, rfl, blockIter_calls_safe bytewiseCompare smallBlock _ rfl _ (by decide +kernel)⟩

/-- The key bytes of the entry go $2^{32} - 1$ bytes beyond its lengths. -/
theorem blockIter_reads_outside : ∃ it, (Block.new wrappingBlock).newIterator = .ok (some it) ∧
    ¬ it.SafeCall bytewiseCompare wrappingBlock .seekToFirst := by
  refine ⟨_, rfl, fun hsafe => ?_⟩
  have hvalue := (hsafe _ rfl).2.value (by decide +kernel)
  exact absurd hvalue (by decide +kernel)

end RallyDB.Table
