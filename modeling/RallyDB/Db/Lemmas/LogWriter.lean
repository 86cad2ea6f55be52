import RallyDB.Db.Lemmas.LogLayout

/-!
# The writer lays out records
-/

namespace RallyDB.Db.Log.Writer

open Util Table List

variable {crc : Crc32c} {w : Writer} {t : RecordType} {data : Slice}

abbrev size (w : Writer) : Nat := w.dest.contents.length

structure Synced (w : Writer) : Prop where
  le : w.blockOffset ≤ kBlockSize
  mod : w.blockOffset % kBlockSize = w.size % kBlockSize

lemma synced_new : (new ⟨[], []⟩).Synced := ⟨by decide, rfl⟩

lemma synced_reopen (dest : WritableFile) : (reopen dest dest.contents.length).Synced :=
  ⟨(Nat.mod_lt _ (by decide)).le, Nat.mod_mod _ _⟩

def Pads (w : Writer) : Prop := w.switchBlock.size = start w.size

lemma append_isPrefix (f : WritableFile) (data : Slice) : f.contents <+: (f.append data).1.contents := by
  unfold WritableFile.append
  split <;> exact prefix_append _ _

lemma append_of_ok {f f' : WritableFile} {data : Slice} {u : Unit} (h : f.append data = (f', .ok u)) :
    f'.contents = f.contents ++ data := by
  unfold WritableFile.append at h
  split at h
  · cases h
  · cases h
    rfl

lemma flush_contents (f : WritableFile) : f.flush.1.contents = f.contents := by
  unfold WritableFile.flush
  split <;> rfl

lemma switchBlock_isPrefix (w : Writer) : w.dest.contents <+: w.switchBlock.dest.contents := by
  unfold switchBlock
  dsimp only
  split_ifs
  · exact append_isPrefix _ _
  · exact prefix_rfl
  · exact prefix_rfl

lemma Synced.switchBlock (h : w.Synced) (hpads : w.Pads) : w.switchBlock.Synced := by
  unfold Pads at hpads
  have hoffset := switchBlock_blockOffset w
  have hle := h.le
  have hmod := h.mod
  constructor
  · rw [hoffset]
    split_ifs <;> omega
  · rw [hoffset, hpads]
    unfold start blockEnd
    unfold kBlockSize kHeaderSize at *
    split_ifs <;> omega

lemma appendRecord_of_ok {dest : WritableFile} (h : (appendRecord crc dest t data).2 = .ok ()) :
    (appendRecord crc dest t data).1.contents = dest.contents ++ image crc t data := by
  unfold appendRecord at h ⊢
  rcases hheader : dest.append (header crc t data) with ⟨dest1, e | u⟩
  · rw [hheader] at h
    cases h
  · rw [hheader] at h
    dsimp only at h ⊢
    rcases hdata : dest1.append data with ⟨dest2, e | u⟩
    · rw [hdata] at h
      cases h
    · dsimp only
      rw [flush_contents, append_of_ok hdata, append_of_ok hheader, append_assoc]
      rfl

lemma Synced.emitPhysicalRecord (h : w.Synced) (hfits : w.blockOffset + kHeaderSize + data.length ≤ kBlockSize)
    (hok : (w.emitPhysicalRecord crc t data).2 = .ok ()) : (w.emitPhysicalRecord crc t data).1.Synced := by
  refine ⟨hfits, ?_⟩
  have hmod := h.mod
  show (w.blockOffset + kHeaderSize + data.length) % kBlockSize =
    (appendRecord crc w.dest t data).1.contents.length % kBlockSize
  rw [appendRecord_of_ok hok, length_append, length_image, add_assoc]
  rw [Nat.add_mod, hmod, ← Nat.add_mod]

lemma Synced.holds (h : w.Synced) (hfits : w.blockOffset + kHeaderSize + data.length ≤ kBlockSize)
    (hok : (w.emitPhysicalRecord crc t data).2 = .ok ()) :
    Holds crc (w.emitPhysicalRecord crc t data).1.dest.contents w.size t data := by
  constructor
  · show image crc t data <+: (appendRecord crc w.dest t data).1.contents.drop w.size
    rw [appendRecord_of_ok hok, drop_left]
  · have hmod := h.mod
    have hle := h.le
    unfold blockEnd
    unfold kBlockSize kHeaderSize at *
    omega

structure Added (crc : Crc32c) (w w' : Writer) (begin : Bool) (record : Slice) : Prop where
  synced : w'.Synced
  grows : w.dest.contents <+: w'.dest.contents
  layout : ∃ xs, Chain crc w'.dest.contents w.size xs w'.size ∧ Fragmented begin record xs

lemma Synced.fragment (h : w.Synced) (hpads : w.Pads)
    (hfits : w.switchBlock.blockOffset + kHeaderSize + data.length ≤ kBlockSize)
    (hok : (w.switchBlock.emitPhysicalRecord crc t data).2 = .ok ()) :
    Holds crc (w.switchBlock.emitPhysicalRecord crc t data).1.dest.contents (start w.size) t data ∧
    (w.switchBlock.emitPhysicalRecord crc t data).1.size = start w.size + kHeaderSize + data.length ∧
    w.dest.contents <+: (w.switchBlock.emitPhysicalRecord crc t data).1.dest.contents := by
  have hholds := (h.switchBlock hpads).holds hfits hok
  unfold Pads at hpads
  rw [hpads] at hholds
  have hcontents : (w.switchBlock.emitPhysicalRecord crc t data).1.dest.contents = _ := appendRecord_of_ok hok
  refine ⟨hholds, ?_, ?_⟩
  · rw [size, hcontents, length_append, length_image, ← hpads, add_assoc]
  · rw [hcontents]
    exact (switchBlock_isPrefix w).trans (prefix_append _ _)

lemma Synced.pads_of_full (h : w.Synced) (hfull : w.blockOffset = kBlockSize) : w.Pads := by
  have hmod := h.mod
  have hswitch : w.switchBlock = ⟨w.dest, 0⟩ := by
    unfold Writer.switchBlock
    rw [hfull, Nat.sub_self]
    rfl
  unfold Pads
  rw [hswitch]
  show w.size = start w.size
  rw [hfull] at hmod
  unfold start blockEnd
  unfold kBlockSize kHeaderSize at *
  split_ifs <;> omega

lemma switchBlock_blockOffset_le (w : Writer) : w.switchBlock.blockOffset + kHeaderSize ≤ kBlockSize := by
  have hB : kBlockSize = 32768 := rfl
  have hH : kHeaderSize = 7 := rfl
  rw [switchBlock_blockOffset]
  split_ifs <;> omega

lemma addFragments_spread {begin : Bool} {left : Slice} (h : w.Synced) (hpads : w.Pads)
    (hok : (w.addFragments crc begin left).2 = .ok ()) : (w.addFragments crc begin left).1.Synced ∧
    w.dest.contents <+: (w.addFragments crc begin left).1.dest.contents ∧
    Spread crc (w.addFragments crc begin left).1.dest.contents w.size begin left (w.addFragments crc begin left).1.size := by
  fun_induction addFragments crc w begin left
  case case1 w begin left w1 avail fragmentLength r e hr =>
    cases hok
  case case2 w begin left w1 avail fragmentLength r u hr hmore ih =>
    have hfrag : fragmentLength = min left.length (kBlockSize - w1.blockOffset - kHeaderSize) := rfl
    have hroom : w1.blockOffset + kHeaderSize ≤ kBlockSize := switchBlock_blockOffset_le w
    have hlength : (left.take fragmentLength).length = kBlockSize - w1.blockOffset - kHeaderSize := by
      rw [length_take]
      omega
    have hfits : w1.blockOffset + kHeaderSize + (left.take fragmentLength).length ≤ kBlockSize := by omega
    obtain ⟨hholds, hsize, hgrows⟩ := h.fragment hpads hfits hr
    have hsynced : r.1.Synced := (h.switchBlock hpads).emitPhysicalRecord hfits hr
    have hfull : r.1.blockOffset = kBlockSize := by
      show w1.blockOffset + kHeaderSize + (left.take fragmentLength).length = kBlockSize
      omega
    obtain ⟨hsynced', hgrows', hrest⟩ := ih hsynced (hsynced.pads_of_full hfull) hok
    have hend : start w.size + kHeaderSize + (left.take fragmentLength).length = blockEnd (start w.size) :=
      le_antisymm hholds.fits (blockEnd_le_boundary (by rw [← hsize, ← hsynced.mod, hfull, Nat.mod_self]) (by
        have hH : kHeaderSize = 7 := rfl
        omega))
    rw [show r.1.size = _ from hsize.trans hend] at hrest
    refine ⟨hsynced', hgrows.trans hgrows', ?_⟩
    have hmany : ¬ left.length = fragmentLength := by omega
    have hhead := hholds.mono hgrows'
    rw [decide_eq_false hmany] at hhead
    nth_rewrite 2 [← take_append_drop fragmentLength left]
    exact .more hhead hend hrest
  case case3 w begin left w1 avail fragmentLength r u hr hmore =>
    have hfrag : fragmentLength = min left.length (kBlockSize - w1.blockOffset - kHeaderSize) := rfl
    have hroom : w1.blockOffset + kHeaderSize ≤ kBlockSize := switchBlock_blockOffset_le w
    have hall : left.length = fragmentLength := by omega
    have hfits : w1.blockOffset + kHeaderSize + (left.take fragmentLength).length ≤ kBlockSize := by
      rw [length_take]
      omega
    obtain ⟨hholds, hsize, hgrows⟩ := h.fragment hpads hfits hr
    refine ⟨(h.switchBlock hpads).emitPhysicalRecord hfits hr, hgrows, ?_⟩
    have htype : fragmentType begin (left.length = fragmentLength) = fragmentType begin true := by
      rw [decide_eq_true hall]
    have hdata : left.take fragmentLength = left := take_of_length_le hall.le
    have hhead : Holds crc r.1.dest.contents (start w.size) (fragmentType begin true) left :=
      (congrArg₂ (Holds crc r.1.dest.contents (start w.size)) htype hdata).mp hholds
    show Spread crc r.1.dest.contents w.size begin left r.1.size
    rw [show r.1.size = _ from hsize, hdata]
    exact .last hhead

lemma addFragments_added {begin : Bool} {left : Slice} (h : w.Synced) (hpads : w.Pads)
    (hok : (w.addFragments crc begin left).2 = .ok ()) : Added crc w (w.addFragments crc begin left).1 begin left := by
  obtain ⟨hsynced, hgrows, hspread⟩ := addFragments_spread h hpads hok
  exact ⟨hsynced, hgrows, hspread.exists_chain⟩

lemma appendRecord_isPrefix (dest : WritableFile) : dest.contents <+: (appendRecord crc dest t data).1.contents := by
  unfold appendRecord
  rcases hheader : dest.append (header crc t data) with ⟨dest1, e | u⟩
  · have := append_isPrefix dest (header crc t data)
    rwa [hheader] at this
  · have h1 := append_isPrefix dest (header crc t data)
    rw [hheader] at h1
    dsimp only
    rcases hdata : dest1.append data with ⟨dest2, e | u⟩
    all_goals
      have h2 := append_isPrefix dest1 data
      rw [hdata] at h2
      first
      | exact h1.trans h2
      | (dsimp only; rw [flush_contents]; exact h1.trans h2)

lemma addFragments_isPrefix (crc : Crc32c) (w : Writer) (begin : Bool) (left : Slice) :
    w.switchBlock.dest.contents <+: (w.addFragments crc begin left).1.dest.contents := by
  fun_induction addFragments crc w begin left
  case case1 w begin left w1 avail fragmentLength r e hr => exact appendRecord_isPrefix _
  case case2 w begin left w1 avail fragmentLength r u hr hmore ih =>
    exact ((appendRecord_isPrefix _).trans (switchBlock_isPrefix r.1)).trans ih
  case case3 w begin left w1 avail fragmentLength r u hr hmore => exact appendRecord_isPrefix _

/-! ## Files that do not fail -/

lemma append_of_sound {f : WritableFile} (h : f.faults = []) (data : Slice) :
    f.append data = (⟨f.contents ++ data, []⟩, .ok ()) := by
  unfold WritableFile.append
  rw [h]
  rfl

lemma emitPhysicalRecord_of_sound (h : w.dest.faults = []) :
    (w.emitPhysicalRecord crc t data).2 = .ok () ∧ (w.emitPhysicalRecord crc t data).1.dest.faults = [] := by
  unfold Writer.emitPhysicalRecord appendRecord
  rw [append_of_sound h]
  dsimp only
  rw [append_of_sound rfl]
  exact ⟨rfl, rfl⟩

lemma switchBlock_of_sound (h : w.dest.faults = []) : w.switchBlock.dest.faults = [] := by
  unfold switchBlock
  dsimp only
  rw [append_of_sound h]
  split_ifs
  · rfl
  · exact h
  · exact h

lemma Synced.start_eq (h : w.Synced) :
    start w.size = w.size + if kBlockSize - w.blockOffset < kHeaderSize then kBlockSize - w.blockOffset else 0 := by
  have hmod := h.mod
  have hle := h.le
  unfold start blockEnd
  unfold kBlockSize kHeaderSize at *
  split_ifs <;> omega

lemma Synced.switchBlock_contents (hsynced : w.Synced) (h : w.dest.faults = []) :
    w.switchBlock.dest.contents = w.dest.contents ++ List.replicate (start w.size - w.size) 0 := by
  rw [hsynced.start_eq, Nat.add_sub_cancel_left]
  unfold Writer.switchBlock
  dsimp only
  rw [append_of_sound h]
  split_ifs with hshort hpos
  · rfl
  · rw [Nat.eq_zero_of_not_pos hpos, replicate_zero, append_nil]
  · rw [replicate_zero, append_nil]

lemma Synced.pads_of_sound (hsynced : w.Synced) (h : w.dest.faults = []) : w.Pads := by
  unfold Pads size
  rw [hsynced.switchBlock_contents h, length_append, length_replicate]
  exact Nat.add_sub_cancel' (le_start w.size)

lemma addFragments_of_sound (crc : Crc32c) (begin : Bool) (left : Slice) (h : w.dest.faults = []) :
    (w.addFragments crc begin left).2 = .ok () ∧ (w.addFragments crc begin left).1.dest.faults = [] := by
  fun_induction addFragments crc w begin left
  case case1 w begin left w1 avail fragmentLength r e hr =>
    have hok : r.2 = .ok () := (emitPhysicalRecord_of_sound (switchBlock_of_sound h)).1
    rw [hr] at hok
    cases hok
  case case2 w begin left w1 avail fragmentLength r u hr hmore ih =>
    exact ih (emitPhysicalRecord_of_sound (switchBlock_of_sound h)).2
  case case3 w begin left w1 avail fragmentLength r u hr hmore =>
    exact ⟨rfl, (emitPhysicalRecord_of_sound (switchBlock_of_sound h)).2⟩

lemma Synced.addRecord_nil (hsynced : w.Synced) (h : w.dest.faults = []) : (w.addRecord crc []).1.dest.contents =
    w.dest.contents ++ List.replicate (start w.size - w.size) 0 ++ image crc .full [] := by
  have hok : (w.switchBlock.emitPhysicalRecord crc .full []).2 = .ok () :=
    (emitPhysicalRecord_of_sound (switchBlock_of_sound h)).1
  have hrecord : (w.addRecord crc []).1 = (w.switchBlock.emitPhysicalRecord crc .full []).1 := by
    unfold addRecord addFragments
    simp [fragmentType, hok]
  rw [hrecord, ← hsynced.switchBlock_contents h]
  exact appendRecord_of_ok hok

end RallyDB.Db.Log.Writer
