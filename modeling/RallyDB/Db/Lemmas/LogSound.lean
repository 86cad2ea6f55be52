import RallyDB.Db.Lemmas.LogFaults

/-!
# A log on a file that fails
-/

namespace RallyDB.Db.Log

open Util Table List

variable {crc : Crc32c} {w : Writer} {t : RecordType} {data : Slice}

namespace Writer

def sound (w : Writer) : Writer := ⟨⟨w.dest.contents, []⟩, w.blockOffset⟩

lemma append_isPrefix_append (f : WritableFile) (data : Slice) : (f.append data).1.contents <+: f.contents ++ data := by
  unfold WritableFile.append
  split
  · exact prefix_append_right_inj _ |>.2 ( take_prefix _ _)
  · exact prefix_rfl

lemma appendRecord_isPrefix_append (dest : WritableFile) :
    (appendRecord crc dest t data).1.contents <+: dest.contents ++ image crc t data := by
  unfold appendRecord image
  rw [← append_assoc]
  rcases hheader : dest.append (header crc t data) with ⟨dest1, e | u⟩
  · have hpart := append_isPrefix_append dest (header crc t data)
    rw [hheader] at hpart
    exact hpart.trans (prefix_append _ _)
  · have hcontents := append_of_ok hheader
    dsimp only
    rw [← hcontents]
    rcases hdata : dest1.append data with ⟨dest2, e | u⟩
    · have hpart := append_isPrefix_append dest1 data
      rw [hdata] at hpart
      exact hpart
    · dsimp only
      rw [flush_contents, append_of_ok hdata]

lemma emitPhysicalRecord_sound (w : Writer) : w.sound.emitPhysicalRecord crc t data =
    (⟨⟨w.dest.contents ++ image crc t data, []⟩, w.blockOffset + kHeaderSize + data.length⟩, .ok ()) := by
  unfold emitPhysicalRecord appendRecord
  rw [append_of_sound rfl]
  dsimp only
  rw [append_of_sound rfl]
  unfold image
  rw [← append_assoc]
  rfl

lemma sound_switchBlock (h : w.switchBlock.dest.contents = w.sound.switchBlock.dest.contents) :
    w.sound.switchBlock = w.switchBlock.sound := by
  have hoffset : w.sound.switchBlock.blockOffset = w.switchBlock.blockOffset := by
    rw [switchBlock_blockOffset, switchBlock_blockOffset]
    rfl
  have hfaults : w.sound.switchBlock.dest.faults = [] := switchBlock_of_sound rfl
  unfold sound
  rw [h]
  rcases hw : w.sound.switchBlock with ⟨⟨contents, faults⟩, offset⟩
  unfold sound at hw
  rw [hw]
  rw [show w.sound.switchBlock = _ from hw] at hoffset hfaults
  dsimp only at hoffset hfaults ⊢
  rw [hoffset, hfaults]

lemma FillsUp.switchBlock_sound (h : w.FillsUp) : w.switchBlock.dest.contents = w.sound.switchBlock.dest.contents := by
  unfold switchBlock sound
  dsimp only
  split_ifs with hshort hpos
  · unfold WritableFile.append
    dsimp only
    split
    · rename_i n faults hfaults
      have hn := h n (by rw [hfaults]; rfl) hshort
      rw [take_of_length_le (by rw [length_replicate]; exact hn)]
    · rfl
  · rfl
  · rfl

lemma addFragments_of_sound_eq (begin : Bool) (left : Slice)
    (h : w.switchBlock.dest.contents = w.sound.switchBlock.dest.contents) :
    let fragmentLength := min left.length (kBlockSize - w.switchBlock.blockOffset - kHeaderSize)
    let t := fragmentType begin (left.length = fragmentLength)
    let data := left.take fragmentLength
    let next : Writer := ⟨⟨w.switchBlock.dest.contents ++ image crc t data, []⟩,
      w.switchBlock.blockOffset + kHeaderSize + data.length⟩
    w.sound.addFragments crc begin left =
      if 0 < left.length - fragmentLength then next.addFragments crc false (left.drop fragmentLength) else (next, .ok ()) := by
  rw [addFragments, sound_switchBlock h]
  dsimp only
  rw [emitPhysicalRecord_sound]
  rfl

lemma emitPhysicalRecord_of_ok (h : (w.emitPhysicalRecord crc t data).2 = .ok ()) :
    (w.emitPhysicalRecord crc t data).1.sound =
    ⟨⟨w.dest.contents ++ image crc t data, []⟩, w.blockOffset + kHeaderSize + data.length⟩ := by
  unfold emitPhysicalRecord sound
  rw [appendRecord_of_ok h]

lemma addFragments_sound (w : Writer) (begin : Bool) (left : Slice)
    (h : w.switchBlock.dest.contents = w.sound.switchBlock.dest.contents) :
    (w.addFragments crc begin left).1.dest.contents <+: (w.sound.addFragments crc begin left).1.dest.contents ∧
    ((w.addFragments crc begin left).2 = .ok () →
    (w.addFragments crc begin left).1.sound = (w.sound.addFragments crc begin left).1) := by
  fun_induction addFragments crc w begin left
  case case1 w begin left w1 avail fragmentLength r e hr =>
    refine ⟨?_, fun hok => by cases hok⟩
    rw [addFragments_of_sound_eq begin left h]
    have hpart := @appendRecord_isPrefix_append crc (fragmentType begin (left.length = fragmentLength))
      (left.take fragmentLength) w1.dest
    split_ifs
    · refine hpart.trans (List.IsPrefix.trans ?_ (addFragments_isPrefix crc _ _ _))
      exact switchBlock_isPrefix ⟨⟨_, []⟩, _⟩
    · exact hpart
  case case2 w begin left w1 avail fragmentLength r u hr hmore ih =>
    have hfull : r.1.blockOffset = kBlockSize := by
      have hle : w1.blockOffset + kHeaderSize ≤ kBlockSize := switchBlock_blockOffset_le w
      show w1.blockOffset + kHeaderSize + (left.take fragmentLength).length = _
      rw [length_take]
      have : fragmentLength = min left.length (kBlockSize - w1.blockOffset - kHeaderSize) := rfl
      omega
    have hswitch : r.1.switchBlock.dest.contents = r.1.sound.switchBlock.dest.contents := by
      unfold switchBlock sound
      rw [hfull]
      simp [kHeaderSize]
    rw [addFragments_of_sound_eq begin left h, if_pos hmore, ← show r.1.sound = _ from emitPhysicalRecord_of_ok hr]
    exact ih hswitch
  case case3 w begin left w1 avail fragmentLength r u hr hmore =>
    have hnext : r.1.sound = _ := emitPhysicalRecord_of_ok hr
    rw [addFragments_of_sound_eq begin left h, if_neg hmore]
    exact ⟨(congrArg (fun w : Writer => w.dest.contents) hnext) ▸ prefix_rfl, fun _ => hnext⟩

end Writer

end RallyDB.Db.Log
