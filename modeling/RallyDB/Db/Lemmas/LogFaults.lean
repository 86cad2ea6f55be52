import RallyDB.Db.Lemmas.LogCut
import RallyDB.Db.Lemmas.LogRecovery

/-!
# Logs on files that fail
-/

namespace RallyDB.Db.Log

open Util Table List

variable {crc : Crc32c} {p file : Slice} {q : Nat}

variable {b : Slice}

lemma headD_drop_append {n : Nat} (h : n < b.length) (x : Slice) (d : UInt8) :
    ((b ++ x).drop n).headD d = (b.drop n).headD d := by
  rw [drop_append_of_le_length h.le]
  cases hb : b.drop n with
  | nil => exact absurd (drop_eq_nil_iff.1 hb) (not_le.2 h)
  | cons a b => rfl

lemma decodeFixed_append (w : Nat) (h : w ≤ b.length) (x : Slice) : decodeFixed w (b ++ x) = decodeFixed w b := by
  induction w generalizing b with
  | zero => rfl
  | succ w ih =>
    cases b with
    | nil => cases h
    | cons a b => simp [decodeFixed, ih (Nat.le_of_succ_le_succ h)]

lemma parse_append (h : kHeaderSize ≤ b.length) (x : Slice) : Reader.lengthOfHeader (b ++ x) = Reader.lengthOfHeader b ∧
    ((b ++ x).drop 6).headD 0 = (b.drop 6).headD 0 := by
  unfold kHeaderSize at h
  refine ⟨?_, headD_drop_append (by omega) x 0⟩
  unfold Reader.lengthOfHeader
  rw [headD_drop_append (by omega), headD_drop_append (by omega)]

lemma checksumOk_append {n : Nat} (h : kHeaderSize + n ≤ b.length) (x : Slice) :
    Reader.checksumOk crc (b ++ x) n = Reader.checksumOk crc b n := by
  unfold kHeaderSize at h
  unfold Reader.checksumOk decodeFixed32
  rw [decodeFixed_append 4 (by omega), drop_append_of_le_length (by omega),
    take_append_of_le_length (by rw [length_drop]; omega)]

lemma physicalAt_of_isPrefix {type next : Nat} {fragment : Slice} (hp : List.IsPrefix p file)
    (h : physicalAt crc p q = .record type fragment next) : physicalAt crc file q = .record type fragment next := by
  have hlen := hp.length_le
  obtain ⟨x, hx⟩ : (p.drop (start q)).take (min (blockEnd (start q)) p.length - start q) <+:
      (file.drop (start q)).take (min (blockEnd (start q)) file.length - start q) := by
    have hpart : (p.drop (start q)).take (min (blockEnd (start q)) p.length - start q) <+: file.drop (start q) :=
      List.IsPrefix.trans ⟨_, take_append_drop _ _⟩ (hp.drop (start q))
    refine prefix_of_prefix_length_le hpart ⟨_, take_append_drop _ _⟩ ?_
    · generalize blockEnd (start q) = e
      simp only [length_take, length_drop]
      omega
  unfold physicalAt parseAt at h ⊢
  dsimp only at h ⊢
  rw [← hx]
  have hlength : ((p.drop (start q)).take (min (blockEnd (start q)) p.length - start q)).length =
      min (blockEnd (start q)) p.length - start q := by
    rw [length_take, length_drop]
    omega
  generalize (p.drop (start q)).take (min (blockEnd (start q)) p.length - start q) = b at h hlength ⊢
  split_ifs at h with hlimit hshort heof hzero hok
  obtain ⟨hlengthOf, htype⟩ := parse_append (show kHeaderSize ≤ b.length by omega) x
  rw [if_neg (by omega), hlengthOf, htype, if_neg (by rw [length_append]; omega), if_neg hzero,
    checksumOk_append (not_lt.1 hshort), if_pos hok, ← h, drop_append_of_le_length (by omega),
    take_append_of_le_length (by rw [length_drop]; omega)]

lemma exists_scan (crc : Crc32c) (p : Slice) {q : Nat} (hle : q ≤ p.length) (pending : Option Slice) :
    ∃ events q' pending', scanEnd crc p q = start q' ∧ q' ≤ p.length ∧
    ∀ {file : Slice}, p <+: file → replay crc file q pending = events ++ replay crc file q' pending' := by
  fun_induction scanEnd crc p q generalizing pending with
  | case1 q | case3 q => exact ⟨[], q, pending, rfl, hle, fun _ => rfl⟩
  | case2 q type fragment next hp htype ih =>
    obtain ⟨events, q', pending', hend, hle', hreplay⟩ :=
      ih ((physicalAt_next crc).2 _ _ _ hp).2 (fragmentStep pending type fragment).2
    refine ⟨(fragmentStep pending type fragment).1 ++ events, q', pending', hend, hle', fun hfile => ?_⟩
    rw [replay_record (physicalAt_of_isPrefix hfile hp) htype, hreplay hfile, append_assoc]

/-! ## Writers -/

def Writer.FillsUp (w : Writer) : Prop :=
  ∀ n ∈ w.dest.faults.head?.join, kBlockSize - w.blockOffset < kHeaderSize → kBlockSize - w.blockOffset ≤ n

def Writer.Intact (crc : Crc32c) (w : Writer) : Prop :=
  (w.blockOffset ≤ kBlockSize ∧ w.blockOffset % kBlockSize = w.size % kBlockSize) ∧
    w.size ≤ scanEnd crc w.dest.contents 0 ∧ w.FillsUp

instance (crc : Crc32c) (w : Writer) : Decidable (w.Intact crc) := by
  unfold Writer.Intact Writer.FillsUp
  infer_instance

variable {w : Writer}

lemma Writer.Intact.synced (h : w.Intact crc) : w.Synced := ⟨h.1.1, h.1.2⟩

lemma length_append_of_le {f : WritableFile} {data : Slice} (h : ∀ n ∈ f.faults.head?.join, data.length ≤ n) :
    (f.append data).1.contents.length = f.contents.length + data.length := by
  unfold WritableFile.append
  split
  · rename_i n faults hfaults
    rw [hfaults] at h
    rw [length_append, take_of_length_le (h n rfl)]
  · exact length_append

lemma Writer.Intact.pads (h : w.Intact crc) : w.Pads := by
  unfold Pads
  rw [h.synced.start_eq]
  unfold Writer.switchBlock
  dsimp only
  split_ifs with hshort hpos
  · refine (length_append_of_le fun n hn => ?_).trans (by rw [length_replicate])
    rw [length_replicate]
    exact h.2.2 n hn hshort
  · rw [Nat.eq_zero_of_not_pos hpos]
    rfl
  · rfl

def Recoverable (crc : Crc32c) (contents : Slice) (acknowledged : List Slice) : Prop :=
  ∀ file, contents <+: file → acknowledged.Sublist (replay crc file 0 none).reduceOption

variable {acknowledged : List Slice}

lemma Recoverable.mono (h : Recoverable crc p acknowledged) (hp : p <+: file) :
    Recoverable crc file acknowledged := fun _ hfile => h _ (hp.trans hfile)

lemma Recoverable.addRecord {record : Slice}
    (h : Recoverable crc w.dest.contents acknowledged) (hw : w.Intact crc) (hok : (w.addRecord crc record).2 = .ok ()) :
    Recoverable crc (w.addRecord crc record).1.dest.contents (acknowledged ++ [record]) := by
  obtain ⟨-, hgrows, xs, hchain, hfragments⟩ := Writer.addFragments_added hw.synced hw.pads hok
  obtain ⟨events, q, pending, hend, hle, hreplay⟩ := exists_scan crc w.dest.contents (Nat.zero_le _) none
  have hstart : start w.size = start q := start_eq_of_le hle (hend ▸ hw.2.1)
  have hbefore : acknowledged.Sublist events.reduceOption := by
    have hself := h _ prefix_rfl
    rw [hreplay prefix_rfl, replay_congr_start hstart.symm, replay_of_length_le le_rfl, append_nil] at hself
    exact hself
  intro file hfile
  rw [hreplay (hgrows.trans hfile), replay_congr_start hstart.symm, replay_whole (hchain.mono hfile) hfragments,
    reduceOption_append]
  refine hbefore.append ?_
  rw [reduceOption_append, reduceOption_cons_of_some]
  exact (nil_sublist _).append ((nil_sublist _).cons_cons record)

end RallyDB.Db.Log
