import RallyDB.Db.Lemmas.LogFaults
import RallyDB.Lib.Machine

/-!
# What a log gives back
-/

namespace RallyDB.Db.Log

/-! ## A log that is written on behind a part of it -/

section

open Util Table List Reader RecordType

variable {crc : Crc32c} {contents p file : Slice} {q s : Nat} {t : RecordType} {data : Slice} {pending : Option Slice}

def filledTail (p : Slice) (s : Nat) : Slice := p.drop s ++ List.replicate (blockEnd s - p.length) 0

def CompletedByFilling (crc : Crc32c) (tail : Slice) : Prop :=
  Reader.checksumOk crc tail (Reader.lengthOfHeader tail) = true ∧
    (Reader.typeOfByte ((tail.drop 6).headD 0) = RecordType.full.toNat ∨
      Reader.typeOfByte ((tail.drop 6).headD 0) = RecordType.last.toNat)

def Reusable (crc : Crc32c) (p : Slice) : Prop :=
  p.length ≤ scanEnd crc p 0 ∨
    (blockEnd (scanEnd crc p 0) < p.length + kHeaderSize ∧ ¬ CompletedByFilling crc (filledTail p (scanEnd crc p 0)))

instance (crc : Crc32c) (p : Slice) : Decidable (Reusable crc p) := by
  unfold Reusable CompletedByFilling
  infer_instance

lemma replay_appended {base : Nat} {rs : List (Slice × Nat)} (h : Records crc file base rs file.length)
    (pending : Option Slice) : (replay crc file base pending).reduceOption = rs.map (·.1) := by
  generalize hend : file.length = q' at h
  cases h with
  | nil =>
    rw [replay_of_length_le hend.le]
    rfl
  | cons chain fragments tail =>
    rw [replay_whole chain fragments, replay_records tail prefix_rfl, if_pos hend.ge,
      replay_of_length_le hend.le, append_nil, tail.completeIn_of_le hend.ge, reduceOption_append,
      reduceOption_cons_of_some, reduceOption_map_some]
    split_ifs <;> rfl

structure Torn (crc : Crc32c) (contents p : Slice) (s : Nat) (t : RecordType) (data : Slice) : Prop where
  isPrefix : p <+: contents
  holds : Holds crc contents s t data
  ne_zero : t ≠ .zero
  lt : s < p.length
  lt_end : p.length < s + kHeaderSize + data.length

section

variable (h : Torn crc contents p s t data)
include h

lemma Torn.lt_blockEnd : p.length < blockEnd s :=
  h.lt_end.trans_le h.holds.fits

lemma Torn.header (hheader : s + kHeaderSize ≤ p.length) : Writer.header crc t data <+: p.drop s := by
  refine prefix_of_prefix_length_le ((prefix_append _ _).trans h.holds.image) (h.isPrefix.drop s) ?_
  rw [length_header, length_drop]
  omega

lemma Torn.lengthOfHeader (hheader : s + kHeaderSize ≤ p.length) (x : Slice) :
    lengthOfHeader (p.drop s ++ x) = data.length := by
  obtain ⟨rest, hrest⟩ := h.header hheader
  rw [← hrest, append_assoc]
  exact lengthOfHeader_header crc t h.holds.length_lt _

lemma Torn.typeOfByte (hheader : s + kHeaderSize ≤ p.length) (x : Slice) :
    typeOfByte (((p.drop s ++ x).drop 6).headD 0) = t.toNat := by
  obtain ⟨rest, hrest⟩ := h.header hheader
  rw [← hrest, append_assoc]
  exact typeOfByte_header crc t _

end

lemma drop_of_short (hheader : ¬ s + kHeaderSize ≤ p.length) (x : Slice) :
    (p.drop s ++ x).drop 6 = x.drop (6 - (p.length - s)) := by
  have hH : kHeaderSize = 7 := rfl
  rw [drop_append, length_drop, drop_eq_nil_of_le (by rw [length_drop]; omega), nil_append]

lemma Torn.lt_next (h : Torn crc contents p s t data) (x : Slice) :
    p.length < s + kHeaderSize + Reader.lengthOfHeader (p.drop s ++ x) := by
  by_cases hheader : s + kHeaderSize ≤ p.length
  · rw [h.lengthOfHeader hheader]
    exact h.lt_end
  · omega

/-! ## Filling up the block -/

lemma physicalAt_of_le (hlen : start q + kHeaderSize ≤ file.length) :
    physicalAt crc file q = parseAt crc file (start q) (min (blockEnd (start q)) file.length) := by
  unfold physicalAt
  exact if_neg (not_lt.2 (le_min (start_add_le q) hlen))

lemma Torn.length_filledTail (h : Torn crc contents p s t data) : (filledTail p s).length = blockEnd s - s := by
  have := h.lt
  have := h.lt_blockEnd
  rw [filledTail, length_append, length_drop, length_replicate]
  omega

lemma Torn.start_eq (h : Torn crc contents p s t data) (hfill : blockEnd s < p.length + kHeaderSize) {q' : Nat}
    (hle : p.length ≤ q') (hle' : q' ≤ blockEnd s) : start q' = blockEnd s := by
  have hlt := h.lt
  have hend := h.lt_blockEnd
  unfold start
  unfold blockEnd kBlockSize kHeaderSize at *
  split_ifs <;> omega

lemma type_filledTail_of_short (hheader : ¬ s + kHeaderSize ≤ p.length) :
    typeOfByte (((filledTail p s).drop 6).headD 0) = 0 := by
  unfold filledTail
  rw [drop_of_short hheader, drop_replicate]
  generalize blockEnd s - p.length - _ = k
  cases k <;> rfl

lemma fragmentStep_of_not_end {type : Nat} {fragment : Slice} (hfull : type ≠ full.toNat)
    (hlast : type ≠ last.toNat) : (fragmentStep pending type fragment).1.reduceOption = [] := by
  unfold fragmentStep
  dsimp only
  rw [if_neg hfull, if_neg hlast]
  split_ifs
  · rfl
  · rfl
  · cases pending <;> rfl
  · rfl
  · rfl
  · rfl

lemma fragmentStep_ne_nil {type : Nat} {fragment : Slice} (hne : fragment ≠ []) :
    (fragmentStep pending type fragment).1.reduceOption ≠ [[]] := by
  by_cases hfull : type = full.toNat
  · unfold fragmentStep
    rw [if_pos hfull]
    dsimp only
    split_ifs <;> simp [List.reduceOption, hne]
  · by_cases hlast : type = last.toNat
    · subst hlast
      cases pending with
      | none => exact cons_ne_nil _ _ ∘ Eq.symm
      | some scratch =>
        show [scratch ++ fragment] ≠ [[]]
        simp [hne]
    · rw [fragmentStep_of_not_end hfull hlast]
      exact cons_ne_nil _ _ ∘ Eq.symm

lemma Torn.start_eq_self (h : Torn crc contents p s t data) (hfits : p.length + kHeaderSize ≤ blockEnd s) :
    start p.length = p.length := by
  have hlt := h.lt
  unfold start
  unfold blockEnd kBlockSize kHeaderSize at *
  split_ifs <;> omega

lemma Torn.fragmentStep_filled (h : Torn crc contents p s t data) (pending : Option Slice) (htail : ¬ CompletedByFilling crc (filledTail p s))
    (hok : Reader.checksumOk crc (filledTail p s) (Reader.lengthOfHeader (filledTail p s)) = true) (fragment : Slice) :
    Reader.typeOfByte (((filledTail p s).drop 6).headD 0) ≠ kEof ∧
    (fragmentStep pending (Reader.typeOfByte (((filledTail p s).drop 6).headD 0)) fragment).1.reduceOption = [] := by
  by_cases hheader : s + kHeaderSize ≤ p.length
  · have htype : Reader.typeOfByte (((filledTail p s).drop 6).headD 0) = t.toNat := h.typeOfByte hheader _
    unfold CompletedByFilling at htail
    rw [htype] at htail ⊢
    refine ⟨?_, fragmentStep_of_not_end (fun hfull => htail ⟨hok, .inl hfull⟩) fun hlast => htail ⟨hok, .inr hlast⟩⟩
    cases t <;> decide
  · rw [type_filledTail_of_short hheader]
    exact ⟨by decide, rfl⟩

section

variable (h : Torn crc contents p (start q) t data)
include h

lemma Torn.physicalAt_filled (hfile : p ++ List.replicate (blockEnd (start q) - p.length) 0 <+: file) :
    physicalAt crc file q =
      let tail := filledTail p (start q)
      let length := Reader.lengthOfHeader tail
      let type := Reader.typeOfByte ((tail.drop 6).headD 0)
      if tail.length < kHeaderSize + length then .bad (blockEnd (start q)) true
      else if type = RecordType.zero.toNat ∧ length = 0 then .bad (blockEnd (start q)) false
      else if Reader.checksumOk crc tail length then
        .record type ((tail.drop kHeaderSize).take length) (start q + kHeaderSize + length)
      else .bad (blockEnd (start q)) true := by
  have hle : blockEnd (start q) ≤ file.length := by
    have := hfile.length_le
    rw [length_append, length_replicate] at this
    omega
  have hbuffer : (file.drop (start q)).take (blockEnd (start q) - start q) = filledTail p (start q) := by
    have hdrop := hfile.drop (start q)
    rw [drop_append_of_le_length h.lt.le] at hdrop
    rw [← h.length_filledTail]
    exact (prefix_iff_eq_take.1 hdrop).symm
  rw [physicalAt_of_le ((start_add_le q).trans hle), min_eq_left hle, parseAt, hbuffer, if_neg (not_lt.2 hle)]

lemma Torn.replay_filled (pending : Option Slice)
    (hfill : blockEnd (start q) < p.length + kHeaderSize) (htail : ¬ CompletedByFilling crc (filledTail p (start q)))
    (hfile : p ++ List.replicate (blockEnd (start q) - p.length) 0 <+: file) : ∃ events pending', events.reduceOption = [] ∧
    replay crc file q pending = events ++ replay crc file p.length pending' := by
  have hend := h.lt_blockEnd
  have hstart : start p.length = blockEnd (start q) := h.start_eq hfill le_rfl hend.le
  have hbad : ∀ reported, physicalAt crc file q = .bad (blockEnd (start q)) reported →
      ∃ events pending', events.reduceOption = [] ∧
        replay crc file q pending = events ++ replay crc file p.length pending' := fun reported hp => by
    refine ⟨_, none, ?_, (replay_bad hp).trans (congrArg _ (replay_congr_start ?_))⟩
    · cases reported <;> cases pending <;> rfl
    · rw [hstart, h.start_eq hfill hend.le le_rfl]
  have hphysical := h.physicalAt_filled hfile
  dsimp only at hphysical
  split_ifs at hphysical with hshort hzero hok
  · exact hbad _ hphysical
  · exact hbad _ hphysical
  · obtain ⟨htype, hevents⟩ := h.fragmentStep_filled pending htail hok
      (((filledTail p (start q)).drop kHeaderSize).take (Reader.lengthOfHeader (filledTail p (start q))))
    refine ⟨_, _, hevents, (replay_record hphysical htype).trans (congrArg _ (replay_congr_start ?_))⟩
    have hnext : p.length < start q + kHeaderSize + Reader.lengthOfHeader (filledTail p (start q)) := h.lt_next _
    have hlength := h.length_filledTail
    have hlt := h.lt
    rw [hstart]
    exact h.start_eq hfill hnext.le (by omega)
  · exact hbad _ hphysical

lemma Torn.replay_completed (hpending : t = .last → pending.isSome)
    (hfill : blockEnd (start q) < p.length + kHeaderSize) (htail : CompletedByFilling crc (filledTail p (start q)))
    (hfile : p ++ List.replicate (blockEnd (start q) - p.length) 0 <+: file) :
    ∃ events record pending', events.reduceOption = [record] ∧
    replay crc file q pending = events ++ replay crc file p.length pending' := by
  have hend := h.lt_blockEnd
  obtain ⟨hok, htype⟩ := htail
  have hheader : start q + kHeaderSize ≤ p.length := by
    by_contra hshort
    rw [type_filledTail_of_short hshort] at htype
    exact absurd htype (by decide)
  have hlength : Reader.lengthOfHeader (filledTail p (start q)) = data.length := h.lengthOfHeader hheader _
  have htypeOf : Reader.typeOfByte (((filledTail p (start q)).drop 6).headD 0) = t.toNat := h.typeOfByte hheader _
  have hphysical := h.physicalAt_filled hfile
  dsimp only at hphysical
  rw [hlength] at hok
  rw [htypeOf] at htype
  have hfits := h.holds.fits
  have hlen := h.length_filledTail
  rw [hlength, htypeOf, if_neg (by omega), if_neg (by rintro ⟨hzero, -⟩; rw [hzero] at htype; exact absurd htype (by decide)),
    if_pos hok] at hphysical
  have hnext : start (start q + kHeaderSize + data.length) = start p.length := by
    rw [h.start_eq hfill le_rfl hend.le, h.start_eq hfill h.lt_end.le hfits]
  generalize ((filledTail p (start q)).drop kHeaderSize).take data.length = fragment at hphysical
  cases t with
  | zero | first | middle => exact absurd htype (by decide)
  | full =>
    refine ⟨_, fragment, none, ?_, (replay_record hphysical (by decide)).trans (congrArg _ (replay_congr_start hnext))⟩
    show ((if pending.getD [] = [] then [] else [none]) ++ [some _] : List (Option Slice)).reduceOption = [_]
    split_ifs <;> rfl
  | last =>
    obtain ⟨scratch, rfl⟩ := Option.isSome_iff_exists.1 (hpending rfl)
    exact ⟨_, _, none, rfl, (replay_record hphysical (by decide)).trans (congrArg _ (replay_congr_start hnext))⟩

end

lemma type_run_on (hlt : s < p.length) (hheader : ¬ s + kHeaderSize ≤ p.length) :
    typeOfByte (((p.drop s ++ image .bitwise .full []).drop 6).headD 0) ≠ full.toNat ∧
    typeOfByte (((p.drop s ++ image .bitwise .full []).drop 6).headD 0) ≠ last.toNat := by
  have hbytes : ∀ i : Fin 6, typeOfByte (((image .bitwise .full []).drop i).headD 0) ≠ full.toNat ∧
      typeOfByte (((image .bitwise .full []).drop i).headD 0) ≠ last.toNat := by
    decide +kernel
  rw [drop_of_short hheader]
  exact hbytes ⟨6 - (p.length - s), by omega⟩

lemma Torn.replay_run_on (h : Torn .bitwise contents p (start q) t data)
    (hfits : p.length + kHeaderSize ≤ blockEnd (start q)) :
    (replay .bitwise (p ++ image .bitwise .full []) q pending).reduceOption ≠ [[]] := by
  have hlt := h.lt
  have hH : kHeaderSize = 7 := rfl
  have hlength : (p ++ image .bitwise .full []).length = p.length + kHeaderSize := by
    rw [length_append, length_image]
    rfl
  have hbuffer : ((p ++ image .bitwise .full []).drop (start q)).take ((p ++ image .bitwise .full []).length - start q) =
      p.drop (start q) ++ image .bitwise .full [] := by
    rw [← length_drop, take_length, drop_append_of_le_length hlt.le]
  have hphysical : physicalAt .bitwise (p ++ image .bitwise .full []) q = _ := physicalAt_of_le (by omega)
  rw [min_eq_right (by omega)] at hphysical
  unfold parseAt at hphysical
  dsimp only at hphysical
  rw [hbuffer] at hphysical
  have hbad : ∀ reported, physicalAt .bitwise (p ++ image .bitwise .full []) q =
      .bad (p ++ image .bitwise .full []).length reported →
      (replay .bitwise (p ++ image .bitwise .full []) q pending).reduceOption ≠ [[]] := fun reported hp => by
    rw [replay_bad hp, replay_of_length_le le_rfl]
    cases reported <;> cases pending <;> simp
  split_ifs at hphysical with hshort heof hzero hok
  · rw [replay_eof hphysical]
    decide
  · exact hbad _ hphysical
  · exact hbad _ hphysical
  · have hnext : p.length < start q + kHeaderSize + _ := h.lt_next (image .bitwise .full [])
    by_cases htype : Reader.typeOfByte (((p.drop (start q) ++ image .bitwise .full []).drop 6).headD 0) = kEof
    · rw [htype] at hphysical
      rw [replay_record_eof hphysical]
      decide
    rw [replay_record hphysical htype, replay_eof (physicalAt_of_short (by omega)), append_nil]
    by_cases hheader : start q + kHeaderSize ≤ p.length
    · refine fragmentStep_ne_nil (ne_nil_of_length_pos ?_)
      have hdata := h.lengthOfHeader hheader (image .bitwise .full [])
      have := h.lt_end
      rw [length_take, length_drop]
      omega
    · obtain ⟨hfull, hlast⟩ := type_run_on hlt hheader
      rw [fragmentStep_of_not_end hfull hlast]
      decide
  · exact hbad _ hphysical

end

open Util Table List Writer

inductive LogOp where
  | addRecord (record : Slice)
  | reopen

def writeLog (crc : Crc32c) (w : Writer) : List LogOp → Writer × List (Slice × Nat)
  | [] => (w, [])
  | .addRecord record :: ops =>
    let w' := (w.addRecord crc record).1
    let rest := writeLog crc w' ops
    (rest.1, (record, w'.size) :: rest.2)
  | .reopen :: ops => writeLog crc (Writer.reopen w.dest w.size) ops

variable {crc : Crc32c} {base : Nat} {w : Writer} {rs : List (Slice × Nat)}

lemma Written.writeLog (h : Written crc base w rs) (ops : List LogOp) :
    Written crc base (writeLog crc w ops).1 (rs ++ (writeLog crc w ops).2) := by
  induction ops generalizing w rs with
  | nil =>
    rw [Log.writeLog, append_nil]
    exact h
  | cons op ops ih =>
    cases op with
    | addRecord record =>
      have := ih (h.addRecord record)
      rw [append_assoc] at this
      exact this
    | reopen => exact ih h.reopen

lemma writeLog_isPrefix (w : Writer) (ops : List LogOp) : w.dest.contents <+: (writeLog crc w ops).1.dest.contents := by
  induction ops generalizing w with
  | nil => exact prefix_rfl
  | cons op ops ih =>
    cases op with
    | addRecord record =>
      exact ((switchBlock_isPrefix w).trans (addFragments_isPrefix crc w true record)).trans (ih _)
    | reopen => exact ih (reopen w.dest w.size)

lemma writeLog_records (w : Writer) (records : List Slice) :
    (writeLog crc w (records.map .addRecord)).2.map (·.1) = records := by
  induction records generalizing w with
  | nil => rfl
  | cons record records ih => exact congrArg (record :: ·) (ih _)

/-- From any part of a log that a crash leaves, the reader returns the records that are whole in it, and reports nothing. -/
theorem recovered_of_writeLog (crc : Crc32c) (ops : List LogOp) (p : Slice) :
    let log := writeLog crc (Writer.new ⟨[], []⟩) ops
    p <+: log.1.dest.contents → recovered crc p = (completeIn log.2 p.length, []) := by
  intro log hp
  exact (written_new.writeLog ops).recovered_eq hp

theorem recovered_of_writeLog_sample :
    let log := writeLog .bitwise (Writer.new ⟨[], []⟩) [.addRecord [1, 2], .reopen, .addRecord [3], .addRecord []]
    let p := log.1.dest.contents.take 20
    p <+: log.1.dest.contents ∧ recovered .bitwise p = ([[1, 2], [3]], []) := by
  refine ⟨⟨_, take_append_drop _ _⟩, ?_⟩
  exact (recovered_of_writeLog .bitwise [.addRecord [1, 2], .reopen, .addRecord [3], .addRecord []] _
    ⟨_, take_append_drop _ _⟩).trans (by decide +kernel)

/-! ## Logs that are reused -/

def reuse (crc : Crc32c) (p : Slice) (records : List Slice) : Slice :=
  (writeLog crc (Writer.reopen ⟨p, []⟩ p.length) (records.map .addRecord)).1.dest.contents

variable (p : Slice)

lemma reuse_nil : reuse crc p [] = p := rfl

lemma isPrefix_reuse (records : List Slice) : p <+: reuse crc p records :=
  writeLog_isPrefix (reopen ⟨p, []⟩ p.length) _

lemma filled_isPrefix_reuse (crc : Crc32c) (p record : Slice) (records : List Slice) :
    p ++ List.replicate (start p.length - p.length) 0 <+: reuse crc p (record :: records) := by
  have hswitch := (synced_reopen ⟨p, []⟩).switchBlock_contents rfl
  exact (hswitch ▸ addFragments_isPrefix crc (reopen ⟨p, []⟩ p.length) true record).trans (writeLog_isPrefix _ _)

lemma replay_reuse (records : List Slice) (pending : Option Slice) :
    (replay crc (reuse crc p records) p.length pending).reduceOption = records := by
  refine (replay_appended ((written_reopen p).writeLog (records.map .addRecord)).records pending).trans ?_
  exact writeLog_records _ records

lemma reuse_singleton_nil : reuse crc p [[]] = p ++ List.replicate (start p.length - p.length) 0 ++ image crc .full [] :=
  (synced_reopen ⟨p, []⟩).addRecord_nil rfl

variable {contents p data : Slice} {q : Nat} {pending : Option Slice}

lemma Cut.recovered_eq {complete : List Slice}
    (h : Cut crc contents p 0 none (complete.map some) q pending) (records : List Slice) :
    (recovered crc (reuse crc p records)).1 = complete ++ (replay crc (reuse crc p records) q pending).reduceOption := by
  rw [recovered_records, h.replay_file (isPrefix_reuse p records), reduceOption_append, reduceOption_map_some]

lemma Cut.reuse_of_le {events : List (Option Slice)}
    (h : Cut crc contents p 0 none events q pending) (hle : p.length ≤ start q) (records : List Slice) :
    (replay crc (reuse crc p records) q pending).reduceOption = records := by
  rw [replay_congr_start (start_eq_of_le h.le hle).symm]
  exact replay_reuse p records pending

lemma Torn.replay_reuse_filled {t : RecordType}
    (h : Torn crc contents p (start q) t data) (hfill : blockEnd (start q) < p.length + kHeaderSize)
    (htail : ¬ CompletedByFilling crc (filledTail p (start q))) (records : List Slice) (hnil : replay crc p q pending = []) :
    (replay crc (reuse crc p records) q pending).reduceOption = records := by
  cases records with
  | nil =>
    rw [reuse_nil, hnil]
    rfl
  | cons record records =>
    have hfile := filled_isPrefix_reuse crc p record records
    rw [h.start_eq hfill le_rfl h.lt_blockEnd.le] at hfile
    obtain ⟨events, pending', hevents, hreplay⟩ := h.replay_filled pending hfill htail hfile
    rw [hreplay, reduceOption_append, hevents, replay_reuse]
    rfl

lemma Torn.exists_lost {t : RecordType}
    (h : Torn .bitwise contents p (start q) t data) (hpending : t = .last → pending.isSome)
    (hlost : ¬ (blockEnd (start q) < p.length + kHeaderSize ∧ ¬ CompletedByFilling .bitwise (filledTail p (start q)))) :
    (replay .bitwise (reuse .bitwise p [[]]) q pending).reduceOption ≠ [[]] := by
  by_cases hfill : blockEnd (start q) < p.length + kHeaderSize
  · have htail : CompletedByFilling .bitwise (filledTail p (start q)) := by
      by_contra hno
      exact hlost ⟨hfill, hno⟩
    have hfile := filled_isPrefix_reuse .bitwise p [] []
    rw [h.start_eq hfill le_rfl h.lt_blockEnd.le] at hfile
    obtain ⟨events, record, pending', hevents, hreplay⟩ := h.replay_completed hpending hfill htail hfile
    rw [hreplay, reduceOption_append, hevents, replay_reuse]
    simp
  · rw [reuse_singleton_nil, h.start_eq_self (not_lt.1 hfill), Nat.sub_self, replicate_zero, append_nil]
    exact h.replay_run_on (not_lt.1 hfill)

/-- A part of a log can be written on without loss if and only if it is reusable. -/
theorem recovered_of_reuse_iff (ops : List LogOp) (p : Slice) :
    let log := writeLog .bitwise (Writer.new ⟨[], []⟩) ops
    p <+: log.1.dest.contents →
      ((∀ records, (recovered .bitwise (reuse .bitwise p records)).1 = completeIn log.2 p.length ++ records) ↔
        Reusable .bitwise p) := by
  intro log hp
  have hwritten : Written .bitwise 0 log.1 log.2 := written_new.writeLog ops
  obtain ⟨q, pending, hcut⟩ := hwritten.records.exists_cut hp (Nat.zero_le _) rfl
  have hread : ∀ records, (recovered .bitwise (reuse .bitwise p records)).1 = completeIn log.2 p.length ++ records ↔
      (replay .bitwise (reuse .bitwise p records) q pending).reduceOption = records := fun records => by
    rw [hcut.recovered_eq, append_cancel_left_eq]
  simp only [hread, Reusable, hcut.scanEnd_eq]
  rcases hcut.tail with hle | ⟨t, data, hholds, hzero, hpending, hlt, hlt_end⟩
  · exact iff_of_true (hcut.reuse_of_le hle) (.inl hle)
  · have htorn : Torn .bitwise log.1.dest.contents p (start q) t data := ⟨hp, hholds, hzero, hlt, hlt_end⟩
    constructor
    · intro hall
      by_contra hno
      exact htorn.exists_lost hpending (fun hfill => hno (.inr hfill)) (hall [[]])
    · rintro (hle | ⟨hfill, htail⟩)
      · exact absurd hlt (not_lt.2 hle)
      · intro records
        exact htorn.replay_reuse_filled hfill htail records (replay_eof (physicalAt_of_torn hholds hp hlt_end))

theorem recovered_of_reuse_iff_sample :
    let log := writeLog .bitwise (Writer.new ⟨[], []⟩) [.addRecord [1, 2], .addRecord [3]]
    let p := log.1.dest.contents.take 9
    p <+: log.1.dest.contents ∧ completeIn log.2 p.length = [[1, 2]] ∧
      ∀ records, (recovered .bitwise (reuse .bitwise p records)).1 = completeIn log.2 p.length ++ records := by
  refine ⟨⟨_, take_append_drop _ _⟩, by decide +kernel, ?_⟩
  exact (recovered_of_reuse_iff [.addRecord [1, 2], .addRecord [3]] _ ⟨_, take_append_drop 9 _⟩).2 (by decide +kernel)

/-- A crash leaves nine bytes of a record of three bytes. -/
theorem reused_log_loses_record :
    let log := writeLog .bitwise (Writer.new ⟨[], []⟩) [.addRecord [1, 2, 3]]
    let p := log.1.dest.contents.take 9
    p <+: log.1.dest.contents ∧ completeIn log.2 p.length = [] ∧ (recovered .bitwise (reuse .bitwise p [[4]])).1 = [] := by
  refine ⟨⟨_, take_append_drop _ _⟩, by decide +kernel, by decide +kernel⟩

structure Session where
  writer : Writer
  acknowledged : List Slice

def addStep (crc : Crc32c) (s : Session) (record : Slice) : Option Session :=
  let r := s.writer.addRecord crc record
  match r.2 with
  | .ok _ => some ⟨r.1, s.acknowledged ++ [record]⟩
  | .error _ => some ⟨r.1, s.acknowledged⟩

lemma addStep_recoverable {s s' : Session} {record : Slice}
    (h : Recoverable crc s.writer.dest.contents s.acknowledged) (hw : s.writer.Intact crc)
    (hs : addStep crc s record = some s') : Recoverable crc s'.writer.dest.contents s'.acknowledged := by
  unfold addStep at hs
  dsimp only at hs
  split at hs
  · rename_i hok
    cases hs
    exact h.addRecord hw hok
  · cases hs
    exact h.mono ((switchBlock_isPrefix _).trans (addFragments_isPrefix crc _ true record))

/-- When records are only added behind whole ones, those that were acknowledged are read back. -/
theorem acknowledged_recovered (crc : Crc32c) (faults : List (Option Nat)) (records : List Slice) (s : Session)
    (hc : Lib.StepsMeet (addStep crc) (fun s _ => s.writer.Intact crc) ⟨.new ⟨[], faults⟩, []⟩ records)
    (hr : Lib.run (addStep crc) ⟨.new ⟨[], faults⟩, []⟩ records = some s) :
    s.acknowledged.Sublist (recovered crc s.writer.dest.contents).1 := by
  have hinv : Recoverable crc s.writer.dest.contents s.acknowledged :=
    Lib.run_invariant (I := fun s => Recoverable crc s.writer.dest.contents s.acknowledged)
      (fun _ _ _ h hw hs => addStep_recoverable h hw hs) (fun _ _ => nil_sublist _) hc hr
  rw [recovered_records]
  exact hinv _ prefix_rfl

theorem acknowledged_recovered_sample :
    ∃ s, Lib.run (addStep .bitwise) ⟨.new ⟨[], [none, none, none, none, some 1]⟩, []⟩ [[1], [2, 3]] = some s ∧
    s.acknowledged = [[1]] ∧ s.acknowledged.Sublist (recovered .bitwise s.writer.dest.contents).1 := by
  obtain ⟨s, hr, hs⟩ : ∃ s, Lib.run (addStep .bitwise)
      ⟨.new ⟨[], [none, none, none, none, some 1]⟩, []⟩ [[1], [2, 3]] = some s ∧ s.acknowledged = [[1]] :=
    Lib.exists_run (by decide +kernel)
  exact ⟨s, hr, hs, acknowledged_recovered .bitwise _ _ s (by decide +kernel) hr⟩

/-- Three bytes of a header reach the file. -/
theorem acknowledged_record_lost : ∃ s, Lib.run (addStep .bitwise) ⟨.new ⟨[], [some 3]⟩, []⟩ [[1], [2]] = some s ∧
    s.acknowledged = [[2]] ∧ (recovered .bitwise s.writer.dest.contents).1 = [] :=
  Lib.exists_run (by decide +kernel)

end RallyDB.Db.Log
