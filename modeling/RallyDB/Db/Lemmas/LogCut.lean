import RallyDB.Db.Lemmas.LogLayout

/-!
# Parts of a log
-/

namespace RallyDB.Db.Log

open Util Table

variable {crc : Crc32c} {contents p : Slice} {q q' : Nat} {pending : Option Slice}

lemma physicalAt_congr_start (crc : Crc32c) (contents : Slice) (h : start q = start q') :
    physicalAt crc contents q = physicalAt crc contents q' := by
  unfold physicalAt
  rw [h]

lemma replay_congr_start (h : start q = start q') : replay crc contents q pending = replay crc contents q' pending := by
  have hphysical := physicalAt_congr_start crc contents h
  cases hp : physicalAt crc contents q' with
  | eof => rw [replay_eof hp, replay_eof (hphysical.trans hp)]
  | bad next reported => rw [replay_bad hp, replay_bad (hphysical.trans hp)]
  | record type fragment next =>
    by_cases htype : type = kEof
    · subst htype
      rw [replay_record_eof hp, replay_record_eof (hphysical.trans hp)]
    · rw [replay_record hp htype, replay_record (hphysical.trans hp) htype]

lemma start_eq_of_le (hle : q ≤ q') (hle' : q' ≤ start q) : start q' = start q := by
  unfold start blockEnd at *
  unfold kBlockSize kHeaderSize at *
  split_ifs at * <;> omega

structure Cut (crc : Crc32c) (contents p : Slice) (q : Nat) (pending : Option Slice) (events : List (Option Slice))
    (q' : Nat) (pending' : Option Slice) : Prop where
  scanEnd_eq : scanEnd crc p q = start q'
  le : q' ≤ p.length
  replay_file : ∀ {file : Slice}, p <+: file → replay crc file q pending = events ++ replay crc file q' pending'
  tail : p.length ≤ start q' ∨ ∃ t data, Holds crc contents (start q') t data ∧ t ≠ .zero ∧
    (t = .last → pending'.isSome) ∧ start q' < p.length ∧ p.length < start q' + kHeaderSize + data.length

variable {begin last : Bool} {data left : Slice}

lemma cut_of_lt (h : Holds crc contents (start q) (Writer.fragmentType begin last) data) (hp : List.IsPrefix p contents)
    (hle : q ≤ p.length) (hlt : p.length < start q + kHeaderSize + data.length) (hpending : pending.isSome = !begin) :
    Cut crc contents p q pending [] q pending where
  scanEnd_eq := scanEnd_eof (physicalAt_of_torn h hp hlt)
  le := hle
  replay_file _ := rfl
  tail := by
    by_cases hbefore : p.length ≤ start q
    · exact .inl hbefore
    · refine .inr ⟨_, data, h, fragmentType_ne_zero begin last, ?_, not_le.1 hbefore, hlt⟩
      intro htype
      cases begin with
      | true => cases last <;> cases htype
      | false => exact hpending

variable {events : List (Option Slice)} {pending2 : Option Slice} {q2 : Nat}

lemma Cut.cons {events' : List (Option Slice)} {pending1 : Option Slice}
    (h : Holds crc p (start q) (Writer.fragmentType begin last) data)
    (hstep : fragmentStep pending (Writer.fragmentType begin last).toNat data = (events, pending1))
    (hcut : Cut crc contents p (start q + kHeaderSize + data.length) pending1 events' q2 pending2) :
    Cut crc contents p q pending (events ++ events') q2 pending2 where
  scanEnd_eq := by
    rw [← hcut.scanEnd_eq]
    exact scanEnd_record (physicalAt_of_holds (fragmentType_ne_zero begin last) h) (fragmentType_ne_eof begin last)
  le := hcut.le
  replay_file hfile := by rw [replay_holds (h.mono hfile), hstep, hcut.replay_file hfile, List.append_assoc]
  tail := hcut.tail

lemma exists_cut_fragments {xs : List (RecordType × Slice)}
    (hf : Fragmented begin left xs) (h : Chain crc contents q xs q') (hp : List.IsPrefix p contents) (hle : q ≤ p.length)
    (hlt : p.length < q') (hpending : pending.isSome = !begin) :
    ∃ q1 pending1, Cut crc contents p q pending [] q1 pending1 := by
  induction hf generalizing q pending with
  | last begin data =>
    cases h with
    | cons head tail =>
      cases tail
      exact ⟨q, pending, cut_of_lt head hp hle hlt hpending⟩
  | @more begin data left xs rest ih =>
    cases h with
    | cons head tail =>
      by_cases htorn : p.length < start q + kHeaderSize + data.length
      · exact ⟨q, pending, cut_of_lt head hp hle htorn hpending⟩
      · have head' := head.of_le hp (not_lt.1 htorn)
        cases begin with
        | true =>
          obtain rfl : pending = none := by simpa using hpending
          obtain ⟨q1, pending1, hcut⟩ := ih tail (not_lt.1 htorn) (show (some data).isSome = !false from rfl)
          exact ⟨q1, pending1, .cons head' rfl hcut⟩
        | false =>
          obtain ⟨scratch, rfl⟩ := Option.isSome_iff_exists.1 hpending
          obtain ⟨q1, pending1, hcut⟩ :=
            ih tail (not_lt.1 htorn) (show (some (scratch ++ data)).isSome = !false from rfl)
          exact ⟨q1, pending1, .cons head' rfl hcut⟩

lemma Cut.rest {xs : List (RecordType × Slice)} {scratch : Slice} (hf : Fragmented false left xs) (h : Chain crc p q xs q')
    (hcut : Cut crc contents p q' none events q2 pending2) :
    Cut crc contents p q (some scratch) (some (scratch ++ left) :: events) q2 pending2 := by
  generalize hbegin : false = begin at hf
  induction hf generalizing q scratch with
  | last begin data =>
    subst hbegin
    cases h with
    | cons head tail =>
      cases tail
      exact hcut.cons head rfl
  | @more begin data left xs rest ih =>
    subst hbegin
    cases h with
    | cons head tail =>
      rw [← List.append_assoc]
      exact (ih tail rfl).cons head rfl

lemma Cut.whole {xs : List (RecordType × Slice)} {record : Slice}
    (hf : Fragmented true record xs) (h : Chain crc p q xs q') (hcut : Cut crc contents p q' none events q2 pending2) :
    Cut crc contents p q none (some record :: events) q2 pending2 := by
  cases hf with
  | last _ _ =>
    cases h with
    | cons head tail =>
      cases tail
      exact hcut.cons head rfl
  | more rest =>
    cases h with
    | cons head tail => exact (hcut.rest rest tail).cons head rfl

lemma Records.exists_cut {rs : List (Slice × Nat)} (h : Records crc contents q rs q') (hp : List.IsPrefix p contents)
    (hle : q ≤ p.length) (hall : contents.length = q') :
    ∃ q1 pending1, Cut crc contents p q none ((completeIn rs p.length).map some) q1 pending1 := by
  induction h with
  | nil q =>
    have hlen := hp.length_le
    have heq : p.length = q := by omega
    exact ⟨q, none, scanEnd_eof (physicalAt_of_length_le heq.le), hle, fun _ => rfl, .inl (heq.le.trans (le_start q))⟩
  | @cons q q' q'' record xs rs chain fragments tail ih =>
    by_cases hwhole : q' ≤ p.length
    · obtain ⟨q1, pending1, hcut⟩ := ih hwhole hall
      refine ⟨q1, pending1, ?_⟩
      have hcomplete : completeIn ((record, q') :: rs) p.length = record :: completeIn rs p.length := by
        simp [completeIn, hwhole]
      rw [hcomplete]
      exact hcut.whole fragments (chain.of_le hp hwhole)
    · rw [tail.completeIn_of_lt (not_le.1 hwhole)]
      exact exists_cut_fragments fragments chain hp hle (not_le.1 hwhole) rfl

end RallyDB.Db.Log
