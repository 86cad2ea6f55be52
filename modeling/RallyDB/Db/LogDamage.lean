import RallyDB.Db.LogTheorems

/-!
# Logs whose bytes were changed
-/

namespace RallyDB.Db.Log

open Util Table List List.Sublist

abbrev Pieces := List (Nat × Slice)

def Pieces.joined (ps : Pieces) : Slice := (ps.map (·.2)).flatten

/-- What a fragment at `s` adds to the record that has been begun: the record that is returned, and the one that is begun
now. -/
def gather (pending : Option Pieces) (type s : Nat) (fragment : Slice) : List Pieces × Option Pieces :=
  if type = RecordType.full.toNat then ([[(s, fragment)]], none)
  else if type = RecordType.first.toNat then ([], some [(s, fragment)])
  else if type = RecordType.middle.toNat then ([], pending.map (· ++ [(s, fragment)]))
  else if type = RecordType.last.toNat then ((pending.map (· ++ [(s, fragment)])).toList, none)
  else ([], none)

def assembled (crc : Crc32c) (contents : Slice) (q : Nat) (pending : Option Pieces) : List Pieces :=
  match _ : physicalAt crc contents q with
  | .eof => []
  | .bad next _ => assembled crc contents next none
  | .record type fragment next =>
    if type = kEof then []
    else (gather pending type (start q) fragment).1 ++ assembled crc contents next (gather pending type (start q) fragment).2
termination_by contents.length - q
decreasing_by
  · rename_i h
    have := (physicalAt_next crc).1 _ _ h
    omega
  · rename_i h _
    have := (physicalAt_next crc).2 _ _ _ h
    omega

variable {crc : Crc32c} {contents contents' : Slice} {q q' : Nat} {pending : Option Pieces}

lemma assembled_eof (hp : physicalAt crc contents q = .eof) : assembled crc contents q pending = [] := by
  rw [assembled]
  split <;> simp_all

lemma assembled_bad {next : Nat} {reported : Bool} (hp : physicalAt crc contents q = .bad next reported) :
    assembled crc contents q pending = assembled crc contents next none := by
  rw [assembled]
  split <;> simp_all

variable {fragment data : Slice}

lemma assembled_record {type next : Nat}
    (hp : physicalAt crc contents q = .record type fragment next) (htype : type ≠ kEof) : assembled crc contents q pending =
    (gather pending type (start q) fragment).1 ++
    assembled crc contents next (gather pending type (start q) fragment).2 := by
  rw [assembled]
  split <;> simp_all

lemma assembled_record_eof {next : Nat}
    (hp : physicalAt crc contents q = .record kEof fragment next) : assembled crc contents q pending = [] := by
  rw [assembled]
  split <;> simp_all

lemma joined_append (ps : Pieces) (s : Nat) (fragment : Slice) :
    Pieces.joined (ps ++ [(s, fragment)]) = ps.joined ++ fragment := by
  simp [Pieces.joined]

lemma fragmentStep_joined (pending : Option Pieces) (type s : Nat) (fragment : Slice) :
    (fragmentStep (pending.map Pieces.joined) type fragment).1.reduceOption =
    (gather pending type s fragment).1.map Pieces.joined ∧ (fragmentStep (pending.map Pieces.joined) type fragment).2 =
    (gather pending type s fragment).2.map Pieces.joined := by
  have hunfinished : ∀ p : Option Slice, (if p.getD [] = [] then [] else [none] : List (Option Slice)).reduceOption = [] :=
    fun p => by split_ifs <;> rfl
  unfold fragmentStep gather
  dsimp only
  by_cases hfull : type = RecordType.full.toNat
  · rw [if_pos hfull, if_pos hfull, reduceOption_append, hunfinished]
    simp [Pieces.joined, List.reduceOption]
  rw [if_neg hfull, if_neg hfull]
  by_cases hfirst : type = RecordType.first.toNat
  · rw [if_pos hfirst, if_pos hfirst, hunfinished]
    simp [Pieces.joined]
  rw [if_neg hfirst, if_neg hfirst]
  by_cases hmiddle : type = RecordType.middle.toNat
  · rw [if_pos hmiddle, if_pos hmiddle]
    cases pending with
    | none => exact ⟨rfl, rfl⟩
    | some ps => exact ⟨rfl, congrArg some (joined_append ps s fragment).symm⟩
  rw [if_neg hmiddle, if_neg hmiddle]
  by_cases hlast : type = RecordType.last.toNat
  · rw [if_pos hlast, if_pos hlast]
    cases pending with
    | none => exact ⟨rfl, rfl⟩
    | some ps => exact ⟨congrArg ([·]) (joined_append ps s fragment).symm, rfl⟩
  rw [if_neg hlast, if_neg hlast]
  split_ifs <;> exact ⟨rfl, rfl⟩

lemma replay_joined (contents : Slice) (q : Nat) (pending : Option Pieces) :
    (replay crc contents q (pending.map Pieces.joined)).reduceOption =
    (assembled crc contents q pending).map Pieces.joined := by
  fun_induction assembled crc contents q pending with
  | case1 q pending h => rw [replay_eof h]; rfl
  | case2 q pending next reported h ih =>
    have hnone : ∀ b : Bool, (if b then [none] else [] : List (Option Slice)).reduceOption = [] :=
      fun b => by cases b <;> rfl
    rw [replay_bad h, reduceOption_append, reduceOption_append, hnone, hnone]
    exact ih
  | case3 q pending fragment next h =>
    rw [replay_record_eof h]
    rfl
  | case4 q pending type fragment next h heof ih =>
    obtain ⟨hreturned, hpending⟩ := fragmentStep_joined pending type (start q) fragment
    rw [replay_record h heof, reduceOption_append, hreturned, hpending, ih, map_append]

lemma recovered_joined (crc : Crc32c) (contents : Slice) :
    (recovered crc contents).1 = (assembled crc contents 0 none).map Pieces.joined := by
  rw [recovered_records]
  exact replay_joined contents 0 none

lemma assembled_congr_start (h : start q = start q') :
    assembled crc contents q pending = assembled crc contents q' pending := by
  have hphysical := physicalAt_congr_start crc contents h
  cases hp : physicalAt crc contents q' with
  | eof => rw [assembled_eof (hphysical.trans hp), assembled_eof hp]
  | bad next reported => rw [assembled_bad (hphysical.trans hp), assembled_bad hp]
  | record type fragment next =>
    by_cases heof : type = kEof
    · subst heof
      rw [assembled_record_eof (hphysical.trans hp), assembled_record_eof hp]
    · rw [assembled_record (hphysical.trans hp) heof, assembled_record hp heof, h]

/-! ## Changed bytes -/

section

variable (crc contents)

def IsPhysicalRecord (s : Nat) (t : RecordType) (data : Slice) : Prop :=
  (∃ xs q, Chain crc contents 0 xs q ∧ start q = s) ∧ Holds crc contents s t data

def PassesTest (s : Nat) : Prop :=
  let buffer := (contents.drop s).take (min (blockEnd s) contents.length - s)
  let length := Reader.lengthOfHeader buffer
  kHeaderSize + length ≤ buffer.length ∧
    ¬ (Reader.typeOfByte ((buffer.drop 6).headD 0) = RecordType.zero.toNat ∧ length = 0) ∧
    Reader.checksumOk crc buffer length = true

end

def ChangesNoticed (crc : Crc32c) (contents contents' : Slice) : Prop :=
  ∀ s t data, IsPhysicalRecord crc contents s t data → ¬ image crc t data <+: contents'.drop s → ¬ PassesTest crc contents' s

lemma physicalAt_of_not_passes (h : ¬ PassesTest crc contents (start q)) : physicalAt crc contents q = .eof ∨
    ∃ reported, physicalAt crc contents q = .bad (min (blockEnd (start q)) contents.length) reported := by
  unfold PassesTest at h
  unfold physicalAt parseAt
  dsimp only at h ⊢
  split_ifs with hlimit hshort heof hzero hok
  · exact .inl rfl
  · exact .inl rfl
  · exact .inr ⟨true, rfl⟩
  · exact .inr ⟨false, rfl⟩
  · exact absurd ⟨not_lt.1 hshort, hzero, hok⟩ h
  · exact .inr ⟨true, rfl⟩

lemma Chain.exists_boundary {xs : List (RecordType × Slice)} {b : Nat} (h : Chain crc contents q xs q')
    (hb : b % kBlockSize = 0) (hle : q ≤ b) (hle' : b ≤ q') :
    ∃ ys zs m, xs = ys ++ zs ∧ Chain crc contents q ys m ∧ Chain crc contents m zs q' ∧ start m = b := by
  induction h with
  | nil q => exact ⟨[], [], q, rfl, .nil q, .nil q, by rw [le_antisymm hle hle', start_of_boundary hb]⟩
  | @cons q q' t data xs head tail ih =>
    by_cases hstart : start q = b
    · exact ⟨[], _, q, rfl, .nil q, .cons head tail, hstart⟩
    · have hlt : start q < b := lt_of_le_of_ne (start_le_boundary hb hle) hstart
      obtain ⟨ys, zs, m, rfl, hys, hzs, hm⟩ := ih (head.fits.trans (blockEnd_le_boundary hb hlt)) hle'
      exact ⟨_, zs, m, rfl, .cons head hys, hzs, hm⟩

def Typed (xs : List (RecordType × Slice)) : Prop := ∀ x ∈ xs, x.1 ≠ .zero

lemma toNat_ne_eof (t : RecordType) : t.toNat ≠ kEof := by
  cases t <;> decide

lemma assembled_holds {t : RecordType} (ht : t ≠ .zero) (h : Holds crc contents (start q) t data) :
    assembled crc contents q pending = (gather pending t.toNat (start q) data).1 ++
    assembled crc contents (start q + kHeaderSize + data.length) (gather pending t.toNat (start q) data).2 :=
  assembled_record (physicalAt_of_holds ht h) (toNat_ne_eof t)

lemma assembled_chain {xs : List (RecordType × Slice)} (h : Chain crc contents q xs q') (ht : Typed xs)
    (pending : Option Pieces) :
    ∃ ps pending', assembled crc contents q pending = ps ++ assembled crc contents q' pending' := by
  induction h generalizing pending with
  | nil q => exact ⟨[], pending, rfl⟩
  | @cons q q' t data xs head tail ih =>
    obtain ⟨ps, pending', hps⟩ := ih (fun x hx => ht x (mem_cons_of_mem _ hx)) (gather pending t.toNat (start q) data).2
    rw [assembled_holds (ht _ mem_cons_self) head, hps, ← append_assoc]
    exact ⟨_, pending', rfl⟩

lemma gather_sublist (pending : Option Pieces) (type s : Nat) (fragment : Slice) :
    (gather none type s fragment).1.Sublist (gather pending type s fragment).1 ∧
    ((gather none type s fragment).2 = (gather pending type s fragment).2 ∨ (gather none type s fragment).2 = none) := by
  unfold gather
  split_ifs
  · exact ⟨refl _, .inl rfl⟩
  · exact ⟨refl _, .inl rfl⟩
  · exact ⟨refl _, .inr rfl⟩
  · exact ⟨nil_sublist _, .inl rfl⟩
  · exact ⟨refl _, .inl rfl⟩

/-- The reader is at a header of the log, and what it has begun is what the log has begun there, or nothing: then it
returns some of the records of the log. -/
lemma assembled_sublist (hlength : contents'.length = contents.length) (hnoticed : ChangesNoticed crc contents contents')
    {xs0 xs : List (RecordType × Slice)} (hbefore : Chain crc contents 0 xs0 q)
    (h : Chain crc contents q xs contents.length) (ht : Typed xs) {pending' : Option Pieces}
    (hpending : pending' = pending ∨ pending' = none) :
    (assembled crc contents' q pending').Sublist (assembled crc contents q pending) := by
  -- on the number of physical records that are left: damage skips several of them
  induction hn : xs.length using Nat.strong_induction_on generalizing q xs0 xs pending pending' with
  | _ n ih =>
    cases h with
    | nil =>
      rw [assembled_eof (physicalAt_of_length_le hlength.le)]
      exact nil_sublist _
    | @cons q q' t data xs head tail =>
      have ht' : Typed xs := fun x hx => ht x (mem_cons_of_mem _ hx)
      by_cases himage : image crc t data <+: contents'.drop (start q)
      · rw [assembled_holds (ht _ mem_cons_self) ⟨himage, head.fits⟩, assembled_holds (ht _ mem_cons_self) head]
        have hnext := hbefore.append (.cons head (.nil _))
        rcases hpending with rfl | rfl
        · exact (refl _).append (ih _ (by rw [← hn]; exact lt_add_one _) hnext tail ht' (.inl rfl) rfl)
        · obtain ⟨hreturned, hbegun⟩ := gather_sublist pending t.toNat (start q) data
          exact hreturned.append (ih _ (by rw [← hn]; exact lt_add_one _) hnext tail ht' hbegun rfl)
      · have hfails := hnoticed _ t data ⟨⟨xs0, q, hbefore, rfl⟩, head⟩ himage
        rcases physicalAt_of_not_passes hfails with heof | ⟨reported, hbad⟩
        · rw [assembled_eof heof]
          exact nil_sublist _
        · rw [assembled_bad hbad]
          by_cases hend : blockEnd (start q) ≤ contents.length
          · -- the next block begins with a header of the log
            have hle := head.fits
            obtain ⟨ys, zs, m, rfl, hys, hzs, hm⟩ := tail.exists_boundary (blockEnd_mod _) hle hend
            obtain ⟨ps, begun, hps⟩ := assembled_chain (.cons head hys) (fun x hx => ht x (mem_append_left zs hx)) pending
            have hskip : start (min (blockEnd (start q)) contents'.length) = start m := by
              rw [hlength, min_eq_left hend, start_of_boundary (blockEnd_mod _), hm]
            rw [assembled_congr_start hskip, hps]
            refine (ih zs.length ?_ (hbefore.append (.cons head hys)) hzs
              (fun x hx => ht' x (mem_append_right ys hx)) (.inr rfl) rfl).trans
              (sublist_append_right _ _)
            rw [← hn, length_cons, length_append]
            omega
          · rw [assembled_eof (physicalAt_of_length_le (by omega))]
            exact nil_sublist _

lemma Fragmented.typed {begin : Bool} {record : Slice} {xs : List (RecordType × Slice)}
    (h : Fragmented begin record xs) : Typed xs := by
  induction h with
  | last begin data =>
    intro x hx
    cases mem_singleton.1 hx
    exact fragmentType_ne_zero begin true
  | @more begin data left xs rest ih =>
    intro x hx
    cases hx with
    | head => exact fragmentType_ne_zero begin false
    | tail _ hx => exact ih x hx

lemma Records.exists_chain {rs : List (Slice × Nat)} (h : Records crc contents q rs q') :
    ∃ xs, Chain crc contents q xs q' ∧ Typed xs := by
  induction h with
  | nil q => exact ⟨[], .nil q, fun x hx => by cases hx⟩
  | cons chain fragments tail ih =>
    obtain ⟨ys, hys, ht⟩ := ih
    exact ⟨_, chain.append hys, fun x hx => (mem_append.1 hx).elim (fragments.typed x) (ht x)⟩

/-- However the bytes of a log are changed, as long as no checksum test misses it, each record that is returned is put
together from all fragments of one record of the log, and the records come in their order. -/
theorem recovered_of_damaged (crc : Crc32c) (ops : List LogOp) (contents' : Slice) :
    let log := writeLog crc (Writer.new ⟨[], []⟩) ops
    let contents := log.1.dest.contents
    contents'.length = contents.length → ChangesNoticed crc contents contents' →
      (assembled crc contents 0 none).map Pieces.joined = log.2.map (·.1) ∧
        (assembled crc contents' 0 none).map Pieces.joined = (recovered crc contents').1 ∧
        (assembled crc contents' 0 none).Sublist (assembled crc contents 0 none) ∧
        (recovered crc contents').1.Sublist (log.2.map (·.1)) := by
  intro log contents hlength hnoticed
  have hwritten : Written crc 0 log.1 log.2 := written_new.writeLog ops
  obtain ⟨xs, hchain, ht⟩ := hwritten.records.exists_chain
  have hlog : (assembled crc contents 0 none).map Pieces.joined = log.2.map (·.1) := by
    rw [← recovered_joined, hwritten.recovered_eq prefix_rfl, hwritten.records.completeIn_of_le le_rfl]
  have hsublist : (assembled crc contents' 0 none).Sublist (assembled crc contents 0 none) :=
    assembled_sublist hlength hnoticed (.nil 0) hchain ht (.inl rfl)
  refine ⟨hlog, (recovered_joined crc contents').symm, hsublist, ?_⟩
  rw [recovered_joined, ← hlog]
  exact hsublist.map _

lemma Holds.image_eq {s : Nat} {t : RecordType} (h : Holds crc contents s t data) :
    Log.image crc t data = (contents.drop s).take (kHeaderSize + Reader.lengthOfHeader (contents.drop s)) := by
  obtain ⟨rest, hrest⟩ := h.image
  have hlength : Reader.lengthOfHeader (contents.drop s) = data.length := by
    rw [← hrest, Log.image, append_assoc]
    exact lengthOfHeader_header crc t h.length_lt _
  rw [hlength, ← hrest, ← length_image crc t data, take_left']
  rfl

theorem recovered_of_damaged_sample :
    let log := writeLog .bitwise (Writer.new ⟨[], []⟩) [.addRecord [1, 2], .addRecord [3]]
    let contents' := log.1.dest.contents.set 16 4
    contents'.length = log.1.dest.contents.length ∧ ChangesNoticed .bitwise log.1.dest.contents contents' ∧
      (recovered .bitwise contents').1 = [[1, 2]] ∧ (recovered .bitwise contents').1.Sublist [[1, 2], [3]] := by
  intro log contents'
  have hlength : contents'.length = log.1.dest.contents.length := length_set
  have hnoticed : ChangesNoticed .bitwise log.1.dest.contents contents' := by
    rintro s t data ⟨⟨xs, q, hchain, rfl⟩, hholds⟩ himage
    have hsize : log.1.dest.contents.length = 17 := by decide +kernel
    have hle := hholds.le_length
    have hH : kHeaderSize = 7 := rfl
    cases hchain with
    | nil =>
      -- the first record is as it was
      have hsame : (log.1.dest.contents.drop (start 0)).take
          (kHeaderSize + Reader.lengthOfHeader (log.1.dest.contents.drop (start 0))) <+: contents'.drop (start 0) := by
        decide +kernel
      rw [← hholds.image_eq] at hsame
      exact absurd hsame himage
    | @cons q q' t1 data1 xs head tail =>
      have hfirst : 7 + data1.length = 9 := by
        have himage1 := congrArg List.length head.image_eq
        rw [length_image] at himage1
        exact himage1.trans (by decide +kernel)
      have hstart : start 0 = 0 := rfl
      rw [hstart] at tail
      rw [show 0 + kHeaderSize + data1.length = 9 by omega] at tail
      cases tail with
      | nil =>
        unfold PassesTest
        decide +kernel
      | cons head2 tail2 =>
        have hle2 := tail2.le
        have hq := le_start q
        have hnine : start 9 = 9 := rfl
        omega
  exact ⟨hlength, hnoticed, by decide +kernel,
    (recovered_of_damaged .bitwise [.addRecord [1, 2], .addRecord [3]] _ hlength hnoticed).2.2.2⟩

end RallyDB.Db.Log
