import RallyDB.Db.Lemmas.Contents
import RallyDB.Db.QueryHistory
import RallyDB.Db.VisibleEntries
import RallyDB.Lib.Average

/-!
# The access counts of new tables (`db/version_set.cc`)
-/

namespace RallyDB.Db

open Lib List FileStats UInt64 Nat
open UInt64 (ofInt ofNat toNat_div toNat_ofNat')

variable {κ : Type*} [LinearOrder κ]

/-! ## The tables of a level -/

def addCount (s : ℤ × Bool) (f : FileStats) : ℤ × Bool :=
  let sum := s.1 + f.pointQueryTimeAll
  (sum.bmod (2 ^ 32), s.2 || decide (sum < -2 ^ 31) || decide (2 ^ 31 ≤ sum))

variable (metas : List FileStats)

def getAccessTimeFromNewSSTable : ℤ :=
  if metas.isEmpty then 0
  else (((UInt64.ofInt (metas.foldl addCount (0, false)).1 / UInt64.ofNat metas.length).toNat : Nat) : ℤ).bmod (2 ^ 32)

def sumOverflows : Bool := (metas.foldl addCount (0, false)).2 || decide (2 ^ 31 ≤ metas.length)

structure AveragesLevel (metas : List FileStats) : Prop where
  defined : sumOverflows metas = false
  average : getAccessTimeFromNewSSTable metas = average (metas.map FileStats.pointQueryTimeAll)
  least : ∀ n : Nat, (∀ f ∈ metas, n ≤ f.pointQueryTimeAll) → n ≤ getAccessTimeFromNewSSTable metas
  greatest : ∀ n : Nat, (∀ f ∈ metas, f.pointQueryTimeAll ≤ n) → getAccessTimeFromNewSSTable metas ≤ n

lemma foldl_addCount {s : Nat} (b : Bool) (h : s + (metas.map pointQueryTimeAll).sum < 2 ^ 31) :
    metas.foldl addCount (s, b) = (((s + (metas.map pointQueryTimeAll).sum : Nat) : ℤ), b) := by
  induction metas generalizing s with
  | nil => simp
  | cons f metas ih =>
    rw [map_cons, sum_cons, ← add_assoc] at h
    have hstep : addCount (s, b) f = (((s + f.pointQueryTimeAll : Nat) : ℤ), b) := by
      have hbmod : ((s : ℤ) + f.pointQueryTimeAll).bmod (2 ^ 32) = (s + f.pointQueryTimeAll : Nat) := by
        rw [Int.bmod_eq_of_le (by norm_num; omega) (by norm_num; omega), cast_add]
      rw [addCount, hbmod, decide_eq_false (by omega), decide_eq_false (by omega), Bool.or_false, Bool.or_false]
    rw [foldl_cons, hstep, ih h, map_cons, sum_cons, add_assoc]

lemma foldl_addCount_overflowed (s : ℤ) : (metas.foldl addCount (s, true)).2 = true := by
  induction metas generalizing s with
  | nil => rfl
  | cons f metas ih => exact ih _

variable {metas : List FileStats}

lemma sum_lt_of_not_overflowed {s : Nat} (hs : s < 2 ^ 31)
    (h : (metas.foldl addCount (s, false)).2 = false) : s + (metas.map pointQueryTimeAll).sum < 2 ^ 31 := by
  induction metas generalizing s with
  | nil => simpa using hs
  | cons f metas ih =>
    rw [foldl_cons] at h
    rw [map_cons, sum_cons, ← add_assoc]
    by_cases hlt : s + f.pointQueryTimeAll < 2 ^ 31
    · refine ih hlt ?_
      have hstep := foldl_addCount [f] (s := s) false (by simpa using hlt)
      simp only [foldl_cons, foldl_nil, map_cons, map_nil, sum_cons, sum_nil, add_zero] at hstep
      rw [← hstep]
      exact h
    · have hflag : (addCount (s, false) f).2 = true := by
        rw [addCount, decide_eq_true (show (2 : ℤ) ^ 31 ≤ s + f.pointQueryTimeAll by omega), Bool.or_true]
      rw [← Prod.mk.eta (p := addCount (s, false) f), hflag, foldl_addCount_overflowed] at h
      cases h

lemma ofInt_toNat {n : Nat} (h : n < 2 ^ 64) : (ofInt n).toNat = n := by
  rw [ofInt, Int.emod_eq_of_lt (by omega) (by exact_mod_cast h), Int.toNat_natCast, toNat_ofNat', mod_eq_of_lt h]

lemma getAccessTime_of_lt (hne : metas ≠ [])
    (hsum : (metas.map pointQueryTimeAll).sum < 2 ^ 31) (hlen : metas.length < 2 ^ 31) :
    getAccessTimeFromNewSSTable metas = average (metas.map pointQueryTimeAll) := by
  have hfold := foldl_addCount metas (s := 0) false (by rwa [zero_add])
  rw [zero_add, Nat.cast_zero] at hfold
  have hempty : metas.isEmpty = false := by simpa using hne
  have hquot : (ofInt ((metas.map pointQueryTimeAll).sum : Nat) / ofNat metas.length).toNat =
      average (metas.map pointQueryTimeAll) := by
    rw [toNat_div, toNat_ofNat', Nat.mod_eq_of_lt (by omega), ofInt_toNat (by omega), average, length_map]
  have hle : average (metas.map pointQueryTimeAll) ≤ (metas.map pointQueryTimeAll).sum :=
    Nat.div_le_self _ _
  rw [getAccessTimeFromNewSSTable, hempty, hfold, if_neg Bool.false_ne_true, hquot]
  exact Int.bmod_eq_of_le (by omega) (by omega)

/-- The average of a level is right just when the counts add up to an `int`. -/
theorem averagesLevel_iff (metas : List FileStats) (hne : metas ≠ []) :
    AveragesLevel metas ↔ (metas.map FileStats.pointQueryTimeAll).sum < 2 ^ 31 ∧ metas.length < 2 ^ 31 := by
  constructor
  · intro h
    have hdefined := h.defined
    rw [sumOverflows, Bool.or_eq_false_iff, decide_eq_false_iff_not, not_le] at hdefined
    refine ⟨?_, hdefined.2⟩
    simpa using sum_lt_of_not_overflowed (s := 0) (by norm_num) hdefined.1
  · rintro ⟨hsum, hlen⟩
    have haverage := getAccessTime_of_lt hne hsum hlen
    refine ⟨?_, haverage, fun n hn => ?_, fun n hn => ?_⟩
    · have hfold := foldl_addCount metas (s := 0) false (by rwa [zero_add])
      rw [cast_zero (R := ℤ)] at hfold
      rw [sumOverflows, hfold, Bool.false_or, decide_eq_false (not_le.2 hlen)]
    · rw [haverage, cast_le]
      refine le_average (by simpa using hne) fun c hc => ?_
      obtain ⟨f, hf, rfl⟩ := mem_map.1 hc
      exact hn f hf
    · rw [haverage, cast_le]
      refine average_le fun c hc => ?_
      obtain ⟨f, hf, rfl⟩ := mem_map.1 hc
      exact hn f hf

theorem averagesLevel_iff_two : AveragesLevel [{ pointQueryTimeAll := 3 }, { pointQueryTimeAll := 6 }] :=
  (averagesLevel_iff _ (by simp)).2 (by decide)

/-- Two tables with $2^{30}$ accesses each: the sum overflows, and the average comes out negative. -/
theorem averagesLevel_overflow : getAccessTimeFromNewSSTable (List.replicate 2 { pointQueryTimeAll := 2 ^ 30 }) = -2 ^ 30 ∧
    ¬ AveragesLevel (List.replicate 2 { pointQueryTimeAll := 2 ^ 30 }) := by
  have hvalue : getAccessTimeFromNewSSTable (List.replicate 2 { pointQueryTimeAll := 2 ^ 30 }) = -2 ^ 30 := by
    decide +kernel
  refine ⟨hvalue, fun h => ?_⟩
  have hleast := h.least 0 fun f _ => zero_le _
  rw [hvalue] at hleast
  exact absurd hleast (by decide)

/-! ## The inputs of a compaction -/

def isOverlapping (inputSmallest inputLargest outputSmallest outputLargest : InternalKey κ) : Bool :=
  !(decide (outputLargest.userKey < inputSmallest.userKey) || decide (inputLargest.userKey < outputSmallest.userKey))

def addAccessTime (smallest largest : InternalKey κ) (s : UInt64 × UInt64) (p : FileMetaData κ × UInt64) : UInt64 × UInt64 :=
  if isOverlapping p.1.smallest p.1.largest smallest largest then (s.1 + p.2, s.2 + 1) else s

structure AccessTimes (c : Compaction κ) where
  times0 : List UInt64
  times1 : List UInt64
  length0 : times0.length = c.inputs0.length
  length1 : times1.length = c.inputs1.length

variable (c : Compaction κ)

def Compaction.getInputTableAccessTime (getAccessTime : Nat → UInt64) : AccessTimes c where
  times0 := c.inputs0.map fun f => getAccessTime f.number
  times1 := c.inputs1.map fun f => getAccessTime f.number
  length0 := length_map _
  length1 := length_map _

def AccessTimes.counted {c : Compaction κ} (t : AccessTimes c) : List (FileMetaData κ × UInt64) :=
  c.inputs0.zip t.times0 ++ c.inputs1.zip t.times1

def Compaction.getNewTableAccessTime (t : AccessTimes c) (smallest largest : InternalKey κ) : UInt64 :=
  let (accessTimes, sum) := t.counted.foldl (addAccessTime smallest largest) (0, 0)
  if sum = 0 then 0 else accessTimes / sum

def Meets (f : FileMetaData κ) (smallest largest : InternalKey κ) : Prop :=
  ∃ u, (f.smallest.userKey ≤ u ∧ u ≤ f.largest.userKey) ∧ smallest.userKey ≤ u ∧ u ≤ largest.userKey

open Classical in
noncomputable def AccessTimes.meeting {c : Compaction κ} (t : AccessTimes c) (smallest largest : InternalKey κ) : List Nat :=
  (t.counted.filter fun p => Meets p.1 smallest largest).map fun p => p.2.toNat

structure AccessTimes.Bounded {c : Compaction κ} (t : AccessTimes c) : Prop where
  sum : (t.counted.map fun p => p.2.toNat).sum < 2 ^ 64
  length : t.counted.length < 2 ^ 64

lemma isOverlapping_iff (f : FileMetaData κ) {smallest largest : InternalKey κ} (h : smallest.userKey ≤ largest.userKey) :
    isOverlapping f.smallest f.largest smallest largest = true ↔ Meets f smallest largest := by
  have hf : f.smallest.userKey ≤ f.largest.userKey := InternalKey.user_le_of_le f.smallest_le_largest
  simp only [isOverlapping, Bool.not_eq_true', Bool.or_eq_false_iff, decide_eq_false_iff_not, not_lt]
  constructor
  · rintro ⟨h1, h2⟩
    exact ⟨max f.smallest.userKey smallest.userKey, ⟨le_max_left _ _, max_le hf h2⟩, le_max_right _ _, max_le h1 h⟩
  · rintro ⟨u, ⟨h1, h2⟩, h3, h4⟩
    exact ⟨h1.trans h4, h3.trans h2⟩

lemma foldl_addAccessTime (smallest largest : InternalKey κ) (counted : List (FileMetaData κ × UInt64))
    (s : UInt64 × UInt64) : counted.foldl (addAccessTime smallest largest) s =
      (s.1 + ofNat ((counted.filter fun p => isOverlapping p.1.smallest p.1.largest smallest largest).map
          fun p => p.2.toNat).sum,
        s.2 + ofNat (counted.filter fun p => isOverlapping p.1.smallest p.1.largest smallest largest).length) := by
  induction counted generalizing s with
  | nil => simp
  | cons p counted ih =>
    rw [foldl_cons, ih, addAccessTime]
    cases hov : isOverlapping p.1.smallest p.1.largest smallest largest with
    | false => simp [hov]
    | true =>
      simp only [if_true, filter_cons, hov, map_cons, sum_cons, length_cons, UInt64.ofNat_add, UInt64.ofNat_toNat]
      rw [UInt64.add_assoc, UInt64.add_assoc, UInt64.add_comm 1]
      rfl

section

variable {c : Compaction κ} {t : AccessTimes c} {smallest largest : InternalKey κ}

open Classical in
lemma AccessTimes.meeting_eq (h : smallest.userKey ≤ largest.userKey) : t.meeting smallest largest =
    (t.counted.filter fun p => isOverlapping p.1.smallest p.1.largest smallest largest).map fun p => p.2.toNat := by
  rw [AccessTimes.meeting]
  congr 1
  refine filter_congr fun p _ => ?_
  rw [Bool.eq_iff_iff, decide_eq_true_iff, isOverlapping_iff p.1 h]

lemma AccessTimes.Bounded.filter (h : t.Bounded) (p : FileMetaData κ × UInt64 → Bool) :
    ((t.counted.filter p).map fun x => x.2.toNat).sum < 2 ^ 64 ∧ (t.counted.filter p).length < 2 ^ 64 :=
  ⟨(List.Sublist.sum_le_sum (filter_sublist.map _) fun _ _ => zero_le _).trans_lt h.sum,
    (length_filter_le _ _).trans_lt h.length⟩

lemma Compaction.getNewTableAccessTime_toNat (hb : t.Bounded) (h : smallest.userKey ≤ largest.userKey) :
    (c.getNewTableAccessTime t smallest largest).toNat = average (t.meeting smallest largest) := by
  obtain ⟨hsum, hlen⟩ := hb.filter fun p => isOverlapping p.1.smallest p.1.largest smallest largest
  rw [AccessTimes.meeting_eq h, average, length_map, Compaction.getNewTableAccessTime, foldl_addAccessTime]
  simp only [UInt64.zero_add]
  generalize (t.counted.filter fun p => isOverlapping p.1.smallest p.1.largest smallest largest) = met at hsum hlen
  have hn : (ofNat met.length).toNat = met.length := by
    rw [toNat_ofNat', Nat.mod_eq_of_lt hlen]
  split_ifs with hzero
  · have hlength : met.length = 0 := by
      rw [← hn, hzero]
      rfl
    rw [hlength, Nat.div_zero]
    rfl
  · rw [toNat_div, hn, toNat_ofNat', Nat.mod_eq_of_lt hsum]

lemma AccessTimes.exists_counted (t : AccessTimes c) {f : FileMetaData κ} (hf : f ∈ c.inputs) :
    ∃ count, (f, count) ∈ t.counted := by
  have hmap : t.counted.map Prod.fst = c.inputs := by
    rw [AccessTimes.counted, map_append, map_fst_zip t.length0.ge, map_fst_zip t.length1.ge, Compaction.inputs]
  rw [← hmap] at hf
  obtain ⟨p, hp, rfl⟩ := mem_map.1 hf
  exact ⟨p.2, hp⟩

end

lemma Compaction.output_range (o : Options κ) (q : Nat) {out : List (Entry κ)}
    (hout : out ∈ c.doCompactionWork o q) (hne : out ≠ []) :
    (out.head hne).1 ≤ (out.getLast hne).1 ∧ ∃ f ∈ c.inputs, f.smallest ≤ (out.head hne).1 ∧ (out.head hne).1 ≤ f.largest := by
  have hsub : out.Sublist c.makeInputIterator :=
    (sublist_flatten_of_mem hout).trans (doCompactionWork_sublist c o q).1
  have hsorted : out.Pairwise fun a b => a.1 ≤ b.1 := (pairwise_insertionSort _ _).sublist hsub
  have hmem : out.head hne ∈ c.makeInputIterator := hsub.subset (head_mem hne)
  rw [Compaction.makeInputIterator, mem_insertionSort] at hmem
  obtain ⟨f, hf, hentry⟩ := mem_flatMap.1 hmem
  refine ⟨?_, f, hf, f.smallest_le hentry, f.le_largest hentry⟩
  obtain ⟨first, rest, rfl⟩ := exists_cons_of_ne_nil hne
  rcases mem_cons.1 (getLast_mem hne) with hlast | hlast
  · rw [hlast, head_cons]
  · exact (pairwise_cons.1 hsorted).1 _ hlast

structure Inherits {c : Compaction κ} (t : AccessTimes c) (smallest largest : InternalKey κ) : Prop where
  meets : ∃ f ∈ c.inputs, Meets f smallest largest
  average : (c.getNewTableAccessTime t smallest largest).toNat = average (t.meeting smallest largest)
  least : ∀ n, (∀ count ∈ t.meeting smallest largest, n ≤ count) → n ≤ (c.getNewTableAccessTime t smallest largest).toNat
  greatest : ∀ n, (∀ count ∈ t.meeting smallest largest, count ≤ n) → (c.getNewTableAccessTime t smallest largest).toNat ≤ n

/-- Every output file of a compaction inherits its access count from the input files that it meets. -/
theorem doCompactionWork_inherits (c : Compaction κ) (o : Options κ) (q : Nat) (t : AccessTimes c) (hb : t.Bounded)
    (out : List (Entry κ)) (hout : out ∈ c.doCompactionWork o q) :
    ∃ hne : out ≠ [], Inherits t (out.head hne).1 (out.getLast hne).1 := by
  have hne := (doCompactionWork_sublist c o q).2 out hout
  obtain ⟨hle, f, hf, hsmallest, hlargest⟩ := c.output_range o q hout hne
  have huser := InternalKey.user_le_of_le hle
  have hmeets : Meets f (out.head hne).1 (out.getLast hne).1 :=
    ⟨(out.head hne).1.userKey, ⟨InternalKey.user_le_of_le hsmallest, InternalKey.user_le_of_le hlargest⟩, le_rfl, huser⟩
  have haverage := c.getNewTableAccessTime_toNat hb huser
  obtain ⟨count, hcount⟩ := t.exists_counted hf
  have hmeeting : t.meeting (out.head hne).1 (out.getLast hne).1 ≠ [] := by
    refine ne_nil_of_mem (a := count.toNat) (mem_map.2 ⟨(f, count), ?_, rfl⟩)
    simp [hcount, hmeets]
  refine ⟨hne, ⟨f, hf, hmeets⟩, haverage, fun n hn => ?_, fun n hn => ?_⟩
  · rw [haverage]
    exact le_average hmeeting hn
  · rw [haverage]
    exact average_le hn

theorem doCompactionWork_inherits_layered :
    ∃ hne : [((⟨1, 40, .value⟩ : InternalKey Nat), ([4] : Slice)), (⟨1, 30, .deletion⟩, [])] ≠ [],
    Inherits (layeredCompaction.getInputTableAccessTime UInt64.ofNat) (List.head _ hne).1 (List.getLast _ hne).1 :=
  doCompactionWork_inherits layeredCompaction wideOptions 35 _ ⟨by decide, by decide⟩ _ (by decide +kernel)

end RallyDB.Db
