import RallyDB.Db.Lemmas.Edits
import RallyDB.Db.Lemmas.Lookup

/-!
# What the chosen compaction inputs leave behind
-/

namespace RallyDB.Db

open RallyDB.Lib List InternalKey Option

variable {κ : Type*} [LinearOrder κ]

/-! ## `GetOverlappingInputs` -/

def overlaps (begin limit : Option κ) (f : FileMetaData κ) : Bool := !(afterFile begin f || beforeFile limit f)

def Within (begin limit : Option κ) (f : FileMetaData κ) : Prop :=
  startsBelow begin f = false ∧ endsAbove limit f = false

variable {files inputs part chosen first : List (FileMetaData κ)} {i level : Nat}

lemma filter_take_succ (h : i < files.length) (p : FileMetaData κ → Bool) :
    (files.take (i + 1)).filter p = (files.take i).filter p ++ [files[i]].filter p := by
  rw [take_add_one, getElem?_eq_getElem h, toList_some, filter_append]

lemma afterFile_of_startsBelow {b : Option κ} {f g : FileMetaData κ} (hf : startsBelow b f)
    (hg : afterFile (some f.smallest.userKey) g) : afterFile b g := by
  cases b with
  | none => simp [startsBelow] at hf
  | some b =>
    simp only [startsBelow, afterFile, decide_eq_true_eq] at hf hg ⊢
    exact hg.trans hf

lemma beforeFile_of_endsAbove {e : Option κ} {f g : FileMetaData κ} (hf : endsAbove e f)
    (hg : beforeFile (some f.largest.userKey) g) : beforeFile e g := by
  cases e with
  | none => simp [endsAbove] at hf
  | some e =>
    simp only [endsAbove, beforeFile, decide_eq_true_eq] at hf hg ⊢
    exact hf.trans hg

lemma overlapScan_spec (level : Nat) {begin limit : Option κ} (hi : inputs = (files.take i).filter (overlaps begin limit))
    (hw : level = 0 → ∀ f ∈ inputs, Within begin limit f) :
    ∃ begin' limit', overlapScan level files begin limit i inputs = files.filter (overlaps begin' limit') ∧
    (level = 0 → ∀ f ∈ files.filter (overlaps begin' limit'), Within begin' limit' f) ∧
    (0 < level → begin' = begin ∧ limit' = limit) ∧
    (∀ f, afterFile begin' f → afterFile begin f) ∧ ∀ f, beforeFile limit' f → beforeFile limit f := by
  fun_induction overlapScan level files begin limit i inputs with
  | case1 begin limit i inputs hlt f hout ih =>
    have hno : overlaps begin limit files[i] = false := by rw [overlaps, hout]; rfl
    exact ih (by rw [filter_take_succ hlt, hi]; simp [hno]) hw
  | case2 begin limit i inputs hlt f hout hbelow ih =>
    obtain ⟨b, e, h1, h2, -, h4, h5⟩ := ih (by simp) (by simp)
    exact ⟨b, e, h1, h2, by omega, fun g hg => afterFile_of_startsBelow hbelow.2 (h4 g hg), h5⟩
  | case3 begin limit i inputs hlt f hout hbelow habove ih =>
    obtain ⟨b, e, h1, h2, -, h4, h5⟩ := ih (by simp) (by simp)
    exact ⟨b, e, h1, h2, by omega, h4, fun g hg => beforeFile_of_endsAbove habove.2 (h5 g hg)⟩
  | case4 begin limit i inputs hlt f hout hbelow habove ih =>
    have hyes : overlaps begin limit files[i] = true := by
      rw [overlaps, Bool.not_eq_true_eq_eq_false, ← Bool.not_eq_true]
      exact hout
    refine ih (by rw [filter_take_succ hlt, hi]; simp [hyes, f]) fun h0 g hg => ?_
    rcases mem_append.1 hg with hg | hg
    · exact hw h0 g hg
    · rw [mem_singleton.1 hg]
      exact ⟨by simpa [h0] using hbelow, by simpa [h0] using habove⟩
  | case5 begin limit i inputs hge =>
    have hall : files.take i = files := take_of_length_le (by omega)
    rw [hall] at hi
    exact ⟨begin, limit, hi, hi ▸ hw, by simp, fun _ h => h, fun _ h => h⟩

lemma getOverlappingInputs_spec (v : Version κ) (level : Nat) (begin limit : Option (InternalKey κ)) :
    ∃ b e, v.getOverlappingInputs level begin limit = (v.files level).filter (overlaps b e) ∧
    (level = 0 → ∀ f ∈ v.getOverlappingInputs level begin limit, Within b e f) ∧
    (0 < level → b = begin.map (·.userKey) ∧ e = limit.map (·.userKey)) := by
  have h0 : ([] : List (FileMetaData κ)) =
    ((v.files level).take 0).filter (overlaps (begin.map (·.userKey)) (limit.map (·.userKey))) := by simp
  obtain ⟨b, e, h1, h2, h3, -⟩ := overlapScan_spec level h0 (by simp)
  exact ⟨b, e, h1, fun hl f hf => h2 hl f (h1 ▸ hf), h3⟩

lemma getOverlappingInputs_pos (v : Version κ) (hl : 0 < level)
    (begin limit : Option (InternalKey κ)) : v.getOverlappingInputs level begin limit =
    (v.files level).filter (overlaps (begin.map (·.userKey)) (limit.map (·.userKey))) := by
  obtain ⟨b, e, h1, _, h3⟩ := getOverlappingInputs_spec v level begin limit
  obtain ⟨rfl, rfl⟩ := h3 hl
  exact h1

variable {v : Version κ} {begin limit : Option (InternalKey κ)} {f g : FileMetaData κ}

lemma getOverlappingInputs_mem (h : f ∈ v.getOverlappingInputs level begin limit) : f ∈ v.files level := by
  obtain ⟨b, e, h1, _, _⟩ := getOverlappingInputs_spec v level begin limit
  rw [h1] at h
  exact (mem_filter.1 h).1

lemma overlaps_iff {b e : κ} : overlaps (some b) (some e) f = true ↔ b ≤ f.largest.userKey ∧ f.smallest.userKey ≤ e := by
  simp [overlaps, afterFile, beforeFile]

lemma mem_getOverlappingInputs (hl : 0 < level) {b e : InternalKey κ} : f ∈ v.getOverlappingInputs level (some b) (some e) ↔
    f ∈ v.files level ∧ b.userKey ≤ f.largest.userKey ∧ f.smallest.userKey ≤ e.userKey := by
  rw [getOverlappingInputs_pos v hl, mem_filter, map_some, map_some, overlaps_iff]

lemma getRange_foldl (files : List (FileMetaData κ)) (lo hi : InternalKey κ) :
    files.foldl (fun r g => (if g.smallest < r.1 then g.smallest else r.1,
      if r.2 < g.largest then g.largest else r.2)) (lo, hi) =
    (files.foldl (fun k g => if g.smallest < k then g.smallest else k) lo,
      files.foldl (fun k g => if k < g.largest then g.largest else k) hi) := by
  induction files generalizing lo hi with
  | nil => rfl
  | cons f files ih => rw [foldl_cons, ih]; rfl

lemma getRange_spec {lo hi : InternalKey κ} (h : getRange files = some (lo, hi)) :
    (∀ f ∈ files, lo ≤ f.smallest ∧ f.largest ≤ hi) ∧ (∃ f ∈ files, f.smallest = lo) ∧ ∃ f ∈ files, f.largest = hi := by
  cases files with
  | nil => simp [getRange] at h
  | cons f files =>
    rw [getRange, some.injEq, getRange_foldl, Prod.mk.injEq] at h
    obtain ⟨rfl, rfl⟩ := h
    -- The smallest key is the greatest one in the dual order.
    obtain ⟨hlo, hsmallest⟩ := foldl_greatest (fun g : FileMetaData κ => OrderDual.toDual g.smallest) files f
    obtain ⟨hhi, hlargest⟩ := foldl_greatest (fun g : FileMetaData κ => g.largest) files f
    exact ⟨fun g hg => ⟨hlo g hg, hhi g hg⟩, hsmallest, hlargest⟩

variable {k pointer : InternalKey κ}

lemma findLargestKey_spec (h : findLargestKey files = some k) :
    (∀ f ∈ files, f.largest ≤ k) ∧ ∃ f ∈ files, f.largest = k := by
  cases files with
  | nil => simp [findLargestKey] at h
  | cons f files =>
    rw [findLargestKey, some.injEq] at h
    subst h
    exact foldl_greatest (fun g : FileMetaData κ => g.largest) files f

lemma findLargestKey_eq_none (h : findLargestKey files = none) : files = [] := by
  cases files with
  | nil => rfl
  | cons f files => simp [findLargestKey] at h

/-! ## `AddBoundaryInputs` -/

lemma findSmallestBoundaryFile_none {levelFiles : List (FileMetaData κ)}
    (h : findSmallestBoundaryFile levelFiles k = none) : ∀ f ∈ levelFiles, ¬ IsBoundary k f := by
  have hb := findSmallestBoundaryFile_best levelFiles k
  rwa [h] at hb

structure Segment (files part : List (FileMetaData κ)) : Prop where
  mem : ∀ f ∈ part, f ∈ files
  convex : ∀ a ∈ part, ∀ b ∈ part, ∀ f ∈ files, a.smallest ≤ f.smallest → f.smallest ≤ b.smallest → f ∈ part

def NoOlder (files chosen : List (FileMetaData κ)) : Prop :=
  ∀ f ∈ files, f ∉ chosen → ∀ g ∈ chosen, f.largest < g.smallest ∨ g.largest.userKey < f.smallest.userKey

section

variable (h : DisjointSorted files)
include h

lemma DisjointSorted.apart
    (hf : f ∈ files) (hg : g ∈ files) (hne : f ≠ g) : f.largest < g.smallest ∨ g.largest < f.smallest :=
  rel_or_rel_of_pairwise h hf hg hne

lemma DisjointSorted.nodup : files.Nodup :=
  List.Pairwise.imp (fun {f g} hlt (he : f = g) => f.smallest_le_largest.not_gt (he ▸ hlt)) h

lemma DisjointSorted.lt_of_smallest_lt
    (hf : f ∈ files) (hg : g ∈ files) (hlt : f.smallest < g.smallest) : f.largest < g.smallest := by
  have hne : f ≠ g := fun he => hlt.ne (by rw [he])
  rcases h.apart hf hg hne with h | h
  · exact h
  · exact absurd (g.smallest_le_largest.trans_lt h) hlt.not_gt

lemma DisjointSorted.eq_of_smallest (hf : f ∈ files) (hg : g ∈ files) (he : f.smallest = g.smallest) : f = g := by
  by_contra hne
  rcases h.apart hf hg hne with h | h
  · exact absurd (he ▸ h) f.smallest_le_largest.not_gt
  · exact absurd (he ▸ h) g.smallest_le_largest.not_gt

end

lemma Segment.snoc (hd : DisjointSorted files) (hp : Segment files part)
    (hle : ∀ g ∈ part, g.largest ≤ k) (hk : ∃ g ∈ part, g.largest = k)
    (hf : findSmallestBoundaryFile files k = some f) : Segment files (part ++ [f]) := by
  obtain ⟨hfm, ⟨hkf, hfu⟩, hmin⟩ := findSmallestBoundaryFile_some hf
  refine ⟨fun x hx => ?_, fun a ha b hb x hx hax hxb => ?_⟩
  · rcases mem_append.1 hx with hx | hx
    · exact hp.mem x hx
    · exact mem_singleton.1 hx ▸ hfm
  have hlast : ∀ g ∈ part, g.smallest < f.smallest := fun g hg =>
    (g.smallest_le_largest.trans (hle g hg)).trans_lt hkf
  simp only [mem_append, mem_singleton] at ha hb ⊢
  rcases ha with ha | rfl
  · rcases hb with hb | rfl
    · exact .inl (hp.convex a ha b hb x hx hax hxb)
    · obtain ⟨g, hg, hgk⟩ := hk
      rcases le_or_gt x.smallest g.smallest with hxg | hgx
      · exact .inl (hp.convex a ha g hg x hx hax hxg)
      · -- The file lies between the end of the segment and the boundary file, so it is the boundary file.
        have hkx : k < x.smallest := hgk ▸ hd.lt_of_smallest_lt (hp.mem g hg) hx hgx
        have hxu : x.smallest.userKey = k.userKey :=
          le_antisymm (hfu ▸ user_le_of_le hxb) (user_le_of_le hkx.le)
        exact .inr (hd.eq_of_smallest hx hfm (le_antisymm hxb (hmin x hx ⟨hkx, hxu⟩)))
  · rcases hb with hb | rfl
    · exact absurd (hax.trans hxb) (hlast b hb).not_ge
    · exact .inr (hd.eq_of_smallest hx hfm (le_antisymm hxb hax))

lemma largest_le_snoc (hle : ∀ g ∈ part, g.largest ≤ k) (hkf : k < f.smallest) :
    ∀ g ∈ part ++ [f], g.largest ≤ f.largest := by
  intro g hg
  rcases mem_append.1 hg with hg | hg
  · exact (hle g hg).trans (hkf.le.trans f.smallest_le_largest)
  · rw [mem_singleton.1 hg]

lemma boundaryLoop_added (files : List (FileMetaData κ)) (hle : ∀ g ∈ part, g.largest ≤ k)
    (hk : ∃ g ∈ part, g.largest = k) : ∃ added, boundaryLoop files k part = part ++ added ∧ added.Nodup ∧
    (∀ f ∈ added, f ∈ files ∧ f ∉ part) ∧ ∀ k', (∀ g ∈ part ++ added, g.largest ≤ k') → (∃ g ∈ part ++ added, g.largest = k') →
    ∀ f ∈ files, ¬ IsBoundary k' f := by
  fun_induction boundaryLoop files k part with
  | case1 k part f hf ih =>
    obtain ⟨hfm, ⟨hkf, _⟩, _⟩ := findSmallestBoundaryFile_some hf
    have hfn : f ∉ part := fun hfp => absurd (f.smallest_le_largest.trans (hle f hfp)) hkf.not_ge
    obtain ⟨added, hloop, hn, hmem, hnone⟩ := ih (largest_le_snoc hle hkf) ⟨f, by simp, rfl⟩
    simp only [append_assoc, singleton_append, mem_append, mem_singleton, not_or] at hloop hmem hnone
    refine ⟨f :: added, hloop, nodup_cons.2 ⟨fun h => (hmem f h).2.2 rfl, hn⟩, ?_, by simpa using hnone⟩
    exact forall_mem_cons.2 ⟨⟨hfm, hfn⟩, fun g hg => ⟨(hmem g hg).1, (hmem g hg).2.1⟩⟩
  | case2 k part hnone =>
    refine ⟨[], (append_nil _).symm, nodup_nil, by simp, fun k' hle' hk' => ?_⟩
    rw [append_nil] at hle' hk'
    obtain ⟨g, hg, rfl⟩ := hk
    obtain ⟨x, hx, rfl⟩ := hk'
    rw [le_antisymm (hle x hx) (hle' g hg)]
    exact findSmallestBoundaryFile_none hnone

lemma boundaryLoop_spec (hd : DisjointSorted files)
    (hp : Segment files part) (hle : ∀ g ∈ part, g.largest ≤ k) (hk : ∃ g ∈ part, g.largest = k) :
    Segment files (boundaryLoop files k part) ∧ NoOlder files (boundaryLoop files k part) := by
  fun_induction boundaryLoop files k part with
  | case1 k part f hf ih =>
    obtain ⟨_, ⟨hkf, _⟩, _⟩ := findSmallestBoundaryFile_some hf
    exact ih (hp.snoc hd hle hk hf) (largest_le_snoc hle hkf) ⟨f, by simp, rfl⟩
  | case2 k part hnone =>
    refine ⟨hp, fun f hf hfn g hg => ?_⟩
    have hne : f ≠ g := fun he => hfn (he ▸ hg)
    rcases hd.apart hf (hp.mem g hg) hne with hlt | hgt
    · exact .inl hlt
    · -- A file after `g` lies after the whole segment.
      have hkf : k < f.smallest := by
        obtain ⟨x, hx, hxk⟩ := hk
        rcases lt_trichotomy x.smallest f.smallest with hxf | hxf | hxf
        · exact hxk ▸ hd.lt_of_smallest_lt (hp.mem x hx) hf hxf
        · exact absurd (hd.eq_of_smallest (hp.mem x hx) hf hxf ▸ hx) hfn
        · exact absurd (hp.convex g hg x hx f hf (g.smallest_le_largest.trans hgt.le) hxf.le) hfn
      have hu : f.smallest.userKey ≠ k.userKey := fun hu =>
        findSmallestBoundaryFile_none hnone f hf ⟨hkf, hu⟩
      have h1 := user_le_of_le (hle g hg)
      have h2 := user_le_of_le hkf.le
      exact .inr (lt_of_le_of_lt h1 (lt_of_le_of_ne h2 hu.symm))

/-! ## First choices -/

def UserClosed (files chosen : List (FileMetaData κ)) : Prop :=
  ∀ f ∈ files, f ∉ chosen → ∀ g ∈ chosen, f.largest.userKey < g.smallest.userKey ∨ g.largest.userKey < f.smallest.userKey

structure FirstChoice (level : Nat) (files chosen : List (FileMetaData κ)) : Prop where
  mem : ∀ f ∈ chosen, f ∈ files
  nodup : chosen.Nodup
  closed : level = 0 → UserClosed files chosen
  segment : 0 < level → Segment files chosen

lemma UserClosed.noOlder (h : UserClosed files chosen) : NoOlder files chosen := by
  intro f hf hfn g hg
  rcases h f hf hfn g hg with h | h
  · exact .inl (lt_of_user_lt h)
  · exact .inr h

lemma UserClosed.addBoundaryInputs_eq (h : UserClosed files chosen) : addBoundaryInputs files chosen = chosen := by
  unfold addBoundaryInputs
  split
  · rfl
  · rename_i k hk
    obtain ⟨hle, g, hg, hgk⟩ := findLargestKey_spec hk
    rw [boundaryLoop]
    split
    · rename_i f hf
      obtain ⟨hfm, ⟨hkf, hfu⟩, _⟩ := findSmallestBoundaryFile_some hf
      have hfn : f ∉ chosen := fun hfc => absurd (f.smallest_le_largest.trans (hle f hfc)) hkf.not_ge
      have h1 := user_le_of_le f.smallest_le_largest
      have h2 := user_le_of_le g.smallest_le_largest
      rcases h f hfm hfn g hg with h | h
      · exact absurd (h2.trans (by rw [hgk, ← hfu]; exact h1)) h.not_ge
      · rw [hgk, hfu] at h
        exact absurd h (lt_irrefl _)
    · rfl

lemma FirstChoice.addBoundaryInputs (h : FirstChoice level files chosen) (hd : 0 < level → DisjointSorted files) :
    FirstChoice level files (addBoundaryInputs files chosen) ∧ NoOlder files (addBoundaryInputs files chosen) ∧
    ∀ f ∈ chosen, f ∈ addBoundaryInputs files chosen := by
  rcases Nat.eq_zero_or_pos level with h0 | hpos
  · rw [(h.closed h0).addBoundaryInputs_eq]
    exact ⟨h, (h.closed h0).noOlder, fun f hf => hf⟩
  · have hseg := h.segment hpos
    unfold RallyDB.Db.addBoundaryInputs
    split
    · rename_i hnone
      obtain rfl := findLargestKey_eq_none hnone
      exact ⟨h, by simp [NoOlder], by simp⟩
    · rename_i k hk
      obtain ⟨hle, hkm⟩ := findLargestKey_spec hk
      obtain ⟨h1, h2⟩ := boundaryLoop_spec (hd hpos) hseg hle hkm
      obtain ⟨added, hloop, hn, hmem, _⟩ := boundaryLoop_added files hle hkm
      rw [hloop] at h1 h2 ⊢
      have hnodup := h.nodup.append hn fun x hx hxa => (hmem x hxa).2 hx
      exact ⟨⟨h1.mem, hnodup, by omega, fun _ => h1⟩, h2, fun f hf => mem_append_left _ hf⟩

lemma userClosed_getOverlappingInputs (v : Version κ) (begin limit : Option (InternalKey κ)) :
    UserClosed (v.files 0) (v.getOverlappingInputs 0 begin limit) := by
  intro f hf hfn g hg
  obtain ⟨b, e, hfilter, hwithin, _⟩ := getOverlappingInputs_spec v 0 begin limit
  have hno : overlaps b e f = false := by
    rw [hfilter, mem_filter] at hfn
    simpa [hf] using hfn
  obtain ⟨hgb, hge⟩ := hwithin rfl g hg
  rw [overlaps, Bool.not_eq_false', Bool.or_eq_true] at hno
  rcases hno with ha | hb
  · cases b with
    | none => simp [afterFile] at ha
    | some b =>
      simp only [afterFile, startsBelow, decide_eq_true_eq, decide_eq_false_iff_not, not_lt] at ha hgb
      exact .inl (ha.trans_le hgb)
  · cases e with
    | none => simp [beforeFile] at hb
    | some e =>
      simp only [beforeFile, endsAbove, decide_eq_true_eq, decide_eq_false_iff_not, not_lt] at hb hge
      exact .inr (hge.trans_lt hb)

lemma firstChoice_getOverlappingInputs (hn : (v.files level).Nodup)
    (hd : 0 < level → DisjointSorted (v.files level)) (begin limit : Option (InternalKey κ)) :
    FirstChoice level (v.files level) (v.getOverlappingInputs level begin limit) := by
  obtain ⟨b, e, hfilter, _, _⟩ := getOverlappingInputs_spec v level begin limit
  refine ⟨fun f hf => getOverlappingInputs_mem hf, hfilter ▸ hn.filter _, fun h0 => ?_, fun hpos => ?_⟩
  · subst h0
    exact userClosed_getOverlappingInputs v begin limit
  · refine ⟨fun f hf => getOverlappingInputs_mem hf, fun x hx y hy f hf hxf hfy => ?_⟩
    rw [hfilter, mem_filter] at hx hy ⊢
    refine ⟨hf, ?_⟩
    simp only [overlaps, Bool.not_eq_true', Bool.or_eq_false_iff] at hx hy ⊢
    constructor
    · -- The file is `x` itself or lies after it.
      rcases hxf.eq_or_lt with heq | hlt
      · exact (hd hpos).eq_of_smallest hx.1 hf heq ▸ hx.2.1
      · have hle := ((hd hpos).lt_of_smallest_lt hx.1 hf hlt).le.trans f.smallest_le_largest
        cases b with
        | none => rfl
        | some b =>
          have hb := hx.2.1
          simp only [afterFile, decide_eq_false_iff_not, not_lt] at hb ⊢
          exact hb.trans (user_le_of_le hle)
    · cases e with
      | none => rfl
      | some e =>
        have he := hy.2.2
        simp only [beforeFile, decide_eq_false_iff_not, not_lt] at he ⊢
        exact (user_le_of_le hfy).trans he

lemma firstChoice_singleton (hl : 0 < level) (hd : DisjointSorted files) (hf : f ∈ files) : FirstChoice level files [f] := by
  have hmem : ∀ g ∈ [f], g ∈ files := fun g hg => mem_singleton.1 hg ▸ hf
  refine ⟨hmem, nodup_singleton f, by omega, fun _ => ⟨hmem, fun a ha b hb x hx hax hxb => ?_⟩⟩
  rw [mem_singleton] at ha hb ⊢
  subst ha hb
  exact hd.eq_of_smallest hx hf (le_antisymm hxb hax)

lemma takeUntilLimit_isPrefix (limit total : Nat) (files : List (FileMetaData κ)) :
    takeUntilLimit limit total files <+: files := by
  induction files generalizing total with
  | nil => exact prefix_rfl
  | cons f files ih =>
    unfold takeUntilLimit
    split
    · exact ⟨files, rfl⟩
    · exact (prefix_cons_inj f).2 (ih _)

lemma Segment.of_isPrefix {front : List (FileMetaData κ)} (hd : DisjointSorted files)
    (hp : Segment files part) (hs : part.Sublist files) (hf : front <+: part) : Segment files front := by
  refine ⟨fun f h => hp.mem f (hf.mem h), fun a ha b hb f hfm haf hfb => ?_⟩
  have hmem := hp.convex a (hf.mem ha) b (hf.mem hb) f hfm haf hfb
  obtain ⟨back, rfl⟩ := hf
  rcases mem_append.1 hmem with h | h
  · exact h
  · have hlt := (pairwise_append.1 (hd.sublist hs)).2.2 b hb f h
    exact absurd (hlt.trans_le hfb) b.smallest_le_largest.not_gt

/-! ## `SetupOtherInputs` -/

def secondInputs (v : Version κ) (level : Nat) (smallest largest : InternalKey κ) : List (FileMetaData κ) :=
  addBoundaryInputs (v.files (level + 1)) (v.getOverlappingInputs (level + 1) (some smallest) (some largest))

def ChosenFrom (v : Version κ) (level : Nat) (first chosen : List (FileMetaData κ)) : Prop :=
  chosen = first ∨ ∃ smallest largest lo hi, getRange (addBoundaryInputs (v.files level) first) = some (smallest, largest) ∧
    getRange (addBoundaryInputs (v.files level) first ++ secondInputs v level smallest largest) = some (lo, hi) ∧
    chosen = v.getOverlappingInputs level (some lo) (some hi)

variable {o : Options κ} {c : Compaction κ}

lemma setupOtherInputs_cases (h : v.setupOtherInputs o level first = some (c, pointer)) :
    c.level = level ∧ c.inputVersion = v ∧ ∃ chosen, ChosenFrom v level first chosen ∧
    c.inputs0 = addBoundaryInputs (v.files level) chosen ∧
    ∃ smallest largest, getRange c.inputs0 = some (smallest, largest) ∧
    c.inputs1 = secondInputs v level smallest largest := by
  simp only [Version.setupOtherInputs, bind_eq_bind, bind_eq_some_iff] at h
  obtain ⟨⟨smallest, largest⟩, hrange, ⟨lo, hi⟩, hall, h⟩ := h
  have hplain : ∀ c' : Compaction κ, c'.level = level → c'.inputVersion = v →
      c'.inputs0 = addBoundaryInputs (v.files level) first → c'.inputs1 = secondInputs v level smallest largest →
      c'.level = level ∧ c'.inputVersion = v ∧ ∃ chosen, ChosenFrom v level first chosen ∧
        c'.inputs0 = addBoundaryInputs (v.files level) chosen ∧
        ∃ smallest largest, getRange c'.inputs0 = some (smallest, largest) ∧
          c'.inputs1 = secondInputs v level smallest largest :=
    fun c' h1 h2 h3 h4 => ⟨h1, h2, first, .inl rfl, h3, smallest, largest, h3 ▸ hrange, h4⟩
  split at h
  · obtain ⟨rfl, rfl⟩ := Prod.mk.inj (some.inj h)
    exact hplain _ rfl rfl rfl rfl
  · split at h
    · simp only [bind_eq_some_iff] at h
      obtain ⟨⟨newStart, newLimit⟩, hnew, h⟩ := h
      split at h
      · simp only [bind_eq_some_iff] at h
        obtain ⟨⟨lo', hi'⟩, hall', h⟩ := h
        obtain ⟨rfl, rfl⟩ := Prod.mk.inj (some.inj h)
        exact ⟨rfl, rfl, _, .inr ⟨smallest, largest, lo, hi, hrange, hall, rfl⟩, rfl, newStart, newLimit, hnew, rfl⟩
      · obtain ⟨rfl, rfl⟩ := Prod.mk.inj (some.inj h)
        exact hplain _ rfl rfl rfl rfl
    · obtain ⟨rfl, rfl⟩ := Prod.mk.inj (some.inj h)
      exact hplain _ rfl rfl rfl rfl

def Beside (f : FileMetaData κ) (files : List (FileMetaData κ)) : Prop :=
  (∀ g ∈ files, f.largest < g.smallest) ∨ ∀ g ∈ files, g.largest < f.smallest

def Apart (f g : FileMetaData κ) : Prop := f.largest < g.smallest ∨ g.largest < f.smallest

lemma Beside.apart {x : FileMetaData κ} (hf : Beside f inputs)
    (hx : ∀ e ∈ x.entries, ∃ g ∈ inputs, e ∈ g.entries) : Apart f x := by
  rcases hf with hf | hf
  · obtain ⟨e, he, hes⟩ := x.smallest_mem
    obtain ⟨g, hg, heg⟩ := hx e he
    exact .inl (hes ▸ (hf g hg).trans_le (FileMetaData.smallest_le heg))
  · obtain ⟨e, he, hel⟩ := x.largest_mem
    obtain ⟨g, hg, heg⟩ := hx e he
    exact .inr (hel ▸ (FileMetaData.le_largest heg).trans_lt (hf g hg))

structure Compaction.InputsOk (c : Compaction κ) : Prop where
  mem0 : ∀ f ∈ c.inputs0, f ∈ c.inputVersion.files c.level
  mem1 : ∀ f ∈ c.inputs1, f ∈ c.inputVersion.files (c.level + 1)
  nodup0 : c.inputs0.Nodup
  nodup1 : c.inputs1.Nodup
  noOlder0 : NoOlder (c.inputVersion.files c.level) c.inputs0
  noOlder1 : ∀ f ∈ c.inputVersion.files (c.level + 1), f ∉ c.inputs1 → ∀ g ∈ c.inputs,
    f.largest < g.smallest ∨ g.largest.userKey < f.smallest.userKey
  beside : ∀ f ∈ c.inputVersion.files (c.level + 1), f ∉ c.inputs1 → Beside f c.inputs

lemma secondInputs_beside (hn : (v.files (level + 1)).Nodup)
    (hd : DisjointSorted (v.files (level + 1))) {smallest largest : InternalKey κ} (hf : f ∈ v.files (level + 1))
    (hfn : f ∉ secondInputs v level smallest largest) :
    (f.largest.userKey < smallest.userKey ∧ ∀ g ∈ secondInputs v level smallest largest, f.largest < g.smallest) ∨
    (largest.userKey < f.smallest.userKey ∧
    ∀ g ∈ secondInputs v level smallest largest, g.largest.userKey < f.smallest.userKey) := by
  have hfirst := firstChoice_getOverlappingInputs hn (fun _ => hd) (some smallest) (some largest)
  obtain ⟨hchoice, hno, hsub⟩ := hfirst.addBoundaryInputs fun _ => hd
  have hseg := hchoice.segment (Nat.succ_pos level)
  have hmiss : f ∉ v.getOverlappingInputs (level + 1) (some smallest) (some largest) := fun h => hfn (hsub f h)
  -- Without a file in the range there are no inputs at all.
  have hsome : ∀ g ∈ secondInputs v level smallest largest,
      ∃ x ∈ secondInputs v level smallest largest, x ∈ v.files (level + 1) ∧
        smallest.userKey ≤ x.largest.userKey ∧ x.smallest.userKey ≤ largest.userKey := by
    intro g hg
    cases hov : v.getOverlappingInputs (level + 1) (some smallest) (some largest) with
    | nil =>
      rw [secondInputs, hov] at hg
      cases hg
    | cons x rest =>
      have hx : x ∈ v.getOverlappingInputs (level + 1) (some smallest) (some largest) := by simp [hov]
      exact ⟨x, hsub x hx, (mem_getOverlappingInputs (Nat.succ_pos level)).1 hx⟩
  rw [mem_getOverlappingInputs (Nat.succ_pos level)] at hmiss
  rcases lt_or_ge f.largest.userKey smallest.userKey with hlt | hge
  · refine .inl ⟨hlt, fun g hg => ?_⟩
    obtain ⟨x, hx, hxm, hxs, _⟩ := hsome g hg
    have hne : f ≠ g := fun he => hfn (he ▸ hg)
    rcases hd.apart hf (hchoice.mem g hg) hne with h | h
    · exact h
    · have hfx : f.largest < x.largest := lt_of_user_lt (hlt.trans_le hxs)
      have hfx' : f.smallest ≤ x.smallest := by
        by_contra hgt
        exact absurd hfx ((hd.lt_of_smallest_lt hxm hf (not_le.1 hgt)).trans_le f.smallest_le_largest).not_gt
      exact absurd (hseg.convex g hg x hx f hf (g.smallest_le_largest.trans h.le) hfx') hfn
  · have hgt : largest.userKey < f.smallest.userKey := by
      by_contra hle
      exact hmiss ⟨hf, hge, not_lt.1 hle⟩
    refine .inr ⟨hgt, fun g hg => ?_⟩
    obtain ⟨x, hx, hxm, _, hxl⟩ := hsome g hg
    rcases hno f hf hfn g hg with h | h
    · have hxf : x.smallest ≤ f.smallest := (lt_of_user_lt (hxl.trans_lt hgt)).le
      exact absurd (hseg.convex x hx g hg f hf hxf (f.smallest_le_largest.trans h.le)) hfn
    · exact h

lemma ChosenFrom.firstChoice (h : ChosenFrom v level first chosen) (hn : (v.files level).Nodup)
    (hd : 0 < level → DisjointSorted (v.files level)) (hfirst : FirstChoice level (v.files level) first) : FirstChoice level (v.files level) chosen := by
  rcases h with rfl | ⟨_, _, lo, hi, _, _, rfl⟩
  · exact hfirst
  · exact firstChoice_getOverlappingInputs hn hd (some lo) (some hi)

lemma setupOtherInputs_sides (hd : DisjointSorted (v.files (level + 1)))
    (h : v.setupOtherInputs o level first = some (c, pointer)) : ∀ f ∈ v.files (level + 1), f ∉ c.inputs1 →
    (∀ g ∈ c.inputs, f.largest < g.smallest) ∨ ∀ g ∈ c.inputs, g.largest.userKey < f.smallest.userKey := by
  obtain ⟨rfl, rfl, chosen, hchosen, h0, smallest, largest, hrange, h1⟩ := setupOtherInputs_cases h
  obtain ⟨hin, _, _⟩ := getRange_spec hrange
  intro f hf hfn
  rw [h1] at hfn
  rcases secondInputs_beside hd.nodup hd hf hfn with ⟨hlt, hall⟩ | ⟨hgt, hall⟩
  · refine .inl fun g hg => ?_
    rcases mem_append.1 hg with hg | hg
    · exact (lt_of_user_lt hlt).trans_le (hin g hg).1
    · exact hall g (h1 ▸ hg)
  · refine .inr fun g hg => ?_
    rcases mem_append.1 hg with hg | hg
    · exact (user_le_of_le (hin g hg).2).trans_lt hgt
    · exact hall g (h1 ▸ hg)

lemma setupOtherInputs_ok (hn : ∀ level, (v.files level).Nodup)
    (hd : ∀ level, 0 < level → DisjointSorted (v.files level)) (hfirst : FirstChoice level (v.files level) first)
    (h : v.setupOtherInputs o level first = some (c, pointer)) : c.InputsOk := by
  have hd1 := hd (level + 1) (Nat.succ_pos _)
  have hsides := setupOtherInputs_sides hd1 h
  obtain ⟨rfl, rfl, chosen, hchosen, h0, smallest, largest, hrange, h1⟩ := setupOtherInputs_cases h
  obtain ⟨hc0, hno0, _⟩ := (hchosen.firstChoice (hn _) (hd c.level) hfirst).addBoundaryInputs (hd c.level)
  obtain ⟨hc1, _, _⟩ := (firstChoice_getOverlappingInputs (hn _) (fun _ => hd1) (some smallest)
    (some largest)).addBoundaryInputs fun _ => hd1
  rw [← h0] at hc0 hno0
  change FirstChoice (c.level + 1) _ (secondInputs _ c.level smallest largest) at hc1
  rw [← h1] at hc1
  refine ⟨hc0.mem, hc1.mem, hc0.nodup, hc1.nodup, hno0, fun f hf hfn g hg => ?_, fun f hf hfn => ?_⟩
  · rcases hsides f hf hfn with h | h
    · exact .inl (h g hg)
    · exact .inr (h g hg)
  · rcases hsides f hf hfn with h | h
    · exact .inl h
    · exact .inr fun g hg => lt_of_user_lt (h g hg)

/-! ## Inputs of automatic compactions

An automatic compaction starts from one file and only adds files that touch what it has, so a cut through no file of
the two levels leaves all inputs on one side.
-/

variable (above : κ → Prop)

def IsCut : Prop := ∀ u w, u ≤ w → above u → above w

def Misses (files : List (FileMetaData κ)) : Prop :=
  ∀ f ∈ files, above f.largest.userKey → above f.smallest.userKey

def OnSide (side : Prop) (files : List (FileMetaData κ)) : Prop :=
  ∀ f ∈ files, (above f.smallest.userKey ↔ side) ∧ (above f.largest.userKey ↔ side)

def Compaction.Connected (c : Compaction κ) : Prop :=
  ∀ above, IsCut above → Misses above (c.inputVersion.files c.level) →
    Misses above (c.inputVersion.files (c.level + 1)) → ∃ side, OnSide above side c.inputs

section Cut

variable {above : κ → Prop} {side : Prop}

variable {files part : List (FileMetaData κ)}

lemma IsCut.smallest_iff (hcut : IsCut above) (hm : Misses above files)
    {f : FileMetaData κ} (hf : f ∈ files) : above f.smallest.userKey ↔ above f.largest.userKey :=
  ⟨hcut _ _ (user_le_of_le f.smallest_le_largest), hm f hf⟩

lemma OnSide.append {l m : List (FileMetaData κ)} (hl : OnSide above side l) (hm : OnSide above side m) :
    OnSide above side (l ++ m) := fun f hf => (mem_append.1 hf).elim (hl f) (hm f)

lemma IsCut.onSide_of_overlaps (hcut : IsCut above) (hm : Misses above files)
    {f : FileMetaData κ} (hf : f ∈ files) {b e : κ} (hb : above b ↔ side) (he : above e ↔ side)
    (hbf : b ≤ f.largest.userKey) (hfe : f.smallest.userKey ≤ e) :
    (above f.smallest.userKey ↔ side) ∧ (above f.largest.userKey ↔ side) := by
  have hiff := hcut.smallest_iff hm hf
  have hl : above f.largest.userKey ↔ side :=
    ⟨fun h => he.1 (hcut _ _ hfe (hiff.2 h)), fun h => hcut _ _ hbf (hb.2 h)⟩
  exact ⟨hiff.trans hl, hl⟩

variable {level : Nat}

lemma IsCut.overlapScan (hcut : IsCut above)
    (hm : Misses above files) {begin limit : Option κ} (hb : ∃ b, begin = some b ∧ (above b ↔ side))
    (he : ∃ e, limit = some e ∧ (above e ↔ side)) {i : Nat} {inputs : List (FileMetaData κ)}
    (hi : OnSide above side inputs) : OnSide above side (overlapScan level files begin limit i inputs) := by
  have hover : ∀ begin limit : Option κ, (∃ b, begin = some b ∧ (above b ↔ side)) →
      (∃ e, limit = some e ∧ (above e ↔ side)) → ∀ f ∈ files,
      ¬ (afterFile begin f || beforeFile limit f) = true →
      (above f.smallest.userKey ↔ side) ∧ (above f.largest.userKey ↔ side) := by
    rintro _ _ ⟨b, rfl, hb⟩ ⟨e, rfl, he⟩ f hf hout
    simp only [afterFile, beforeFile, Bool.or_eq_true, decide_eq_true_eq, not_or, not_lt] at hout
    exact hcut.onSide_of_overlaps hm hf hb he hout.1 hout.2
  fun_induction RallyDB.Db.overlapScan level files begin limit i inputs with
  | case1 begin limit i inputs hlt f hout ih => exact ih hb he hi
  | case2 begin limit i inputs hlt f hout hbelow ih =>
    have hf := hover begin limit hb he f (getElem_mem hlt) hout
    exact ih ⟨_, rfl, hf.1⟩ he (by simp [OnSide])
  | case3 begin limit i inputs hlt f hout hbelow habove ih =>
    have hf := hover begin limit hb he f (getElem_mem hlt) hout
    exact ih hb ⟨_, rfl, hf.2⟩ (by simp [OnSide])
  | case4 begin limit i inputs hlt f hout hbelow habove ih =>
    have hf := hover begin limit hb he f (getElem_mem hlt) hout
    exact ih hb he (hi.append fun g hg => mem_singleton.1 hg ▸ hf)
  | case5 begin limit i inputs hge => exact hi

variable {lo hi : InternalKey κ}

lemma IsCut.getOverlappingInputs (hcut : IsCut above) {v : Version κ}
    (hm : Misses above (v.files level)) (hlo : above lo.userKey ↔ side)
    (hhi : above hi.userKey ↔ side) : OnSide above side (v.getOverlappingInputs level (some lo) (some hi)) :=
  hcut.overlapScan hm ⟨_, rfl, hlo⟩ ⟨_, rfl, hhi⟩ (by simp [OnSide])

lemma OnSide.getRange (h : OnSide above side files)
    (hr : getRange files = some (lo, hi)) : (above lo.userKey ↔ side) ∧ (above hi.userKey ↔ side) := by
  obtain ⟨_, ⟨f, hf, rfl⟩, g, hg, rfl⟩ := getRange_spec hr
  exact ⟨(h f hf).1, (h g hg).2⟩

lemma IsCut.boundaryLoop (hcut : IsCut above) (hm : Misses above files) {k : InternalKey κ} (hk : above k.userKey ↔ side)
    (hp : OnSide above side part) : OnSide above side (boundaryLoop files k part) := by
  fun_induction RallyDB.Db.boundaryLoop files k part with
  | case1 k part f hf ih =>
    obtain ⟨hfm, ⟨_, hfu⟩, _⟩ := findSmallestBoundaryFile_some hf
    have hs : above f.smallest.userKey ↔ side := hfu ▸ hk
    have hl := (hcut.smallest_iff hm hfm).symm.trans hs
    exact ih hl (hp.append fun g hg => mem_singleton.1 hg ▸ ⟨hs, hl⟩)
  | case2 k part hnone => exact hp

lemma IsCut.addBoundaryInputs (hcut : IsCut above) (hm : Misses above files) (hp : OnSide above side part) :
    OnSide above side (addBoundaryInputs files part) := by
  unfold RallyDB.Db.addBoundaryInputs
  split
  · exact hp
  · rename_i k hk
    obtain ⟨_, g, hg, rfl⟩ := findLargestKey_spec hk
    exact hcut.boundaryLoop hm (hp g hg).2 hp

lemma IsCut.secondInputs (hcut : IsCut above) {v : Version κ}
    (hm : Misses above (v.files (level + 1))) (hlo : above lo.userKey ↔ side)
    (hhi : above hi.userKey ↔ side) : OnSide above side (secondInputs v level lo hi) :=
  hcut.addBoundaryInputs hm (hcut.getOverlappingInputs hm hlo hhi)

end Cut

lemma setupOtherInputs_onSide (h : v.setupOtherInputs o level first = some (c, pointer))
    {above : κ → Prop} {side : Prop} (hcut : IsCut above) (hm0 : Misses above (v.files level))
    (hm1 : Misses above (v.files (level + 1))) (hfirst : OnSide above side first) : OnSide above side c.inputs := by
  obtain ⟨_, _, chosen, hchosen, h0, smallest, largest, hrange, h1⟩ := setupOtherInputs_cases h
  have hch : OnSide above side chosen := by
    rcases hchosen with rfl | ⟨s, l, lo, hi, hr1, hr2, rfl⟩
    · exact hfirst
    · have hb := hcut.addBoundaryInputs hm0 hfirst
      obtain ⟨hs, hl⟩ := hb.getRange hr1
      obtain ⟨hlo, hhi⟩ := (hb.append (hcut.secondInputs hm1 hs hl)).getRange hr2
      exact hcut.getOverlappingInputs hm0 hlo hhi
  have hin0 : OnSide above side c.inputs0 := h0 ▸ hcut.addBoundaryInputs hm0 hch
  obtain ⟨hs, hl⟩ := hin0.getRange hrange
  exact hin0.append (h1 ▸ hcut.secondInputs hm1 hs hl)

variable {compactPointer : Nat → Option (InternalKey κ)} {hint : CompactionHint κ}

lemma pickFirstInput_mem (h : v.pickFirstInput compactPointer hint = some f) : f ∈ v.files hint.level := by
  cases hint with
  | size level =>
    simp only [Version.pickFirstInput] at h
    split at h
    · rename_i g hg
      obtain rfl := some.inj h
      exact mem_of_find?_eq_some hg
    · exact mem_of_head? h
  | seek level g =>
    simp only [Version.pickFirstInput, ite_none_right_eq_some, some.injEq] at h
    exact h.2 ▸ h.1

lemma pickCompaction_ok (hn : ∀ level, (v.files level).Nodup) (hd : ∀ level, 0 < level → DisjointSorted (v.files level))
    (h : v.pickCompaction o compactPointer hint = some (c, pointer)) :
    c.level = hint.level ∧ c.inputVersion = v ∧ c.InputsOk ∧ c.Connected := by
  simp only [Version.pickCompaction, bind_eq_bind, bind_eq_some_iff] at h
  obtain ⟨f, hf, h⟩ := h
  have hmem := pickFirstInput_mem hf
  -- Both branches set up the other inputs from a first choice on the side of `f`.
  have hsetup : ∃ first, v.setupOtherInputs o hint.level first = some (c, pointer) ∧
      FirstChoice hint.level (v.files hint.level) first ∧
      ∀ above, IsCut above → Misses above (v.files hint.level) → OnSide above (above f.smallest.userKey) first := by
    split at h
    · rename_i h0
      rw [h0] at hmem ⊢
      refine ⟨_, h, firstChoice_getOverlappingInputs (hn 0) (hd 0) _ _, fun above hcut hm => ?_⟩
      exact hcut.getOverlappingInputs hm Iff.rfl (hcut.smallest_iff hm hmem).symm
    · rename_i h0
      have hpos := Nat.pos_of_ne_zero h0
      refine ⟨_, h, firstChoice_singleton hpos (hd _ hpos) hmem, fun above hcut hm g hg => ?_⟩
      rw [mem_singleton.1 hg]
      exact ⟨Iff.rfl, (hcut.smallest_iff hm hmem).symm⟩
  obtain ⟨first, h, hfirst, hside⟩ := hsetup
  obtain ⟨h1, h2, _⟩ := setupOtherInputs_cases h
  refine ⟨h1, h2, setupOtherInputs_ok hn hd hfirst h, fun above hcut hm0 hm1 => ⟨above f.smallest.userKey, ?_⟩⟩
  rw [h1, h2] at hm0 hm1
  exact setupOtherInputs_onSide h hcut hm0 hm1 (hside above hcut hm0)

lemma firstChoice_takeUntilLimit (hpos : 0 < level) (hd : DisjointSorted (v.files level))
    (begin limit : Option (InternalKey κ)) (size : Nat) :
    FirstChoice level (v.files level) (takeUntilLimit size 0 (v.getOverlappingInputs level begin limit)) := by
  have hfirst := firstChoice_getOverlappingInputs (v := v) hd.nodup (fun _ => hd) begin limit
  have hpart := takeUntilLimit_isPrefix size 0 (v.getOverlappingInputs level begin limit)
  have hsub : (v.getOverlappingInputs level begin limit).Sublist (v.files level) := by
    rw [getOverlappingInputs_pos v hpos]
    exact filter_sublist
  exact ⟨fun f hf => hfirst.mem f (hpart.mem hf), hfirst.nodup.sublist hpart.sublist, by omega,
    fun _ => (hfirst.segment hpos).of_isPrefix hd hsub hpart⟩

lemma compactRange_ok (hn : ∀ level, (v.files level).Nodup) (hd : ∀ level, 0 < level → DisjointSorted (v.files level))
    (h : v.compactRange o level begin limit = some (c, pointer)) :
    c.level = level ∧ c.inputVersion = v ∧ c.InputsOk := by
  simp only [Version.compactRange, ite_none_left_eq_some] at h
  obtain ⟨_, h⟩ := h
  obtain ⟨h1, h2, _⟩ := setupOtherInputs_cases h
  refine ⟨h1, h2, setupOtherInputs_ok hn hd ?_ h⟩
  by_cases hpos : 0 < level
  · rw [if_pos hpos]
    exact firstChoice_takeUntilLimit hpos (hd level hpos) begin limit _
  · rw [if_neg hpos]
    exact firstChoice_getOverlappingInputs (hn level) (hd level) begin limit

end RallyDB.Db
