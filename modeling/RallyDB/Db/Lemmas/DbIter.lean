import Mathlib.Data.List.TakeWhile
import RallyDB.Db.DbIter
import RallyDB.Db.Lemmas.Lookup

/-!
# What the loops of `DBIter` find
-/

namespace RallyDB.Db

open List RallyDB.Lib Util Cursor InternalKey

variable {κ : Type*} [LinearOrder κ] {strings : KeyStrings κ} {s : Nat} {l : List (Entry κ)} {d : DBIter κ}

variable {before after : List (Entry κ)} {e e' : Entry κ}

lemma isShown_iff (hl : SortedEntries (before ++ e :: after)) : IsShown s (before ++ e :: after) e ↔
    e.1.type = .value ∧ e.1.sequence ≤ s ∧ ∀ e' ∈ before, e'.1.userKey = e.1.userKey → s < e'.1.sequence := by
  obtain ⟨-, hafter, hbefore⟩ := pairwise_append.1 hl
  refine and_congr_right fun _ => and_congr_right fun _ => ⟨fun h e' he' hkey => ?_, fun h e' he' hkey hle => ?_⟩
  · by_contra hle
    have htag := h e' (mem_append_left _ he') hkey (not_lt.1 hle)
    rcases lt_iff.1 (hbefore e' he' e mem_cons_self) with hlt | ⟨-, hlt⟩
    · exact hlt.ne hkey
    · omega
  · rcases mem_append.1 he' with he' | he'
    · exact absurd hle (not_le.2 (h e' he' hkey))
    · rcases mem_cons.1 he' with rfl | he'
      · exact le_rfl
      · rcases lt_iff.1 (rel_of_pairwise_cons hafter he') with hlt | ⟨-, hlt⟩
        · exact absurd hkey hlt.ne'
        · exact hlt.le

lemma not_isShown_of_lt (he : e ∈ l) (hvisible : e.1.sequence ≤ s) (hkey : e.1.userKey = e'.1.userKey)
    (hlt : e.1 < e'.1) : ¬ IsShown s l e' := by
  rintro ⟨-, -, hnewest⟩
  have htag := hnewest e he hkey hvisible
  rcases lt_iff.1 hlt with hlt | ⟨-, hlt⟩
  · exact hlt.ne hkey
  · omega

lemma SortedEntries.lt_of_mem_after (hl : SortedEntries (before ++ e :: after)) (he' : e' ∈ after) : e.1 < e'.1 :=
  rel_of_pairwise_cons (pairwise_append.1 hl).2.1 he'

lemma SortedEntries.lt_of_mem_before (hl : SortedEntries (before ++ e :: after)) (he' : e' ∈ before) : e'.1 < e.1 :=
  (pairwise_append.1 hl).2.2 e' he' e mem_cons_self

/-! ## Forward -/

namespace DBIter

lemma findNextUserEntry_off {skipping : Bool} (h : d.iter = .off l) :
    d.findNextUserEntry strings s skipping = { d with savedKey := strings.empty, valid := false } := by
  rw [findNextUserEntry]
  split
  · rfl
  · rename_i hon
    cases h.symm.trans hon

variable {after : List (Entry κ)}

lemma findNextUserEntry_on {skipping : Bool} {before : List (Entry κ)} {k : InternalKey κ} {value : Slice}
    (h : d.iter = .on before (k, value) after) :
    d.findNextUserEntry strings s skipping =
      if k.sequence ≤ s then
        match k.type with
        | .deletion =>
          findNextUserEntry strings s true { d with savedKey := k.userKey, iter := .onFirst ((k, value) :: before) after }
        | .value =>
          if skipping && k.userKey ≤ d.savedKey then
            findNextUserEntry strings s skipping { d with iter := .onFirst ((k, value) :: before) after }
          else { d with valid := true, savedKey := strings.empty }
      else findNextUserEntry strings s skipping { d with iter := .onFirst ((k, value) :: before) after } := by
  rw [findNextUserEntry]
  split
  · rename_i hoff
    cases h.symm.trans hoff
  · rename_i hon
    cases h.symm.trans hon
    rfl

structure Forward (d : DBIter κ) (l : List (Entry κ)) (found : Option (Entry κ)) : Prop where
  list : d.iter.list = l
  direction : d.direction = .forward
  valid : d.valid = found.isSome
  current : d.valid = true → d.iter.current = found

structure Scans (s : Nat) (before rest : List (Entry κ)) (skipping : Bool) (savedKey : κ) : Prop where
  hidden : ∀ e' ∈ before, e'.1.sequence ≤ s → ∀ e ∈ rest, e'.1.userKey = e.1.userKey →
    skipping = true ∧ e.1.userKey ≤ savedKey
  ahead : skipping = true → ∀ e ∈ rest, e.1.sequence ≤ s → savedKey ≤ e.1.userKey

variable {before rest : List (Entry κ)} {skipping : Bool} {savedKey : κ} {e : Entry κ}

lemma Scans.next (h : Scans s before (e :: rest) skipping savedKey)
    (he : e.1.sequence ≤ s → skipping = true ∧ e.1.userKey ≤ savedKey) : Scans s (e :: before) rest skipping savedKey := by
  refine ⟨fun e' he' hle x hx hkey => ?_, fun hskip x hx => h.ahead hskip x (mem_cons_of_mem _ hx)⟩
  rcases mem_cons.1 he' with rfl | he'
  · exact hkey ▸ he hle
  · exact h.hidden e' he' hle x (mem_cons_of_mem _ hx) hkey

lemma Scans.skip (hl : SortedEntries (before.reverse ++ e :: rest)) : Scans s (e :: before) rest true e.1.userKey := by
  refine ⟨fun e' he' _ x hx hkey => ⟨rfl, ?_⟩, fun _ x hx _ => user_le_of_le (hl.lt_of_mem_after hx).le⟩
  have hbefore : e'.1.userKey ≤ e.1.userKey := by
    rcases mem_cons.1 he' with rfl | he'
    · exact le_rfl
    · exact user_le_of_le (hl.lt_of_mem_before (mem_reverse.2 he')).le
  exact hkey ▸ hbefore

lemma findNextUserEntry_forward (hl : SortedEntries l) (hsplit : l = before.reverse ++ rest)
    (hiter : d.iter = .onFirst before rest) (hdir : d.direction = .forward) (hscan : Scans s before rest skipping d.savedKey) :
    (d.findNextUserEntry strings s skipping).Forward l
    (rest.find? fun e => IsShown s l e ∧ (skipping = true → d.savedKey < e.1.userKey)) := by
  induction rest generalizing before skipping d with
  | nil =>
    rw [findNextUserEntry_off hiter]
    exact ⟨by simp [hiter, hsplit], hdir, rfl, nofun⟩
  | cons e rest ih =>
    obtain ⟨k, value⟩ := e
    have hsplit' : l = ((k, value) :: before).reverse ++ rest := by simp [hsplit]
    have hshown : IsShown s l (k, value) ↔ _ := hsplit ▸ isShown_iff (hsplit ▸ hl)
    rw [findNextUserEntry_on hiter]
    by_cases hvisible : k.sequence ≤ s
    · rw [if_pos hvisible]
      cases htype : k.type with
      | deletion =>
        have hno : ¬ IsShown s l (k, value) := fun h => by simp [IsShown, htype] at h
        rw [find?_cons_of_neg (by simp [hno])]
        -- what the deletion hides is not shown, and what was to be skipped is not behind it
        have hcongr : rest.find? (fun e => IsShown s l e ∧ (skipping = true → d.savedKey < e.1.userKey)) =
            rest.find? fun e => IsShown s l e ∧ (true = true → k.userKey < e.1.userKey) := by
          refine find?_congr fun e he => decide_eq_decide.2 (and_congr_right fun hse => ?_)
          have hlt : k < e.1 := SortedEntries.lt_of_mem_after (hsplit ▸ hl) he
          constructor
          · intro _ _
            refine lt_of_le_of_ne (user_le_of_le hlt.le) fun heq => ?_
            exact not_isShown_of_lt (e := (k, value)) (by simp [hsplit]) hvisible heq hlt hse
          · intro hlt hskip
            exact (hscan.ahead hskip (k, value) mem_cons_self hvisible).trans_lt (hlt rfl)
        rw [hcongr]
        exact ih (d := { d with savedKey := k.userKey, iter := .onFirst ((k, value) :: before) rest }) hsplit' rfl hdir
          (Scans.skip (hsplit ▸ hl))
      | value =>
        dsimp only
        by_cases hhidden : skipping = true ∧ k.userKey ≤ d.savedKey
        · rw [if_pos (by simpa using hhidden), find?_cons_of_neg (by simp [hhidden.1, hhidden.2])]
          exact ih (d := { d with iter := .onFirst ((k, value) :: before) rest }) hsplit' rfl hdir
            (hscan.next fun _ => hhidden)
        · have hyes : IsShown s l (k, value) := by
            refine hshown.2 ⟨htype, hvisible, fun e' he' hkey => ?_⟩
            by_contra hle
            exact hhidden (hscan.hidden e' (mem_reverse.1 he') (not_lt.1 hle) (k, value) mem_cons_self hkey)
          have hlt : skipping = true → d.savedKey < k.userKey := fun hs => not_le.1 fun hle => hhidden ⟨hs, hle⟩
          rw [if_neg (by simpa using hhidden), find?_cons_of_pos (by exact decide_eq_true ⟨hyes, hlt⟩)]
          exact ⟨by simp [hiter, hsplit], hdir, rfl, fun _ => by simp [hiter]⟩
    · have hno : ¬ IsShown s l (k, value) := fun h => hvisible h.2.1
      rw [if_neg hvisible, find?_cons_of_neg (by simp [hno])]
      exact ih (d := { d with iter := .onFirst ((k, value) :: before) rest }) hsplit' rfl hdir
        (hscan.next fun h => absurd h hvisible)

lemma findPrevLoop_off {valueType : ValueType} (h : d.iter = .off l) :
    d.findPrevLoop strings s valueType = (d, valueType) := by
  rw [findPrevLoop]
  split
  · rfl
  · rename_i hon
    cases h.symm.trans hon

lemma findPrevLoop_on {valueType : ValueType} {k : InternalKey κ} {value : Slice}
    (h : d.iter = .on before (k, value) after) :
    d.findPrevLoop strings s valueType =
      if k.sequence ≤ s then
        if valueType ≠ .deletion ∧ k.userKey < d.savedKey then (d, valueType)
        else
          match k.type with
          | .deletion => findPrevLoop strings s .deletion
              { d with savedKey := strings.empty, savedValue := [], iter := .onLast before ((k, value) :: after) }
          | .value => findPrevLoop strings s .value
              { d with savedKey := k.userKey, savedValue := value, iter := .onLast before ((k, value) :: after) }
      else findPrevLoop strings s valueType { d with iter := .onLast before ((k, value) :: after) } := by
  rw [findPrevLoop]
  split
  · rename_i hoff
    cases h.symm.trans hoff
  · rename_i hon
    cases h.symm.trans hon
    rfl

structure Saved (s : Nat) (l : List (Entry κ)) (d : DBIter κ) (e : Entry κ) : Prop where
  key : d.savedKey = e.1.userKey
  value : d.savedValue = e.2
  position : ∃ before between after, l = before.reverse ++ (between ++ e :: after) ∧
    (∀ x ∈ between, s < x.1.sequence) ∧ d.iter = .onLast before (between ++ e :: after)

structure Backward (s : Nat) (l : List (Entry κ)) (found : Option (Entry κ)) (r : DBIter κ × ValueType) : Prop where
  list : r.1.iter.list = l
  direction : r.1.direction = .reverse
  none : found = none → r.2 = .deletion
  some : ∀ e, found = some e → r.2 = .value ∧ Saved s l r.1 e

lemma findPrevLoop_backward (hl : SortedEntries l) (hsplit : l = before.reverse ++ after)
    (hiter : d.iter = .onLast before after) (hdir : d.direction = .reverse) :
    Backward s l (before.find? fun e => IsShown s l e) (d.findPrevLoop strings s .deletion) ∧
    ∀ w : Entry κ, w.1.type = .value → w.1.sequence ≤ s → d.savedKey = w.1.userKey → d.savedValue = w.2 →
    ∀ between rest, after = between ++ w :: rest → (∀ x ∈ between, s < x.1.sequence) →
    Backward s l ((w :: before).find? fun e => IsShown s l e) (d.findPrevLoop strings s .value) := by
  induction before generalizing after d with
  | nil =>
    rw [findPrevLoop_off hiter]
    refine ⟨⟨by simp [hiter, hsplit], hdir, fun _ => rfl, nofun⟩, ?_⟩
    rintro w htype hvisible hkey hvalue between rest rfl hbetween
    have hyes : IsShown s l w := by
      rw [hsplit]
      exact (isShown_iff (hsplit ▸ hl)).2 ⟨htype, hvisible, fun e' he' _ => hbetween e' he'⟩
    rw [findPrevLoop_off hiter, find?_cons_of_pos (by exact decide_eq_true hyes)]
    refine ⟨by simp [hiter, hsplit], hdir, nofun, ?_⟩
    rintro e ⟨⟩
    exact ⟨rfl, hkey, hvalue, [], between, rest, hsplit, hbetween, hiter⟩
  | cons e before ih =>
    obtain ⟨k, value⟩ := e
    have hsplit' : l = before.reverse ++ (k, value) :: after := by simp [hsplit]
    by_cases hvisible : k.sequence ≤ s
    · -- the entry is taken when no other one is in hand, or one of the same user key, which it hides
      have htake : Backward s l (((k, value) :: before).find? fun e => IsShown s l e) (match k.type with
          | .deletion => findPrevLoop strings s .deletion
              { d with savedKey := strings.empty, savedValue := [], iter := .onLast before ((k, value) :: after) }
          | .value => findPrevLoop strings s .value
              { d with savedKey := k.userKey, savedValue := value, iter := .onLast before ((k, value) :: after) }) := by
        cases htype : k.type with
        | deletion =>
          have hno : ¬ IsShown s l (k, value) := fun h => by simp [IsShown, htype] at h
          rw [find?_cons_of_neg (by simp [hno])]
          exact And.left (ih hsplit' rfl hdir)
        | value =>
          have hback := And.right (ih
            (d := { d with savedKey := k.userKey, savedValue := value, iter := .onLast before ((k, value) :: after) })
            hsplit' rfl hdir)
          exact hback (k, value) htype hvisible rfl rfl [] after rfl (by simp)
      rw [findPrevLoop_on hiter, findPrevLoop_on hiter, if_pos hvisible, if_pos hvisible, if_neg (by simp)]
      refine ⟨htake, ?_⟩
      rintro w htype hwvisible hkey hvalue between rest rfl hbetween
      have hlt : k < w.1 := SortedEntries.lt_of_mem_after (hsplit' ▸ hl) (by simp)
      by_cases hsmaller : k.userKey < w.1.userKey
      · have hyes : IsShown s l w := by
          have happ : l = (before.reverse ++ (k, value) :: between) ++ w :: rest := by simp [hsplit]
          rw [happ]
          refine (isShown_iff (happ ▸ hl)).2 ⟨htype, hwvisible, fun e' he' heq => ?_⟩
          rcases mem_append.1 he' with he' | he'
          · have hle := user_le_of_le (SortedEntries.lt_of_mem_before (hsplit' ▸ hl) he').le
            exact absurd (heq ▸ hle) (not_le.2 hsmaller)
          · rcases mem_cons.1 he' with rfl | he'
            · exact absurd heq hsmaller.ne
            · exact hbetween e' he'
        rw [if_pos (by simp [hkey, hsmaller]), find?_cons_of_pos (by exact decide_eq_true hyes)]
        refine ⟨by simp [hiter, hsplit], hdir, nofun, ?_⟩
        rintro e ⟨⟩
        exact ⟨rfl, hkey, hvalue, _, between, rest, hsplit, hbetween, hiter⟩
      · have hsame : k.userKey = w.1.userKey := le_antisymm (user_le_of_le hlt.le) (not_lt.1 hsmaller)
        have hno : ¬ IsShown s l w := not_isShown_of_lt (e := (k, value)) (by simp [hsplit]) hvisible hsame hlt
        rw [if_neg (by simp [hkey, hsmaller]), find?_cons_of_neg (by simp [hno])]
        exact htake
    · have hno : ¬ IsShown s l (k, value) := fun h => hvisible h.2.1
      rw [findPrevLoop_on hiter, findPrevLoop_on hiter, if_neg hvisible, if_neg hvisible, find?_cons_of_neg (by simp [hno])]
      refine ⟨And.left (ih hsplit' rfl hdir), ?_⟩
      rintro w htype hwvisible hkey hvalue between rest rfl hbetween
      have := (ih hsplit' (d := { d with iter := .onLast before ((k, value) :: (between ++ w :: rest)) }) rfl hdir).2 w htype
        hwvisible hkey hvalue ((k, value) :: between) rest rfl (forall_mem_cons.2 ⟨not_le.1 hvisible, hbetween⟩)
      rw [find?_cons, find?_cons_of_neg (by simp [hno])]
      rw [find?_cons] at this
      exact this

/-! ## Calls -/

inductive Shows (s : Nat) (l : List (Entry κ)) (d : DBIter κ) : Option (Entry κ) → Prop where
  | none : d.iter.list = l → d.valid = false → Shows s l d none
  | forward {e : Entry κ} : d.iter.list = l → d.valid = true → d.direction = .forward → d.iter.current = some e →
      IsShown s l e → Shows s l d (some e)
  | reverse {e : Entry κ} : d.iter.list = l → d.valid = true → d.direction = .reverse → Saved s l d e →
      IsShown s l e → Shows s l d (some e)

variable {found : Option (Entry κ)}

omit [LinearOrder κ] in
lemma Shows.list (h : Shows s l d found) : d.iter.list = l := by
  cases h <;> assumption

omit [LinearOrder κ] in
lemma Shows.valid (h : Shows s l d found) : d.valid = found.isSome := by
  cases h <;> assumption

omit [LinearOrder κ] in
lemma Forward.shows (h : d.Forward l found) (hfound : ∀ e, found = some e → IsShown s l e) : Shows s l d found := by
  cases hf : found with
  | none => exact .none h.list (by simp [h.valid, hf])
  | some e =>
    have hvalid : d.valid = true := by simp [h.valid, hf]
    exact .forward h.list hvalid h.direction (hf ▸ h.current hvalid) (hfound e hf)

lemma isShown_of_find? {p : Entry κ → Prop} [DecidablePred p] {m : List (Entry κ)} {e : Entry κ}
    (h : m.find? (fun e => IsShown s l e ∧ p e) = some e) : IsShown s l e := by
  have := find?_some h
  exact (of_decide_eq_true this).1

lemma find?_shown_append {q r : Entry κ → Prop} [DecidablePred q] [DecidablePred r] {x y : List (Entry κ)}
    (hx : ∀ e ∈ x, IsShown s l e → ¬ q e) (hy : ∀ e ∈ y, IsShown s l e → (q e ↔ r e)) :
    (x ++ y).find? (fun e => IsShown s l e ∧ q e) = y.find? fun e => IsShown s l e ∧ r e := by
  rw [find?_append_of_not]
  · exact find?_congr fun e he => decide_eq_decide.2 (and_congr_right fun hshown => hy e he hshown)
  · exact fun e he => decide_eq_false fun h => hx e he h.1 h.2

section

variable (hl : SortedEntries l)
include hl

lemma scan_shows (before rest : List (Entry κ)) (hsplit : l = before.reverse ++ rest)
    (hiter : d.iter = .onFirst before rest) (hdir : d.direction = .forward) (hscan : Scans s before rest skipping d.savedKey)
    {d' : DBIter κ} (hiter' : d'.iter = d.iter) (hvalid' : d'.valid = false) :
    Shows s l (if d.iter.valid then d.findNextUserEntry strings s skipping else d')
    (rest.find? fun e => IsShown s l e ∧ (skipping = true → d.savedKey < e.1.userKey)) := by
  cases rest with
  | nil =>
    rw [hiter, Cursor.valid, Cursor.current_onFirst, if_neg (by simp)]
    exact .none (by rw [hiter', hiter, Cursor.list_onFirst, hsplit]) hvalid'
  | cons e rest =>
    have hvalid : d.iter.valid = true := by rw [hiter, Cursor.valid, Cursor.current_onFirst, head?_cons, Option.isSome_some]
    rw [if_pos hvalid]
    exact (findNextUserEntry_forward hl hsplit hiter hdir hscan).shows fun _ => isShown_of_find?

lemma findPrevUserEntry_shows (hsplit : l = before.reverse ++ after)
    (hiter : d.iter = .onLast before after) (hdir : d.direction = .reverse) :
    Shows s l (d.findPrevUserEntry strings s) (before.find? fun e => IsShown s l e) := by
  have hback : Backward s l (before.find? fun e => IsShown s l e) (d.findPrevLoop strings s .deletion) :=
    (findPrevLoop_backward hl hsplit hiter hdir).1
  unfold findPrevUserEntry
  generalize d.findPrevLoop strings s .deletion = r at hback
  obtain ⟨d', valueType⟩ := r
  cases hf : before.find? fun e => IsShown s l e with
  | none =>
    obtain rfl : valueType = .deletion := hback.none hf
    exact .none hback.list rfl
  | some e =>
    obtain ⟨hvalue, hkey, hval, hposition⟩ := hback.some e hf
    obtain rfl : valueType = .value := hvalue
    exact .reverse hback.list rfl hback.direction ⟨hkey, hval, hposition⟩ 
      (of_decide_eq_true (find?_some (p := fun e => decide (IsShown s l e)) hf))

lemma seekToFirst_shows (hlist : d.iter.list = l) :
    Shows s l (d.seekToFirst strings s) (l.find? fun e => IsShown s l e) := by
  have hiter : d.iter.seekToFirst = .onFirst [] l := by rw [Cursor.seekToFirst, hlist]
  have hfind : l.find? (fun e => IsShown s l e) =
      l.find? fun e => IsShown s l e ∧ (false = true → d.savedKey < e.1.userKey) := by simp
  rw [hfind]
  refine scan_shows (d := { d with direction := .forward, savedValue := [], iter := d.iter.seekToFirst }) hl [] l rfl hiter rfl
    ⟨fun _ h => absurd h not_mem_nil, fun h => absurd h Bool.false_ne_true⟩ ?_ ?_
  · rfl
  · rfl

lemma seek_shows (hlist : d.iter.list = l) (target : κ) :
    Shows s l (d.seek strings s target) (l.find? fun e => IsShown s l e ∧ target ≤ e.1.userKey) := by
  set p : Entry κ → Bool := fun e => lookupKey target s ≤ e.1 with hp
  have hiter : d.iter.seek p = .onFirst (l.takeWhile fun e => !p e).reverse (l.dropWhile fun e => !p e) := by
    rw [Cursor.seek, hlist]
  have hbefore : ∀ e ∈ l.takeWhile fun e => !p e, e.1.sequence ≤ s → e.1.userKey < target := by
    intro e he hvisible
    have hno : ¬ lookupKey target s ≤ e.1 := by simpa [hp] using mem_takeWhile_imp he
    rw [lookupKey_le_iff, not_or] at hno
    exact lt_of_le_of_ne (not_lt.1 hno.1) fun heq => hno.2 ⟨heq.symm, hvisible⟩
  have hrest : ∀ e ∈ l.dropWhile fun e => !p e, target ≤ e.1.userKey := by
    intro e he
    have hle : p e := forall_mem_dropWhile_not (hl.imp fun hlt h => decide_eq_true ((of_decide_eq_true h).trans hlt.le)) e he
    exact user_le_of_le (of_decide_eq_true hle)
  have hfind := find?_shown_append (s := s) (l := l) (q := fun e => target ≤ e.1.userKey)
    (r := fun e => (false = true → strings.internalKey (lookupKey target s) < e.1.userKey))
    (fun e he hshown => not_le.2 (hbefore e he hshown.2.1)) (fun e he _ => ⟨fun _ hf => absurd hf Bool.false_ne_true, fun _ => hrest e he⟩)
  rw [takeWhile_append_dropWhile] at hfind
  rw [hfind]
  refine scan_shows (d := { d with
      direction := .forward, savedValue := [], savedKey := strings.internalKey (lookupKey target s), iter := d.iter.seek p })
    hl _ _ (by simp) hiter rfl ⟨?_, fun h => absurd h Bool.false_ne_true⟩ ?_ ?_
  · intro e' he' hvisible e he hkey
    exact absurd (hkey ▸ hbefore e' (mem_reverse.1 he') hvisible) (not_lt.2 (hrest e he))
  · rfl
  · rfl

lemma seekToLast_shows (hlist : d.iter.list = l) :
    Shows s l (d.seekToLast strings s) (l.reverse.find? fun e => IsShown s l e) := by
  have hiter : d.iter.seekToLast = .onLast l.reverse [] := by rw [Cursor.seekToLast, hlist]
  exact findPrevUserEntry_shows hl (by simp) hiter rfl

lemma next_shows (h : Shows s l d (some e)) :
    Shows s l (d.next strings s) (l.find? fun e' => IsShown s l e' ∧ e.1.userKey < e'.1.userKey) := by
  cases h with
  | forward hlist hvalid hdir hcurrent hshown =>
    cases hiter : d.iter with
    | off l => simp [hiter, Lib.Cursor.current] at hcurrent
    | on before x after =>
      obtain rfl : x = e := by simpa [hiter, Lib.Cursor.current] using hcurrent
      obtain ⟨k, value⟩ := x
      have hsplit : l = before.reverse ++ (k, value) :: after := by rw [← hlist, hiter, list]
      have hle : ∀ x ∈ before.reverse ++ [(k, value)], x.1.userKey ≤ k.userKey := by
        intro x hx
        rcases mem_append.1 hx with hx | hx
        · exact user_le_of_le (SortedEntries.lt_of_mem_before (hsplit ▸ hl) hx).le
        · exact (mem_singleton.1 hx) ▸ le_rfl
      have hfind := find?_shown_append (s := s) (l := l) (q := fun e' => k.userKey < e'.1.userKey)
        (r := fun e' => true = true → k.userKey < e'.1.userKey) (y := after)
        (fun x hx _ => not_lt.2 (hle x hx)) (fun _ _ _ => ⟨fun h _ => h, fun h => h rfl⟩)
      rw [append_assoc, singleton_append, ← hsplit] at hfind
      rw [hfind]
      unfold next
      rw [hdir, hcurrent, hiter]
      refine scan_shows (d := { d with savedKey := k.userKey, direction := .forward, iter := .onFirst ((k, value) :: before) after })
        hl ((k, value) :: before) after (by simp [hsplit]) rfl rfl (Scans.skip (hsplit ▸ hl)) ?_ ?_
      · rfl
      · rfl
  | reverse hlist hvalid hdir hsaved hshown =>
    obtain ⟨hkey, hvalue, before, between, after, hsplit, hbetween, hiter⟩ := hsaved
    have hsplit' : l = (before.reverse ++ between) ++ e :: after := by rw [hsplit, append_assoc]
    have hle : ∀ x ∈ before.reverse, x.1.userKey ≤ e.1.userKey := fun x hx =>
      user_le_of_le (SortedEntries.lt_of_mem_before (hsplit' ▸ hl) (mem_append_left _ hx)).le
    have hfind := find?_shown_append (s := s) (l := l) (q := fun e' => e.1.userKey < e'.1.userKey)
      (r := fun e' => true = true → e.1.userKey < e'.1.userKey) (y := between ++ e :: after)
      (fun x hx _ => not_lt.2 (hle x hx)) (fun _ _ _ => ⟨fun h _ => h, fun h => h rfl⟩)
    rw [← hsplit] at hfind
    rw [hfind]
    unfold next
    rw [hdir, hiter]
    dsimp only
    rw [next_onLast]
    rw [← hkey]
    refine scan_shows (d := { d with direction := .forward, iter := .onFirst before (between ++ e :: after) })
      hl before (between ++ e :: after) hsplit rfl rfl ⟨?_, ?_⟩ ?_ ?_
    · intro x hx _ y hy hxy
      exact ⟨rfl, hxy ▸ hkey ▸ hle x (mem_reverse.2 hx)⟩
    · intro _ x hx hvisible
      dsimp only
      rw [hkey]
      rcases mem_append.1 hx with hx | hx
      · exact absurd hvisible (not_le.2 (hbetween x hx))
      · rcases mem_cons.1 hx with rfl | hx
        · exact le_rfl
        · exact user_le_of_le (SortedEntries.lt_of_mem_after (hsplit' ▸ hl) hx).le
    · rfl
    · rfl

end

lemma leaveKey_onLast (key : κ) (before after : List (Entry κ)) :
    ∃ front back, before = front ++ back ∧ (∀ e ∈ front, ¬ e.1.userKey < key) ∧
    (∀ e, back.head? = some e → e.1.userKey < key) ∧
    leaveKey key (.onLast before after) = .onLast back (front.reverse ++ after) := by
  induction before generalizing after with
  | nil => exact ⟨[], [], rfl, by simp, by simp, by simp [Cursor.onLast, leaveKey]⟩
  | cons e before ih =>
    obtain ⟨k, value⟩ := e
    by_cases hlt : k.userKey < key
    · refine ⟨[], (k, value) :: before, rfl, by simp, ?_, by simp [Cursor.onLast, leaveKey, hlt]⟩
      rintro e ⟨⟩
      exact hlt
    · obtain ⟨front, back, rfl, hfront, hback, hleave⟩ := ih ((k, value) :: after)
      refine ⟨(k, value) :: front, back, rfl, forall_mem_cons.2 ⟨hlt, hfront⟩, hback, ?_⟩
      rw [Cursor.onLast, leaveKey, if_neg hlt, Cursor.prev, hleave]
      simp

lemma find?_shown_before (front back after : List (Entry κ)) (hl : SortedEntries l)
    (hsplit : l = (front ++ back).reverse ++ e :: after)
    (hfront : ∀ x ∈ front, IsShown s l x → ¬ x.1.userKey < e.1.userKey)
    (hback : ∀ x ∈ back, IsShown s l x → x.1.userKey < e.1.userKey) :
    (l.reverse.find? fun e' => IsShown s l e' ∧ e'.1.userKey < e.1.userKey) = back.find? fun e' => IsShown s l e' := by
  have hnot : ∀ x ∈ after.reverse ++ e :: front, IsShown s l x → ¬ x.1.userKey < e.1.userKey := by
    intro x hx hxshown
    rcases mem_append.1 hx with hx | hx
    · have hlt := SortedEntries.lt_of_mem_after (hsplit ▸ hl) (mem_reverse.1 hx)
      exact not_lt.2 (user_le_of_le hlt.le)
    · rcases mem_cons.1 hx with rfl | hx
      · exact lt_irrefl _
      · exact hfront x hx hxshown
  have hfind := find?_shown_append (s := s) (l := l) (q := fun e' => e'.1.userKey < e.1.userKey) (r := fun _ => True)
    hnot (fun x hx hxshown => ⟨fun _ => trivial, fun _ => hback x hx hxshown⟩)
  have hreverse : l.reverse = (after.reverse ++ e :: front) ++ back := by simp [hsplit]
  rw [← hreverse] at hfind
  simpa only [and_true] using hfind

lemma prev_shows (hl : SortedEntries l) (h : Shows s l d (some e)) :
    Shows s l (d.prev strings s) (l.reverse.find? fun e' => IsShown s l e' ∧ e'.1.userKey < e.1.userKey) := by
  cases h with
  | forward hlist hvalid hdir hcurrent hshown =>
    cases hiter : d.iter with
    | off l => simp [hiter, Lib.Cursor.current] at hcurrent
    | on before x after =>
      obtain rfl : x = e := by simpa [hiter, Lib.Cursor.current] using hcurrent
      obtain ⟨k, value⟩ := x
      have hsplit : l = before.reverse ++ (k, value) :: after := by rw [← hlist, hiter, Cursor.list]
      obtain ⟨front, back, rfl, hfront, hback, hleave⟩ := leaveKey_onLast k.userKey before ((k, value) :: after)
      have hsplit' : l = back.reverse ++ (front.reverse ++ (k, value) :: after) := by simp [hsplit]
      have hsorted : SortedEntries (back.reverse ++ (front.reverse ++ (k, value) :: after)) := hsplit' ▸ hl
      -- what is left of the loop has smaller user keys, and the rest has not
      have hless : ∀ x ∈ back, x.1.userKey < k.userKey := by
        cases back with
        | nil => exact fun x hx => absurd hx not_mem_nil
        | cons y back =>
          have hy := hback y rfl
          refine forall_mem_cons.2 ⟨hy, fun x hx => lt_of_le_of_lt ?_ hy⟩
          rw [reverse_cons, append_assoc] at hsorted
          exact user_le_of_le (SortedEntries.lt_of_mem_before hsorted (mem_reverse.2 hx)).le
      rw [find?_shown_before front back after hl hsplit (fun x hx _ => hfront x hx) fun x hx _ => hless x hx]
      unfold prev
      rw [hdir, hcurrent, hiter, Cursor.prev]
      dsimp only
      rw [hleave]
      cases back with
      | nil => exact .none hsplit'.symm rfl
      | cons y back => exact findPrevUserEntry_shows hl hsplit' rfl rfl
  | reverse hlist hvalid hdir hsaved hshown =>
    obtain ⟨hkey, hvalue, before, between, after, hsplit, hbetween, hiter⟩ := hsaved
    have hsplit' : l = (before.reverse ++ between) ++ e :: after := by rw [hsplit, append_assoc]
    have hless : ∀ x ∈ before, IsShown s l x → x.1.userKey < e.1.userKey := by
      intro x hx hxshown
      have hmem : x ∈ before.reverse ++ between := mem_append_left _ (mem_reverse.2 hx)
      have hlt : x.1 < e.1 := SortedEntries.lt_of_mem_before (hsplit' ▸ hl) hmem
      refine lt_of_le_of_ne (user_le_of_le hlt.le) fun heq => ?_
      exact not_isShown_of_lt (hsplit' ▸ mem_append_left _ hmem) hxshown.2.1 heq hlt hshown
    rw [find?_shown_before between.reverse before after hl (by simp [hsplit])
      (fun x hx hxshown => absurd hxshown.2.1 (not_le.2 (hbetween x (mem_reverse.1 hx)))) hless]
    unfold prev
    rw [hdir]
    exact findPrevUserEntry_shows hl hsplit hiter hdir

end DBIter

end RallyDB.Db
