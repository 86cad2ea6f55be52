import RallyDB.Db.Lemmas.Install

/-!
# Runs of the database
-/

namespace RallyDB.Db

open RallyDB.Lib DB Option

variable {κ : Type*} [LinearOrder κ]

variable {ops : List (BatchOp κ)} {db db' : DB κ} {o : Options κ}

lemma DB.Ok.startCompaction (h : db.Ok ops)
    {hint : CompactionHint κ} (hs : db.startCompaction o hint = some db') : db'.Ok ops := by
  simp only [DB.startCompaction, ite_none_right_eq_some, bind_eq_bind, bind_eq_some_iff] at hs
  obtain ⟨⟨hrun, _, hlevel⟩, ⟨c, pointer⟩, hpick, hs⟩ := hs
  obtain ⟨hcl, hcv, hc, _⟩ := pickCompaction_ok h.files.nodup h.files.disjoint hpick
  have hlevel' : c.level + 1 < kNumLevels := hcl ▸ hlevel
  have h' := h.setCompactPointer (Function.update db.compactPointer c.level (some pointer))
  split at hs
  · rename_i hmove
    obtain rfl := some.inj hs
    simp only [Compaction.isTrivialMove, Bool.decide_and, Bool.and_eq_true, decide_eq_true_eq] at hmove
    have hmov : c.Movable db.current := hc.movable hlevel' h.entries_seqInj (fun l f hf => hcv ▸ hf)
      fun l f hf hfn => absurd (hcv ▸ hf) hfn
    exact h'.move (isNone_iff_eq_none.1 hrun) hmov hmove.1 (List.eq_nil_of_length_eq_zero hmove.2.1)
  · obtain rfl := some.inj hs
    exact h'.startRunning hc hlevel' hcv

lemma DB.Ok.startManual (h : db.Ok ops) {level : Nat}
    {begin limit : Option (InternalKey κ)} (hs : db.startManual o level begin limit = some db') : db'.Ok ops := by
  simp only [DB.startManual, ite_none_right_eq_some, bind_eq_bind, bind_eq_some_iff] at hs
  obtain ⟨⟨_, _, hlevel⟩, ⟨c, pointer⟩, hpick, hs⟩ := hs
  obtain ⟨hcl, hcv, hc⟩ := compactRange_ok h.files.nodup h.files.disjoint hpick
  obtain rfl := some.inj hs
  have h' := h.setCompactPointer (Function.update db.compactPointer c.level (some pointer))
  exact h'.startRunning hc (hcl ▸ hlevel) hcv

lemma DB.Ok.step (h : db.Ok ops) {a : Action κ}
    (hgap : db.FlushOutsideGap o a) (hs : db.step o a = some db') : db'.Ok (ops ++ history [a]) := by
  cases a with
  | write batch => simpa [history] using h.write hs
  | switchMemTable => simpa [history] using h.switchMemTable hs
  | compactMemTable => simpa [history] using h.compactMemTable (hgap rfl) hs
  | startCompaction hint => simpa [history] using h.startCompaction hs
  | startManual level begin limit => simpa [history] using h.startManual hs
  | openOutput => simpa [history] using h.openOutput hs
  | installCompaction => simpa [history] using h.installCompaction hs
  | getSnapshot =>
    obtain rfl := some.inj hs
    simpa [history] using h.getSnapshot
  | releaseSnapshot s =>
    simp only [DB.step, Lib.guard_eq_some] at hs
    obtain ⟨_, rfl⟩ := hs
    simpa [history] using h.releaseSnapshot s

lemma history_append (as : List (Action κ)) (a : Action κ) : history (as ++ [a]) = history as ++ history [a] := by
  simp [history]

lemma run_ok {as : List (Action κ)}
    (hc : StepsMeet (step o) (DB.FlushOutsideGap o) init as) (hr : run (step o) init as = some db) :
    db.Ok (history as) := by
  refine run_history (I := fun as db => db.Ok (history as)) init_ok (fun as a t t' ht hgap hs => ?_) hc hr
  rw [history_append]
  exact ht.step hgap hs

def Action.Automatic : Action κ → Prop
  | .startManual _ _ _ => False
  | _ => True

instance : (a : Action κ) → Decidable a.Automatic
  | .startManual _ _ _ => isFalse id
  | .write _ | .switchMemTable | .compactMemTable | .startCompaction _ | .openOutput | .installCompaction
  | .getSnapshot | .releaseSnapshot _ => isTrue trivial

lemma DB.Ok.noFlushIntoGap (h : db.Ok ops)
    (hconn : ∀ r, db.running = some r → r.compaction.Connected) (o : Options κ) : db.NoFlushIntoGap o := by
  rintro r hr f - hout ⟨⟨a, ha, haf⟩, b, hb, hfb⟩
  have hrun := h.running r hr
  obtain ⟨_, hfree⟩ := pickLevel_rangeFree h.files.disjoint h.entries_bound o f.smallest.userKey f.largest.userKey
  rw [hout] at hfree
  have hfree := hfree.resolve_left (Nat.succ_ne_zero _)
  have hle := InternalKey.user_le_of_le f.smallest_le_largest
  -- The cut just above the file goes through none of the files of the two levels.
  have hmiss : ∀ l ≤ r.compaction.level + 1,
      Misses (fun u => f.largest.userKey < u) (r.compaction.inputVersion.files l) := by
    intro l hl g hg hgl
    rcases hfree l hl g (hrun.kept l g hg) with hlt | hlt
    · exact absurd (hlt.trans_le hle) hgl.not_gt
    · exact hlt
  obtain ⟨side, hside⟩ := hconn r hr _ (fun u w huw hu => hu.trans_le huw) (hmiss _ (Nat.le_succ _)) (hmiss _ le_rfl)
  have habove := (hside a ha).2.2 ((hside b hb).1.1 hfb)
  exact absurd (haf.trans_le hle) habove.not_gt

lemma connected_step (h : db.Ok ops)
    (hconn : ∀ r, db.running = some r → r.compaction.Connected) {a : Action κ} (ha : a.Automatic)
    (hs : db.step o a = some db') : ∀ r, db'.running = some r → r.compaction.Connected := by
  cases a with
  | write batch =>
    simp only [step, write, Lib.guard_eq_some] at hs
    obtain ⟨_, rfl⟩ := hs
    exact hconn
  | switchMemTable =>
    simp only [step, switchMemTable] at hs
    split at hs
    · obtain rfl := some.inj hs
      exact hconn
    · cases hs
  | compactMemTable =>
    simp only [step, compactMemTable] at hs
    split at hs
    · cases hs
    · obtain rfl := some.inj hs
      exact hconn
  | startCompaction hint =>
    simp only [step, startCompaction, ite_none_right_eq_some, bind_eq_bind, bind_eq_some_iff] at hs
    obtain ⟨⟨hrun, _, _⟩, ⟨c, pointer⟩, hpick, hs⟩ := hs
    split at hs
    · obtain rfl := some.inj hs
      exact hconn
    · obtain rfl := some.inj hs
      rintro r ⟨⟩
      exact (pickCompaction_ok h.files.nodup h.files.disjoint hpick).2.2.2
  | startManual level begin limit => exact absurd ha id
  | openOutput =>
    simp only [step, openOutput] at hs
    split at hs
    · cases hs
    · rename_i r hr
      obtain rfl := some.inj hs
      rintro _ ⟨⟩
      exact hconn r hr
  | installCompaction =>
    simp only [step, installCompaction] at hs
    split at hs
    · cases hs
    · simp only [Lib.guard_eq_some] at hs
      obtain ⟨_, rfl⟩ := hs
      simp
  | getSnapshot =>
    obtain rfl := some.inj hs
    exact hconn
  | releaseSnapshot s =>
    simp only [step, Lib.guard_eq_some] at hs
    obtain ⟨_, rfl⟩ := hs
    exact hconn

lemma run_automatic_ok {as : List (Action κ)} (hauto : ∀ a ∈ as, a.Automatic)
    (hr : run (step o) init as = some db) : db.Ok (history as) := by
  refine (run_history (I := fun as db => db.Ok (history as) ∧ ∀ r, db.running = some r → r.compaction.Connected)
    ⟨init_ok, by simp [init]⟩ (fun as a t t' ht ha hs => ⟨?_, ?_⟩) (stepsMeet_of_forall hauto) hr).1
  · rw [history_append]
    exact ht.1.step (fun _ => ht.1.noFlushIntoGap ht.2 o) hs
  · exact connected_step ht.1 ht.2 ha hs

/-! ## Reads -/

/-- In every run without manual compactions, a read of `u` at a readable sequence returns the value of the last
operation on `u` up to that sequence. -/
theorem get_returns_latest (o : Options κ) (as : List (Action κ)) (hauto : ∀ a ∈ as, a.Automatic) (db : DB κ)
    (hr : run (DB.step o) DB.init as = some db) (u : κ) (s : Nat) (hs : db.Readable s) :
    db.get u s = latestValue (history as) u s :=
  (run_automatic_ok hauto hr).get_latest hs u

def sampleOptions : Options Nat where
  maxFileSize := 2 * 1024 * 1024
  builderFileSize entries := 100 * entries.length
  tableFileSize entries := 100 * entries.length

def writeAndFlush (key : Nat) (value : Slice) : List (Action Nat) :=
  [.write [.put key value], .switchMemTable, .compactMemTable]

def sampleRun : List (Action Nat) :=
  [.write [.put 1 [10]], .getSnapshot, .write [.delete 1, .put 2 [20]], .switchMemTable, .compactMemTable] ++
    writeAndFlush 1 [11] ++ [.startCompaction (.size 1), .openOutput, .installCompaction]

theorem get_returns_latest_sample : ∃ db, run (DB.step sampleOptions) DB.init sampleRun = some db ∧
    db.get 1 1 = latestValue (history sampleRun) 1 1 ∧ latestValue (history sampleRun) 1 1 = some [10] := by
  obtain ⟨db, hdb, hs⟩ : ∃ db, run (step sampleOptions) init sampleRun = some db ∧ 1 ∈ db.snapshots :=
    exists_run (by decide +kernel)
  exact ⟨db, hdb, get_returns_latest _ _ (by decide) db hdb 1 1 (.inr hs), by decide⟩

/-- Two files at level 2 and two newer ones at level 1 with a gap between them, a manual compaction of level 1,
and a flush of `key` before its results are installed. -/
def flushWhileCompacting (key : Nat) : List (Action Nat) :=
  writeAndFlush 1 [1] ++ writeAndFlush 9 [1] ++ writeAndFlush 1 [2] ++ writeAndFlush 9 [2] ++
    [.startManual 1 none none] ++ writeAndFlush key [3] ++ [.openOutput, .installCompaction]

/-- A key in the gap is flushed to level 2, and the compaction then installs a file at level 2 that spans it. -/
theorem flush_into_gap_overlaps : ∃ db, run (DB.step sampleOptions) DB.init (flushWhileCompacting 5) = some db ∧
    ¬ (db.current.files 2).Pairwise fun f g => f.largest < g.smallest :=
  exists_run (by decide +kernel)

/-- In every run in which no flush goes into a gap of the running compaction, the files of each level above 0
are sorted and disjoint. -/
theorem levels_disjoint (o : Options κ) (as : List (Action κ))
    (hc : StepsMeet (DB.step o) (DB.FlushOutsideGap o) DB.init as) (db : DB κ)
    (hr : run (DB.step o) DB.init as = some db) (level : Nat) (hl : 0 < level) :
    (db.current.files level).Pairwise fun f g => f.largest < g.smallest :=
  (run_ok hc hr).files.disjoint level hl

theorem levels_disjoint_sample : ∃ db, run (DB.step sampleOptions) DB.init (flushWhileCompacting 20) = some db ∧
    (db.current.files 2).Pairwise fun f g => f.largest < g.smallest := by
  obtain ⟨db, hdb, _⟩ : ∃ db, run (step sampleOptions) init (flushWhileCompacting 20) = some db ∧ True :=
    exists_run (by decide +kernel)
  exact ⟨db, hdb, levels_disjoint _ _ (by decide +kernel) db hdb 2 (by decide)⟩

end RallyDB.Db
