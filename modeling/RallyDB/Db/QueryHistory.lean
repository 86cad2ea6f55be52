import RallyDB.Db.Lemmas.Numbers
import RallyDB.Db.Theorems

/-!
# The query history of the tables
-/

namespace RallyDB.Db

open RallyDB.Lib List Function

variable {κ : Type*} [LinearOrder κ]

structure FileStats where
  pointQueryTime : Nat := 0
  pointQueryTimeAll : Nat := 0
  historyTime : List (Nat × Nat) := []

structure QueryTimes where
  stats : Nat → FileStats
  probes : Nat → Nat

def QueryTimes.probe (q : QueryTimes) (number : Nat) : QueryTimes where
  stats := Function.update q.stats number
    { q.stats number with
      pointQueryTime := (q.stats number).pointQueryTime + 1
      pointQueryTimeAll := (q.stats number).pointQueryTimeAll + 1 }
  probes := Function.update q.probes number (q.probes number + 1)

def QueryTimes.record (oldTime : Nat) (q : QueryTimes) (number : Nat) : QueryTimes where
  stats := Function.update q.stats number
    { q.stats number with
      historyTime := (q.stats number).historyTime ++ [(oldTime, (q.stats number).pointQueryTime)]
      pointQueryTime := 0 }
  probes := q.probes

def QueryTimes.renew (q : QueryTimes) (number : Nat) : QueryTimes where
  stats := Function.update q.stats number {}
  probes := q.probes

def GetState.matchCounted (userKey : κ) (internalKey : InternalKey κ) (s : GetState κ × QueryTimes) (level : Nat)
    (f : FileMetaData κ) : (GetState κ × QueryTimes) × Bool :=
  let (s', more) := s.1.match userKey internalKey level f
  ((s', s.2.probe f.number), more)

def Version.getCounted (v : Version κ) (userKey : κ) (sequence : Nat) (q : QueryTimes) : QueryTimes :=
  (v.forEachOverlapping userKey (lookupKey userKey sequence) (GetState.matchCounted userKey (lookupKey userKey sequence))
    ({ saver := .notFound, stats := { seekFile := none, seekFileLevel := none },
       lastFileRead := none, lastFileReadLevel := none }, q)).2

structure Tracked (κ : Type*) [LinearOrder κ] where
  db : DB κ
  times : QueryTimes

def Tracked.init : Tracked κ := ⟨DB.init, ⟨fun _ => {}, fun _ => 0⟩⟩

inductive Tracked.Action (κ : Type*) [LinearOrder κ] where
  | db (a : Db.Action κ)
  | get (key : κ) (sequence : Nat)
  | adjustBloomFilter (oldTime : Nat)

def DB.asksVersion (db : DB κ) (key : κ) (sequence : Nat) : Prop :=
  db.mem.get key sequence = .notFound ∧ ∀ imm ∈ db.imm, imm.get key sequence = .notFound

instance (db : DB κ) (key : κ) (sequence : Nat) : Decidable (db.asksVersion key sequence) :=
  inferInstanceAs (Decidable (_ ∧ _))

def Tracked.step (o : Options κ) (s : Tracked κ) : Tracked.Action κ → Option (Tracked κ)
  | .db a => (s.db.step o a).map fun db =>
    ⟨db, ((s.db.editOf o a).newFiles.map fun p => p.2.number).foldl QueryTimes.renew s.times⟩
  | .get key sequence =>
    some ⟨s.db, if s.db.asksVersion key sequence then s.db.current.getCounted key sequence s.times else s.times⟩
  | .adjustBloomFilter oldTime =>
    some ⟨s.db, ((List.range kNumLevels).flatMap s.db.current.files).foldl (fun q f => q.record oldTime f.number) s.times⟩

/-! ## What one counter says -/

def QueryTimes.Agrees (q : QueryTimes) (number : Nat) : Prop :=
  (q.stats number).pointQueryTimeAll = q.probes number ∧
    (q.stats number).pointQueryTimeAll = ((q.stats number).historyTime.map Prod.snd).sum + (q.stats number).pointQueryTime

variable {q : QueryTimes} {n m : Nat}

lemma agrees_probe : (q.probe m).Agrees n ↔ q.Agrees n := by
  by_cases h : n = m
  · subst h
    simp only [QueryTimes.Agrees, QueryTimes.probe, update_self]
    omega
  · simp only [QueryTimes.Agrees, QueryTimes.probe, update_of_ne h]

lemma agrees_record {oldTime : Nat} : (q.record oldTime m).Agrees n ↔ q.Agrees n := by
  by_cases h : n = m
  · subst h
    simp [QueryTimes.Agrees, QueryTimes.record]
  · simp only [QueryTimes.Agrees, QueryTimes.record, update_of_ne h]

lemma foldl_renew (ns : List Nat) (q : QueryTimes) : (ns.foldl QueryTimes.renew q).probes = q.probes ∧
    (ns.foldl QueryTimes.renew q).stats n = if n ∈ ns then {} else q.stats n := by
  induction ns generalizing q with
  | nil => exact ⟨rfl, (if_neg not_mem_nil).symm⟩
  | cons m ns ih =>
    refine ⟨(ih (q.renew m)).1, ?_⟩
    rw [foldl_cons, (ih (q.renew m)).2]
    by_cases hn : n ∈ ns
    · rw [if_pos hn, if_pos (mem_cons_of_mem _ hn)]
    · rw [if_neg hn]
      dsimp only [QueryTimes.renew]
      by_cases hm : n = m
      · rw [hm, update_self, if_pos mem_cons_self]
      · rw [update_of_ne hm, if_neg (by simp [hm, hn])]

lemma agrees_renewed {ns : List Nat} (h : n ∈ ns) : (ns.foldl QueryTimes.renew q).Agrees n ↔ q.probes n = 0 := by
  rw [QueryTimes.Agrees, (foldl_renew ns q (n := n)).2, (foldl_renew ns q (n := n)).1, if_pos h]
  simp [eq_comm]

lemma agrees_kept {ns : List Nat} (h : n ∉ ns) : (ns.foldl QueryTimes.renew q).Agrees n ↔ q.Agrees n := by
  rw [QueryTimes.Agrees, (foldl_renew ns q (n := n)).2, (foldl_renew ns q (n := n)).1, if_neg h]
  rfl

lemma foldl_record (oldTime : Nat) (files : List (FileMetaData κ)) (q : QueryTimes) :
    (files.foldl (fun q f => q.record oldTime f.number) q).probes = q.probes ∧
    ((files.foldl (fun q f => q.record oldTime f.number) q).Agrees n ↔ q.Agrees n) := by
  induction files generalizing q with
  | nil => exact ⟨rfl, Iff.rfl⟩
  | cons f files ih => exact ⟨(ih _).1, (ih _).2.trans agrees_record⟩

lemma visitFiles_counted {u : κ} {k : InternalKey κ} (files : List (Nat × FileMetaData κ)) (s : GetState κ × QueryTimes) :
    ((visitFiles (GetState.matchCounted u k) files s).2.Agrees n ↔ s.2.Agrees n) ∧
    ((∀ p ∈ files, p.2.number ≠ n) → (visitFiles (GetState.matchCounted u k) files s).2.probes n = s.2.probes n) := by
  induction files generalizing s with
  | nil => exact ⟨Iff.rfl, fun _ => rfl⟩
  | cons p files ih =>
    have hprobe : (∀ p' ∈ p :: files, p'.2.number ≠ n) → (s.2.probe p.2.number).probes n = s.2.probes n := fun h =>
      update_of_ne (h p mem_cons_self).symm _ _
    unfold visitFiles GetState.matchCounted
    cases s.1.match u k p.1 p.2 with
    | mk s' more =>
      cases more with
      | true =>
        have hrest := ih (s', s.2.probe p.2.number)
        refine ⟨hrest.1.trans agrees_probe, fun h => ?_⟩
        exact (hrest.2 fun p' hp' => h p' (mem_cons_of_mem _ hp')).trans (hprobe h)
      | false => exact ⟨agrees_probe, hprobe⟩

lemma mem_of_overlappingFiles {v : Version κ} {u : κ} {k : InternalKey κ} {p : Nat × FileMetaData κ}
    (hp : p ∈ v.overlappingFiles u k) : p.2 ∈ v.files p.1 := by
  rcases mem_append.1 hp with hp | hp
  · obtain ⟨f, hf, rfl⟩ := mem_map.1 hp
    rw [Version.level0Files, mem_insertionSort] at hf
    exact mem_of_mem_filter hf
  · obtain ⟨level, -, hlevel⟩ := mem_filterMap.1 hp
    obtain ⟨f, hf, rfl⟩ := Option.map_eq_some_iff.1 hlevel
    unfold Version.levelFile at hf
    split at hf
    · cases hf
    · rename_i g hg
      simp only [Option.ite_none_left_eq_some, Option.some.injEq] at hf
      rw [← hf.2]
      exact mem_of_getElem? hg

/-! ## Steps -/

variable {o : Options κ} {s s' : Tracked κ} {a : Tracked.Action κ}

structure Tracked.Ok (s : Tracked κ) : Prop where
  numbered : s.db.Numbered
  unread : ∀ n, s.db.Unused n → s.times.probes n = 0

lemma Tracked.ok_init : (Tracked.init : Tracked κ).Ok := ⟨DB.numbered_init, fun _ _ => rfl⟩

def Tracked.HistoryKept (s : Tracked κ) : Prop := ∀ l, ∀ f ∈ s.db.current.files l, s.times.Agrees f.number

def Tracked.MovesUnread (o : Options κ) (s : Tracked κ) : Tracked.Action κ → Prop
  | .db (.startCompaction hint) => ∀ p ∈ (s.db.editOf o (.startCompaction hint)).newFiles, s.times.probes p.2.number = 0
  | _ => True

instance (o : Options κ) (s : Tracked κ) (a : Tracked.Action κ) : Decidable (s.MovesUnread o a) := by
  unfold Tracked.MovesUnread
  split <;> infer_instance

lemma Tracked.get_times (s : Tracked κ) (key : κ) (sequence n : Nat) :
    ((if s.db.asksVersion key sequence then s.db.current.getCounted key sequence s.times else s.times).Agrees n ↔
    s.times.Agrees n) ∧ ((∀ l, ∀ f ∈ s.db.current.files l, f.number ≠ n) →
    (if s.db.asksVersion key sequence then s.db.current.getCounted key sequence s.times else s.times).probes n =
    s.times.probes n) := by
  split_ifs
  · have hvisit := visitFiles_counted (n := n) (u := key) (k := lookupKey key sequence)
      (s.db.current.overlappingFiles key (lookupKey key sequence))
    exact ⟨(hvisit _).1, fun h => (hvisit _).2 fun p hp => h p.1 p.2 (mem_of_overlappingFiles hp)⟩
  · exact ⟨Iff.rfl, fun _ => rfl⟩

lemma Tracked.Ok.step (h : s.Ok) (hs : s.step o a = some s') : s'.Ok := by
  cases a with
  | db a =>
    obtain ⟨db, hdb, rfl⟩ := Option.map_eq_some_iff.1 hs
    refine ⟨h.numbered.step hdb, fun n hn => ?_⟩
    dsimp only
    rw [(foldl_renew _ _ (n := n)).1]
    exact h.unread n (hn.of_step hdb)
  | get key sequence =>
    cases hs
    refine ⟨h.numbered, fun n hn => ?_⟩
    refine ((s.get_times key sequence n).2 fun l f hf he => ?_).trans (h.unread n hn)
    exact h.numbered.not_unused hf (he ▸ hn)
  | adjustBloomFilter oldTime =>
    cases hs
    refine ⟨h.numbered, fun n hn => ?_⟩
    have hprobes := (foldl_record (n := n) oldTime ((List.range kNumLevels).flatMap s.db.current.files) s.times).1
    exact (congrFun hprobes n).trans (h.unread n hn)

lemma Tracked.Ok.historyKept_db (h : s.Ok) (hk : s.HistoryKept) {a : Db.Action κ} {db : DB κ}
    (hs : s.db.step o a = some db) : (∀ l, ∀ f ∈ db.current.files l,
    (((s.db.editOf o a).newFiles.map fun p => p.2.number).foldl QueryTimes.renew s.times).Agrees f.number) ↔
    ∀ p ∈ (s.db.editOf o a).newFiles, s.times.probes p.2.number = 0 := by
  constructor
  · intro hall p hp
    have hagrees := hall p.1 p.2 ((h.numbered.mem_files hs).2 (.inr hp))
    exact (agrees_renewed (mem_map_of_mem hp)).1 hagrees
  · intro hzero l f hf
    rcases (h.numbered.mem_files hs).1 hf with ⟨hf, hdel⟩ | hf
    · refine (agrees_kept fun hmem => ?_).2 (hk l f hf)
      obtain ⟨p, hp, he⟩ := mem_map.1 hmem
      exact hdel ((h.numbered.editNew hs).fresh p hp l f hf he.symm).1
    · exact (agrees_renewed (mem_map_of_mem hf)).2 (hzero _ hf)

lemma Tracked.Ok.historyKept_step (h : s.Ok) (hk : s.HistoryKept) (hs : s.step o a = some s') :
    s'.HistoryKept ↔ s.MovesUnread o a := by
  cases a with
  | db a =>
    obtain ⟨db, hdb, rfl⟩ := Option.map_eq_some_iff.1 hs
    refine (h.historyKept_db hk hdb).trans ?_
    by_cases hmove : ∃ hint, a = .startCompaction hint
    · obtain ⟨hint, rfl⟩ := hmove
      exact Iff.rfl
    · have hne : ∀ hint, a ≠ .startCompaction hint := fun hint he => hmove ⟨hint, he⟩
      have hmeets : s.MovesUnread o (.db a) := by
        unfold Tracked.MovesUnread
        split
        · rename_i he
          cases he
          exact absurd rfl (hne _)
        · trivial
      exact iff_of_true (fun p hp => h.unread _ (DB.unused_of_mem_newFiles hp hne)) hmeets
  | get key sequence =>
    cases hs
    exact iff_of_true (fun l f hf => ((s.get_times key sequence f.number).1).2 (hk l f hf)) trivial
  | adjustBloomFilter oldTime =>
    cases hs
    exact iff_of_true (fun l f hf => (foldl_record (n := f.number) oldTime _ _).2.2 (hk l f hf)) trivial

/-- The counters are right in every state of a run exactly when no trivial move of the run takes a table that was probed. -/
theorem queryHistory_iff (o : Options κ) (as : List (Tracked.Action κ)) (s : Tracked κ)
    (hr : run (Tracked.step o) Tracked.init as = some s) :
    StepsMeet (Tracked.step o) (Tracked.MovesUnread o) Tracked.init as ↔
    ∀ pre rest t, as = pre ++ rest → run (Tracked.step o) Tracked.init pre = some t → ∀ l, ∀ f ∈ t.db.current.files l,
    (t.times.stats f.number).pointQueryTimeAll = t.times.probes f.number ∧ (t.times.stats f.number).pointQueryTimeAll =
    ((t.times.stats f.number).historyTime.map Prod.snd).sum + (t.times.stats f.number).pointQueryTime :=
  stepsMeet_iff_reached (P := Tracked.HistoryKept) (fun _ _ _ h hs => h.step hs) (fun _ _ _ h hk hs => h.historyKept_step hk hs)
    Tracked.ok_init (fun _ _ hf => absurd hf not_mem_nil) hr

def largeOptions : Options Nat where
  maxFileSize := 2 * 1024 * 1024
  builderFileSize entries := 200 * 1024 * 1024 * entries.length
  tableFileSize entries := 200 * 1024 * 1024 * entries.length

def movedBeforeReads : List (Tracked.Action Nat) :=
  (writeAndFlush 1 [1] ++ [Action.startCompaction (.size 2)]).map .db ++ [.get 1 1, .adjustBloomFilter 7, .get 1 1]

theorem queryHistory_iff_sample : ∃ s, run (Tracked.step largeOptions) Tracked.init movedBeforeReads = some s ∧
    (∀ f ∈ s.db.current.files 3, (s.times.stats f.number).pointQueryTimeAll = s.times.probes f.number) ∧
    s.times.probes 3 = 2 ∧ (s.times.stats 3).historyTime = [(7, 1)] := by
  obtain ⟨s, hs, hprobes⟩ : ∃ s, run (Tracked.step largeOptions) Tracked.init movedBeforeReads = some s ∧
      s.times.probes 3 = 2 ∧ (s.times.stats 3).historyTime = [(7, 1)] := exists_run (by decide +kernel)
  refine ⟨s, hs, fun f hf => ?_, hprobes⟩
  have hmeet : StepsMeet (Tracked.step largeOptions) (Tracked.MovesUnread largeOptions) Tracked.init movedBeforeReads := by
    decide +kernel
  exact ((queryHistory_iff _ _ s hs).1 hmeet movedBeforeReads [] s (append_nil _).symm hs 3 f hf).1

/-- A table is read once and then moved to the next level: its counters start again from zero. -/
theorem trivial_move_forgets_probes : ∃ s, run (Tracked.step largeOptions) Tracked.init
    ((writeAndFlush 1 [1]).map .db ++ [.get 1 1, .db (.startCompaction (.size 2))]) = some s ∧
    ∃ f ∈ s.db.current.files 3, s.times.probes f.number = 1 ∧ (s.times.stats f.number).pointQueryTimeAll = 0 :=
  exists_run (by decide +kernel)

end RallyDB.Db
