import RallyDB.Db.History
import RallyDB.Db.Lemmas.CompactionWork
import RallyDB.Db.Lemmas.Files

/-!
# The invariant of the database
-/

namespace RallyDB.Db

open RallyDB.Lib List DB

variable {κ : Type*} [LinearOrder κ]

lemma sorted_of_perm_ne {l : List (Entry κ)} (hle : l.Pairwise fun a b => a.1 ≤ b.1)
    (hne : l.Pairwise fun a b => a.1 ≠ b.1) : SortedEntries l :=
  (hle.and hne).imp fun h => lt_of_le_of_ne h.1 h.2

lemma sorted_orderedInsert {m : List (Entry κ)} (hm : SortedEntries m) {e : Entry κ}
    (he : ∀ x ∈ m, x.1 ≠ e.1) : SortedEntries (m.orderedInsert (fun a b => a.1 ≤ b.1) e) := by
  refine sorted_of_perm_ne (List.Pairwise.orderedInsert e m (hm.imp le_of_lt)) ?_
  refine (List.Perm.pairwise_iff (fun {a b} => Ne.symm) (perm_orderedInsert _ e m)).2 ?_
  exact List.Pairwise.cons (fun x hx => (he x hx).symm) (hm.imp ne_of_lt)

lemma insertInto_cons (m : MemTable κ) (s : Nat) (op : BatchOp κ) (ops : List (BatchOp κ)) : insertInto m s (op :: ops) =
    insertInto (List.orderedInsert (fun a b => a.1 ≤ b.1) (op.entry s) m) (s + 1) ops := by
  cases op <;> rfl

lemma mem_insertInto {m : MemTable κ} {s : Nat} {ops : List (BatchOp κ)} {e : Entry κ} :
    e ∈ insertInto m s ops ↔ e ∈ batchEntries s ops ∨ e ∈ m := by
  induction ops generalizing m s with
  | nil => simp [insertInto, batchEntries]
  | cons op ops ih =>
    rw [insertInto_cons, ih, mem_orderedInsert, batchEntries, mem_cons]
    tauto

lemma insertInto_sorted {m : MemTable κ} (hm : SortedEntries m) {s : Nat} (hs : ∀ e ∈ m, e.1.sequence < s)
    (ops : List (BatchOp κ)) : SortedEntries (insertInto m s ops) := by
  induction ops generalizing m s with
  | nil => exact hm
  | cons op ops ih =>
    rw [insertInto_cons]
    refine ih (sorted_orderedInsert hm fun x hx he => ?_) fun x hx => ?_
    · have := hs x hx
      rw [he] at this
      simp at this
    · rcases (mem_orderedInsert _).1 hx with rfl | hx
      · simp
      · exact (hs x hx).trans (Nat.lt_succ_self s)

/-! ## The invariant -/

def DB.stored (db : DB κ) : Set (Entry κ) :=
  {e | e ∈ db.mem ∨ (∃ m, db.imm = some m ∧ e ∈ m) ∨ e ∈ db.current.entries}

def IsDeletion (e : Entry κ) : Prop := e.1.type = .deletion

structure RunningOk (db : DB κ) (r : RunningCompaction κ) : Prop where
  inputs : r.compaction.InputsOk
  level : r.compaction.level + 1 < kNumLevels
  files : FilesOk r.compaction.inputVersion
  kept : ∀ l, ∀ f ∈ r.compaction.inputVersion.files l, f ∈ db.current.files l
  added : ∀ l, ∀ f ∈ db.current.files l, f ∉ r.compaction.inputVersion.files l →
    (∀ g ∈ r.compaction.inputs, FileNewer f g) ∧ (l = r.compaction.level + 1 → Beside f r.compaction.inputs)
  snapshot : ∀ s, db.Readable s → r.smallestSnapshot ≤ s
  distinct : r.outputNumbers.Nodup
  fresh : ∀ n ∈ r.outputNumbers, n < db.nextFileNumber ∧ ∀ l, ∀ f ∈ db.current.files l, f.number ≠ n

def DB.NoFlushIntoGap (o : Options κ) (db : DB κ) : Prop :=
  ∀ r ∈ db.running, ∀ f ∈ db.imm.bind (buildTable o db.nextFileNumber),
    db.current.pickLevelForMemTableOutput o f.smallest.userKey f.largest.userKey = r.compaction.level + 1 →
      ¬ ((∃ a ∈ r.compaction.inputs, a.largest.userKey < f.smallest.userKey) ∧
        ∃ b ∈ r.compaction.inputs, f.largest.userKey < b.smallest.userKey)

instance (o : Options κ) (db : DB κ) : Decidable (db.NoFlushIntoGap o) := by
  unfold DB.NoFlushIntoGap
  infer_instance

def DB.FlushOutsideGap (o : Options κ) (db : DB κ) (a : Action κ) : Prop :=
  a = .compactMemTable → db.NoFlushIntoGap o

instance (o : Options κ) (db : DB κ) : (a : Action κ) → Decidable (db.FlushOutsideGap o a)
  | .compactMemTable => decidable_of_iff (db.NoFlushIntoGap o) ⟨fun h _ => h, fun h => h rfl⟩
  | .write _ | .switchMemTable | .startCompaction _ | .startManual _ _ _ | .openOutput | .installCompaction
  | .getSnapshot | .releaseSnapshot _ => isTrue nofun

structure DB.Ok (ops : List (BatchOp κ)) (db : DB κ) : Prop where
  files : FilesOk db.current
  numbers : ∀ l, ∀ f ∈ db.current.files l, f.number < db.nextFileNumber
  mem : SortedEntries db.mem
  imm : ∀ m, db.imm = some m → SortedEntries m
  lastSequence : db.lastSequence = ops.length
  bound : db.lastSequence < kMaxSequenceNumber
  genuine : db.stored ⊆ written ops
  memImm : ∀ m, db.imm = some m → ∀ a ∈ db.mem, ∀ b ∈ m, b.1.sequence < a.1.sequence
  memFiles : ∀ a ∈ db.mem, ∀ b ∈ db.current.entries, b.1.sequence < a.1.sequence
  immFiles : ∀ m, db.imm = some m → ∀ a ∈ m, ∀ b ∈ db.current.entries, b.1.sequence < a.1.sequence
  oldestFirst : db.snapshots.Pairwise (· ≤ ·)
  snapshots : ∀ s ∈ db.snapshots, s ≤ db.lastSequence
  retains : ∀ s, db.Readable s → Retains entryUser entrySeq IsDeletion s (written ops) db.stored
  running : ∀ r, db.running = some r → RunningOk db r

lemma DB.init_ok : DB.Ok [] (init : DB κ) where
  files := by constructor <;> simp [init, DisjointSorted]
  numbers := by simp [init]
  mem := .nil
  imm := by simp [init]
  lastSequence := rfl
  bound := by simp [init, kMaxSequenceNumber]
  genuine := by
    intro e he
    simp [init, stored, Version.entries] at he
  memImm := by simp [init]
  memFiles := by simp [init]
  immFiles := by simp [init]
  oldestFirst := .nil
  snapshots := by simp [init]
  retains := by
    intro s _ u a ha
    exact absurd ha.mem (by simp [written, batchEntries])
  running := by simp [init]

lemma written_seqInj (ops : List (BatchOp κ)) : SeqInj (written ops) := by
  intro a ha b hb hs
  by_contra hne
  rcases rel_or_rel_of_pairwise (batchEntries_increasing 1 ops) ha hb hne with h | h
  · exact h.ne hs
  · exact h.ne' hs

section Ok

variable {ops : List (BatchOp κ)} {db : DB κ}

lemma DB.Ok.seqInj (h : db.Ok ops) : SeqInj db.stored :=
  fun a ha b hb => written_seqInj ops a (h.genuine ha) b (h.genuine hb)

lemma DB.Ok.entries_seqInj (h : db.Ok ops) : SeqInj db.current.entries :=
  fun a ha b hb => h.seqInj a (.inr (.inr ha)) b (.inr (.inr hb))

lemma DB.Ok.sequence_le (h : db.Ok ops) {e : Entry κ} (he : e ∈ db.stored) : e.1.sequence ≤ db.lastSequence :=
  h.lastSequence ▸ written_sequence (h.genuine he)

lemma DB.Ok.entries_bound (h : db.Ok ops) : ∀ e ∈ db.current.entries, e.1.sequence ≤ kMaxSequenceNumber :=
  fun _ he => (h.sequence_le (.inr (.inr he))).trans h.bound.le

def DB.places (db : DB κ) : List (List (Entry κ)) := db.mem :: (db.imm.toList ++ db.current.places)

lemma saveValue_valueOr (u : κ) (s : Nat) (l m : List (Entry κ)) :
    (saveValue u (entryRead u s l)).valueOr (entryValue (entryRead u s m)) = entryValue (entryRead u s (l ++ m)) := by
  rw [entryRead_append]
  cases hl : entryRead u s l with
  | none => rfl
  | some e =>
    obtain ⟨k, value⟩ := e
    have hu : k.userKey = u := (entryRead_user hl).2.1
    cases ht : k.type <;> simp [saveValue, entryValue, SaverState.valueOr, hu, ht]

variable (h : db.Ok ops)
include h

lemma DB.Ok.get_eq (u : κ) (s : Nat) : db.get u s = entryValue (entryRead u s db.places.flatten) := by
  have hmem : db.mem.get u s = saveValue u (entryRead u s db.mem) := saveValue_seek h.mem u s
  have hversion : (db.current.get u s).1.valueOr none = entryValue (entryRead u s db.current.places.flatten) := by
    rw [Version.get_eq (fun f hf g hg he => (h.files.numbers 0 0 f hf g hg he).2) h.files.disjoint]
    simpa [entryValue] using saveValue_valueOr u s db.current.places.flatten []
  rw [get, hmem, hversion, places, flatten_cons, ← saveValue_valueOr]
  congr 1
  cases himm : db.imm with
  | none => rfl
  | some imm =>
    have hi : imm.get u s = saveValue u (entryRead u s imm) := saveValue_seek (h.imm imm himm) u s
    simp only [Option.toList_some, singleton_append, flatten_cons]
    rw [hi, saveValue_valueOr]

lemma DB.Ok.mem_places {e : Entry κ} : e ∈ db.places.flatten ↔ e ∈ db.stored := by
  simp only [places, flatten_cons, flatten_append, mem_append, h.files.mem_places, stored, Set.mem_ofPred_eq]
  cases db.imm with
  | none => simp
  | some imm => simp

lemma DB.Ok.places_newestFirst : NewestFirst entryUser entrySeq db.places.flatten := by
  have hfiles := h.files.places_newestFirst h.entries_seqInj
  have hmem := h.mem.newestFirst fun a ha b hb => h.seqInj a (.inl ha) b (.inl hb)
  rw [places, flatten_cons]
  refine newestFirst_append.2 ⟨hmem, ?_, fun a ha b hb _ => ?_⟩
  · cases himm : db.imm with
    | none => simpa using hfiles
    | some imm =>
      have hm := (h.imm imm himm).newestFirst fun a ha b hb =>
        h.seqInj a (.inr (.inl ⟨imm, himm, ha⟩)) b (.inr (.inl ⟨imm, himm, hb⟩))
      refine newestFirst_append.2 ⟨hm, hfiles, fun a ha b hb _ => ?_⟩
      exact h.immFiles imm himm a ha b (h.files.mem_places.1 hb)
  · rw [flatten_append, mem_append, h.files.mem_places] at hb
    rcases hb with hb | hb
    · obtain ⟨l, hl, hbl⟩ := mem_flatten.1 hb
      rw [Option.mem_toList] at hl
      exact h.memImm l hl a ha b hbl
    · exact h.memFiles a ha b hb

lemma DB.Ok.get_latest {s : Nat} (hs : db.Readable s) (u : κ) : db.get u s = latestValue ops u s := by
  have hhist : {e | e ∈ (batchEntries 1 ops).reverse} = written ops := by
    ext e
    simp [written]
  have hstored : {e | e ∈ db.places.flatten} = db.stored := by
    ext e
    exact h.mem_places
  have hr : Retains entryUser entrySeq IsDeletion s {e | e ∈ (batchEntries 1 ops).reverse}
      {e | e ∈ db.places.flatten} := by
    rw [hhist, hstored]
    exact h.retains s hs
  have hsub : ∀ e ∈ db.places.flatten, e ∈ (batchEntries 1 ops).reverse := fun e he =>
    mem_reverse.2 (h.genuine (h.mem_places.1 he))
  rw [h.get_eq, latestValue_eq]
  rcases hr.readAt_eq (history_newestFirst ops) h.places_newestFirst hsub u with heq | ⟨hnone, e, he, hdead⟩
  · exact congrArg entryValue heq
  · rw [entryRead, hnone, entryRead, he]
    obtain ⟨k, value⟩ := e
    have hk : k.type = .deletion := hdead
    simp [entryValue, hk]

end Ok

end RallyDB.Db
