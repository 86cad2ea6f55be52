import RallyDB.Table.Theorems
import RallyDB.Util.MultiContainer

/-!
# Which lookups count as accesses of a filter
-/

namespace RallyDB.Util.MultiQueue

open Table

variable {mq : MultiQueue} {crc : Crc32c} {io : Nat → RandomAccessFile} {worth : WorthAdjusting} {h k : Nat}
  {P : FilterBlockReader → Prop}

section

variable (hevict : ∀ r, P r → P r.evictFilter.1) (hload : ∀ r, P r → P (r.loadFilter crc (io h)).1)
include hevict hload

omit hevict in
lemma Holds.loadHandle (hp : mq.Holds P h) : (mq.loadHandle crc io k).1.Holds P h := by
  unfold MultiQueue.loadHandle
  split
  · exact hp
  · dsimp only
    split_ifs
    · exact hp.move.modifyReader fun r hr hk => hk ▸ hload r hr
    · exact hp

lemma Holds.applyAdjustment (colds : List Nat) (hp : mq.Holds P h) : (mq.applyAdjustment crc io colds k).Holds P h := by
  have hcolds := hp.evictHandles hevict colds
  unfold MultiQueue.applyAdjustment
  split <;> rename_i he <;> rw [he] at hcolds
  · exact hcolds
  · have hloaded := hcolds.loadHandle (k := k) hload
    split <;> rename_i hl <;> rw [hl] at hloaded <;> exact hloaded

lemma Holds.doAdjustment (sn : Nat) (hp : mq.Holds P h) : (mq.doAdjustment worth crc io k sn).Holds P h := by
  unfold MultiQueue.doAdjustment
  split
  · exact hp
  · unfold MultiQueue.adjustment
    split
    · exact hp
    · dsimp only
      split_ifs
      · exact hp
      · exact Holds.applyAdjustment hevict hload _ hp
      · exact hp
      · exact hp

end

variable (worth crc io) in
lemma updateHandle_counts (policy : FilterPolicy) (blockOffset : Nat) {sn : Nat} {key : Slice} {r : FilterBlockReader}
    (hkey : parseKey key = some sn) (hv : mq.value h = some r) :
    ∃ after, (mq.updateHandle worth crc policy io h blockOffset key).1.value h = some after ∧ after.sequence = sn ∧
    after.accessTime = r.accessTime + 1 := by
  unfold updateHandle
  rw [hkey, hv]
  refine Holds.doAdjustment (P := fun x => x.sequence = sn ∧ x.accessTime = r.accessTime + 1) (fun x hx => ?_)
    (fun x hx => ?_) sn ⟨r.updateState sn, ?_, rfl, rfl⟩
  · unfold FilterBlockReader.evictFilter
    split_ifs <;> exact hx
  · unfold FilterBlockReader.loadFilter
    dsimp only
    split_ifs
    · exact hx
    · split <;> exact hx
  · rw [value_modifyReader_self, hv]
    rfl

end RallyDB.Util.MultiQueue

namespace RallyDB.Table

open Util Db

/-! ## Lookups -/

lemma parseKey_encode {k : InternalKey Slice} (h : k.Storable) : MultiQueue.parseKey k.encode = some k.sequence := by
  have hcode : k.type.code < 2 := by cases k.type <;> decide
  have htag := extractTag_encode h
  rw [extractTag, InternalKey.tag, packSequenceAndType] at htag
  unfold MultiQueue.parseKey
  dsimp only
  rw [if_neg (by simp), htag, if_pos (by omega), Option.some_inj]
  omega

variable (t : TableRep)

def TableRep.filterReader (mq : MultiQueue) : Option FilterBlockReader :=
  match t.reader with
  | some r => some r
  | none => t.handle.bind mq.value

structure Counted (s : Nat) (before after : FilterBlockReader) : Prop where
  accessTime : after.accessTime = before.accessTime + 1
  hot : ∀ time < s + kLifeTime, after.isCold time = false

section

variable {t} {worth : WorthAdjusting} {crc : Crc32c} {io : Nat → RandomAccessFile} {mq : MultiQueue} {policy : FilterPolicy}
  {s : Nat} {u indexValue rest : Slice} {handle : BlockHandle} {r : FilterBlockReader}

lemma internalGet_queue (file : RandomAccessFile) (verify : Bool) {key ikey : Slice} {status : Status}
    (hpolicy : t.options.filterPolicy = some policy)
    (hseek : t.indexBlock.seek internalKeyCompare key = (some (ikey, indexValue), status)) :
    (t.internalGet worth crc file io verify mq key u).1 = (t.filterMayMatch worth crc io mq policy indexValue key).1 := by
  unfold TableRep.internalGet
  rw [hseek, hpolicy]
  dsimp only [Option.map_some]
  split <;> rename_i he
  · rw [Option.some.inj he]
  · rw [Option.some.inj he]
  · cases he

variable (worth crc io policy u) in
lemma filterMayMatch_counted (hmode : t.reader = none ∨ t.handle = none) (hs : s ≤ kMaxSequenceNumber)
    (hdecode : BlockHandle.decode indexValue = .ok (handle, rest)) (hr : t.filterReader mq = some r) :
    (∃ after, t.filterReader (t.filterMayMatch worth crc io mq policy indexValue (lookupKey u s).encode).1 = some after ∧
    Counted s r after) ↔ t.handle.isSome := by
  cases hreader : t.reader with
  | some own =>
    have hnone : t.handle = none := hmode.resolve_left (by simp [hreader])
    rw [TableRep.filterReader, hreader] at hr
    cases hr
    refine iff_of_false ?_ (by simp [hnone])
    rintro ⟨after, hafter, hcounted⟩
    rw [TableRep.filterReader, hreader] at hafter
    cases hafter
    exact absurd hcounted.accessTime (by omega)
  | none =>
    rw [TableRep.filterReader, hreader] at hr
    obtain ⟨h, hh, hv⟩ := Option.bind_eq_some_iff.1 hr
    refine iff_of_true ?_ (by simp [hh])
    obtain ⟨after, hafter, hsequence, haccess⟩ := MultiQueue.updateHandle_counts crc io worth policy
      handle.offset (parseKey_encode (k := lookupKey u s) hs) hv
    refine ⟨after, ?_, haccess, fun time htime => ?_⟩
    · rw [TableRep.filterReader, hreader]
      unfold TableRep.filterMayMatch
      rw [hdecode]
      simp only [hreader, hh]
      exact hafter
    · rw [FilterBlockReader.isCold, hsequence]
      exact decide_eq_false (not_le.2 htime)

end

/-- What a lookup should leave: the filter reader has counted it, and the sweeps of the containers, to which the table is
the object `o`, do not find the table cold. -/
structure TableRep.Recorded (o : TableObject) (s : Nat) (before : FilterBlockReader) (mq : MultiQueue) : Prop where
  counted : ∃ after, t.filterReader mq = some after ∧ Counted s before after
  swept : ∀ time < s + kLifeTime, o.isCold time = false

/-- No lookup is recorded as it should be. A filter reader counts the lookup just when it is in the multi queue, and then
`Table::ISCold`, which asks `rep_->reader`, takes the table for cold at every time. -/
theorem internalGet_not_recorded (worth : WorthAdjusting) (crc : Crc32c) (file : RandomAccessFile)
    (io : Nat → RandomAccessFile) (verify : Bool) (t : TableRep) (o : TableObject) (mq : MultiQueue) (policy : FilterPolicy)
    (u : Slice) (s : Nat) (ikey indexValue rest : Slice) (status : Status) (handle : BlockHandle) (r : FilterBlockReader)
    (ho : o.reader = t.reader) (hpolicy : t.options.filterPolicy = some policy)
    (hmode : t.reader = none ∨ t.handle = none) (hs : s ≤ kMaxSequenceNumber)
    (hseek : t.indexBlock.seek internalKeyCompare (lookupKey u s).encode = (some (ikey, indexValue), status))
    (hdecode : BlockHandle.decode indexValue = .ok (handle, rest)) (hr : t.filterReader mq = some r) :
    ((∃ after, t.filterReader (t.internalGet worth crc file io verify mq (lookupKey u s).encode u).1 = some after ∧
    Counted s r after) ↔ t.handle.isSome) ∧
    (t.handle.isSome → ∀ time, o.isCold time = true) ∧
    ¬ t.Recorded o s r (t.internalGet worth crc file io verify mq (lookupKey u s).encode u).1 := by
  rw [internalGet_queue file verify hpolicy hseek]
  have hcounted := filterMayMatch_counted worth crc io policy u hmode hs hdecode hr
  have hcold (hsome : t.handle.isSome) (time : Nat) : o.isCold time = true := by
    have hnone : t.reader = none := hmode.resolve_right (Option.isSome_iff_ne_none.1 hsome)
    rw [TableObject.isCold, ho, hnone]
    rfl
  refine ⟨hcounted, hcold, fun h => ?_⟩
  have hhot := h.swept 0 (Nat.add_pos_right s (by decide))
  rw [hcold (hcounted.1 h.counted)] at hhot
  cases hhot

lemma openFile_ok {crc : Crc32c} {options : TableOptions} {file : RandomAccessFile} {size : Nat} {t : TableRep}
    (h : TableRep.openFile crc options file size = .ok t) : t.options = options ∧ t.reader = none ∧ t.handle = none := by
  unfold TableRep.openFile at h
  simp only [bind, Except.bind, pure, Except.pure] at h
  split at h
  · cases h
  split at h
  · cases h
  cases h
  exact ⟨rfl, rfl, rfl⟩

def sampleRep : Except Error TableRep :=
  TableRep.openFile .bitwise sampleOptions sampleTableFile.toRandomAccessFile sampleTable.bytes.length

def leadsToBlock : Bool :=
  (t.indexBlock.seek internalKeyCompare (lookupKey [1] 4).encode).1.any fun e => (BlockHandle.decode e.2).toOption.isSome

def sampleGet (mq : MultiQueue) : MultiQueue :=
  (t.internalGet (fun _ _ => true) .bitwise sampleTableFile.toRandomAccessFile
    (fun _ => sampleTableFile.toRandomAccessFile) true mq (lookupKey [1] 4).encode [1]).1

def sampleReader : Option FilterBlockReader :=
  (t.readFilter .bitwise sampleTableFile.toRandomAccessFile sampleUninit).map fun r =>
    (r.initLoadFilter .bitwise sampleTableFile.toRandomAccessFile).1

lemma sampleRep_ok : ∃ t r, sampleRep = .ok t ∧ sampleReader t = some r ∧ leadsToBlock t = true := by
  obtain ⟨t, ht, h⟩ := (Option.any_eq_true _ _).1 (by decide +kernel : sampleRep.toOption.any (fun t =>
    (sampleReader t).isSome && leadsToBlock t) = true)
  rw [Bool.and_eq_true] at h
  obtain ⟨r, hr⟩ := Option.isSome_iff_exists.1 h.1
  refine ⟨t, r, ?_, hr, h.2⟩
  cases hrep : sampleRep with
  | error e =>
    rw [hrep] at ht
    cases ht
  | ok t' =>
    rw [hrep] at ht
    cases ht
    rfl

def sampleQueue (r : FilterBlockReader) : MultiQueue := { MultiQueue.new with handles := [(0, ⟨[1], r⟩)] }

theorem internalGet_not_recorded_sample : ∃ t r after, sampleRep = .ok t ∧ sampleReader t = some r ∧
    ({ t with handle := some 0 } : TableRep).filterReader (sampleGet { t with handle := some 0 } (sampleQueue r)) =
    some after ∧ Counted 4 r after ∧ (⟨1, 8, t.reader⟩ : TableObject).isCold 5 = true ∧
    ¬ ({ t with handle := some 0 } : TableRep).Recorded ⟨1, 8, t.reader⟩ 4 r
    (sampleGet { t with handle := some 0 } (sampleQueue r)) := by
  obtain ⟨t, r, ht, hr, hblock⟩ := sampleRep_ok
  obtain ⟨hoptions, hreader, -⟩ := openFile_ok ht
  obtain ⟨⟨ikey, indexValue⟩, hseek, hdecode⟩ := (Option.any_eq_true _ _).1 hblock
  obtain ⟨⟨handle, rest⟩, hok⟩ := Option.isSome_iff_exists.1 hdecode
  have hhandle : BlockHandle.decode indexValue = .ok (handle, rest) := by
    cases hd : BlockHandle.decode indexValue with
    | error e =>
      rw [hd] at hok
      cases hok
    | ok x =>
      rw [hd] at hok
      cases hok
      rfl
  obtain ⟨hcounted, hcold, hnot⟩ := internalGet_not_recorded (fun _ _ => true) .bitwise
    sampleTableFile.toRandomAccessFile (fun _ => sampleTableFile.toRandomAccessFile) true { t with handle := some 0 }
    ⟨1, 8, t.reader⟩ (sampleQueue r) (internalFilterPolicy bytePolicy) [1] 4 ikey indexValue rest _ handle r rfl
    (congrArg TableOptions.filterPolicy hoptions) (.inl hreader) (by decide) (Prod.ext hseek rfl) hhandle
    (by rw [TableRep.filterReader, hreader]; rfl)
  obtain ⟨after, hafter, hcounted⟩ := hcounted.2 rfl
  exact ⟨t, r, after, ht, hr, hafter, hcounted, hcold rfl 5, hnot⟩

/-- A lookup through the reader of the table itself is not counted. -/
theorem own_reader_notCounted :
    ∃ t r, sampleRep = .ok t ∧ sampleReader t = some r ∧ leadsToBlock { t with reader := some r } = true ∧
    ¬ ∃ after, ({ t with reader := some r } : TableRep).filterReader (sampleGet { t with reader := some r } .new) =
    some after ∧ Counted 4 r after := by
  obtain ⟨t, r, ht, hr, hblock⟩ := sampleRep_ok
  refine ⟨t, r, ht, hr, hblock, ?_⟩
  rintro ⟨after, hafter, hcounted⟩
  cases hafter
  exact absurd hcounted.accessTime (by omega)

end RallyDB.Table
