import RallyDB.Table.FileBuilder

/-!
# What the builder has written while its status is OK
-/

namespace RallyDB.Table

open Util List

def WrittenBlock.InFile (crc : Crc32c) (file : Slice) (b : WrittenBlock) : Prop :=
  b.handle.size = b.contents.length ∧
    (file.drop b.handle.offset).take (b.handle.size + kBlockTrailerSize) = b.contents ++ blockTrailer crc b.contents b.type

lemma WrittenBlock.InFile.append {crc : Crc32c} {file : Slice} {b : WrittenBlock} (h : b.InFile crc file) (more : Slice) :
    b.InFile crc (file ++ more) := by
  refine ⟨h.1, ?_⟩
  have hlen := congrArg List.length h.2
  simp only [length_take, length_drop, length_append, blockTrailer_length, kBlockTrailerSize, h.1] at hlen
  rw [drop_append_of_le_length (by omega), take_append_of_le_length, h.2]
  rw [length_drop, h.1, kBlockTrailerSize]
  omega

namespace FileBuilder

variable {faults : Faults} {crc : Crc32c} {options : BuilderOptions} {tb : FileBuilder} {contents : Slice}
  {type : UInt8}

structure Good (crc : Crc32c) (tb : FileBuilder) : Prop where
  appends : ∀ a ∈ tb.appends, a = true
  offset : tb.offset = tb.file.length
  written : ∀ b ∈ tb.written, b.InFile crc tb.file
  handles : ∀ h ∈ tb.handles, ∃ b ∈ tb.written, b.handle = h
  pending : tb.pendingIndexEntry = true → ∃ b ∈ tb.written, b.handle = tb.pendingHandle

lemma append_of_none (h : faults tb.appends.length = none) (data : Slice) : tb.append faults data =
    { tb with file := tb.file ++ data, appends := tb.appends ++ [true], status := .ok () } := by
  rw [append, h]

lemma append_of_some {n : Nat} (h : faults tb.appends.length = some n) (data : Slice) : tb.append faults data =
    { tb with file := tb.file ++ data.take n, appends := tb.appends ++ [false], status := .error (.ioError "append") } := by
  rw [append, h]

section

variable (crc tb contents type)

def withBlock : FileBuilder :=
  { tb with
    file := tb.file ++ (contents ++ blockTrailer crc contents type)
    appends := tb.appends ++ [true, true]
    status := .ok ()
    offset := tb.offset + contents.length + kBlockTrailerSize
    written := tb.written ++ [⟨⟨tb.offset, contents.length⟩, contents, type⟩] }

end

lemma writeRawBlock_of_none (h1 : faults tb.appends.length = none) (h2 : faults (tb.appends.length + 1) = none)
    (contents : Slice) (type : UInt8) :
    tb.writeRawBlock faults crc contents type = (tb.withBlock crc contents type, ⟨tb.offset, contents.length⟩) := by
  unfold writeRawBlock
  rw [append_of_none h1]
  set tb1 : FileBuilder := { tb with file := tb.file ++ contents, appends := tb.appends ++ [true], status := .ok () }
  have hlen : tb1.appends.length = tb.appends.length + 1 := length_append
  have hok : tb1.ok = true := rfl
  simp only [hok, if_true]
  rw [append_of_none (hlen ▸ h2)]
  simp only [ok, Except.isOk, Except.toBool, if_true]
  simp [tb1, withBlock]

section

variable (faults crc tb contents type)

lemma writeRawBlock_cases :
    (tb.writeRawBlock faults crc contents type = (tb.withBlock crc contents type, ⟨tb.offset, contents.length⟩) ∧
    faults tb.appends.length = none ∧ faults (tb.appends.length + 1) = none) ∨
    ((tb.writeRawBlock faults crc contents type).1.ok = false ∧
    ∃ outcomes, (tb.writeRawBlock faults crc contents type).1.appends = tb.appends ++ outcomes ∧ false ∈ outcomes) := by
  cases h1 : faults tb.appends.length with
  | some n =>
    right
    unfold writeRawBlock
    rw [append_of_some h1]
    exact ⟨rfl, [false], rfl, mem_singleton_self _⟩
  | none =>
    cases h2 : faults (tb.appends.length + 1) with
    | none => exact .inl ⟨writeRawBlock_of_none h1 h2 contents type, rfl, rfl⟩
    | some n =>
      right
      unfold writeRawBlock
      rw [append_of_none h1]
      set tb1 : FileBuilder := { tb with file := tb.file ++ contents, appends := tb.appends ++ [true], status := .ok () }
      have hlen : tb1.appends.length = tb.appends.length + 1 := length_append
      have hok : tb1.ok = true := rfl
      simp only [hok, if_true]
      rw [append_of_some (hlen ▸ h2)]
      exact ⟨rfl, [true, false], append_assoc _ [true] [false], by simp⟩

end

lemma withBlock_inFile (h : tb.offset = tb.file.length) (contents : Slice) (type : UInt8) :
    (⟨⟨tb.offset, contents.length⟩, contents, type⟩ : WrittenBlock).InFile crc (tb.withBlock crc contents type).file := by
  refine ⟨rfl, ?_⟩
  simp only [withBlock, h, drop_left]
  rw [take_of_length_le]
  simp

lemma Good.withBlock (h : Good crc tb) (contents : Slice) (type : UInt8) : Good crc (tb.withBlock crc contents type) where
  appends := by
    intro a ha
    rcases mem_append.1 ha with ha | ha
    · exact h.appends a ha
    · simpa using ha
  offset := by
    simp only [FileBuilder.withBlock, length_append, blockTrailer_length, h.offset]
    omega
  written := by
    intro b hb
    rcases mem_append.1 hb with hb | hb
    · exact (h.written b hb).append _
    · obtain rfl := mem_singleton.1 hb
      exact withBlock_inFile h.offset contents type
  handles := by
    intro x hx
    obtain ⟨b, hb, rfl⟩ := h.handles x hx
    exact ⟨b, mem_append_left _ hb, rfl⟩
  pending := by
    intro hp
    obtain ⟨b, hb, he⟩ := h.pending hp
    exact ⟨b, mem_append_left _ hb, he⟩

/-! ## What a call does -/

section

variable (crc options tb)

def withStored (block : BlockBuilder) : FileBuilder :=
  tb.withBlock crc (options.blockContents block.finish).1 (options.blockContents block.finish).2

end

def nextHandle (options : BuilderOptions) (tb : FileBuilder) (block : BlockBuilder) : BlockHandle :=
  ⟨tb.offset, (options.blockContents block.finish).1.length⟩

lemma writeBlock_of_none (h1 : faults tb.appends.length = none) (h2 : faults (tb.appends.length + 1) = none) (block : BlockBuilder) :
    tb.writeBlock faults crc options block = (tb.withStored crc options block, tb.nextHandle options block) :=
  writeRawBlock_of_none h1 h2 _ _

section

variable (faults crc options tb)

lemma writeBlock_cases (block : BlockBuilder) :
    (tb.writeBlock faults crc options block = (tb.withStored crc options block, tb.nextHandle options block) ∧
    faults tb.appends.length = none ∧ faults (tb.appends.length + 1) = none) ∨
    ((tb.writeBlock faults crc options block).1.ok = false ∧
    ∃ outcomes, (tb.writeBlock faults crc options block).1.appends = tb.appends ++ outcomes ∧ false ∈ outcomes) :=
  writeRawBlock_cases faults crc tb _ _

end

@[simp] lemma withStored_ok (block : BlockBuilder) : (tb.withStored crc options block).ok = true := rfl

lemma Good.withStored (h : Good crc tb) (options : BuilderOptions) (block : BlockBuilder) :
    Good crc (tb.withStored crc options block) := h.withBlock _ _

section

variable (crc options tb)

lemma nextHandle_written (block : BlockBuilder) :
    ∃ b ∈ (tb.withStored crc options block).written, b.handle = tb.nextHandle options block :=
  ⟨_, mem_append_right _ (mem_singleton_self _), rfl⟩

def flushed : FileBuilder :=
  startFilterBlock
    { tb.withStored crc options tb.dataBlock with
      dataBlock := .new
      pendingHandle := tb.nextHandle options tb.dataBlock
      pendingIndexEntry := true }

end

section

variable (faults crc options tb)

lemma flush_cases : tb.flush faults crc options = tb ∨ (tb.ok = true ∧ tb.flush faults crc options = tb.flushed crc options ∧
    faults tb.appends.length = none ∧ faults (tb.appends.length + 1) = none) ∨
    ((tb.flush faults crc options).ok = false ∧ ∃ outcomes,
    (tb.flush faults crc options).appends = tb.appends ++ outcomes ∧ false ∈ outcomes) := by
  unfold flush
  by_cases hok : tb.ok = true
  · rw [if_pos hok]
    by_cases hempty : tb.dataBlock.buffer = []
    · rw [if_pos hempty]
      exact .inl rfl
    · rw [if_neg hempty]
      right
      rcases writeBlock_cases faults crc options tb tb.dataBlock with ⟨heq, h1, h2⟩ | ⟨hfail, houtcomes⟩
      · left
        rw [heq]
        exact ⟨hok, rfl, h1, h2⟩
      · right
        generalize tb.writeBlock faults crc options tb.dataBlock = r at hfail houtcomes
        obtain ⟨tb', handle⟩ := r
        have hneg : ¬ ({ tb' with dataBlock := .new, pendingHandle := handle } : FileBuilder).ok = true := by
          rw [Bool.not_eq_true]
          exact hfail
        dsimp only
        rw [if_neg hneg]
        exact ⟨hfail, houtcomes⟩
  · rw [if_neg hok]
    exact .inl rfl

end

section

variable (faults crc options tb)

lemma add_cases (key value : Slice) : (tb.ok = false ∧ tb.add faults crc options key value = tb) ∨
    (tb.ok = true ∧ (tb.add faults crc options key value = tb.addEntry options key value ∨
    tb.add faults crc options key value = (tb.addEntry options key value).flush faults crc options)) := by
  unfold add
  by_cases hok : tb.ok = true
  · rw [if_pos hok]
    right
    refine ⟨hok, ?_⟩
    dsimp only
    by_cases hsize : options.blockSize ≤ (tb.addEntry options key value).dataBlock.currentSizeEstimate
    · exact .inr (if_pos hsize)
    · exact .inl (if_neg hsize)
  · rw [if_neg hok]
    exact .inl ⟨Bool.eq_false_iff.2 hok, rfl⟩

end

@[simp] lemma addEntry_appends (key value : Slice) : (tb.addEntry options key value).appends = tb.appends := by
  unfold addEntry
  split_ifs <;> rfl

@[simp] lemma addEntry_ok (key value : Slice) : (tb.addEntry options key value).ok = tb.ok := by
  unfold addEntry
  split_ifs <;> rfl

lemma Good.addIndexEntry (h : Good crc tb) (hp : tb.pendingIndexEntry = true) (lastKey : Slice) :
    Good crc { tb with lastKey := lastKey }.addIndexEntry where
  appends := h.appends
  offset := h.offset
  written := h.written
  handles := by
    intro x hx
    rcases mem_append.1 hx with hx | hx
    · exact h.handles x hx
    · obtain rfl := mem_singleton.1 hx
      exact h.pending hp
  pending hp' := by cases hp'

lemma Good.addEntry (h : Good crc tb) (key value : Slice) : Good crc (tb.addEntry options key value) := by
  unfold FileBuilder.addEntry
  split_ifs with hp
  · exact ⟨h.appends, h.offset, h.written, (h.addIndexEntry hp _).handles, fun hp' => by cases hp'⟩
  · exact ⟨h.appends, h.offset, h.written, h.handles, h.pending⟩

lemma Good.flushed (h : Good crc tb) : Good crc (tb.flushed crc options) :=
  let hb := h.withStored options tb.dataBlock
  ⟨hb.appends, hb.offset, hb.written, hb.handles, fun _ => nextHandle_written crc options tb tb.dataBlock⟩

def Sound (crc : Crc32c) (tb : FileBuilder) : Prop := tb.ok = true → Good crc tb

lemma sound_new (crc : Crc32c) (options : BuilderOptions) : Sound crc (new options) := fun _ =>
  { appends := by simp [new, startFilterBlock]
    offset := rfl
    written := by simp [new, startFilterBlock]
    handles := by simp [new, startFilterBlock]
    pending := by simp [new, startFilterBlock] }

lemma Sound.flush (h : Sound crc tb) (faults : Faults) (options : BuilderOptions) :
    Sound crc (tb.flush faults crc options) := by
  intro hok
  rcases flush_cases faults crc options tb with heq | ⟨hok', heq, -⟩ | ⟨hfail, -⟩
  · rw [heq] at hok ⊢
    exact h hok
  · rw [heq]
    exact (h hok').flushed
  · rw [hfail] at hok
    cases hok

lemma Sound.add (h : Sound crc tb) (faults : Faults) (options : BuilderOptions) (key value : Slice) :
    Sound crc (tb.add faults crc options key value) := by
  rcases add_cases faults crc options tb key value with ⟨-, heq⟩ | ⟨hok, heq | heq⟩
  · rw [heq]
    exact h
  · rw [heq]
    exact fun _ => (h hok).addEntry key value
  · rw [heq]
    exact Sound.flush (fun _ => (h hok).addEntry key value) faults options

lemma sound_run (faults : Faults) (crc : Crc32c) (options : BuilderOptions) (calls : List Call) :
    Sound crc (run faults crc options calls) := by
  have hfold : ∀ tb, Sound crc tb → Sound crc (calls.foldl (apply faults crc options) tb) := by
    induction calls with
    | nil => exact fun _ h => h
    | cons c calls ih =>
      intro tb h
      cases c with
      | add key value => exact ih _ (h.add faults options key value)
      | flush => exact ih _ (h.flush faults options)
  exact hfold _ (sound_new crc options)

/-! ## Finishing -/

structure Faithful (crc : Crc32c) (tb : FileBuilder) : Prop where
  appends : ∀ a ∈ tb.appends, a = true
  offset : tb.offset = tb.file.length
  written : ∀ b ∈ tb.written, b.InFile crc tb.file
  handles : ∀ h ∈ tb.handles, ∃ b ∈ tb.written, b.handle = h

lemma Good.faithful (h : Good crc tb) : Faithful crc tb := ⟨h.appends, h.offset, h.written, h.handles⟩

lemma Good.lastIndexEntry (h : Good crc tb) (options : BuilderOptions) : Good crc (tb.lastIndexEntry options) := by
  unfold FileBuilder.lastIndexEntry
  split_ifs with hp
  · exact h.addIndexEntry hp _
  · exact h

lemma Good.writeFooter (h : Good crc tb) {footer : Footer}
    (hmeta : ∃ b ∈ tb.written, b.handle = footer.metaindexHandle) (hindex : ∃ b ∈ tb.written, b.handle = footer.indexHandle)
    (hok : (tb.writeFooter faults footer).ok = true) : Faithful crc (tb.writeFooter faults footer) := by
  unfold FileBuilder.writeFooter at hok ⊢
  cases hf : faults tb.appends.length with
  | some n =>
    rw [append_of_some hf] at hok
    cases hok
  | none =>
    rw [append_of_none hf]
    refine ⟨?_, ?_, fun b hb => (h.written b hb).append _, ?_⟩
    · intro a ha
      rcases mem_append.1 ha with ha | ha
      · exact h.appends a ha
      · simpa using ha
    · show tb.offset + footer.encode.length = (tb.file ++ footer.encode).length
      rw [length_append, h.offset]
    · intro x hx
      rcases mem_append.1 hx with hx | hx
      · exact h.handles x hx
      · rcases mem_cons.1 hx with rfl | hx
        · exact hmeta
        · obtain rfl := mem_singleton.1 hx
          exact hindex

section

variable (crc options tb)

def withMetaindex (filter : Option (Slice × Slice)) : FileBuilder :=
  (tb.withStored crc options (tb.metaindexBlock options filter)).lastIndexEntry options

def withIndex (filter : Option (Slice × Slice)) : FileBuilder :=
  (tb.withMetaindex crc options filter).withStored crc options (tb.withMetaindex crc options filter).indexBlock

def footerOf (filter : Option (Slice × Slice)) : Footer :=
  ⟨tb.nextHandle options (tb.metaindexBlock options filter),
    (tb.withMetaindex crc options filter).nextHandle options (tb.withMetaindex crc options filter).indexBlock⟩

end

section

variable (faults crc options tb)

lemma finishIndex_cases (filter : Option (Slice × Slice)) : (tb.finishIndex faults crc options filter =
    (tb.withIndex crc options filter).writeFooter faults (tb.footerOf crc options filter)) ∨
    (tb.finishIndex faults crc options filter).ok = false := by
  unfold finishIndex
  rcases writeBlock_cases faults crc options tb (tb.metaindexBlock options filter) with ⟨heq, -, -⟩ | ⟨hfail, -⟩
  · rw [heq]
    dsimp only
    rw [if_pos (withStored_ok _)]
    rcases writeBlock_cases faults crc options (tb.withMetaindex crc options filter)
      (tb.withMetaindex crc options filter).indexBlock with ⟨heq', -, -⟩ | ⟨hfail, -⟩
    · rw [withMetaindex] at heq'
      rw [heq']
      exact .inl (if_pos (withStored_ok _))
    · right
      rw [withMetaindex] at hfail
      rw [if_neg (by rw [hfail]; decide)]
      exact hfail
  · right
    dsimp only
    rw [if_neg (by rw [hfail]; decide)]
    exact hfail

end

lemma lastIndexEntry_written (options : BuilderOptions) (tb : FileBuilder) : (tb.lastIndexEntry options).written = tb.written := by
  unfold lastIndexEntry
  split_ifs <;> rfl

lemma Good.finishIndex (h : Good crc tb) (filter : Option (Slice × Slice))
    (hok : (tb.finishIndex faults crc options filter).ok = true) : Faithful crc (tb.finishIndex faults crc options filter) := by
  rcases finishIndex_cases faults crc options tb filter with heq | hfail
  · rw [heq] at hok ⊢
    have hmeta : Good crc (tb.withMetaindex crc options filter) := (h.withStored options _).lastIndexEntry options
    obtain ⟨b, hb, he⟩ := nextHandle_written crc options tb (tb.metaindexBlock options filter)
    rw [← lastIndexEntry_written options] at hb
    exact (hmeta.withStored options _).writeFooter ⟨b, mem_append_left _ hb, he⟩ (nextHandle_written crc options _ _) hok
  · rw [hfail] at hok
    cases hok

end FileBuilder

end RallyDB.Table
