import RallyDB.Db.Lemmas.WriteBatch
import RallyDB.Db.WriteQueue

/-!
# What is in a group
-/

namespace RallyDB.Db

open List Writer

structure Group.Joins (g : Group) (queue : List Writer) : Prop where
  pos : 0 < g.writers
  le : g.writers ≤ queue.length
  holds : ∃ seq, g.batch.Holds seq ((queue.take g.writers).flatMap Writer.ops)
  count_lt : ((queue.take g.writers).flatMap Writer.ops).length < 2 ^ 31

lemma length_le_byteSize {b : WriteBatch} {seq : Nat} {ops : List (BatchOp Slice)} (h : b.Holds seq ops) :
    ops.length ≤ b.byteSize := by
  have hflat : ops.length ≤ (ops.flatMap BatchOp.encode).length := by
    clear h
    induction ops with
    | nil => exact Nat.zero_le _
    | cons op ops ih =>
      have hop : 0 < op.encode.length := by cases op <;> exact Nat.succ_pos _
      rw [flatMap_cons, length_append, length_cons]
      omega
  rw [h.byteSize]
  omega

variable {g : Group} {queue rest : List Writer} {firstSync : Bool} {maxSize size : Nat}

lemma take_flatMap_succ {w : Writer} (h : queue.drop g.writers = w :: rest) :
    (queue.take (g.writers + 1)).flatMap ops = (queue.take g.writers).flatMap ops ++ w.ops := by
  have hget : queue[g.writers]? = some w := by
    rw [← head?_drop, h]
    rfl
  rw [take_add_one, hget, flatMap_append]
  simp

lemma groupLoop_joins (hg : g.Joins queue) (hdrop : queue.drop g.writers = rest) (hmax : maxSize ≤ 2 ^ 20)
    (hsize : ((queue.take g.writers).flatMap ops).length ≤ size) :
    (groupLoop firstSync maxSize rest size g .clear).Joins queue := by
  induction rest generalizing g size with
  | nil => exact hg
  | cons w rest ih =>
    have hops := take_flatMap_succ hdrop
    have hlt : g.writers < queue.length := by
      have := congrArg List.length hdrop
      rw [length_drop, length_cons] at this
      omega
    have hdrop' : queue.drop (g.writers + 1) = rest := by
      rw [← drop_drop, hdrop]
      rfl
    obtain ⟨seq, hholds⟩ := hg.holds
    unfold groupLoop
    by_cases hsync : (w.sync && !firstSync) = true
    · rw [if_pos hsync]
      exact hg
    · rw [if_neg hsync]
      cases hbatch : w.batch with
      | none =>
        have hnone : w.ops = [] := by rw [ops, hbatch]
        rw [hnone, append_nil] at hops
        refine ih ⟨Nat.succ_pos _, hlt, ⟨seq, ?_⟩, ?_⟩ hdrop' ?_
        · rw [hops]
          exact hholds
        · rw [hops]
          exact hg.count_lt
        · rw [hops]
          exact hsize
      | some b =>
        have hsome : w.ops = b.ops := by rw [ops, hbatch]
        have hb := length_le_byteSize b.holds
        dsimp only
        split_ifs with hbig
        · exact hg
        · have hsum : ((queue.take g.writers).flatMap ops).length + b.ops.length < 2 ^ 31 := by omega
          rw [hsome] at hops
          refine ih ⟨Nat.succ_pos _, hlt, ⟨seq, ?_⟩, ?_⟩ hdrop' ?_
          · rw [hops]
            exact hholds.append b.holds (by omega)
          · rw [hops, length_append]
            exact hsum
          · rw [hops, length_append]
            omega
        · have hsum : ((queue.take g.writers).flatMap ops).length + b.ops.length < 2 ^ 31 := by omega
          rw [hsome] at hops
          refine ih ⟨Nat.succ_pos _, hlt, ⟨0, ?_⟩, ?_⟩ hdrop' ?_
          · rw [hops]
            refine (WriteBatch.holds_clear.append hholds ?_).append b.holds ?_
            · rw [length_nil]
              omega
            · rw [nil_append]
              omega
          · rw [hops, length_append]
            exact hsum
          · rw [hops, length_append]
            omega

lemma buildBatchGroup_joins {w : Writer} {b : Batch} (hw : w.batch = some b) (ws : List Writer) :
    (buildBatchGroup .clear w.sync b.writeBatch ws).Joins (w :: ws) := by
  have hops : ((w :: ws).take 1).flatMap ops = b.ops := by
    simp [ops, hw]
  unfold buildBatchGroup
  refine groupLoop_joins ⟨Nat.one_pos, ?_, ⟨0, ?_⟩, ?_⟩ rfl ?_ ?_
  · exact Nat.succ_le_succ (Nat.zero_le _)
  · rw [hops]
    exact b.holds
  · rw [hops]
    exact b.count_lt
  · split_ifs with h
    · have : 128 <<< 10 = 2 ^ 17 := by decide
      omega
    · decide
  · rw [hops]
    exact length_le_byteSize b.holds

end RallyDB.Db
