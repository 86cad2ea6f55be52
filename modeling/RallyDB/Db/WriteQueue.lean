import RallyDB.Db.WriteBatch

/-!
# The queue of writers (`DBImpl::Writer`, `DBImpl::BuildBatchGroup`)
-/

namespace RallyDB.Db

structure Writer where
  id : Nat
  batch : Option Batch
  sync : Bool

def Writer.ops (w : Writer) : List (BatchOp Slice) :=
  match w.batch with
  | none => []
  | some b => b.ops

structure Group where
  writers : Nat
  batch : WriteBatch
  usesTmp : Bool

def groupLoop (firstSync : Bool) (maxSize : Nat) : List Writer → Nat → Group → WriteBatch → Group
  | [], _, g, _ => g
  | w :: ws, size, g, tmp =>
    -- a write that is to be synced is not left to a leader that does not sync
    if w.sync && !firstSync then g
    else
      match w.batch with
      | none => groupLoop firstSync maxSize ws size { g with writers := g.writers + 1 } tmp
      | some b =>
        let size := size + b.writeBatch.byteSize
        if maxSize < size then g
        else
          let result := if g.usesTmp then g.batch else tmp.append g.batch
          groupLoop firstSync maxSize ws size
            { writers := g.writers + 1, batch := result.append b.writeBatch, usesTmp := true } tmp

def buildBatchGroup (tmp : WriteBatch) (firstSync : Bool) (first : WriteBatch) (rest : List Writer) : Group :=
  let size := first.byteSize
  let maxSize := if size ≤ 128 <<< 10 then size + 128 <<< 10 else 1 <<< 20
  groupLoop firstSync maxSize rest size { writers := 1, batch := first, usesTmp := false } tmp

end RallyDB.Db
