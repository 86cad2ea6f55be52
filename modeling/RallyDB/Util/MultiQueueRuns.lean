import RallyDB.Lib.Machine
import RallyDB.Table.Lemmas.Units
import RallyDB.Util.MultiQueue

/-!
# Runs of the multi queue
-/

namespace RallyDB.Util.MultiQueue

open Table

inductive Action where
  | insert (key : Slice) (reader : FilterBlockReader) (file : RandomAccessFile)
  | lookup (key : Slice)
  | updateHandle (io : Nat → RandomAccessFile) (h blockOffset : Nat) (key : Slice)
  | doAdjustment (io : Nat → RandomAccessFile) (h sn : Nat)
  | release (h : Nat)
  | goBackToInitFilter (file : RandomAccessFile) (h : Nat)
  | erase (key : Slice)

def AllReadable (crc : Crc32c) (io : Nat → RandomAccessFile) (mq : MultiQueue) : Prop :=
  ∀ p ∈ mq.handles, p.2.reader.Readable crc (io p.1)

instance (crc : Crc32c) (io : Nat → RandomAccessFile) (mq : MultiQueue) : Decidable (mq.AllReadable crc io) :=
  inferInstanceAs (Decidable (∀ p ∈ mq.handles, _))

def Enabled (crc : Crc32c) (mq : MultiQueue) : Action → Prop
  | .insert key reader file => mq.lookup key = none ∧ reader.Fresh ∧ reader.Readable crc file
  | .lookup _ => True
  | .updateHandle io h _ _ => (mq.value h).isSome ∧ mq.AllReadable crc io
  | .doAdjustment io h _ => (mq.value h).isSome ∧ mq.AllReadable crc io
  | .release h => (mq.value h).isSome
  | .goBackToInitFilter file h => (mq.value h).isSome ∧ ∀ r ∈ mq.value h, r.Readable crc file
  | .erase _ => True

instance (crc : Crc32c) (mq : MultiQueue) (a : Action) : Decidable (mq.Enabled crc a) := by
  cases a <;> unfold Enabled <;> infer_instance

variable (worth : WorthAdjusting) (crc : Crc32c) (policy : FilterPolicy)

def apply (mq : MultiQueue) : Action → MultiQueue
  | .insert key reader file => mq.insert crc file key reader
  | .lookup _ => mq
  | .updateHandle io h blockOffset key => (mq.updateHandle worth crc policy io h blockOffset key).1
  | .doAdjustment io h sn => mq.doAdjustment worth crc io h sn
  | .release h => mq.release h
  | .goBackToInitFilter file h => mq.goBackToInitFilter crc file h
  | .erase key => mq.erase key

def step (mq : MultiQueue) (a : Action) : Option MultiQueue :=
  if mq.Enabled crc a then some (mq.apply worth crc policy a) else none

end RallyDB.Util.MultiQueue
