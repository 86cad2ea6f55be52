import RallyDB.Db.Lemmas.LogReader
import RallyDB.Db.Lemmas.LogWriter

/-!
# What is read back from a log
-/

namespace RallyDB.Db.Log

open Util Table List Writer

variable (crc : Crc32c)

def recovered (contents : Slice) : List Slice × List (Nat × Error) :=
  let r := (Reader.new ⟨contents, []⟩ true 0).readAll crc
  (r.2, r.1.reports)

lemma recovered_records (contents : Slice) : (recovered crc contents).1 = (replay crc contents 0 none).reduceOption :=
  (Reader.readAll_eq_replay (Reader.at_new contents)).1

lemma recovered_reports {contents : Slice} (h : none ∉ replay crc contents 0 none) : (recovered crc contents).2 = [] :=
  (Reader.readAll_eq_replay (Reader.at_new contents)).2 h

structure Written (base : Nat) (w : Writer) (rs : List (Slice × Nat)) : Prop where
  sound : w.dest.faults = []
  synced : w.Synced
  records : Records crc w.dest.contents base rs w.size

variable {crc} {base : Nat} {w : Writer} {rs : List (Slice × Nat)}

lemma written_new : Written crc 0 (new ⟨[], []⟩) [] := ⟨rfl, synced_new, .nil 0⟩

lemma written_reopen (p : Slice) : Written crc p.length (reopen ⟨p, []⟩ p.length) [] :=
  ⟨rfl, synced_reopen _, .nil _⟩

lemma Written.addRecord (h : Written crc base w rs) (record : Slice) :
    Written crc base (w.addRecord crc record).1 (rs ++ [(record, (w.addRecord crc record).1.size)]) := by
  obtain ⟨hok, hsound⟩ := addFragments_of_sound crc true record h.sound
  obtain ⟨hsynced, hgrows, xs, hchain, hfragments⟩ :=
    addFragments_added h.synced (h.synced.pads_of_sound h.sound) hok
  exact ⟨hsound, hsynced, (h.records.mono hgrows).append (.cons hchain hfragments (.nil _))⟩

lemma Written.reopen (h : Written crc base w rs) : Written crc base (reopen w.dest w.size) rs :=
  ⟨h.sound, synced_reopen _, h.records⟩

lemma Written.replay_eq (h : Written crc 0 w rs) {p : Slice} (hp : List.IsPrefix p w.dest.contents) :
    replay crc p 0 none = (completeIn rs p.length).map some := by
  rw [replay_records h.records hp]
  split_ifs
  · rw [replay_of_length_le hp.length_le, append_nil]
  · exact append_nil _

lemma reduceOption_map_some {α : Type*} (l : List α) : (l.map some).reduceOption = l := by
  rw [List.reduceOption, filterMap_map]
  exact filterMap_some

lemma Written.recovered_eq (h : Written crc 0 w rs) {p : Slice} (hp : List.IsPrefix p w.dest.contents) :
    recovered crc p = (completeIn rs p.length, []) := by
  have hreplay := h.replay_eq hp
  refine Prod.ext ?_ (recovered_reports crc ?_)
  · rw [recovered_records, hreplay, reduceOption_map_some]
  · rw [hreplay]
    simp

end RallyDB.Db.Log
