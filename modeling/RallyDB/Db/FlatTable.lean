import RallyDB.Db.Recovery

/-!
# A table format
-/

namespace RallyDB.Db

open Util Table List MemTable

lemma FlatTable.length_getEntry {e : Entry Slice} {input rest : Slice} (h : getEntry input = some (e, rest)) :
    rest.length < input.length := by
  simp only [getEntry, Option.bind_eq_bind, Option.bind_eq_some_iff] at h
  obtain ⟨⟨key, rest1⟩, hkey, k, -, ⟨value, rest2⟩, hvalue, h⟩ := h
  cases h
  exact (length_getLengthPrefixedSlice hvalue).trans (length_getLengthPrefixedSlice hkey)

def FlatTable.decode (input : Slice) : Option (List (Entry Slice)) :=
  if input = [] then some []
  else
    match _h : getEntry input with
    | none => none
    | some (e, rest) => (decode rest).map (e :: ·)
termination_by input.length
decreasing_by exact length_getEntry _h

lemma FlatTable.decode_encode (es : List (Entry Slice)) (h : ∀ e ∈ es, StorableEntry e) :
    decode (es.flatMap encodeEntry) = some es := by
  induction es with
  | nil =>
    rw [flatMap_nil, decode]
    rfl
  | cons e es ih =>
    obtain ⟨he, hes⟩ := forall_mem_cons.1 h
    have hget := getEntry_encode he (es.flatMap encodeEntry)
    rw [flatMap_cons, decode]
    have hne : encodeEntry e ++ es.flatMap encodeEntry ≠ [] := fun hno => by
      rw [hno] at hget
      exact absurd (length_getEntry hget) (Nat.not_lt_zero _)
    rw [if_neg hne]
    split
    · rename_i hno
      rw [hget] at hno
      cases hno
    · rename_i hsome
      rw [hget] at hsome
      cases hsome
      rw [ih hes]
      rfl

def TableFormat.flat : TableFormat := ⟨fun es => es.flatMap encodeEntry, FlatTable.decode, FlatTable.decode_encode⟩

def Config.sample (entries : Nat) : Config where
  crc := .bitwise
  name := [98]
  name_length := by decide
  format := .flat
  writeBufferSize := entries
  approximateMemoryUsage := List.length
  paranoidChecks := false

end RallyDB.Db
