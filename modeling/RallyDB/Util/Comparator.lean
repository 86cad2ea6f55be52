import RallyDB.Util.Coding

/-!
# The bytewise comparator (`util/comparator.cc`)
-/

namespace RallyDB.Util

open List

instance instLinearOrderUInt8 : LinearOrder UInt8 where
  le_refl := UInt8.le_refl
  le_trans _ _ _ := UInt8.le_trans
  le_antisymm _ _ := UInt8.le_antisymm
  le_total := UInt8.le_total
  lt_iff_le_not_ge a b := by
    rw [UInt8.not_le]
    exact ⟨fun h => ⟨UInt8.le_of_lt h, h⟩, And.right⟩
  toDecidableLE := inferInstance

def bytewiseCompare : Slice → Slice → Ordering
  | [], [] => .eq
  | [], _ :: _ => .lt
  | _ :: _, [] => .gt
  | a :: s, b :: t => if a < b then .lt else if b < a then .gt else bytewiseCompare s t

variable {s t : Slice}

lemma bytewiseCompare_spec (s t : Slice) :
    (bytewiseCompare s t = .lt ↔ s < t) ∧ (bytewiseCompare s t = .eq ↔ s = t) := by
  induction s generalizing t with
  | nil => cases t <;> simp [bytewiseCompare]
  | cons a s ih =>
    cases t with
    | nil => simp [bytewiseCompare]
    | cons b t =>
      rw [bytewiseCompare, cons_lt_cons_iff]
      rcases lt_trichotomy a b with h | rfl | h
      · simp [h, h.ne]
      · simp [ih]
      · simp [h, h.not_gt, h.ne']

lemma bytewiseCompare_lt_iff : bytewiseCompare s t = .lt ↔ s < t := (bytewiseCompare_spec s t).1

lemma bytewiseCompare_eq_iff : bytewiseCompare s t = .eq ↔ s = t := (bytewiseCompare_spec s t).2

def commonLength : Slice → Slice → Nat
  | a :: s, b :: t => if a = b then commonLength s t + 1 else 0
  | _, _ => 0

lemma commonLength_le_left (s t : Slice) : commonLength s t ≤ s.length := by
  fun_induction commonLength s t with
  | case1 a s t ih => simpa using ih
  | case2 a s b t h | case3 s t h => exact Nat.zero_le _

lemma commonLength_le_right (s t : Slice) : commonLength s t ≤ t.length := by
  fun_induction commonLength s t with
  | case1 a s t ih => simpa using ih
  | case2 a s b t h | case3 s t h => exact Nat.zero_le _

lemma take_commonLength (s t : Slice) : s.take (commonLength s t) = t.take (commonLength s t) := by
  fun_induction commonLength s t with
  | case1 a s t ih => simpa using ih
  | case2 a s b t h => simp
  | case3 s t h => simp

def bytewiseFindShortestSeparator (start limit : Slice) : Slice :=
  let diffIndex := commonLength start limit
  if min start.length limit.length ≤ diffIndex then start
  else
    let diffByte := start.getD diffIndex 0
    if diffByte < 0xff ∧ diffByte.toNat + 1 < (limit.getD diffIndex 0).toNat then
      start.take diffIndex ++ [diffByte + 1]
    else start

def bytewiseFindShortSuccessor : Slice → Slice
  | [] => []
  | byte :: rest => if byte ≠ 0xff then [byte + 1] else byte :: bytewiseFindShortSuccessor rest

lemma append_lt_append_left (p : Slice) : p ++ s < p ++ t ↔ s < t := by
  induction p with
  | nil => rfl
  | cons a p ih => simp [ih]

lemma lt_add_one_of_lt_max {b : UInt8} (h : b < 0xff) : b < b + 1 ∧ (b + 1).toNat = b.toNat + 1 := by
  have hb : b.toNat < 255 := UInt8.lt_iff_toNat_lt.1 h
  have hadd : (b + 1).toNat = b.toNat + 1 := by
    rw [UInt8.toNat_add]
    exact Nat.mod_eq_of_lt (Nat.add_lt_of_lt_sub hb)
  exact ⟨UInt8.lt_iff_toNat_lt.2 (by omega), hadd⟩

lemma bytewiseFindShortestSeparator_spec (start limit : Slice) : bytewiseFindShortestSeparator start limit = start ∨
    start < bytewiseFindShortestSeparator start limit ∧ bytewiseFindShortestSeparator start limit < limit := by
  unfold bytewiseFindShortestSeparator
  dsimp only
  split_ifs with hmin hdiff
  · exact .inl rfl
  · right
    have hs : commonLength start limit < start.length := by omega
    have hl : commonLength start limit < limit.length := by omega
    obtain ⟨hlt, hnat⟩ := lt_add_one_of_lt_max hdiff.1
    have hstart : start = start.take (commonLength start limit) ++
        (start.getD (commonLength start limit) 0 :: start.drop (commonLength start limit + 1)) := by
      rw [getD_eq_getElem?_getD, getElem?_eq_getElem hs, Option.getD_some, ← drop_eq_getElem_cons hs, take_append_drop]
    have hlimit : limit = start.take (commonLength start limit) ++
        (limit.getD (commonLength start limit) 0 :: limit.drop (commonLength start limit + 1)) := by
      rw [take_commonLength, getD_eq_getElem?_getD, getElem?_eq_getElem hl, Option.getD_some,
        ← drop_eq_getElem_cons hl, take_append_drop]
    constructor
    · nth_rewrite 1 [hstart]
      rw [append_lt_append_left, cons_lt_cons_iff]
      exact .inl hlt
    · nth_rewrite 3 [hlimit]
      rw [append_lt_append_left, cons_lt_cons_iff]
      exact .inl (UInt8.lt_iff_toNat_lt.2 (by omega))
  · exact .inl rfl

end RallyDB.Util
