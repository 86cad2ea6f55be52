import RallyDB.Lib.Repeat

/-!
# Clustering (`util/k_means.h`, `KMEANS<uint64_t>`)
-/

namespace RallyDB.Util

abbrev Point (d : Nat) := Fin d → UInt64

variable {d : Nat}

def kMaxDist : Nat := 2147483647

def addAll {α : Type*} (f : α → UInt64) (l : List α) : UInt64 := l.foldl (fun sum a => sum + f a) 0

def distEclud (v1 v2 : Point d) : UInt64 := addAll (fun i => (v1 i - v2 i) * (v1 i - v2 i)) (List.finRange d)

def widen (idx : Fin d) (range : UInt64 × UInt64) (row : Point d) : UInt64 × UInt64 :=
  if row idx < range.1 then (row idx, range.2)
  else if row idx > range.2 then (range.1, row idx)
  else range

variable (dataSet : List (Point d))

def getMinMax (idx : Fin d) : Option (UInt64 × UInt64) :=
  match dataSet with
  | row0 :: row1 :: rows =>
    some (rows.foldl (widen idx) (if row0 idx > row1 idx then (row1 idx, row0 idx) else (row0 idx, row1 idx)))
  | _ => none

structure RandCent (dataSet : List (Point d)) (k : Nat) (centroids : List (Point d)) : Prop where
  length_eq : centroids.length = k
  between : ∀ c ∈ centroids, ∀ idx min max, getMinMax dataSet idx = some (min, max) → min ≤ c idx ∧ c idx ≤ max

/-! ## The loop -/

structure KMeans (d : Nat) where
  centroids : List (Point d)
  minIndex : List ℤ

def nearestLoop (row : Point d) : List (Point d) → Nat → ℤ × Nat → ℤ × Nat
  | [], _, nearest => nearest
  | c :: rest, j, (minIndex, minDist) =>
    let distJI := (distEclud c row).toNat
    nearestLoop row rest (j + 1) (if distJI < minDist then (↑j, distJI) else (minIndex, minDist))

def nearest (centroids : List (Point d)) (row : Point d) : ℤ := (nearestLoop row centroids 0 (-1, kMaxDist)).1

def membersOf (minIndex : List ℤ) (cent : Nat) : List (Point d) :=
  ((dataSet.zip minIndex).filter fun p => p.2 = (cent : ℤ)).map Prod.fst

def meanOf (members : List (Point d)) : Point d := fun i =>
  let cnt := members.length
  if cnt ≠ 0 then addAll (· i) members / UInt64.ofNat cnt else addAll (· i) members

def updateCentroids (minIndex : List ℤ) (k : Nat) : List (Point d) :=
  (List.range k).map fun cent => meanOf (membersOf dataSet minIndex cent)

namespace KMeans

def start (dataSet centroids : List (Point d)) : KMeans d := ⟨centroids, dataSet.map fun _ => -1⟩

def round (dataSet : List (Point d)) (s : KMeans d) : KMeans d :=
  let minIndex := dataSet.map (nearest s.centroids)
  ⟨updateCentroids dataSet minIndex s.centroids.length, minIndex⟩

def unchanged (s s' : KMeans d) : Bool := s.minIndex = s'.minIndex

def kmeans (dataSet centroids : List (Point d)) (rounds : Nat) : Option (KMeans d) :=
  Lib.repeatUntil (round dataSet) unchanged rounds (start dataSet centroids)

def after (dataSet centroids : List (Point d)) (n : Nat) : KMeans d := (round dataSet)^[n] (start dataSet centroids)

end KMeans

end RallyDB.Util
