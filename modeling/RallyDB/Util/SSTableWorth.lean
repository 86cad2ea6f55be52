import RallyDB.Util.KMeans

/-!
# Which tables are worth a filter (`util/sstable_worth.cc`, `util/lr.cc`)
-/

namespace RallyDB.Util.Clustering

open List

structure TableStats where
  number : UInt64
  pointQueryTimeAll : UInt64
  historyTime : List (UInt64 × UInt64)
  deriving DecidableEq

structure Cluster where
  centerLevel : UInt64
  centerAccessTime : UInt64
  a : ℚ
  b : ℚ
  deriving DecidableEq

def kClusters : Nat := 7

structure SSTableWorth where
  clusters : List Cluster
  tableToCluster : List (UInt64 × ℤ)
  clusters_length : clusters.length = kClusters
  deriving DecidableEq

inductive Fault where
  | missingRow
  | missingRecord
  | divisionByZero
  | running
  deriving DecidableEq

namespace SSTableWorth

def new : SSTableWorth := ⟨List.replicate kClusters ⟨0, 0, 0, 0⟩, [], rfl⟩

def clusterOf (w : SSTableWorth) (tableId : UInt64) : Option (Option Cluster) :=
  (w.tableToCluster.lookup tableId).map fun clusterIndex =>
    if clusterIndex < 0 then none else w.clusters[clusterIndex.toNat]?

/-! ## Clustering -/

def getFeatures (files : List (List TableStats)) : List (Point 2) :=
  files.zipIdx.flatMap fun (level, i) => level.map fun f => ![UInt64.ofNat i, f.pointQueryTimeAll]

def getTableID (files : List (List TableStats)) : List UInt64 := files.flatMap fun level => level.map TableStats.number

def getIndex (t : KMeans 2) : List UInt64 := t.minIndex.map UInt64.ofInt

def toInt (u : UInt64) : ℤ := (u.toNat : ℤ).bmod (2 ^ 32)

def storeIndices (tableToCluster : List (UInt64 × ℤ)) (tableId clusterId : List UInt64) : List (UInt64 × ℤ) :=
  (tableId.zip clusterId).foldl (fun m p => (p.1, toInt p.2) :: m) tableToCluster

def setCenter (clusterCenter : List (Point 2)) (p : Cluster × Nat) : Cluster :=
  match clusterCenter[p.2]? with
  | some c => { p.1 with centerLevel := c 0, centerAccessTime := c 1 }
  | none => p.1

def rangesExist (data : List (Point 2)) : Bool := (getMinMax data 0).isSome && (getMinMax data 1).isSome

def doOneCluster (rounds : Nat) (centroids : List (Point 2)) (w : SSTableWorth) (data : List (Point 2))
    (tableId : List UInt64) : Except Fault SSTableWorth :=
  if data.isEmpty then .ok w
  else if rangesExist data then
    match KMeans.kmeans data centroids rounds with
    | none => .error .running
    | some kms =>
      .ok
        { clusters := w.clusters.zipIdx.map (setCenter kms.centroids)
          tableToCluster := storeIndices w.tableToCluster tableId (getIndex kms)
          clusters_length := by rw [length_map, length_zipIdx, w.clusters_length] }
  else .error .missingRow

def doCluster (rounds : Nat) (centroids : List (Point 2)) (w : SSTableWorth) (files : List (List TableStats)) :
    Except Fault SSTableWorth :=
  doOneCluster rounds centroids w (getFeatures files) (getTableID files)

/-! ## Averages -/

def takeFile (s : SSTableWorth × List (List TableStats)) (f : TableStats) : SSTableWorth × List (List TableStats) :=
  if (s.1.tableToCluster.lookup f.number).isSome then s
  else ({ s.1 with tableToCluster := (f.number, 0) :: s.1.tableToCluster }, s.2.modify 0 (· ++ [f]))

def takePartOfFiles (w : SSTableWorth) (files : List (List TableStats)) : SSTableWorth × List (List TableStats) :=
  files.flatten.foldl takeFile (w, List.replicate kClusters [])

variable (group : List TableStats)

def longestHistory : List (UInt64 × UInt64) :=
  group.foldl (fun longest f => if longest.length < f.historyTime.length then f.historyTime else longest) []

def scanHistory (s : ℤ × List (UInt64 × UInt64)) (f : TableStats) : ℤ × List (UInt64 × UInt64) :=
  let size := UInt64.ofNat f.historyTime.length
  if UInt64.ofInt s.1 < size then (toInt size, f.historyTime) else s

def scanHistories : ℤ × List (UInt64 × UInt64) :=
  group.foldl scanHistory (0, (group.head?.map TableStats.historyTime).getD [])

def addRecord (d : Nat) (s : UInt64 × UInt64) (f : TableStats) : Option (UInt64 × UInt64) :=
  let index := UInt64.ofNat f.historyTime.length - UInt64.ofNat d - 1
  if index < 0 then some s else (f.historyTime[index.toNat]?).map fun r => (s.1 + r.2, s.2 + 1)

def averageAt (d : Nat) : Except Fault ℚ :=
  match group.foldlM (addRecord d) (0, 0) with
  | none => .error .missingRecord
  | some (sum, number) => if number = 0 then .error .divisionByZero else .ok ((sum / number).toNat : ℚ)

def groupData : Except Fault (List ℚ × List ℚ) := do
  let s := scanHistories group
  let y ← (List.range (s.1 + 1).toNat).reverse.mapM (averageAt group)
  return (s.2.map fun r => (r.1.toNat : ℚ), y)

def doAverage (w : SSTableWorth) (files : List (List TableStats)) :
    Except Fault (SSTableWorth × List (List ℚ × List ℚ)) := do
  let (w, groups) := w.takePartOfFiles files
  let _ ← (groups.filter fun group => !group.isEmpty).mapM groupData
  return (w, [])

def leastSquare (x y : List ℚ) : ℚ × ℚ :=
  let t1 := (x.map fun v => v * v).sum
  let t2 := x.sum
  let t3 := (List.zipWith (· * ·) x y).sum
  let t4 := (y.take x.length).sum
  let size : ℚ := x.length
  ((t3 * size - t2 * t4) / (t1 * size - t2 * t2), (t1 * t4 - t2 * t3) / (t1 * size - t2 * t2))

end SSTableWorth

end RallyDB.Util.Clustering
