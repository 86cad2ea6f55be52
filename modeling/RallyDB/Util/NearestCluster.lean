import RallyDB.Lib.FirstLeast
import RallyDB.Lib.Rounding
import RallyDB.Util.SSTableWorth

/-!
# The cluster of a new table (`util/sstable_worth.cc`)
-/

namespace RallyDB.Util.Clustering

open List Real

variable (level accessTime : UInt64) (cluster : Cluster)

namespace SSTableWorth

variable {w : SSTableWorth} {l t : UInt64} {c c' : Cluster}

section

variable (l t c)

end

end SSTableWorth

end RallyDB.Util.Clustering
