import RallyDB.Db.AccessTimes
import RallyDB.Db.BatchTheorems
import RallyDB.Db.BudgetChain
import RallyDB.Db.DurabilityTheorems
import RallyDB.Db.EditTheorems
import RallyDB.Db.EntryCount
import RallyDB.Db.FileNameTheorems
import RallyDB.Db.IteratorTheorems
import RallyDB.Db.LogDamage
import RallyDB.Db.LogOffset
import RallyDB.Db.ManifestFailures
import RallyDB.Db.OffsetTheorems
import RallyDB.Db.OverlapTheorems
import RallyDB.Db.RecoveryTheorems
import RallyDB.Db.Repair
import RallyDB.Db.SafeInputs
import RallyDB.Db.SeparatorTheorems
import RallyDB.Db.SequenceTheorems
import RallyDB.Db.WriteTheorems
import RallyDB.Table.BlockRead
import RallyDB.Table.BlockSafety
import RallyDB.Table.Hotness
import RallyDB.Table.MetaEntries
import RallyDB.Table.ReaderTheorems
import RallyDB.Table.TwoLevelIterator
import RallyDB.Table.WriteErrors
import RallyDB.Util.AdjustmentFaults
import RallyDB.Util.CacheTheorems
import RallyDB.Util.ClusterAverages
import RallyDB.Util.CodingTheorems
import RallyDB.Util.ContainerBudget
import RallyDB.Util.DirectRead
import RallyDB.Util.FilterMetadata
import RallyDB.Util.FirstOpens
import RallyDB.Util.KMeansTheorems
import RallyDB.Util.NearestCluster
import RallyDB.Util.SchedulerTheorems
import RallyDB.Util.SharedReader
import RallyDB.Util.TimerTheorems
import RallyDB.Util.TimesCollecterTheorems
