import LMCache.L1Manager.Durability
import LMCache.StorageControllers.AdapterRuns
import LMCache.MemoryManagement.HeapRuns
import LMCache.MemoryAllocators.PageLayouts
import LMCache.MemoryAllocators.PagedRuns
import LMCache.RawBlock.CheckpointRuns
import LMCache.RawBlock.RecoveryRuns
import LMCache.Vllm.LockAccounts
import LMCache.Vllm.FinishedStores
import LMCache.Multiprocess.HitMismatch
import LMCache.Coordinator.GateStreams
import LMCache.Coordinator.GateBans
import LMCache.Coordinator.UsageAgreement
import LMCache.Coordinator.BlendRebuild
import LMCache.Coordinator.BlendRecall
import LMCache.Native.FoldRanked
import LMCache.Native.BitmapObservers
import LMCache.L1Manager.EventReplay
import LMCache.StorageControllers.PrefetchOrder
import LMCache.Coordinator.EvictionController
import LMCache.L2Adapters.SerdeWrapper
import LMCache.L2Adapters.DaxMigration
import LMCache.L2Adapters.NativeConnector
import LMCache.L2Adapters.KeyCodec
import LMCache.Vllm.PackedTokens
import LMCache.RawBlock.LockRuns
import LMCache.Multiprocess.KvRanks
import LMCache.Multiprocess.SparseMatches
import LMCache.Multiprocess.ChunkSize
import LMCache.EvictionPolicy.SaltOrders
