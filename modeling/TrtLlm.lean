import TrtLlm.Adp.RankCap
import TrtLlm.Adp.WaitingQueue
import TrtLlm.Capacity.Admission
import TrtLlm.Disagg.RequestEnds
import TrtLlm.Executor.AnswerRuns
import TrtLlm.Executor.IntervalSet
import TrtLlm.Executor.Participants
import TrtLlm.Executor.PausedStream
import TrtLlm.Executor.RankAgreement
import TrtLlm.FairProgress
import TrtLlm.GemmaReasoning
import TrtLlm.Kv.AttentionWindow
import TrtLlm.Kv.LookupResults
import TrtLlm.Kv.PublishedTokens
import TrtLlm.KvTransfer.BlockPairs
import TrtLlm.KvTransfer.FreedPages
import TrtLlm.KvTransfer.Promotion
import TrtLlm.MicroBatchProgress
import TrtLlm.MoeReplication
import TrtLlm.Mtp.WorkerRuns
import TrtLlm.Peft.Bookkeeping
import TrtLlm.Peft.Eviction
import TrtLlm.Py.BlockAlignment
import TrtLlm.Py.CapacityAgreement
import TrtLlm.Py.PipelineTermination
import TrtLlm.Py.SchedulerV2Lists
import TrtLlm.Result.Streaming
import TrtLlm.Serve.KvCacheAware
import TrtLlm.Serve.RouterLoads
import TrtLlm.Suffix.PoolSound
import TrtLlm.Transceiver.SenderSettled
import TrtLlm.Transfer.Pairing
import TrtLlm.V2.EvictionController
import TrtLlm.V2.PrefixMatch
import TrtLlm.V2.ScratchIndices
import TrtLlm.V2.ScratchSafety
