import PTunes.Proofs.Rime.Neighbor
import PTunes.Proofs.Rime.NeighborTable
import PTunes.Proofs.Rime.NeighborEtx
import PTunes.Proofs.Rime.ParentChoice
import PTunes.Proofs.Rime.ForwardingOrder
import PTunes.Proofs.Rime.Metric
import PTunes.Proofs.Rime.Relunicast
import PTunes.Proofs.Controller.History
import PTunes.Proofs.Controller.Paths
import PTunes.Proofs.Controller.PerformanceTrigger
import PTunes.Proofs.Optimizer.Fallback
import PTunes.Proofs.Optimizer.Lifetime
import PTunes.Proofs.Glossy.Versioning
import PTunes.Proofs.Glossy.FloodSync
import PTunes.Proofs.Mac.XmacAck
import PTunes.Proofs.Mac.LppNewCompletion
import PTunes.Proofs.Mac.LppService
import PTunes.Proofs.Glossy.TimeStamps
import PTunes.Proofs.Glossy.ReceiverTiming
import PTunes.Proofs.Mac.XmacWakeUp
import PTunes.Proofs.Glossy.CpuEnergy
import PTunes.Proofs.Mac.RadioEnergy
import PTunes.Proofs.Mac.Reconfiguration
import PTunes.Proofs.Mac.Dissemination
import PTunes.Proofs.Controller.AlignedLists
import PTunes.Proofs.Controller.Purge
import PTunes.Proofs.Controller.SerialReader
import PTunes.Proofs.Glossy.ConfigParser
import PTunes.Proofs.Glossy.ConfigRoundTrip
import PTunes.Core.Process
import PTunes.Glossy.LineDelivery
import PTunes.Proofs.Glossy.LineDelivery
import PTunes.Lib.Bits
import PTunes.Proofs.Rime.ChameleonBitopt
import PTunes.Proofs.Rime.CollectHeader
import PTunes.Proofs.Rime.HeaderAccess
import PTunes.Proofs.Rime.ScheduleSend
import PTunes.Rime.BufferOwners
import PTunes.Proofs.Rime.DuplicateSuppression
import PTunes.Proofs.Rime.SampleIntegrity
import PTunes.Proofs.Rime.BufferOwners
import PTunes.Proofs.Rime.BufferSteps
import PTunes.Lib.SerialNumber
import PTunes.Proofs.Core.LongTimer
import PTunes.Proofs.Core.EnergestReads
import PTunes.Proofs.Mac.BroadcastEnergy
import PTunes.Mac.RadioFlag
import PTunes.Proofs.Mac.RadioFlag
import PTunes.Mac.LinkQuality
import PTunes.Proofs.Mac.LinkQuality
import PTunes.Mac.LppProbe
import PTunes.Proofs.Mac.LppProbe
import PTunes.Proofs.Rime.PoliteAnnouncement
import PTunes.Lib.Attempts
import PTunes.Proofs.Optimizer.Retransmissions
import PTunes.Lib.Forest
import PTunes.Optimizer.Flow
import PTunes.Proofs.Optimizer.Flow
import PTunes.Proofs.Optimizer.Reliability
import PTunes.Glossy.SlotLength
import PTunes.Lib.Tally
import PTunes.Proofs.Glossy.SlotLength
import PTunes.Rime.FtspRoot
import PTunes.Proofs.Rime.FtspRoot
import PTunes.Controller.InitialOptimizationTrigger
import PTunes.Proofs.Controller.InitialOptimizationTrigger
import PTunes.Controller.TimedTrigger
import PTunes.Proofs.Controller.TimedTrigger
import PTunes.Controller.UnifiedDataRateTrigger
import PTunes.Proofs.Controller.UnifiedDataRateTrigger
import PTunes.Optimizer.TimeFractions
import PTunes.Proofs.Optimizer.AttemptCosts
import PTunes.Proofs.Optimizer.TimeFractions
import PTunes.Lib.Chain
import PTunes.Core.List
import PTunes.Proofs.Core.List
import PTunes.Core.Etimer
import PTunes.Proofs.Core.EtimerList
import PTunes.Proofs.Core.Etimer
import PTunes.Proofs.Core.EtimerPolling
import PTunes.Proofs.Core.EtimerReturn
import PTunes.Lib.Ring
import PTunes.Core.Ringbuf
import PTunes.Proofs.Core.Ringbuf
import PTunes.Core.Uart1
import PTunes.Proofs.Core.Uart1
import PTunes.Core.Ctimer
import PTunes.Proofs.Core.Ctimer
import PTunes.Glossy.FloodPackets
import PTunes.Proofs.Glossy.FloodPackets
import PTunes.Core.Kernel
import PTunes.Proofs.Core.KernelStack
import PTunes.Proofs.Core.Kernel
import PTunes.Proofs.Core.KernelCurrent
import PTunes.Proofs.Core.KernelBroadcast
import PTunes.Rime.CollectNetwork
import PTunes.Proofs.Rime.CollectNetwork
import PTunes.Lib.Slice
import PTunes.Rime.PacketbufCalls
import PTunes.Proofs.Rime.PacketbufCalls
import PTunes.Controller.AdaptiveTimedTrigger
import PTunes.Proofs.Controller.AdaptiveTimedTrigger
import PTunes.Controller.HistoryRun
import PTunes.Proofs.Controller.HistoryRun
