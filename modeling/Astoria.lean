import Astoria.Library.LevelSearch.Outcome
import Astoria.BgpSim.BestPaths
import Astoria.BgpSim.Worker
import Astoria.BgpSim.Server
import Astoria.BgpSim.ArrayBounds
import Astoria.BgpSim.GraphReuse
import Astoria.TorClient.DrawLaw
import Astoria.TorClient.PairSelection
import Astoria.TorClient.RecordedFree
import Astoria.TorClient.CircuitArrays
import Astoria.BgpSim.GraphEditing
import Astoria.BgpSim.GraphFile
import Astoria.BgpSim.Weights
import Astoria.BgpSim.Precomputation
import Astoria.CloudLibrary.MiniDestinationText
import Astoria.TorClient.Pqueue
import Astoria.TorClient.OnionCells
import Astoria.TorClient.OnionQueue
import Astoria.TorClient.FlowControl
import Astoria.TorClient.HonestFlow
import Astoria.TorClient.OnionLayers
import Astoria.TorClient.ResolvedCells
import Astoria.TorClient.CircuitmuxFairness
import Astoria.TorClient.PolicyAnswers
import Astoria.TorClient.RendTokens
import Astoria.TorClient.BufferQueues
import Astoria.TorClient.CircidRuns
import Astoria.TorClient.MuxCompare
import Astoria.TorClient.SchedulerRuns
import Astoria.TorClient.ChannelClosing
import Astoria.TorClient.ChannelFlush
import Astoria.TorClient.ChannelQueueRuns
import Astoria.TorClient.EwmaRuns
import Astoria.TorClient.AddressmapRuns
import Astoria.TorClient.DirvoteAddRuns
import Astoria.TorClient.BwWeightsWritten
import Astoria.TorClient.ConsensusMajority
import Astoria.TorClient.ConsensusReading
import Astoria.TorClient.PolicySummaryExact
import Astoria.TorClient.Replaycache
import Astoria.TorClient.VotingSchedule
import Astoria.TorClient.LinkCells
import Astoria.TorClient.OptimisticData
import Astoria.TorClient.CpathHops
import Astoria.TorClient.ChannelRegistry
import Astoria.TorClient.TokenizerRange
import Astoria.TorClient.RoutersetNodes
import Astoria.TorClient.ConfigLines
import Astoria.BgpSim.TieBreaks
import Astoria.TorClient.SolveLp
import Astoria.Library.HashChains
import Astoria.TorClient.SplitIpaddr
import Astoria.TorClient.Whois
import Astoria.TorClient.CircuitReuse
import Astoria.BgpSim.PathOfLength
import Astoria.TorClient.GuardFlags
import Astoria.TorClient.CircuitIdRuns
import Astoria.TorClient.ConsensusMethod
import Astoria.TorClient.ConsensusParamsList
import Astoria.TorClient.BandwidthTotals
import Astoria.TorClient.AddSignatures
import Astoria.TorClient.NodeChoice
import Astoria.TorClient.ExitChoice
import Astoria.TorClient.SelectionLoop
import Astoria.TorClient.AddressmapRewrite
import Astoria.TorClient.MemoryPressure
import Astoria.TorClient.RejectStar
import Astoria.TorClient.WeightedChoice
