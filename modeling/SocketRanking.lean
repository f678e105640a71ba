import SocketRanking.Client.Run
import SocketRanking.Config.Daemon
import SocketRanking.Config.Files
import SocketRanking.Main
import SocketRanking.Service.Api
import SocketRanking.Proofs.Cache.History
import SocketRanking.Proofs.Cache.Placements
import SocketRanking.Proofs.Client.Mirrors
import SocketRanking.Proofs.Client.NodePaths
import SocketRanking.Proofs.Cluster.CoreCounts
import SocketRanking.Proofs.Cluster.ProfileNames
import SocketRanking.Proofs.Health.Streaks
import SocketRanking.Proofs.Service.CacheKeys
import SocketRanking.Proofs.Service.Candidates
import SocketRanking.Proofs.Service.Counters
import SocketRanking.Proofs.Service.FailureStatus
import SocketRanking.Proofs.Service.FiniteScores
import SocketRanking.Proofs.Service.IdleAgreement
import SocketRanking.Proofs.Service.Ineligibility
import SocketRanking.Proofs.Service.Isolation
import SocketRanking.Proofs.Service.PlacementCost
import SocketRanking.Proofs.Service.Precedence
import SocketRanking.Proofs.Service.RowLimits
import SocketRanking.Proofs.Service.SocketOrder
import SocketRanking.Proofs.Service.Staleness
import SocketRanking.Proofs.Service.SweepTimes
import SocketRanking.Proofs.Service.Sweeping
import SocketRanking.Proofs.Service.Transparency
import SocketRanking.Proofs.Service.WinningSocket
import SocketRanking.Proofs.Telemetry.IdenticalSeries
import SocketRanking.Proofs.Telemetry.Instants
import SocketRanking.Proofs.Telemetry.Partition
import SocketRanking.Proofs.Telemetry.Recency
