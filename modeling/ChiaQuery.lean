import ChiaQuery.Library.DistinctKeys
import ChiaQuery.Library.Recorded
import ChiaQuery.Library.GuardedRuns
import ChiaQuery.Library.Projection
import ChiaQuery.Library.InFlight
import ChiaQuery.Library.PutBack
import ChiaQuery.Library.Tally
import ChiaQuery.Library.LowerMedian
import ChiaQuery.Library.KeyedSort
import ChiaQuery.Library.FirstAnswers
import ChiaQuery.Library.StreamLoop
import ChiaQuery.Library.RoundRobin
import ChiaQuery.Library.BoundedChannel
import ChiaQuery.Library.JsonDocuments
import ChiaQuery.Library.JsonFormats
import ChiaQuery.Library.FaultDomains
import ChiaQuery.Library.ListTrees
import ChiaQuery.Library.UnsignedRanges
import ChiaQuery.Types.Error
import ChiaQuery.Types.Records
import ChiaQuery.Types.Hex
import ChiaQuery.Types.Address
import ChiaQuery.Peer.SetAgreement
import ChiaQuery.Peer.PoolEntries
import ChiaQuery.Peer.Frames
import ChiaQuery.Peer.ScalarRead
import ChiaQuery.Peer.SetRead
import ChiaQuery.Peer.SetSoundness
import ChiaQuery.Peer.HonestHistory
import ChiaQuery.Peer.UncreatedCoins
import ChiaQuery.Peer.PuzzleQuery
import ChiaQuery.Peer.Requests
import ChiaQuery.Peer.LocalErrors
import ChiaQuery.Peer.Hosts
import ChiaQuery.Peer.LagEviction
import ChiaQuery.Peer.AnchoredSets
import ChiaQuery.Peer.DialRound
import ChiaQuery.Peer.MostCredible
import ChiaQuery.Peer.CandidateOrder
import ChiaQuery.Peer.Maintenance
import ChiaQuery.Peer.MaintenancePass
import ChiaQuery.Peer.PoolRun
import ChiaQuery.Peer.Admission
import ChiaQuery.Peer.Ejection
import ChiaQuery.Peer.DatedAnswers
import ChiaQuery.Peer.Fanout
import ChiaQuery.Peer.SessionStream
import ChiaQuery.Peer.Isolation
import ChiaQuery.Peer.Delivery
import ChiaQuery.Peer.Conditions
import ChiaQuery.LightClient.Anchoring
import ChiaQuery.LightClient.Cache
import ChiaQuery.LightClient.FrameEffects
import ChiaQuery.LightClient.Subscribing
import ChiaQuery.LightClient.SubscribeRace
import ChiaQuery.LightClient.Rearming
import ChiaQuery.LightClient.ArmedSet
import ChiaQuery.LightClient.CacheReads
import ChiaQuery.LightClient.CacheHistory
import ChiaQuery.LightClient.UpdateEffects
import ChiaQuery.LightClient.LoweredPeak
import ChiaQuery.LightClient.RetainedSlots
import ChiaQuery.LightClient.Reconnecting
import ChiaQuery.LightClient.PagedWalks
import ChiaQuery.LightClient.Provider
import ChiaQuery.LightClient.ClampedReads
import ChiaQuery.LightClient.PagedAnswers
import ChiaQuery.LightClient.RepeatedCoins
import ChiaQuery.Peer.BoundAnswers
import ChiaQuery.LightClient.WithheldSpends
import ChiaQuery.LightClient.DriveLoop
import ChiaQuery.LightClient.Following
import ChiaQuery.LightClient.AppliedFrames
import ChiaQuery.LightClient.FollowedPeak
import ChiaQuery.Router.Ladders
import ChiaQuery.Router.BlockRecords
import ChiaQuery.Router.GradedReads
import ChiaQuery.Router.SetSettlement
import ChiaQuery.Router.ParentIds
import ChiaQuery.Router.BlockchainState
import ChiaQuery.Router.Windows
import ChiaQuery.Router.PushTx
import ChiaQuery.Router.BlockRanges
import ChiaQuery.Registry.Views
import ChiaQuery.Registry.Custody
import ChiaQuery.Registry.Discovery
import ChiaQuery.Registry.QuorumOrder
import ChiaQuery.Registry.Convert
import ChiaQuery.Router.LoweredHeights
import ChiaQuery.Registry.SameClaims
import ChiaQuery.Registry.CanonicalClaims
import ChiaQuery.Registry.ListQuorum
import ChiaQuery.Registry.Conversions
import ChiaQuery.Drift.Shapes
import ChiaQuery.Types.Formats
import ChiaQuery.Coinset.Transport
import ChiaQuery.Coinset.Client
import ChiaQuery.Router.Blocks
import ChiaQuery.Router.HeaderReads
import ChiaQuery.Registry.CoinsetSource
import ChiaQuery.Registry.ChiaQueryProvider
import ChiaQuery.Registry.Fabrics
import ChiaQuery.Drift.Monitor
import ChiaQuery.Library.Turns
import ChiaQuery.Peer.Turns
import ChiaQuery.Registry.Confirmation
import ChiaQuery.LightClient.AskedCoins
import ChiaQuery.LightClient.CacheSize
import ChiaQuery.LightClient.Submission
import ChiaQuery.Peer.HonestPages
import ChiaQuery.Router.HonestPeers
import ChiaQuery.Router.SetTruth
import ChiaQuery.Registry.FabricLists
