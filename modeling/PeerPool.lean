import PeerPool.Address.Basic
import PeerPool.Address.Read
import PeerPool.Address.Write
import PeerPool.Agent.Basic
import PeerPool.Agent.Loops
import PeerPool.Agent.PeeredNodes
import PeerPool.Agent.Start
import PeerPool.Cluster.Client
import PeerPool.Cluster.Encoding
import PeerPool.Cluster.Error
import PeerPool.Cluster.Identity
import PeerPool.Cluster.Object
import PeerPool.Config.Basic
import PeerPool.Config.Decode
import PeerPool.Config.Edit
import PeerPool.Config.Encode
import PeerPool.Dict
import PeerPool.Hash.Sha256
import PeerPool.Http.Backend
import PeerPool.Http.Basic
import PeerPool.Json.Basic
import PeerPool.Json.MergePatch
import PeerPool.Json.Raw
import PeerPool.Json.Write
import PeerPool.Main
import PeerPool.Pass.Basic
import PeerPool.Pass.Call
import PeerPool.Pass.Document
import PeerPool.Pass.Nodes
import PeerPool.Pass.Services
import PeerPool.Program
import PeerPool.Program.Trace
import PeerPool.Provider.Client
import PeerPool.Provider.Device
import PeerPool.Provider.Error
import PeerPool.Provider.Reservation
import PeerPool.Selector.Basic
import PeerPool.Selector.Read
import PeerPool.Settings.Basic
import PeerPool.Settings.File
import PeerPool.Settings.Location
import PeerPool.Settings.Sources
import PeerPool.Simulation.Clock
import PeerPool.Simulation.Feed
import PeerPool.Simulation.Memory
import PeerPool.Simulation.Server
import PeerPool.Text.Base64
import PeerPool.Text.Decimal
import PeerPool.Text.Literal
import PeerPool.Text.Number
import PeerPool.Text.Split
import PeerPool.Text.Unprintable
import PeerPool.Url.Basic
import PeerPool.Url.Host
import PeerPool.Url.Percent
import PeerPool.Url.Punycode
import PeerPool.Url.Read
import PeerPool.Yaml.Block
import PeerPool.Yaml.Character
import PeerPool.Yaml.Decode
import PeerPool.Yaml.Document
import PeerPool.Yaml.Node.Basic
import PeerPool.Yaml.Node.Parser
import PeerPool.Yaml.Scalar
import PeerPool.Yaml.Text
import PeerPool.Yaml.Token.Basic
import PeerPool.Yaml.Token.BlockScalar
import PeerPool.Yaml.Token.FlowScalar
import PeerPool.Yaml.Token.Lexer
import PeerPool.Yaml.Token.Mark
import PeerPool.Proofs.AddressRoundTrip
import PeerPool.Proofs.ConfigRoundTrip
import PeerPool.Proofs.Coverage
import PeerPool.Proofs.Deletions
import PeerPool.Proofs.Drifts
import PeerPool.Proofs.FixedPoint
import PeerPool.Proofs.Holdings
import PeerPool.Proofs.Interleavings
import PeerPool.Proofs.Interruptions
import PeerPool.Proofs.LoneRuns
import PeerPool.Proofs.Numerals
import PeerPool.Proofs.Overtaking
import PeerPool.Proofs.PassCalls
import PeerPool.Proofs.PassDocument
import PeerPool.Proofs.PassLogic
import PeerPool.Proofs.PassPeers
import PeerPool.Proofs.PassPools
import PeerPool.Proofs.PassServices
import PeerPool.Proofs.PeerEdits
import PeerPool.Proofs.PeersSynchronized
import PeerPool.Proofs.PoolEdits
import PeerPool.Proofs.ReservedOnce
import PeerPool.Proofs.Resumption
import PeerPool.Proofs.SiteEffects
import PeerPool.Proofs.Sites
import PeerPool.Proofs.Synchronized
import PeerPool.Proofs.TextPieces
import PeerPool.Proofs.LabelNames
import PeerPool.Proofs.SelectorTerms
import PeerPool.Proofs.SelectorGrammar
import PeerPool.Proofs.SelectorRoundTrip
import PeerPool.Proofs.YamlBlock
import PeerPool.Proofs.YamlCharacters
import PeerPool.Proofs.YamlDecoding
import PeerPool.Proofs.YamlDouble
import PeerPool.Proofs.YamlEncoding
import PeerPool.Proofs.YamlLexer
import PeerPool.Proofs.YamlLines
import PeerPool.Proofs.YamlLiteral
import PeerPool.Proofs.YamlPlain
import PeerPool.Proofs.YamlScalars
import PeerPool.Proofs.YamlSingle
import PeerPool.Proofs.YamlTree
import PeerPool.Proofs.UniqueEntries
import PeerPool.Proofs.NodeEdits
import PeerPool.Proofs.SilentPasses
import PeerPool.Proofs.WrittenOnce
import PeerPool.Proofs.DisturbedPasses
import PeerPool.Proofs.Exclusion
import PeerPool.Proofs.LostUpdates
import PeerPool.Proofs.GraftedEdits
import PeerPool.Proofs.SeparateWorlds
import PeerPool.Proofs.NodeRounds
import PeerPool.Proofs.HandedOver
import PeerPool.Proofs.SkippedUpdates
import PeerPool.Proofs.PoolRemovals
import PeerPool.Proofs.Removals
import PeerPool.Proofs.StrandedAddresses
import PeerPool.Proofs.CanonicalAddresses
import PeerPool.Proofs.Unmapping
import PeerPool.Proofs.AddressSources
import PeerPool.Proofs.ReleasedAddresses
import PeerPool.Proofs.StaleCopies
import PeerPool.Proofs.IndependentPasses
import PeerPool.Proofs.UnseenDocuments
import PeerPool.Proofs.InPlaceEdits
import PeerPool.Proofs.Additions
import PeerPool.Proofs.RepeatedAdditions
import PeerPool.Proofs.Restoration
import PeerPool.Proofs.PartialRemovals
import PeerPool.Proofs.FailedReservations
import PeerPool.Proofs.AddedPeers
import PeerPool.Proofs.RemovedPeers
import PeerPool.Proofs.RefusedBatches
import PeerPool.Proofs.SettledPeers
import PeerPool.Proofs.TrackedNodes
import PeerPool.Proofs.ServiceTags
import PeerPool.Proofs.Distinct
import PeerPool.Proofs.RestoredPools
import PeerPool.Proofs.TruthfulEdits
import PeerPool.Proofs.YamlReading
import PeerPool.Proofs.StrictDocuments
import PeerPool.Proofs.JsonText
import PeerPool.Proofs.AddressGrammar
import PeerPool.Proofs.ReservationRoundTrip
import PeerPool.Proofs.BoundedNumbers
import PeerPool.Proofs.SettingSources
import PeerPool.Proofs.LoggedPasswords
import PeerPool.Proofs.LocatorPaths
import PeerPool.Proofs.RequestPaths
import PeerPool.Proofs.OutdatedBatches
import PeerPool.Proofs.SelectorPieces
import PeerPool.Proofs.FirstOccurrences
import PeerPool.Proofs.MergePatches
import PeerPool.Proofs.SharedConfigMaps
