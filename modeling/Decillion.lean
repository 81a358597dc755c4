import Decillion.ByteText
import Decillion.Base64Text
import Decillion.JsonValues
import Decillion.JsonText
import Decillion.JsonStrings
import Decillion.JsonRoundTrip
import Decillion.MerkleTrees
import Decillion.Primitives
import Decillion.StorageReceipts
import Decillion.LinkedLogs
import Decillion.VaultReceipts
import Decillion.ReceiptChains
import Decillion.ReceiptRaces
import Decillion.Programs
import Decillion.HostSystem
import Decillion.HostRules
import Decillion.TextFiles
import Decillion.ShardManifests
import Decillion.PyErrors
import Decillion.ShardVault
import Decillion.VaultReads
import Decillion.Blocks
import Decillion.VaultWrites
import Decillion.VaultRuns
import Decillion.StorageEngine
import Decillion.StorageBinding
import Decillion.StorageGateway
import Decillion.Dictionaries
import Decillion.AccessRequests
import Decillion.ReplayWindows
import Decillion.TelepathMessages
import Decillion.TelepathReplays
import Decillion.ManifestRoots
import Decillion.PyValues
import Decillion.RawManifests
import Decillion.EditedVaults
import Decillion.Interleavings
import Decillion.SharedHosts
import Decillion.SharedVaults
import Decillion.VaultProcesses
import Decillion.Executions
import Decillion.HostExecutions
import Decillion.VaultExecutions
import Decillion.ManifestRaces
import Decillion.ConfigRaces
import Decillion.Trees
import Decillion.TreeSystem
import Decillion.TreeRules
import Decillion.WeightVaults
import Decillion.WeightRules
import Decillion.MerklePaths
import Decillion.AccessProofs
import Decillion.NonceTables
import Decillion.ShardCaches
import Decillion.SigningKeys
import Decillion.DamagedShards
import Decillion.PathJoins
import Decillion.ManifestPaths
import Decillion.AclObjects
import Decillion.JsonCharacters
import Decillion.RaisingPrograms
import Decillion.TelepathSessions
import Decillion.TelepathFrames
import Decillion.TelepathNodes
import Decillion.TelepathAnswers
import Decillion.TelepathPulls
import Decillion.TelepathExchanges
import Decillion.TelepathServing
import Decillion.SessionSteps
import Decillion.ServedSessions
import Decillion.RevokedSessions
import Decillion.ShardCoherence
import Decillion.FrameStreams
import Decillion.AclSpellings
import Decillion.Evaluations
import Decillion.WeightEvaluations
import Decillion.CapacityChecks
import Decillion.PulledFiles
import Decillion.PullRuns
import Decillion.ScriptedPeers
import Decillion.PullResults
import Decillion.PullTargets
import Decillion.PoisonedPulls
import Decillion.PeerTables
import Decillion.RamBroadcasts
import Decillion.OpenFiles
import Decillion.PullRaces
import Decillion.SnapshotPaths
import Decillion.LicensePolicies
import Decillion.DamagedObjects
import Decillion.IsoTimes
import Decillion.OwnerListings
import Decillion.PyCollections
import Decillion.VonageReceipts
import Decillion.PinnedKeys
import Decillion.BuddyProofs
import Decillion.BuddyGates
import Decillion.ContractFixtures
import Decillion.TreeFrames
import Decillion.SnapshotManifests
import Decillion.MirrorSteps
import Decillion.MirrorRules
import Decillion.RepeatedMirrors
import Decillion.SnapshotFiles
import Decillion.MirrorRaces
import Decillion.FailedMirrors
import Decillion.BrowserValues
import Decillion.BrowserJson
import Decillion.BrowserRoundTrip
import Decillion.BrowserReceipts
import Decillion.StorageContexts
import Decillion.BrowserStores
import Decillion.EditedSnapshots
import Decillion.VaultQuotas
import Decillion.JsonObjects
import Decillion.BuddyBundles
import Decillion.BuddyDatabase
import Decillion.BuddyRecords
import Decillion.BuddyRaces
import Decillion.VaultService
import Decillion.Completions
import Decillion.ServiceAnswers
import Decillion.ServiceRaces
import Decillion.VaultLabels
import Decillion.SessionAnswers
import Decillion.CarriedPulls
import Decillion.WatchedNetworks
import Decillion.RelayedPulls
import Decillion.WatchedPulls
import Decillion.MessageSizes
import Decillion.DirectPulls
import Decillion.TransferLimits
import Decillion.AnsweredPulls
import Decillion.BuddyCommits
import Decillion.BuddyStatuses
import Decillion.ReceiptQueries
