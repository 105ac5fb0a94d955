import CloudBrowser.RelyGuarantee
import CloudBrowser.BrowserProcess
import CloudBrowser.Lifecycle
import CloudBrowser.AgentControl
import CloudBrowser.KeyedTable
import CloudBrowser.RouterSessions
import CloudBrowser.RouterTransitions
import CloudBrowser.RouterExclusive
import CloudBrowser.Base64
import CloudBrowser.GrantCustody
import CloudBrowser.GrantLedger
import CloudBrowser.AuthorizationGate
import CloudBrowser.RotationKept
import CloudBrowser.MintedLogin
import CloudBrowser.IdempotentRuns
import CloudBrowser.LoginRoute
import CloudBrowser.ReplayProtection
import CloudBrowser.LiveSessions
import CloudBrowser.LapsedLease
import CloudBrowser.DiskMemory
import CloudBrowser.FailedPersist
import CloudBrowser.SlotActivation
import CloudBrowser.ControlApi
import CloudBrowser.DefinitiveRejection
import CloudBrowser.LoginCoordinator
import CloudBrowser.GatedCredentials
import CloudBrowser.DeadlineReadings
import CloudBrowser.DeadlineReported
import CloudBrowser.AgentAssembly
import CloudBrowser.RestoredTabs
import CloudBrowser.CompleteIngest
import CloudBrowser.DownloadsKept
import CloudBrowser.LeftoverDownloads
import CloudBrowser.ScannedIngest
import CloudBrowser.RecreatedBrowser
import CloudBrowser.IdentityLinks
import CloudBrowser.PermanentLinks
import CloudBrowser.AnsweredChallenge
import CloudBrowser.FailedRestore
import CloudBrowser.Folders
import CloudBrowser.DownloadStore
import CloudBrowser.StoredNames
import CloudBrowser.DownloadRuns
import CloudBrowser.KeptDownloads
import CloudBrowser.DownloadQuota
import CloudBrowser.DownloadAreas
import CloudBrowser.Latin1
import CloudBrowser.IsolatedOwners
import CloudBrowser.SessionTimers
import CloudBrowser.QueueTurns
import CloudBrowser.QueueOrder
import CloudBrowser.IdempotentCapacity
import CloudBrowser.NonceStore
import CloudBrowser.EdgeAuth
import CloudBrowser.JsonDumps
import CloudBrowser.AgentRelay
import CloudBrowser.JsonPrefix
import CloudBrowser.PageListing
import CloudBrowser.ReopenedTabs
import CloudBrowser.Quoting
import CloudBrowser.PageRequests
import CloudBrowser.AgentRequests
import CloudBrowser.DeliveredActions
import CloudBrowser.PaddedBase64
import CloudBrowser.VaultCrypto
import CloudBrowser.VaultSearch
import CloudBrowser.ControlReplies
import CloudBrowser.LifecycleHistory
import CloudBrowser.CanonicalTabs
import CloudBrowser.DownloadSight
import CloudBrowser.AtomicIngest
import CloudBrowser.ObservedSuccess
import CloudBrowser.AssociatedData
import CloudBrowser.GrantRoundTrip
import CloudBrowser.SurvivingRecords
import CloudBrowser.FilesGateway
import CloudBrowser.ListedDownloads
import CloudBrowser.SlotCommands
import CloudBrowser.SlotInterference
import CloudBrowser.RelayedIdentity
import CloudBrowser.ValidatedNames
import CloudBrowser.DuplicateNames
import CloudBrowser.SingleSignOn
import CloudBrowser.AuthentikStages
import CloudBrowser.Retention
import CloudBrowser.Delimited
import CloudBrowser.ManifestDigest
import CloudBrowser.HeaderTransport
import CloudBrowser.RawWrites
import CloudBrowser.StagedWrites
import CloudBrowser.ListedDigests
import CloudBrowser.ShortReads
import CloudBrowser.WebSockets
import CloudBrowser.SlidingWindows
import CloudBrowser.Partitions
import CloudBrowser.DevToolsSocket
import CloudBrowser.ReceivedFrames
import CloudBrowser.TabEviction
import CloudBrowser.BasicFill
import CloudBrowser.CommandReplies
import CloudBrowser.InstreamScan
