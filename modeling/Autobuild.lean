import Autobuild.Lib.Checked
import Autobuild.Lib.Json
import Autobuild.Lib.JsText
import Autobuild.Lib.ObjectMap
import Autobuild.Lib.Worklist
import Autobuild.Ontology
import Autobuild.Config
import Autobuild.Events.Catalog
import Autobuild.Events.Compatibility
import Autobuild.Events.Payloads
import Autobuild.Events.Harvest
import Autobuild.Events.Repository
import Autobuild.Kernel.BuildState
import Autobuild.Kernel.ChangePresence
import Autobuild.Kernel.Converge
import Autobuild.Kernel.LeafRestackState
import Autobuild.Kernel.Incremental
import Autobuild.Kernel.IntegrationState
import Autobuild.Kernel.KeyOrder
import Autobuild.Kernel.NodeRewrites
import Autobuild.Kernel.ReducerKeyOrder
import Autobuild.Kernel.StoredKeyOrder
import Autobuild.Kernel.LandingState
import Autobuild.Kernel.LogIndex
import Autobuild.Kernel.NodeIssueLinks
import Autobuild.Kernel.NodePolling
import Autobuild.Kernel.NodeRestackLedger
import Autobuild.Kernel.NodeRestackState
import Autobuild.Kernel.PublicationRetry
import Autobuild.Kernel.ReadDeferrals
import Autobuild.Kernel.ReadDeferralRules
import Autobuild.Kernel.ReplayRetention
import Autobuild.Kernel.Reducer
import Autobuild.Kernel.ReducerBatches
import Autobuild.Kernel.ReducerFrame
import Autobuild.Kernel.Stall
import Autobuild.Kernel.PersistenceChains
import Autobuild.Kernel.VerifyStageState
import Autobuild.Kernel.VerifyStages
import Autobuild.Kernel.Engine
import Autobuild.Kernel.LogFacts
import Autobuild.Kernel.LogIndexReference
import Autobuild.Kernel.MemberCancellations
import Autobuild.Kernel.FinalizeGate
import Autobuild.Store.RepoTick
import Autobuild.Store.RepoLease
import Autobuild.Store.AssetSnapshots
import Autobuild.Store.SnapshotCopies
import Autobuild.Store.SnapshotChecks
import Autobuild.Store.SnapshotManifestSize
import Autobuild.Store.SnapshotReads
import Autobuild.Store.ReducerValues
import Autobuild.Store.ValueTransparency
import Autobuild.Store.SeedWindow
import Autobuild.Store.BuildLog
import Autobuild.Store.BuildIntegrity
import Autobuild.Kernel.Docket
import Autobuild.Kernel.PauseProtocol
import Autobuild.Kernel.CancelledMembers
import Autobuild.Kernel.RaisedOnce
import Autobuild.Kernel.LoopAgreement
import Autobuild.Events.Dispatch
import Autobuild.Lib.Best
import Autobuild.Kernel.DispatchStoredOrder
import Autobuild.Kernel.DispatchProtocol
import Autobuild.Kernel.Harvest
import Autobuild.Kernel.HarvestSteps
import Autobuild.Kernel.HarvestCustody
import Autobuild.Kernel.HarvestClaims
import Autobuild.Kernel.HarvestRuns
import Autobuild.Kernel.HarvestControl
import Autobuild.Kernel.HarvestReadyScan
import Autobuild.Processes.DependencyVerdicts
import Autobuild.Processes.DispatchBudgetGate
import Autobuild.Store.RepoStateEvents
import Autobuild.Lib.ParentMap
import Autobuild.Ports.TicketTree
import Autobuild.Ports.TicketFile
import Autobuild.Ports.TicketForest
import Autobuild.Ports.TicketProjection
import Autobuild.Kernel.TargetObservation
import Autobuild.Processes.RepoViewMarkers
import Autobuild.Kernel.NodeFacts
import Autobuild.Kernel.NodeParentFacts
import Autobuild.Processes.ParentMoves
import Autobuild.Processes.PreparationOwnership
import Autobuild.Ports.TicketImport
import Autobuild.Ports.ImportPlan
import Autobuild.Ports.ImportResume
import Autobuild.Processes.PublicationState
import Autobuild.Kernel.IssueLinkUnion
import Autobuild.Kernel.TicketMigrations
import Autobuild.Store.Digest
import Autobuild.Lib.Redaction
import Autobuild.Store.AccountRedaction
import Autobuild.Lib.Utf8
import Autobuild.Store.StreamBounds
import Autobuild.Store.TicketAssets
import Autobuild.Kernel.BuildIdentity
import Autobuild.Store.SessionWriter
import Autobuild.Kernel.RemoteHandoffs
import Autobuild.Store.SessionReducer
import Autobuild.Kernel.LeafRestackLedger
import Autobuild.Lib.Coalesce
import Autobuild.Lib.CycleSearch
import Autobuild.Kernel.AutoMergeDeferral
import Autobuild.Kernel.PrAttachments
import Autobuild.Kernel.GitTips
import Autobuild.Processes.TickPublication
import Autobuild.Processes.RepoViewWindows
import Autobuild.Processes.TicketScanSchedule
import Autobuild.Processes.ExecutionNoProgress
import Autobuild.Store.EventReads
import Autobuild.Store.PlaceholderRefs
import Autobuild.Kernel.StageCycle
import Autobuild.Kernel.StageBarrier
import Autobuild.Kernel.UnitRules
import Autobuild.Kernel.Announcements
import Autobuild.Kernel.CrashResume
import Autobuild.Kernel.PhaseOrder
import Autobuild.Lib.Folds
import Autobuild.Kernel.TargetLineage
import Autobuild.Kernel.LandingConsent
import Autobuild.Store.StreamCloses
import Autobuild.Lib.Steps
import Autobuild.Store.StreamLocks
import Autobuild.Store.Subscriptions
import Autobuild.Lib.JsonStrings
import Autobuild.Ports.ImportStates
import Autobuild.Kernel.DispatchInherited
