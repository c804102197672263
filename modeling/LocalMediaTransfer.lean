import LocalMediaTransfer.Server.Inventory.NameConflict
import LocalMediaTransfer.Server.Inventory.PreflightCandidate
import LocalMediaTransfer.Server.Inventory.Reconcile
import LocalMediaTransfer.Server.Inventory.WriterRules
import LocalMediaTransfer.Server.Inventory.WriterSight
import LocalMediaTransfer.Server.Inventory.WriterSpecs
import LocalMediaTransfer.Server.Inventory.InventoryTruth
import LocalMediaTransfer.Server.ChunkRequest
import LocalMediaTransfer.Server.DeviceNames
import LocalMediaTransfer.Server.FileWriter.ExactlyOnce
import LocalMediaTransfer.Server.FileWriter.Accounting
import LocalMediaTransfer.Server.FileWriter.Bookkeeping
import LocalMediaTransfer.Server.FileWriter.Finalization
import LocalMediaTransfer.Server.FileWriter.Binding
import LocalMediaTransfer.Server.FileWriter.Cleanup
import LocalMediaTransfer.Server.FileWriter.Delivery
import LocalMediaTransfer.Server.Security.NativeSession.Authorization
import LocalMediaTransfer.Server.Security.NativeSession.TwoParty
import LocalMediaTransfer.Server.Security.NativeSession.Capacity
import LocalMediaTransfer.Server.Ipc.PipeSession
import LocalMediaTransfer.Server.Ipc.PipeCoalescing
import LocalMediaTransfer.Server.FileWriter.WriteExclusion
import LocalMediaTransfer.Server.FileWriter.MappedWindow
import LocalMediaTransfer.Gui.PairingApproval
import LocalMediaTransfer.Ios.Upload.UploadCancel
import LocalMediaTransfer.Ios.Upload.OutgoingDuplicates
import LocalMediaTransfer.Ios.Upload.PreflightDecisions
import LocalMediaTransfer.Server.Security.PairingPersistence
import LocalMediaTransfer.Server.Security.TrustFile
import LocalMediaTransfer.Server.Http.BrowserAccess
import LocalMediaTransfer.Gui.OwnershipAgreement
import LocalMediaTransfer.WindowsClient.ManifestAgreement
import LocalMediaTransfer.Gui.HistoryAgreement
import LocalMediaTransfer.Ios.Upload.CancelSession
import LocalMediaTransfer.Ios.Upload.UploadCompletion
import LocalMediaTransfer.Ios.Upload.UploadAccounts
import LocalMediaTransfer.Ios.Upload.SummaryConservation
import LocalMediaTransfer.Ios.Upload.OutgoingKept
import LocalMediaTransfer.Ios.Upload.QueueWakeups
import LocalMediaTransfer.Ios.Diagnostics.DiagnosticAggregates
import LocalMediaTransfer.Browser.QueueAccounting
import LocalMediaTransfer.Browser.ProgressAccounting
import LocalMediaTransfer.Ios.Transfer.FatalTotals
import LocalMediaTransfer.Ios.Media.SelectAll
import LocalMediaTransfer.Gui.LiveRates
import LocalMediaTransfer.Gui.ConnectionState
import LocalMediaTransfer.Gui.StopFinality
import LocalMediaTransfer.Ios.Diagnostics.ReportWrites
import LocalMediaTransfer.Server.Http.FilenameHeader
import LocalMediaTransfer.Ios.Media.DragSelection
import LocalMediaTransfer.Ios.Native.PreparationSessionStore
import LocalMediaTransfer.Ios.Native.PreparationAccounting
import LocalMediaTransfer.Ios.Native.PreparationIndexes
import LocalMediaTransfer.Ios.Native.HashBinding
import LocalMediaTransfer.Ios.Native.HashPool
import LocalMediaTransfer.WindowsClient.DiscoveryClient
import LocalMediaTransfer.WindowsClient.DiscoveryTargets
import LocalMediaTransfer.WindowsClient.BoundedWorkerPool
import LocalMediaTransfer.Server.Http.PreflightRoutes
import LocalMediaTransfer.WindowsClient.DuplicatePreflight
import LocalMediaTransfer.WindowsClient.PreflightAgreement
import LocalMediaTransfer.WindowsClient.SendTransfer
import LocalMediaTransfer.Server.Security.PairingTranscript
import LocalMediaTransfer.Clients.ChunkPlans
import LocalMediaTransfer.Server.FileWriter.NumberedNames
import LocalMediaTransfer.Ios.Upload.ThroughputTracker
import LocalMediaTransfer.Ios.Upload.RetryPolicy
