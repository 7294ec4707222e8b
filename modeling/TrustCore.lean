import TrustCore.Utf
import TrustCore.Sha256
import TrustCore.Numbers
import TrustCore.Json
import TrustCore.JsonRoundTrip
import TrustCore.Columns
import TrustCore.AuditChain
import TrustCore.AuditLog
import TrustCore.PlainTexts
import TrustCore.History
import TrustCore.HistoryRuns
import TrustCore.HistoryTombstones
import TrustCore.ArchiveFormat
import TrustCore.ImportPlan
import TrustCore.ImportReferences
import TrustCore.ImportExecutor
import TrustCore.ImportOrder
import TrustCore.ObjectStorage
import TrustCore.ImportResume
import TrustCore.ObjectIngest
import TrustCore.IngestRoutes
import TrustCore.RevisionParents
import TrustCore.StableSort
import TrustCore.ImportActions
import TrustCore.ImportDependencies
import TrustCore.ArchiveVerify
import TrustCore.ArchiveAssemble
import TrustCore.ArchiveBinding
import TrustCore.ArchiveLineage
import TrustCore.ArchiveManifest
import TrustCore.ArchiveRoundTrip
import TrustCore.EntityIds
import TrustCore.ImportMapping
import TrustCore.Outlines
import TrustCore.IngestRecords
import TrustCore.IngestSteps
import TrustCore.IngestOutline
import TrustCore.IngestInterleavings
import TrustCore.IngestReplay
import TrustCore.IngestRecovery
import TrustCore.Policy
import TrustCore.PolicyIsolation
import TrustCore.Outbox
import TrustCore.OutboxLeases
import TrustCore.OutboxAttempts
import TrustCore.AppStorage
import TrustCore.AppStorageRuns
import TrustCore.KeyedMaps
import TrustCore.AppStorageCutover
import TrustCore.StorageRouter
import TrustCore.AppStorageSummaries
import TrustCore.Methods
import TrustCore.AppStorageCommands
import TrustCore.PostgresAppStorage
import TrustCore.AppStorageHoldings
import TrustCore.AppStorageReads
import TrustCore.AppStorageWrites
import TrustCore.AppStorageSaves
import TrustCore.AppStorageLinks
import TrustCore.AppStorageRefinement
import TrustCore.BindingRefinement
import TrustCore.AppStorageDurability
import TrustCore.DownloadAccess
import TrustCore.S3Storage
import TrustCore.Multipart
import TrustCore.MemoryStorage
import TrustCore.S3Multipart
import TrustCore.MultipartRuns
import TrustCore.PartUploads
import TrustCore.CompletionRetry
import TrustCore.SchemaPackages
import TrustCore.SchemaVersions
import TrustCore.SchemaRegistry
import TrustCore.SchemaValidation
import TrustCore.CanonicalForms
import TrustCore.Verification
import TrustCore.PayloadHashes
import TrustCore.ChainIdentity
import TrustCore.AuditReadback
import TrustCore.ComposedIds
import TrustCore.BlobStates
import TrustCore.Sessions
import TrustCore.PolicyAssignments
import TrustCore.ArchiveContainer
import TrustCore.ExportEvents
import TrustCore.ImportPlanIds
import TrustCore.ImportPlanColumn
import TrustCore.ImportPlanning
import TrustCore.SwiftAgreement
import TrustCore.OutboxHandlers
import TrustCore.LineageChains
import TrustCore.ImportPlanBinding
import TrustCore.ImportReplanning
import TrustCore.ImportCommits
import TrustCore.JsonTexts
import TrustCore.ImportTotality
import TrustCore.ManifestChecks
import TrustCore.VerifierTotality
import TrustCore.ManifestSignature
import TrustCore.ArchiveSigning
import TrustCore.RevisionTrees
import TrustCore.ScopeNarrowing
import TrustCore.PayloadConformance
import TrustCore.PublicationIsolation
import TrustCore.BindingRollback
import TrustCore.QuarantineScan
import TrustCore.ScanRetries
import TrustCore.Promotion
import TrustCore.PartAssembly
import TrustCore.ReorderedKeys
import TrustCore.ArchiveDeterminism
import TrustCore.UploadCompletion
import TrustCore.UploadRetries
import TrustCore.CanonicalTexts
import TrustCore.ScanInterleavings
import TrustCore.ArchiveViewer
import TrustCore.ArchiveExport
import TrustCore.ArchiveViewerAgreement
import TrustCore.Identity
import TrustCore.IdentityRuns
import TrustCore.LoginRoundTrip
