import RatatoskrVault.Lib.Runs
import RatatoskrVault.Lib.Sequential
import RatatoskrVault.Lib.Table
import RatatoskrVault.Lib.ReadCommitted
import RatatoskrVault.Core.TargetState
import RatatoskrVault.Core.Delivery
import RatatoskrVault.Core.Snapshot
import RatatoskrVault.Core.Retention
import RatatoskrVault.Core.Selection
import RatatoskrVault.Blobstore.Local
import RatatoskrVault.Schema.Tables
import RatatoskrVault.Schema.Guards
import RatatoskrVault.Persistence.Transition
import RatatoskrVault.Retention.Worker
import RatatoskrVault.Retention.Capture
import RatatoskrVault.Retention.System
import RatatoskrVault.Retention.WorkerSteps
import RatatoskrVault.Retention.Completion
import RatatoskrVault.Schema.Evolution
import RatatoskrVault.Lib.Locking
import RatatoskrVault.Persistence.TransitionSteps
import RatatoskrVault.Retention.CaptureSteps
import RatatoskrVault.Retention.Locks
import RatatoskrVault.Retention.Orphans
import RatatoskrVault.Retention.Retirement
import RatatoskrVault.Retention.Exclusion
import RatatoskrVault.Retention.Grace
import RatatoskrVault.Retention.Pins
import RatatoskrVault.Retention.Retries
import RatatoskrVault.Retention.Bytes
import RatatoskrVault.Verification.Artifact
import RatatoskrVault.Retention.Chains
import RatatoskrVault.Retention.Depth
import RatatoskrVault.Policy.System
import RatatoskrVault.Mirror.Admission
import RatatoskrVault.Mirror.Lifecycle
import RatatoskrVault.Persistence.Wiki
import RatatoskrVault.Vault.System
import RatatoskrVault.Policy.Steps
import RatatoskrVault.Mirror.Quota
import RatatoskrVault.Mirror.Steps
import RatatoskrVault.Vault.Steps
import RatatoskrVault.Vault.Serial
import RatatoskrVault.Vault.Recorded
import RatatoskrVault.Vault.Terminal
import RatatoskrVault.Vault.Budget
import RatatoskrVault.Vault.Checked
import RatatoskrVault.Lib.Outline
import RatatoskrVault.Vault.Rest
import RatatoskrVault.Vault.Placed
import RatatoskrVault.Vault.PlacedSteps
import RatatoskrVault.Vault.Workable
import RatatoskrVault.Vault.Evidence
import RatatoskrVault.Vault.Pinned
import RatatoskrVault.Lib.Keys
import RatatoskrVault.Lib.Rely
import RatatoskrVault.Vault.Tombstones
import RatatoskrVault.Lib.Solo
import RatatoskrVault.Vault.Reactivation
import RatatoskrVault.Verification.Refs
import RatatoskrVault.Verification.Drill
import RatatoskrVault.Vault.Described
import RatatoskrVault.Lib.Tags
import RatatoskrVault.Retention.Started
import RatatoskrVault.Replication.Tables
import RatatoskrVault.Replication.Worker
import RatatoskrVault.Replication.System
import RatatoskrVault.Replication.Queues
import RatatoskrVault.Replication.Steps
import RatatoskrVault.Replication.Deletion
import RatatoskrVault.Replication.Retired
import RatatoskrVault.Replication.Truthful
import RatatoskrVault.Replication.Objects
import RatatoskrVault.Replication.Placements
import RatatoskrVault.Replication.Aligned
import RatatoskrVault.Verification.Durable
import RatatoskrVault.Verification.Reports
import RatatoskrVault.Verification.ReplicaDrill
import RatatoskrVault.Blobstore.Publication
import RatatoskrVault.Vault.Convergence
import RatatoskrVault.Vault.Ingestion
import RatatoskrVault.Vault.Wikis
import RatatoskrVault.Persistence.OutboxRelay
import RatatoskrVault.Policy.Relay
import RatatoskrVault.Policy.RelaySteps
import RatatoskrVault.Policy.Relayed
import RatatoskrVault.Lib.Paging
import RatatoskrVault.Lib.Sorting
import RatatoskrVault.Retention.Audit
import RatatoskrVault.Lib.Written
import RatatoskrVault.Retention.Evaluation
import RatatoskrVault.Vault.Authorized
import RatatoskrVault.Retention.Ownership
import RatatoskrVault.Lib.Lines
import RatatoskrVault.Gitrunner.Runner
import RatatoskrVault.Mirror.Verdict
import RatatoskrVault.Vault.Verdicts
import RatatoskrVault.Vault.Observed
import RatatoskrVault.Lib.Asks
import RatatoskrVault.Blobstore.Replica
import RatatoskrVault.Blobstore.ReplicaDeletion
import RatatoskrVault.Blobstore.ReplicaUpload
import RatatoskrVault.Blobstore.MultipartParts
import RatatoskrVault.Replication.ObjectKeys
import RatatoskrVault.Core.Hex
import RatatoskrVault.Lib.Walk
import RatatoskrVault.Core.Manifest
import RatatoskrVault.Core.ManifestChain
import RatatoskrVault.Core.ManifestSigning
import RatatoskrVault.Lib.Greedy
import RatatoskrVault.Verification.Schedule
import RatatoskrVault.Verification.Partition
import RatatoskrVault.Verification.AbsentFirst
import RatatoskrVault.Replication.Backlog
import RatatoskrVault.Verification.RefAgreement
import RatatoskrVault.Vault.Boundary
import RatatoskrVault.Vault.Enrollment
import RatatoskrVault.Vault.Redelivery
import RatatoskrVault.Lib.FileTree
import RatatoskrVault.Retention.MirrorDeletion
import RatatoskrVault.Lib.Sums
import RatatoskrVault.Persistence.LfsRecords
import RatatoskrVault.Lib.FileCalls
import RatatoskrVault.Gitrunner.LfsRunner
import RatatoskrVault.Mirror.LfsCollection
import RatatoskrVault.Mirror.LfsPublished
import RatatoskrVault.Mirror.RunDirectory
import RatatoskrVault.Mirror.Collected
import RatatoskrVault.Lib.Calendar
import RatatoskrVault.Mirror.CivilDate
import RatatoskrVault.Gitrunner.CredentialFile
import RatatoskrVault.Gitrunner.SourceUrl
import RatatoskrVault.Lib.PathText
import RatatoskrVault.Gitrunner.Confined
import RatatoskrVault.Core.Config
import RatatoskrVault.Vault.Configured
import RatatoskrVault.Persistence.DigestCodecs
import RatatoskrVault.Gitrunner.Capture
import RatatoskrVault.Lib.Delimited
import RatatoskrVault.Verification.CanonicalStreams
import RatatoskrVault.Lib.Utf8
import RatatoskrVault.Gitrunner.Excerpt
import RatatoskrVault.Lib.Replacing
import RatatoskrVault.Gitrunner.Redaction
import RatatoskrVault.Lib.Accounts
import RatatoskrVault.Verification.Evidence
import RatatoskrVault.Verification.Passes
import RatatoskrVault.Verification.Blocked
import RatatoskrVault.Verification.EvidenceRows
import RatatoskrVault.Replication.Health
import RatatoskrVault.Http.Readiness
import RatatoskrVault.Process.System
import RatatoskrVault.Process.Startup
import RatatoskrVault.Process.Shutdown
import RatatoskrVault.Schema.Apply
import RatatoskrVault.Gitrunner.Spawned
import RatatoskrVault.Gitrunner.Calls
import RatatoskrVault.Gitrunner.Told
import RatatoskrVault.Blobstore.ReplicaDownload
import RatatoskrVault.Policy.Consumer
import RatatoskrVault.Policy.ConsumerSteps
import RatatoskrVault.Policy.Answered
import RatatoskrVault.Policy.Settled
