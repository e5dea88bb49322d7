import WebhookPlatform.Lib.Table
import WebhookPlatform.Lib.Runs
import WebhookPlatform.Lib.RowLocks
import WebhookPlatform.Lib.WaitFor
import WebhookPlatform.Lib.TokenBucket
import WebhookPlatform.Lib.RowNumber
import WebhookPlatform.Lib.Keyset
import WebhookPlatform.Lib.Carousel
import WebhookPlatform.Lib.Exceptions
import WebhookPlatform.Lib.Base64
import WebhookPlatform.Lib.Sha256
import WebhookPlatform.Json
import WebhookPlatform.Config
import WebhookPlatform.Models
import WebhookPlatform.Admission
import WebhookPlatform.Scheduling
import WebhookPlatform.SchedulingInvariants
import WebhookPlatform.DeliveryService
import WebhookPlatform.WebhookService
import WebhookPlatform.Administration
import WebhookPlatform.Lifecycle
import WebhookPlatform.Platform
import WebhookPlatform.LeaseCaps
import WebhookPlatform.ClaimLedger
import WebhookPlatform.Ownership
import WebhookPlatform.ScanOrder
import WebhookPlatform.Eligibility
import WebhookPlatform.CandidateWindow
import WebhookPlatform.Deployment
import WebhookPlatform.Fairness
import WebhookPlatform.DeliveryRows
import WebhookPlatform.Tenancy
import WebhookPlatform.Circuit
import WebhookPlatform.OneProbe
import WebhookPlatform.Attempt
import WebhookPlatform.FinalDecision
import WebhookPlatform.Evidence
import WebhookPlatform.Snapshots
import WebhookPlatform.PurgedReplays
import WebhookPlatform.SecretRetirement
import WebhookPlatform.AdmissionLimits
import WebhookPlatform.Transactions
import WebhookPlatform.TransactionOutline
import WebhookPlatform.ClaimRace
import WebhookPlatform.LeaseRace
import WebhookPlatform.IngestRace
import WebhookPlatform.PurgeRace
import WebhookPlatform.ReplayRace
import WebhookPlatform.Outbox
import WebhookPlatform.OutboxSafety
import WebhookPlatform.OutboxProgress
import WebhookPlatform.OutboxIngest
import WebhookPlatform.Membership
import WebhookPlatform.Deletion
import WebhookPlatform.CleanupRace
import WebhookPlatform.Encodings
import WebhookPlatform.JsonLoads
import WebhookPlatform.JsonRoundTrip
import WebhookPlatform.PyText
import WebhookPlatform.Signing
import WebhookPlatform.Receiver
import WebhookPlatform.ReceiverSchemes
import WebhookPlatform.ReceiverHeaders
import WebhookPlatform.Deliverable
import WebhookPlatform.ReceiverSoundness
import WebhookPlatform.SelectionContract
import WebhookPlatform.ProbeSelection
import WebhookPlatform.RetryBudget
import WebhookPlatform.LoginThrottle
import WebhookPlatform.LoginWindow
import WebhookPlatform.Authorization
import WebhookPlatform.Escalation
import WebhookPlatform.ApiKeys
import WebhookPlatform.ProjectMembership
import WebhookPlatform.Audit
import WebhookPlatform.Export
import WebhookPlatform.LockOrder
import WebhookPlatform.TenantFrame
import WebhookPlatform.KeyUsage
