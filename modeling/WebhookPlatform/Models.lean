/-
  WebhookPlatform.Models
  **THE TABLES** (`app/models.py`): the rows the delivery protocol, the
  admission control and the operator API read and write, and the database
  `Db` that holds them.  Row keys are the primary keys of the schema;
  deliveries and events draw theirs from a sequence.

  Status columns with a `CHECK` constraint are inductive types, so a row
  outside the constraint cannot be built.  Public ids and lease tokens are
  the texts of UUIDs, of which only equality matters.
-/
import WebhookPlatform.Config
import WebhookPlatform.Json
import WebhookPlatform.Lib.Table

namespace WebhookPlatform

open Relational

/-- A UUID's text; `uuid4` never returns one twice. -/
abbrev Uuid := String

/-! ## §1. Constrained columns. -/

/-- `ck_deliveries_status`. -/
inductive DeliveryStatus where
  | pending
  | processing
  | retryScheduled
  | succeeded
  | dead
  | canceled
  deriving Repr, DecidableEq

/-- `ck_endpoint_quota_circuit_state`. -/
inductive CircuitState where
  | closed
  | opened
  | halfOpen
  deriving Repr, DecidableEq

/-- `ck_deliveries_snapshot_signature_scheme`. -/
inductive SignatureScheme where
  | legacy
  | standard
  deriving Repr, DecidableEq

/-- `ck_events_envelope_mode`. -/
inductive EnvelopeMode where
  | native
  | cloudevents
  deriving Repr, DecidableEq

/-- `_TERMINAL_DELIVERY_STATUSES`: succeeded, dead, canceled. -/
def DeliveryStatus.terminal : DeliveryStatus → Bool
  | .succeeded | .dead | .canceled => true
  | .pending | .processing | .retryScheduled => false

/-- `_QUEUED_DELIVERY_STATUSES`: waiting for a claim. -/
def DeliveryStatus.queued : DeliveryStatus → Bool
  | .pending | .retryScheduled => true
  | .processing | .succeeded | .dead | .canceled => false

theorem DeliveryStatus.nonterminal_of_queued {x : DeliveryStatus} (h : x.queued = true) :
    x.terminal = false := by
  cases x <;> first | rfl | exact absurd h (by decide)

/-! ## §2. Rows. -/

/-- `deliveries`. -/
structure Delivery where
  id : Nat
  publicId : Uuid
  organizationId : Nat
  eventId : Nat
  endpointId : Nat
  replayOfDeliveryId : Option Nat := none
  endpointPublicIdSnapshot : Uuid
  endpointUrlSnapshot : String
  endpointActiveSnapshot : Bool
  signingSecretVersionSnapshot : Nat
  signatureSchemeSnapshot : SignatureScheme := .legacy
  status : DeliveryStatus
  attemptCount : Nat := 0
  nextAttemptAt : Time
  leaseToken : Option Uuid := none
  leaseExpiresAt : Option Time := none
  lastHttpStatus : Option Nat := none
  lastError : Option String := none
  createdAt : Time
  updatedAt : Time
  succeededAt : Option Time := none
  deadAt : Option Time := none
  deadReason : Option String := none
  canceledAt : Option Time := none
  canceledReason : Option String := none
  deriving Repr, DecidableEq

/-- `delivery_attempts`. -/
structure DeliveryAttempt where
  deliveryId : Nat
  attemptNumber : Nat
  startedAt : Time
  finishedAt : Time
  outcome : DeliveryStatus
  httpStatus : Option Nat
  error : Option String
  responseBody : Option String
  deriving Repr, DecidableEq

/-- `events`. -/
structure Event where
  id : Nat
  publicId : Uuid
  projectId : Nat
  idempotencyKey : String
  eventType : String
  envelopeMode : EnvelopeMode := .native
  payload : Option Json
  payloadHash : Bytes
  canonicalEnvelope : Option Bytes
  payloadPurgedAt : Option Time := none
  traceparent : Option String := none
  tracestate : Option String := none
  createdAt : Time

/-- `global_control_state`, a singleton row. -/
structure GlobalControlState where
  tenantCursorOrganizationId : Option Nat := none
  createdAt : Time
  updatedAt : Time
  deriving Repr, DecidableEq

/-- `tenant_quota_state`. -/
structure TenantQuotaState where
  organizationId : Nat
  eventTokens : ℚ
  eventRefilledAt : Time
  deliveryTokens : ℚ
  deliveryRefilledAt : Time
  replayTokens : ℚ
  replayRefilledAt : Time
  endpointCursorId : Option Nat := none
  updatedAt : Time
  deriving Repr, DecidableEq

/-- `endpoint_quota_state`. -/
structure EndpointQuotaState where
  endpointId : Nat
  deliveryTokens : ℚ
  refilledAt : Time
  retryTokens : ℚ
  retryRefilledAt : Time
  circuitState : CircuitState := .closed
  consecutiveFailures : Nat := 0
  circuitOpenUntil : Option Time := none
  halfOpenProbeDeliveryId : Option Nat := none
  pausedAt : Option Time := none
  pauseReason : Option String := none
  updatedAt : Time
  deriving Repr, DecidableEq

/-- `webhook_endpoints`; `eventTypes` is the stored JSON filter (`none` is
SQL `NULL`: no filter). -/
structure WebhookEndpoint where
  id : Nat
  publicId : Uuid
  projectId : Nat
  url : String
  eventTypes : Option Json := none
  signatureScheme : SignatureScheme := .legacy
  isActive : Bool := true
  secretVersion : Nat := 1
  createdAt : Time
  updatedAt : Time

/-- `projects`. -/
structure Project where
  id : Nat
  publicId : Uuid
  organizationId : Nat
  name : String := ""
  isActive : Bool := true
  createdAt : Time
  deriving Repr, DecidableEq

/-- `organization_policies`. -/
structure OrganizationPolicy where
  organizationId : Nat
  payloadRetentionDays : Nat := 30
  responseRetentionDays : Nat := 30
  deriving Repr, DecidableEq

/-- `endpoint_signing_secret_versions`. -/
structure EndpointSigningSecretVersion where
  endpointId : Nat
  version : Nat
  activatedAt : Time
  retireAt : Option Time := none
  deriving Repr, DecidableEq

/-- The `mode` of a replay operation. -/
inductive ReplayMode where
  | single
  | bulk
  deriving Repr, DecidableEq

/-- `replay_operations`. -/
structure ReplayOperation where
  publicId : Uuid
  organizationId : Nat
  projectId : Nat
  idempotencyKey : String
  mode : ReplayMode
  requestedCount : Nat
  createdCount : Nat
  sourceDeliveryIds : List Uuid
  createdDeliveryIds : List Uuid
  createdAt : Time
  deriving Repr, DecidableEq

/-! ## §3. The two filters over deliveries. -/

/-- `due`, as the scheduler and the admission check both write it: queued
work whose time has come, or a lease that has expired. -/
def Delivery.due (now : Time) (d : Delivery) : Bool :=
  (d.status.queued && decide (d.nextAttemptAt ≤ now))
    || (decide (d.status = .processing) && d.leaseExpiresAt.any fun t => decide (t ≤ now))

/-- `live_filter`: a lease that has not expired. -/
def Delivery.live (now : Time) (d : Delivery) : Bool :=
  decide (d.status = .processing) && d.leaseExpiresAt.any fun t => decide (now < t)

/-! ## §4. The database. -/

/-- The committed database. -/
structure Db where
  globalState : Option GlobalControlState := none
  tenantStates : Table TenantQuotaState TenantQuotaState.organizationId := Table.empty
  endpointStates : Table EndpointQuotaState EndpointQuotaState.endpointId := Table.empty
  projects : Table Project Project.id := Table.empty
  policies : Table OrganizationPolicy OrganizationPolicy.organizationId := Table.empty
  endpoints : Table WebhookEndpoint WebhookEndpoint.id := Table.empty
  secretVersions : List EndpointSigningSecretVersion := []
  events : Serial Event Event.id := Serial.empty
  deliveries : Serial Delivery Delivery.id := Serial.empty
  attempts : List DeliveryAttempt := []
  replayOperations : List ReplayOperation := []

/-! ## §5. Exceptions. -/

/-- The exceptions the modelled functions raise: those of
`app/exceptions.py` with their texts, and the Python ones that escape. -/
inductive AppError where
  | notFound (resource : String) (identifier : String)
  | alreadyExists (resource : String) (field : String) (value : String)
  | conflict (message : String)
  | forbidden (message : String)
  | validation (message : String)
  | quotaExceeded (quota : String) (retryAfterSeconds : Nat)
  | saturation (reason : String)
  | runtimeError (message : String)
  | integrityError
  | staleDataError
  | attributeError
  | typeError
  | valueError
  deriving Repr, DecidableEq

end WebhookPlatform
