/-
  WebhookPlatform.Config
  The deployment settings (`app/config.py`) that the modelled functions
  read, with the defaults of the source.  Durations and rates are exact
  rationals (seconds, tokens per second); counts are natural numbers.

  A setting that no modelled function reads (key material, metrics, hosts)
  is left out, and so are the checks about it: `validateDeploymentSettings`
  is the validator restricted to what the platform's functions read, and
  `Fleet.validateReplicas` to the replicas and their connections.
-/
import Mathlib.Data.Rat.Floor

namespace WebhookPlatform

/-- A point in time, in seconds on the database's clock. -/
abbrev Time := ℚ

/-- `app.config.Settings`. -/
structure Settings where
  workerGlobalConcurrency : Nat := 10
  workerCandidateScanLimit : Nat := 5000
  workerLeaseSeconds : ℚ := 60
  webhookPayloadMaxBytes : Nat := 262144
  tenantEventRatePerSecond : ℚ := 100
  tenantEventBurst : Nat := 200
  tenantDeliveryRatePerSecond : ℚ := 500
  tenantDeliveryBurst : Nat := 1000
  tenantReplayRatePerSecond : ℚ := 10
  tenantReplayBurst : Nat := 20
  tenantFanoutPerEvent : Nat := 100
  tenantInFlightDeliveries : Nat := 10
  tenantRetainedBytes : Nat := 1073741824
  endpointConcurrency : Nat := 10
  endpointRatePerSecond : ℚ := 50
  endpointRateBurst : Nat := 100
  globalMaxBacklog : Nat := 100000
  globalOldestDueAdmissionSeconds : ℚ := 300
  quotaRetryAfterMaxSeconds : Nat := 60
  webhookResponseMaxBytes : Nat := 16384
  idempotencyKeyMaxLength : Nat := 255
  webhookMaxAttempts : Nat := 8
  webhookBackoffBaseSeconds : ℚ := 1
  webhookBackoffCapSeconds : ℚ := 3600
  webhookRetryAfterMaxSeconds : Nat := 3600
  webhookMaxDeliveryAgeSeconds : ℚ := 86400
  endpointRetryRatePerSecond : ℚ := 1 / 10
  endpointRetryBurst : Nat := 10
  endpointRetrySuccessRefill : Nat := 1
  endpointCircuitFailureThreshold : Nat := 5
  endpointCircuitOpenSeconds : ℚ := 60
  bulkReplayMaxDeliveries : Nat := 100
  lifecycleCleanupBatchSize : Nat := 100
  workerFinalizationMarginSeconds : ℚ := 5
  tenantEndpointsPerProject : Nat := 100
  deliveryRetentionDays : Nat := 30
  deliveryPurgeBatchSize : Nat := 500
  endpointSecretOverlapSeconds : ℚ := 86405
  organizationDeletionGraceHours : Nat := 72
  /-- `Field(ge=1)`. -/
  webhookMaxAttempts_pos : 1 ≤ webhookMaxAttempts := by decide
  /-- `Field(ge=1)`. -/
  endpointCircuitFailureThreshold_pos : 1 ≤ endpointCircuitFailureThreshold := by decide

/-- The settings of a deployment that sets none. -/
def Settings.defaults : Settings := {}

/-! ## Validation. -/

namespace Settings

/-- `Field(ge=lo, le=hi)` of an integer setting. -/
def within (lo hi value : Nat) : Bool := decide (lo ≤ value) && decide (value ≤ hi)

/-- `Field(ge=lo, le=hi)` of a duration. -/
def lasts (lo hi value : ℚ) : Bool := decide (lo ≤ value) && decide (value ≤ hi)

/-- `Field(gt=0, le=hi)`. -/
def positive (hi value : ℚ) : Bool := decide (0 < value) && decide (value ≤ hi)

/-- The `Field` constraints. -/
def fieldBounds (s : Settings) : Bool :=
  within 1 10000 s.workerGlobalConcurrency
    && within 100 50000 s.workerCandidateScanLimit
    && lasts 5 3600 s.workerLeaseSeconds
    && positive 60 s.workerFinalizationMarginSeconds
    && within 1 10485760 s.webhookPayloadMaxBytes
    && positive 100000 s.tenantEventRatePerSecond
    && within 1 1000000 s.tenantEventBurst
    && positive 1000000 s.tenantDeliveryRatePerSecond
    && within 1 10000000 s.tenantDeliveryBurst
    && positive 10000 s.tenantReplayRatePerSecond
    && within 1 100000 s.tenantReplayBurst
    && within 1 100000 s.tenantEndpointsPerProject
    && within 1 100000 s.tenantFanoutPerEvent
    && within 1 100000 s.tenantInFlightDeliveries
    && within 1024 1099511627776 s.tenantRetainedBytes
    && within 1 10000 s.endpointConcurrency
    && positive 100000 s.endpointRatePerSecond
    && within 1 1000000 s.endpointRateBurst
    && within 1 100000000 s.globalMaxBacklog
    && positive 86400 s.globalOldestDueAdmissionSeconds
    && within 1 3600 s.quotaRetryAfterMaxSeconds
    && within 0 1048576 s.webhookResponseMaxBytes
    && within 8 1024 s.idempotencyKeyMaxLength
    && within 1 50 s.webhookMaxAttempts
    && positive 3600 s.webhookBackoffBaseSeconds
    && positive 86400 s.webhookBackoffCapSeconds
    && within 1 86400 s.webhookRetryAfterMaxSeconds
    && lasts 60 2592000 s.webhookMaxDeliveryAgeSeconds
    && positive 10000 s.endpointRetryRatePerSecond
    && within 1 100000 s.endpointRetryBurst
    && within 1 100000 s.endpointRetrySuccessRefill
    && within 1 10000 s.endpointCircuitFailureThreshold
    && lasts 1 86400 s.endpointCircuitOpenSeconds
    && within 1 1000 s.bulkReplayMaxDeliveries
    && within 1 3650 s.deliveryRetentionDays
    && within 1 10000 s.deliveryPurgeBatchSize
    && lasts 1 2592060 s.endpointSecretOverlapSeconds
    && within 1 8760 s.organizationDeletionGraceHours
    && within 1 10000 s.lifecycleCleanupBatchSize

/-- `validate_deployment_settings`: the first check that fails raises a
`ValueError` with its text. -/
def validateDeploymentSettings (s : Settings) : Except String Unit :=
  if s.webhookBackoffCapSeconds < s.webhookBackoffBaseSeconds then
    .error "WEBHOOK_BACKOFF_CAP_SECONDS must be at least the base"
  else if s.webhookMaxDeliveryAgeSeconds < s.webhookRetryAfterMaxSeconds then
    .error "WEBHOOK_RETRY_AFTER_MAX_SECONDS must not exceed the maximum delivery age"
  else if s.endpointSecretOverlapSeconds
      < s.webhookMaxDeliveryAgeSeconds + s.workerFinalizationMarginSeconds then
    .error ("ENDPOINT_SECRET_OVERLAP_SECONDS must cover the maximum "
      ++ "delivery age and worker finalization margin")
  else if s.endpointRetryBurst < s.endpointRetrySuccessRefill then
    .error "ENDPOINT_RETRY_SUCCESS_REFILL exceeds retry burst"
  else if s.workerGlobalConcurrency < s.tenantInFlightDeliveries then
    .error "TENANT_IN_FLIGHT_DELIVERIES exceeds global concurrency"
  else if s.tenantInFlightDeliveries < s.endpointConcurrency then
    .error "ENDPOINT_CONCURRENCY exceeds tenant in-flight limit"
  else if s.tenantEndpointsPerProject < s.tenantFanoutPerEvent then
    .error "TENANT_FANOUT_PER_EVENT exceeds endpoint limit"
  else if s.tenantDeliveryBurst < s.tenantFanoutPerEvent then
    .error "TENANT_FANOUT_PER_EVENT exceeds delivery burst"
  else if s.tenantRetainedBytes ≤ s.webhookPayloadMaxBytes then
    .error "TENANT_RETAINED_BYTES must exceed the payload limit"
  else .ok ()

/-- The settings with which the platform starts. -/
def accepted (s : Settings) : Bool :=
  s.fieldBounds && s.validateDeploymentSettings.isOk

/-- What the proofs use of accepted settings. -/
structure Accepted (s : Settings) : Prop where
  eventRate : 0 < s.tenantEventRatePerSecond
  deliveryRate : 0 < s.tenantDeliveryRatePerSecond
  replayRate : 0 < s.tenantReplayRatePerSecond
  endpointRate : 0 < s.endpointRatePerSecond
  retryRate : 0 < s.endpointRetryRatePerSecond
  margin : 0 < s.workerFinalizationMarginSeconds
  overlap : s.webhookMaxDeliveryAgeSeconds + s.workerFinalizationMarginSeconds
    ≤ s.endpointSecretOverlapSeconds

/-- Two of the comparisons, and a bound. -/
theorem ordered_of_accepted {s : Settings} (h : s.accepted = true) :
    s.webhookMaxDeliveryAgeSeconds + s.workerFinalizationMarginSeconds
        ≤ s.endpointSecretOverlapSeconds
      ∧ s.tenantFanoutPerEvent ≤ s.tenantDeliveryBurst ∧ 1 ≤ s.tenantEventBurst := by
  obtain ⟨hbounds, hvalid⟩ := (Bool.and_eq_true _ _).mp h
  simp only [fieldBounds, within, Bool.and_eq_true, decide_eq_true_eq] at hbounds
  unfold validateDeploymentSettings at hvalid
  split_ifs at hvalid
  all_goals first
    | exact absurd hvalid (by decide)
    | exact ⟨by linarith, by omega, by tauto⟩

theorem accepted_spec {s : Settings} (h : s.accepted = true) : s.Accepted := by
  have hbounds := ((Bool.and_eq_true _ _).mp h).1
  simp only [fieldBounds, within, lasts, positive, Bool.and_eq_true, decide_eq_true_eq] at hbounds
  constructor
  all_goals first
    | exact (ordered_of_accepted h).1
    | tauto

/-- Every default passes its own check. -/
theorem defaults_accepted : Settings.defaults.accepted = true := by decide +kernel

end Settings

/-! ## Replicas and connections. -/

/-- The settings of the replicas: their pools, and the budgets of the
connections they open. -/
structure Fleet extends Settings where
  apiDbPoolSize : Nat := 5
  apiDbMaxOverflow : Nat := 5
  workerDbPoolSize : Nat := 5
  workerDbMaxOverflow : Nat := 5
  apiReplicaCount : Nat := 1
  workerReplicaCount : Nat := 1
  databaseConnectionBudget : Nat := 20
  workerConcurrency : Nat := 10
  workerEgressConnectionBudget : Nat := 10
  autoscalingMinWorkerReplicas : Nat := 1
  autoscalingMaxWorkerReplicas : Nat := 1
  natConnectionBudget : Nat := 10

namespace Fleet

open Settings (within)

/-- A deployment that sets none of them. -/
def defaults : Fleet := { Settings.defaults with }

/-- The `Field` constraints. -/
def fieldBounds (f : Fleet) : Bool :=
  within 1 100 f.apiDbPoolSize && within 0 100 f.apiDbMaxOverflow
    && within 1 100 f.workerDbPoolSize && within 0 100 f.workerDbMaxOverflow
    && within 1 100 f.apiReplicaCount && within 1 100 f.workerReplicaCount
    && within 2 10000 f.databaseConnectionBudget && within 1 100 f.workerConcurrency
    && within 1 10000 f.workerEgressConnectionBudget
    && within 1 1000 f.autoscalingMinWorkerReplicas
    && within 1 1000 f.autoscalingMaxWorkerReplicas && within 1 1000000 f.natConnectionBudget

/-- What `r` worker replicas and the API take of the database. -/
def databaseConnections (f : Fleet) (r : Nat) : Nat :=
  f.apiReplicaCount * (f.apiDbPoolSize + f.apiDbMaxOverflow)
    + r * (f.workerDbPoolSize + f.workerDbMaxOverflow)

/-- `safe_worker_replicas`; what remains of a budget is never negative. -/
def safeWorkerReplicas (f : Fleet) : Nat :=
  min (min ((f.databaseConnectionBudget
          - f.apiReplicaCount * (f.apiDbPoolSize + f.apiDbMaxOverflow))
        / (f.workerDbPoolSize + f.workerDbMaxOverflow))
      (f.workerEgressConnectionBudget / f.workerConcurrency))
    (f.natConnectionBudget / f.workerConcurrency)

/-- The checks of `validate_deployment_settings` about the replicas. -/
def validateReplicas (f : Fleet) : Except String Unit :=
  if f.databaseConnectionBudget < f.databaseConnections f.workerReplicaCount then
    .error "Replica database pools exceed DATABASE_CONNECTION_BUDGET"
  else if f.workerReplicaCount * f.workerConcurrency < f.workerGlobalConcurrency then
    .error "WORKER_GLOBAL_CONCURRENCY exceeds configured worker slots"
  else if f.workerEgressConnectionBudget < f.workerGlobalConcurrency then
    .error "WORKER_GLOBAL_CONCURRENCY exceeds the egress budget"
  else if f.autoscalingMaxWorkerReplicas < f.autoscalingMinWorkerReplicas then
    .error "AUTOSCALING_MIN_WORKER_REPLICAS exceeds maximum"
  else if max 1 f.safeWorkerReplicas < f.autoscalingMaxWorkerReplicas then
    .error "AUTOSCALING_MAX_WORKER_REPLICAS exceeds a resource budget"
  else .ok ()

/-- The settings with which the platform starts. -/
def accepted (f : Fleet) : Bool :=
  f.toSettings.accepted && f.fieldBounds && f.validateReplicas.isOk

/-- `r` worker replicas stay within the three budgets. -/
structure Fits (f : Fleet) (r : Nat) : Prop where
  database : f.databaseConnections r ≤ f.databaseConnectionBudget
  egress : r * f.workerConcurrency ≤ f.workerEgressConnectionBudget
  nat : r * f.workerConcurrency ≤ f.natConnectionBudget

theorem validateReplicas_ok {f : Fleet} (h : f.validateReplicas.isOk = true) :
    f.databaseConnections f.workerReplicaCount ≤ f.databaseConnectionBudget
      ∧ f.autoscalingMinWorkerReplicas ≤ f.autoscalingMaxWorkerReplicas
      ∧ f.autoscalingMaxWorkerReplicas ≤ max 1 f.safeWorkerReplicas := by
  unfold validateReplicas at h
  split_ifs at h
  all_goals first
    | exact absurd h (by decide)
    | exact ⟨by omega, by omega, by omega⟩

/-- Up to the safe count the budgets are kept. -/
theorem fits_of_safe {f : Fleet} {r : Nat} (hr : r ≤ f.safeWorkerReplicas)
    (hpool : 0 < f.workerDbPoolSize) (hslots : 0 < f.workerConcurrency)
    (hapi : f.databaseConnections 0 ≤ f.databaseConnectionBudget) : f.Fits r := by
  unfold safeWorkerReplicas at hr
  rw [Nat.le_min, Nat.le_min, Nat.le_div_iff_mul_le (by omega), Nat.le_div_iff_mul_le hslots,
    Nat.le_div_iff_mul_le hslots] at hr
  refine ⟨?_, hr.1.2, hr.2⟩
  unfold databaseConnections at hapi ⊢
  omega

/-- **AUTOSCALING STAYS WITHIN BUDGET EXACTLY IF ONE REPLICA DOES**: the
validator lets one replica pass whatever its connections are. -/
theorem autoscaling_within_budget_iff (f : Fleet) (haccepted : f.accepted = true) :
    (∀ r, f.autoscalingMinWorkerReplicas ≤ r → r ≤ f.autoscalingMaxWorkerReplicas → f.Fits r)
      ↔ f.workerConcurrency ≤ f.workerEgressConnectionBudget
        ∧ f.workerConcurrency ≤ f.natConnectionBudget := by
  obtain ⟨hbounds, hvalid⟩ := (Bool.and_eq_true _ _).mp haccepted
  obtain ⟨-, hbounds⟩ := (Bool.and_eq_true _ _).mp hbounds
  simp only [fieldBounds, within, Bool.and_eq_true, decide_eq_true_eq] at hbounds
  obtain ⟨hdatabase, hrange, hsafe⟩ := validateReplicas_ok hvalid
  have hmin : 1 ≤ f.autoscalingMinWorkerReplicas := by tauto
  have hcount : 1 ≤ f.workerReplicaCount := by tauto
  have hpool : 0 < f.workerDbPoolSize := by tauto
  have hslots : 0 < f.workerConcurrency := by tauto
  -- one replica takes no more of the database than the configured ones
  have hone : f.databaseConnections 1 ≤ f.databaseConnectionBudget := by
    refine le_trans ?_ hdatabase
    unfold databaseConnections
    exact Nat.add_le_add_left (Nat.mul_le_mul_right _ hcount) _
  constructor
  · intro hfits
    have hleast := hfits _ le_rfl hrange
    have hslot := Nat.le_mul_of_pos_left f.workerConcurrency hmin
    exact ⟨hslot.trans hleast.egress, hslot.trans hleast.nat⟩
  · rintro ⟨hegress, hnat⟩ r hlow hhigh
    by_cases hr : r ≤ f.safeWorkerReplicas
    · refine fits_of_safe hr hpool hslots (le_trans ?_ hone)
      unfold databaseConnections
      omega
    · -- only a single replica is allowed past the safe count
      have hr1 : r = 1 := by omega
      subst hr1
      exact ⟨hone, by omega, by omega⟩

theorem autoscaling_within_budget_iff_defaults :
    defaults.accepted = true ∧ ∀ r, 1 ≤ r → r ≤ 1 → defaults.Fits r := by
  have haccepted : defaults.accepted = true := by decide +kernel
  exact ⟨haccepted, (autoscaling_within_budget_iff defaults haccepted).mpr (by decide)⟩

/-- Ten slots of one worker, five egress connections. -/
def narrowEgress : Fleet :=
  { defaults with
    workerGlobalConcurrency := 5
    tenantInFlightDeliveries := 5
    endpointConcurrency := 5
    workerEgressConnectionBudget := 5 }

/-- **ONE REPLICA MAY EXCEED THE EGRESS BUDGET.** -/
theorem one_replica_exceeds_egress : narrowEgress.accepted = true ∧ ¬ narrowEgress.Fits 1
    ∧ narrowEgress.autoscalingMinWorkerReplicas = 1
    ∧ narrowEgress.autoscalingMaxWorkerReplicas = 1 := by
  exact ⟨by decide +kernel, fun h => absurd h.egress (by decide), rfl, rfl⟩

end Fleet

end WebhookPlatform
