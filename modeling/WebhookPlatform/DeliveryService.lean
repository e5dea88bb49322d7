/-
  WebhookPlatform.DeliveryService
  **CLAIM, RENEW, RELEASE, FINALIZE** (`app/services/delivery_service.py`,
  `app/retry_policy.py`).

  Each operation is split in two: what it does to ONE ROW (`claimRow`,
  `renewRow`, `releaseRow`, `finalizeRow`, `finalizeEndpoint`) and the
  transaction around it.  The row functions are shared by the two models of
  concurrency above this file, where a transaction is one atomic step or one
  step per SQL statement.

  Random draws (lease tokens, jitter) are arguments.
-/
import WebhookPlatform.Scheduling

namespace WebhookPlatform

open Relational

/-! ## §1. Retry policy. -/

/-- `is_retryable_status`: 408, 425, 429 and every 5xx. -/
def isRetryableStatus (statusCode : Nat) : Bool :=
  decide (statusCode ∈ [408, 425, 429]) || decide (500 ≤ statusCode ∧ statusCode ≤ 599)

/-- What `random.random()` returned. -/
structure Jitter where
  value : ℚ
  nonneg : 0 ≤ value
  le_one : value ≤ 1

/-- The draw that retries at once. -/
def Jitter.zero : Jitter := ⟨0, by decide, by decide⟩

/-- `jittered_backoff`: uniform between zero and the exponential ceiling. -/
def jitteredBackoff (jitter : Jitter) (attemptNumber : Nat) (baseSeconds capSeconds : ℚ) : ℚ :=
  jitter.value * min capSeconds (baseSeconds * 2 ^ (attemptNumber - 1))

/-! ## §2. Claims. -/

/-- `ClaimedDelivery`: what a worker holds. -/
structure ClaimedDelivery where
  id : Nat
  publicId : Uuid
  organizationId : Nat
  endpointId : Nat
  leaseToken : Uuid
  attemptNumber : Nat
  endpointPublicId : Uuid
  endpointUrl : String
  endpointSecretVersion : Nat
  endpointActive : Bool
  eventPublicId : Uuid
  eventType : String
  canonicalEnvelope : Bytes
  signatureScheme : SignatureScheme
  envelopeMode : EnvelopeMode
  traceparent : Option String
  tracestate : Option String
  createdAt : Time
  deriving DecidableEq

/-- The row of a selected delivery after the claim. -/
def claimRow (s : Settings) (now : Time) (token : Uuid) (d : Delivery) : Delivery :=
  { d with
    status := .processing
    attemptCount := d.attemptCount + 1
    leaseToken := some token
    leaseExpiresAt := some (now + s.workerLeaseSeconds)
    updatedAt := now }

/-- The `ClaimedDelivery` built from the claimed row and its event.
`bytes(None)` raises when the envelope has been purged. -/
def claimedDelivery (db : Db) (token : Uuid) (d : Delivery) : Except AppError ClaimedDelivery :=
  match db.events.find? d.eventId with
  | none => .error .attributeError
  | some event =>
    match event.canonicalEnvelope with
    | none => .error .typeError
    | some envelope =>
      .ok
        { id := d.id
          publicId := d.publicId
          organizationId := d.organizationId
          endpointId := d.endpointId
          leaseToken := token
          attemptNumber := d.attemptCount + 1
          endpointPublicId := d.endpointPublicIdSnapshot
          endpointUrl := d.endpointUrlSnapshot
          endpointSecretVersion := d.signingSecretVersionSnapshot
          endpointActive := d.endpointActiveSnapshot
          eventPublicId := event.publicId
          eventType := event.eventType
          canonicalEnvelope := envelope
          signatureScheme := d.signatureSchemeSnapshot
          envelopeMode := event.envelopeMode
          traceparent := event.traceparent
          tracestate := event.tracestate
          createdAt := d.createdAt }

variable {c : ClaimedDelivery} {d : Delivery}

/-- **What a claim carries**: the snapshots of its row, and the event's
content. -/
theorem claimedDelivery_spec (h : claimedDelivery db token d = .ok c) :
    ∃ event envelope, db.events.find? d.eventId = some event
      ∧ event.canonicalEnvelope = some envelope
      ∧ c = { id := d.id
              publicId := d.publicId
              organizationId := d.organizationId
              endpointId := d.endpointId
              leaseToken := token
              attemptNumber := d.attemptCount + 1
              endpointPublicId := d.endpointPublicIdSnapshot
              endpointUrl := d.endpointUrlSnapshot
              endpointSecretVersion := d.signingSecretVersionSnapshot
              endpointActive := d.endpointActiveSnapshot
              eventPublicId := event.publicId
              eventType := event.eventType
              canonicalEnvelope := envelope
              signatureScheme := d.signatureSchemeSnapshot
              envelopeMode := event.envelopeMode
              traceparent := event.traceparent
              tracestate := event.tracestate
              createdAt := d.createdAt } := by
  unfold claimedDelivery at h
  split at h
  · cases h
  next event hevent =>
    split at h
    · cases h
    next envelope henvelope =>
      injection h with h
      exact ⟨event, envelope, hevent, henvelope, h.symm⟩

theorem claimedDelivery_ok (h : claimedDelivery db token d = .ok c) :
    c.id = d.id ∧ c.leaseToken = token ∧ c.attemptNumber = d.attemptCount + 1 := by
  obtain ⟨event, envelope, -, -, rfl⟩ := claimedDelivery_spec h
  exact ⟨rfl, rfl, rfl⟩

/-- The claims of the selected deliveries; one failure fails the batch. -/
def claimAll (db : Db) : List (Delivery × Uuid) → Except AppError (List ClaimedDelivery)
  | [] => .ok []
  | (d, token) :: rest => do
      let claim ← claimedDelivery db token d
      let claims ← claimAll db rest
      .ok (claim :: claims)

/-- The rows of the selected deliveries after the claim. -/
def claimedRows (s : Settings) (now : Time) (picks : List (Delivery × Uuid)) : List Delivery :=
  picks.map fun x => claimRow s now x.2 x.1

/-- `claim_due`, in one atomic step; `tokens` are the UUIDs drawn, one for
each delivery selected.  An exception rolls everything back. -/
def claimDue (s : Settings) (now : Time) (limit : Nat) (tokens : List Uuid) (db : Db) :
    Except AppError (Db × List ClaimedDelivery) :=
  if limit = 0 then .ok (db, [])
  else
    let chosen := selectFairDeliveries s now limit db
    let picks := chosen.2.zip tokens
    match claimAll db picks with
    | .error e => .error e
    | .ok claims =>
      .ok ({ chosen.1 with
        deliveries := chosen.1.deliveries.putAll (claimedRows s now picks) }, claims)

/-! ## §3. Renewal and release. -/

/-- The row is leased to this claim: `processing` under its token. -/
def ClaimedDelivery.owns (c : ClaimedDelivery) (d : Delivery) : Bool :=
  decide (d.status = .processing) && decide (d.leaseToken = some c.leaseToken)

/-- The row is leased to this claim and the lease has not expired. -/
def ClaimedDelivery.holds (c : ClaimedDelivery) (now : Time) (d : Delivery) : Bool :=
  c.owns d && d.leaseExpiresAt.any fun t => decide (now < t)

/-- The renewed row. -/
def renewRow (s : Settings) (now : Time) (d : Delivery) : Delivery :=
  { d with leaseExpiresAt := some (now + s.workerLeaseSeconds), updatedAt := now }

/-- The released row: immediately due again, whatever its attempts. -/
def releaseRow (now : Time) (d : Delivery) : Delivery :=
  { d with
    status := .retryScheduled
    nextAttemptAt := now
    leaseToken := none
    leaseExpiresAt := none
    updatedAt := now }

/-- The row a `SELECT … WHERE id = … AND guard FOR UPDATE` returns. -/
def guardedRow (db : Db) (id : Nat) (guard : Delivery → Bool) : Option Delivery :=
  (db.deliveries.find? id).filter guard

/-- `renew_lease`. -/
def renewLease (s : Settings) (now : Time) (c : ClaimedDelivery) (db : Db) : Db × Bool :=
  match guardedRow db c.id (c.holds now) with
  | none => (db, false)
  | some d => ({ db with deliveries := db.deliveries.put (renewRow s now d) }, true)

/-- `release_claim`: no look at the expiry of the lease. -/
def releaseClaim (now : Time) (c : ClaimedDelivery) (db : Db) : Db × Bool :=
  match guardedRow db c.id c.owns with
  | none => (db, false)
  | some d => ({ db with deliveries := db.deliveries.put (releaseRow now d) }, true)

/-! ## §4. Finalization. -/

/-- `AttemptResult`. -/
structure AttemptResult where
  succeeded : Bool
  retryable : Bool
  statusCode : Option Nat
  error : Option String
  responseBody : Option String
  retryAfterSeconds : Option ℚ := none
  deriving Repr, DecidableEq

/-- The arguments of `_finalize` beside the claim, and its random draw. -/
structure Finalization where
  started : Time
  result : AttemptResult
  jitter : Jitter

/-- `delivery_deadline`. -/
def deliveryDeadline (s : Settings) (d : Delivery) : Time :=
  d.createdAt + s.webhookMaxDeliveryAgeSeconds

/-- `delay`. -/
def retryDelay (s : Settings) (c : ClaimedDelivery) (f : Finalization) : ℚ :=
  max (jitteredBackoff f.jitter c.attemptNumber s.webhookBackoffBaseSeconds
      s.webhookBackoffCapSeconds)
    (f.result.retryAfterSeconds.getD 0)

/-- The condition of the retry branch: a retryable failure, attempts left,
the delivery not too old. -/
def mayRetry (s : Settings) (finished : Time) (c : ClaimedDelivery) (r : AttemptResult)
    (d : Delivery) : Bool :=
  r.retryable && decide (c.attemptNumber < s.webhookMaxAttempts)
    && decide (finished < deliveryDeadline s d)

/-- `dead_reason` of the last branch, cut to the column's 64 characters. -/
def deadReason (s : Settings) (finished : Time) (c : ClaimedDelivery) (r : AttemptResult)
    (d : Delivery) : String :=
  let reason :=
    if deliveryDeadline s d ≤ finished ∨ r.error = some "max_delivery_age" then "max_delivery_age"
    else if r.retryable = true ∧ s.webhookMaxAttempts ≤ c.attemptNumber then "max_attempts"
    else if r.statusCode.any fun code => decide (400 ≤ code ∧ code < 500) then
      "non_retryable_http"
    else
      match r.error with
      | none | some "" => "non_retryable_failure"
      | some e => e
  String.ofList (reason.toList.take 64)

/-- The row with the status the outcome gives it. -/
def outcomeRow (s : Settings) (finished : Time) (c : ClaimedDelivery) (f : Finalization)
    (d : Delivery) : Delivery :=
  if f.result.succeeded then
    { d with
      status := .succeeded, succeededAt := some finished, nextAttemptAt := finished
      deadAt := none, deadReason := none }
  else if mayRetry s finished c f.result d then
    if finished + retryDelay s c f < deliveryDeadline s d then
      { d with
        status := .retryScheduled, nextAttemptAt := finished + retryDelay s c f
        deadAt := none, deadReason := none }
    else
      { d with
        status := .dead, nextAttemptAt := finished
        deadAt := some finished, deadReason := some "max_delivery_age" }
  else
    { d with
      status := .dead, nextAttemptAt := finished
      deadAt := some finished, deadReason := some (deadReason s finished c f.result d) }

/-- The finalized row. -/
def finalizeRow (s : Settings) (finished : Time) (c : ClaimedDelivery) (f : Finalization)
    (d : Delivery) : Delivery :=
  { outcomeRow s finished c f d with
    lastHttpStatus := f.result.statusCode
    lastError := f.result.error
    leaseToken := none
    leaseExpiresAt := none
    updatedAt := finished }

/-- The endpoint's circuit and retry budget after the outcome. -/
def finalizeEndpoint (s : Settings) (finished : Time) (r : AttemptResult) (deliveryId : Nat)
    (e : EndpointQuotaState) : EndpointQuotaState :=
  let isProbe := decide (e.halfOpenProbeDeliveryId = some deliveryId)
  let next :=
    if r.succeeded then
      { e with
        retryTokens := min (s.endpointRetryBurst : ℚ)
          (e.retryTokens + (s.endpointRetrySuccessRefill : ℚ))
        retryRefilledAt := finished
        circuitState := .closed, consecutiveFailures := 0
        circuitOpenUntil := none, halfOpenProbeDeliveryId := none }
    else if r.retryable then
      if isProbe = true ∨ (e.circuitState = .closed
          ∧ s.endpointCircuitFailureThreshold ≤ e.consecutiveFailures + 1) then
        { e with
          consecutiveFailures := e.consecutiveFailures + 1
          circuitState := .opened
          circuitOpenUntil := some (finished + s.endpointCircuitOpenSeconds)
          halfOpenProbeDeliveryId := none }
      else { e with consecutiveFailures := e.consecutiveFailures + 1 }
    else if isProbe = true ∧ r.error = some "max_delivery_age" then
      { e with
        circuitState := .opened, circuitOpenUntil := some finished
        halfOpenProbeDeliveryId := none }
    else if isProbe = true ∨ r.error ≠ some "max_delivery_age" then
      { e with
        circuitState := .closed, consecutiveFailures := 0
        circuitOpenUntil := none, halfOpenProbeDeliveryId := none }
    else e
  { next with updatedAt := finished }

/-- The attempt record of a finalization. -/
def attemptRecord (finished : Time) (c : ClaimedDelivery) (f : Finalization) (row : Delivery) :
    DeliveryAttempt where
  deliveryId := row.id
  attemptNumber := c.attemptNumber
  startedAt := f.started
  finishedAt := finished
  outcome := row.status
  httpStatus := f.result.statusCode
  error := f.result.error
  responseBody := f.result.responseBody

/-- The unique constraint `(delivery_id, attempt_number)` refuses the record. -/
def recorded (db : Db) (deliveryId attemptNumber : Nat) : Bool :=
  db.attempts.any fun a =>
    decide (a.deliveryId = deliveryId) && decide (a.attemptNumber = attemptNumber)

/-- The writes of a finalization: the row, its endpoint's state, the attempt
record. -/
def finalizeWrite (s : Settings) (finished : Time) (c : ClaimedDelivery) (f : Finalization)
    (d : Delivery) (e : EndpointQuotaState) (db : Db) : Db :=
  { db with
    deliveries := db.deliveries.put (finalizeRow s finished c f d)
    endpointStates := db.endpointStates.put (finalizeEndpoint s finished f.result d.id e)
    attempts := db.attempts ++ [attemptRecord finished c f (finalizeRow s finished c f d)] }

/-- `_finalize`, in one atomic step.  The columns take every text: that PostgreSQL
refuses a `response_body` with a U+0000 is not in the model. -/
def finalize (s : Settings) (finished : Time) (c : ClaimedDelivery) (f : Finalization) (db : Db) :
    Except AppError (Db × Bool) :=
  match guardedRow db c.id (c.holds finished) with
  | none => .ok (db, false)
  | some d =>
    match db.endpointStates.find? d.endpointId with
    | none => .error (.runtimeError "Endpoint retry state is unavailable")
    | some e =>
      if recorded db d.id c.attemptNumber then .error .integrityError
      else .ok (finalizeWrite s finished c f d e db, true)

/-- **A finalization that commits** found no row, or writes the row it holds
and the state of the row's endpoint. -/
theorem finalize_ok {finished : Time} (h : finalize s finished c f db = .ok r) :
    r = (db, false) ∨ ∃ d e, guardedRow db c.id (c.holds finished) = some d
      ∧ db.endpointStates.find? d.endpointId = some e
      ∧ r = (finalizeWrite s finished c f d e db, true) := by
  unfold finalize at h
  split at h
  · cases h
    exact Or.inl rfl
  next d hd =>
    split at h
    · cases h
    next e he =>
      split at h
      · cases h
      · cases h
        exact Or.inr ⟨d, e, hd, he, rfl⟩

/-- A claim that holds its row commits, once. -/
theorem finalize_live {finished : Time} (hrow : guardedRow db c.id (c.holds finished) = some d)
    (hstate : db.endpointStates.find? d.endpointId = some e)
    (hnew : recorded db d.id c.attemptNumber = false) :
    finalize s finished c f db = .ok (finalizeWrite s finished c f d e db, true) := by
  unfold finalize
  rw [hrow]
  dsimp only
  rw [hstate]
  dsimp only
  rw [hnew]
  rfl

/-! ## §5. What the row functions keep. -/

/-- Two versions of one delivery: what no operation of a worker changes. -/
structure SameDelivery (a b : Delivery) : Prop where
  id : b.id = a.id
  organizationId : b.organizationId = a.organizationId
  endpointId : b.endpointId = a.endpointId
  eventId : b.eventId = a.eventId

theorem outcomeRow_same (s : Settings) (finished : Time) (c : ClaimedDelivery) (f : Finalization)
    (d : Delivery) : SameDelivery d (outcomeRow s finished c f d) := by
  unfold outcomeRow
  split
  · exact ⟨rfl, rfl, rfl, rfl⟩
  · split
    · split <;> exact ⟨rfl, rfl, rfl, rfl⟩
    · exact ⟨rfl, rfl, rfl, rfl⟩

theorem finalizeRow_same (s : Settings) (finished : Time) (c : ClaimedDelivery) (f : Finalization)
    (d : Delivery) : SameDelivery d (finalizeRow s finished c f d) :=
  have h := outcomeRow_same s finished c f d
  ⟨h.id, h.organizationId, h.endpointId, h.eventId⟩

/-- A finalized row is terminal, or queued for a retry that was still
allowed. -/
theorem finalizeRow_status (s : Settings) (finished : Time) (c : ClaimedDelivery)
    (f : Finalization) (d : Delivery) :
    (finalizeRow s finished c f d).status.terminal = true
      ∨ ((finalizeRow s finished c f d).status = .retryScheduled
        ∧ c.attemptNumber < s.webhookMaxAttempts) := by
  show (outcomeRow s finished c f d).status.terminal = true
    ∨ ((outcomeRow s finished c f d).status = .retryScheduled ∧ _)
  unfold outcomeRow
  split
  · exact Or.inl rfl
  · split
    next hmay =>
      split
      · unfold mayRetry at hmay
        simp only [Bool.and_eq_true, decide_eq_true_eq] at hmay
        exact Or.inr ⟨rfl, hmay.1.2⟩
      · exact Or.inl rfl
    · exact Or.inl rfl

theorem finalizeRow_attemptCount (s : Settings) (finished : Time) (c : ClaimedDelivery)
    (f : Finalization) (d : Delivery) :
    (finalizeRow s finished c f d).attemptCount = d.attemptCount := by
  show (outcomeRow s finished c f d).attemptCount = _
  unfold outcomeRow
  split
  · rfl
  · split
    · split <;> rfl
    · rfl

/-- Only a row in `processing` is live. -/
theorem Delivery.processing_of_live (h : d.live now = true) : d.status = .processing := by
  unfold Delivery.live at h
  simp only [Bool.and_eq_true, decide_eq_true_eq] at h
  exact h.1

/-- The holder of a lease holds a live one. -/
theorem ClaimedDelivery.live_of_holds (h : c.holds now d = true) : d.live now = true := by
  unfold ClaimedDelivery.holds ClaimedDelivery.owns at h
  unfold Delivery.live
  simp only [Bool.and_eq_true, decide_eq_true_eq] at h ⊢
  exact ⟨h.1.1, h.2⟩

theorem ClaimedDelivery.owns_of_holds (h : c.holds now d = true) : c.owns d = true := by
  unfold ClaimedDelivery.holds at h
  exact ((Bool.and_eq_true _ _).mp h).1

theorem ClaimedDelivery.owns_iff :
    c.owns d = true ↔ d.status = .processing ∧ d.leaseToken = some c.leaseToken := by
  unfold ClaimedDelivery.owns
  rw [Bool.and_eq_true, decide_eq_true_eq, decide_eq_true_eq]

/-- A lease that is live later is live now. -/
theorem Delivery.live_anti {later : Time} (h : now ≤ later)
    (hl : d.live later = true) : d.live now = true := by
  unfold Delivery.live at hl ⊢
  simp only [Bool.and_eq_true, Option.any_eq_true, decide_eq_true_eq] at hl ⊢
  obtain ⟨hp, t, ht, hlt⟩ := hl
  exact ⟨hp, t, ht, lt_of_le_of_lt h hlt⟩

/-- What is due is queued, or processing. -/
theorem Delivery.status_of_due (h : d.due now = true) :
    d.status.queued = true ∨ d.status = .processing := by
  unfold Delivery.due at h
  simp only [Bool.or_eq_true, Bool.and_eq_true, decide_eq_true_eq] at h
  rcases h with h | h
  · exact Or.inl h.1
  · exact Or.inr h.1

/-- What is due is not terminal. -/
theorem Delivery.nonterminal_of_due (h : d.due now = true) : d.status.terminal = false := by
  rcases Delivery.status_of_due h with hq | hp
  · cases hstatus : d.status <;>
      simp [hstatus, DeliveryStatus.queued, DeliveryStatus.terminal] at hq ⊢
  · rw [hp]
    rfl

end WebhookPlatform
