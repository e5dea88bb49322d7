/-
  WebhookPlatform.WebhookService
  **INGEST, REPLAY, CANCEL, PAUSE** (`app/services/webhook_service.py`,
  `event_type_matches` of `app/webhook_security.py`).

  The pieces that a transaction is made of (the content check, the fan-out,
  the rows it inserts) are definitions of their own, shared by the atomic
  operations of this file and by the statement-level models of ingest and
  replay.  `project` is the row that authorization has returned; the audit
  record is left out; UUIDs, the trace headers, SHA-256 and `isoformat` are
  arguments.
-/
import WebhookPlatform.DeliveryService

namespace WebhookPlatform

open Relational Exceptions List

/-! ## §1. Ingest: what is checked and what is written. -/

/-- The library functions whose results are only compared or printed. -/
structure Primitives where
  sha256 : Bytes → Bytes
  isoformat : Time → String

/-- The arguments of `ingest_event` beside the project, and what it draws. -/
structure IngestCall where
  idempotencyKey : String
  eventType : String
  payload : Json
  envelopeMode : String := "native"
  eventPublicId : Uuid
  deliveryPublicId : Nat → Uuid
  traceparent : Option String := none
  tracestate : Option String := none

/-- `str.encode` of a text, which has no lone surrogates. -/
def utf8 (text : String) : Bytes := (encodeUtf8 (pyStr text)).getD []

/-- The two accepted values of `envelope_mode`. -/
def EnvelopeMode.parse : String → Option EnvelopeMode
  | "native" => some .native
  | "cloudevents" => some .cloudevents
  | _ => none

/-- `fingerprint_material`. -/
def fingerprintMaterial (mode : EnvelopeMode) (eventType : String) (payloadBytes : Bytes) :
    Bytes :=
  let material := utf8 eventType ++ [0] ++ payloadBytes
  match mode with
  | .native => material
  | .cloudevents => utf8 "cloudevents" ++ [0] ++ material

/-- The content of a call that passed validation. -/
structure Content where
  eventType : String
  mode : EnvelopeMode
  payloadBytes : Bytes
  deriving DecidableEq

/-- `fingerprint`. -/
def Content.fingerprint (P : Primitives) (c : Content) : Bytes :=
  P.sha256 (fingerprintMaterial c.mode c.eventType c.payloadBytes)

/-- The validation in front of the first query. -/
def IngestCall.content (s : Settings) (call : IngestCall) : Except AppError Content :=
  if ¬ (1 ≤ call.idempotencyKey.length ∧ call.idempotencyKey.length ≤ s.idempotencyKeyMaxLength)
  then .error (.validation "Idempotency-Key length is invalid")
  else
    match EnvelopeMode.parse call.envelopeMode with
    | none => .error (.validation "Envelope mode is invalid")
    | some mode =>
      match canonicalJson call.payload with
      | none => .error (.validation "Payload must be valid finite JSON")
      | some payloadBytes =>
        if s.webhookPayloadMaxBytes < payloadBytes.length then
          .error (.validation "Webhook payload exceeds configured limit")
        else .ok ⟨call.eventType, mode, payloadBytes⟩

/-- The query for an event under the project's idempotency key. -/
def existingEvent (db : Db) (projectId : Nat) (idempotencyKey : String) : Option Event :=
  db.events.rows.find? fun e =>
    decide (e.projectId = projectId) && decide (e.idempotencyKey = idempotencyKey)

/-- Not `content_changed`. -/
def Event.sameContent (P : Primitives) (e : Event) (c : Content) : Bool :=
  decide (e.eventType = c.eventType) && decide (e.envelopeMode = c.mode)
    && decide (e.payloadHash = c.fingerprint P)

/-- The answer to a call whose key is in use. -/
def reuseEvent (P : Primitives) (e : Event) (c : Content) : Except AppError Event :=
  if e.sameContent P c then .ok e
  else .error (.conflict "Idempotency-Key was already used with different content")

/-- One entry of an endpoint's filter against an event type. -/
def patternMatches (eventType : PyStr) : Json → Bool
  | .str pattern =>
    if pattern.drop (pattern.length - 2) = pyStr ".*" then
      decide (pattern.dropLast <+: eventType)
    else decide (eventType = pattern)
  | _ => false

/-- `event_type_matches`. -/
def eventTypeMatches (eventType : String) : Option Json → Bool
  | none => true
  | some (.arr patterns) => patterns.any (patternMatches (pyStr eventType))
  | some _ => false

/-- The endpoints the event fans out to. -/
def fanout (db : Db) (projectId : Nat) (eventType : String) : List WebhookEndpoint :=
  db.endpoints.rows.filter fun w =>
    decide (w.projectId = projectId) && w.isActive && eventTypeMatches eventType w.eventTypes

/-- `envelope`. -/
def envelope (P : Primitives) (project : Project) (call : IngestCall) (mode : EnvelopeMode)
    (now : Time) : Json :=
  match mode with
  | .cloudevents =>
    .obj
      [ (pyStr "data", call.payload),
        (pyStr "datacontenttype", .str (pyStr "application/json")),
        (pyStr "id", .str (pyStr call.eventPublicId)),
        (pyStr "source", .str (pyStr ("urn:webhook-platform:project:" ++ project.publicId))),
        (pyStr "specversion", .str (pyStr "1.0")),
        (pyStr "time", .str (pyStr (P.isoformat now))),
        (pyStr "type", .str (pyStr call.eventType)) ]
  | .native =>
    .obj
      [ (pyStr "id", .str (pyStr call.eventPublicId)),
        (pyStr "type", .str (pyStr call.eventType)),
        (pyStr "created_at", .str (pyStr (P.isoformat now))),
        (pyStr "data", call.payload) ]

/-- The `Event` row. -/
def newEvent (P : Primitives) (project : Project) (call : IngestCall) (c : Content)
    (envelopeBytes : Bytes) (now : Time) (id : Nat) : Event where
  id := id
  publicId := call.eventPublicId
  projectId := project.id
  idempotencyKey := call.idempotencyKey
  eventType := call.eventType
  envelopeMode := c.mode
  payload := some call.payload
  payloadHash := c.fingerprint P
  canonicalEnvelope := some envelopeBytes
  traceparent := call.traceparent
  tracestate := call.tracestate
  createdAt := now

/-- The `Delivery` row of one endpoint. -/
def newDelivery (organizationId eventId : Nat) (publicId : Uuid) (w : WebhookEndpoint)
    (now : Time) (id : Nat) : Delivery where
  id := id
  publicId := publicId
  organizationId := organizationId
  eventId := eventId
  endpointId := w.id
  endpointPublicIdSnapshot := w.publicId
  endpointUrlSnapshot := w.url
  endpointActiveSnapshot := w.isActive
  signingSecretVersionSnapshot := w.secretVersion
  signatureSchemeSnapshot := w.signatureScheme
  status := .pending
  attemptCount := 0
  nextAttemptAt := now
  createdAt := now
  updatedAt := now

/-- The `Delivery` rows of the fan-out, still without their ids. -/
def newDeliveries (organizationId eventId : Nat) (call : IngestCall)
    (endpoints : List WebhookEndpoint) (now : Time) : List (Nat → Delivery) :=
  endpoints.zipIdx.map fun w =>
    newDelivery organizationId eventId (call.deliveryPublicId w.2) w.1 now

/-- `lock_global_tenant`: the rows it creates when they are missing. -/
def ensureAdmissionState (s : Settings) (now : Time) (organizationId : Nat) (db : Db) : Db :=
  ensureTenantState s now (ensureGlobalState now db) organizationId

/-- The row that a charge puts is there, or was created in the transaction. -/
theorem find?_charged_self (hkey : tenant.organizationId = org) :
    ((ensureAdmissionState s now org db).tenantStates.put tenant).find? org = some tenant := by
  have hrow : ∃ t, (ensureAdmissionState s now org db).tenantStates.find? org = some t := by
    have hdefault : (tenantQuotaValues org s now).organizationId = org := rfl
    show ∃ t, (db.tenantStates.insert _).find? _ = some t
    rw [Table.find?_insert, if_pos hdefault]
    cases db.tenantStates.find? org <;> exact ⟨_, rfl⟩
  obtain ⟨t, ht⟩ := hrow
  exact Table.find?_put_self ht hkey

/-- The rows that a replay or an ingest ensures and charges are its own. -/
theorem find?_charged (hkey : tenant.organizationId = org) (ho : org ≠ o) :
    ((ensureAdmissionState s now org db).tenantStates.put tenant).find? o
      = db.tenantStates.find? o := by
  have hput : tenant.organizationId ≠ o := by
    rw [hkey]
    exact ho
  rw [Table.find?_put_ne hput]
  exact Table.find?_insert_ne ho

/-- What an accepted event changes: the tenant's buckets, one event, its
deliveries. -/
def acceptEvent (P : Primitives) (s : Settings) (now : Time) (project : Project)
    (call : IngestCall) (c : Content) (envelopeBytes : Bytes) (endpoints : List WebhookEndpoint)
    (tenant : TenantQuotaState) (db : Db) : Db :=
  let db := ensureAdmissionState s now project.organizationId db
  { db with
    tenantStates := db.tenantStates.put tenant
    events := db.events.append (newEvent P project call c envelopeBytes now)
    deliveries := db.deliveries.appendAll
      (newDeliveries project.organizationId db.events.next call endpoints now) }

/-- `ingest_event`, in one atomic step: the database it leaves, and the event
it returns. -/
def ingestEvent (P : Primitives) (s : Settings) (now : Time) (project : Project)
    (call : IngestCall) (db : Db) : Except AppError (Db × Event) := do
  let c ← call.content s
  match existingEvent db project.id call.idempotencyKey with
  | some e => do
      let e ← reuseEvent P e c
      .ok (db, e)
  | none =>
    match canonicalJson (envelope P project call c.mode now) with
    | none => .error .valueError
    | some bytes => do
        let endpoints := fanout db project.id call.eventType
        let tenant ← admitEventLocked s db (tenantState s db now project.organizationId) now
          project.organizationId endpoints.length bytes.length
        .ok (acceptEvent P s now project call c bytes endpoints tenant db,
          newEvent P project call c bytes now db.events.next)

theorem reuseEvent_ok (h : reuseEvent P e c = .ok e') : e' = e ∧ e.sameContent P c = true := by
  unfold reuseEvent at h
  split at h
  next hsame =>
    injection h with h
    exact ⟨h.symm, hsame⟩
  · cases h

/-- **A successful ingest** returns the event that holds the key already,
with the same content, or creates it. -/
theorem ingestEvent_ok (h : ingestEvent P s now project call db = .ok (db', e)) :
    ∃ c, call.content s = .ok c ∧
      ((db' = db ∧ existingEvent db project.id call.idempotencyKey = some e
          ∧ e.sameContent P c = true)
        ∨ ∃ bytes tenant, existingEvent db project.id call.idempotencyKey = none
          ∧ canonicalJson (envelope P project call c.mode now) = some bytes
          ∧ admitEventLocked s db (tenantState s db now project.organizationId) now
              project.organizationId (fanout db project.id call.eventType).length bytes.length
            = .ok tenant
          ∧ db' = acceptEvent P s now project call c bytes
              (fanout db project.id call.eventType) tenant db
          ∧ e = newEvent P project call c bytes now db.events.next) := by
  unfold ingestEvent at h
  obtain ⟨c, hc, h⟩ := bind_eq_ok.mp h
  refine ⟨c, hc, ?_⟩
  split at h
  next existing hex =>
    obtain ⟨e', he', h⟩ := bind_eq_ok.mp h
    injection h with h
    injection h with hdb hev
    obtain ⟨rfl, hsame⟩ := reuseEvent_ok he'
    subst hev
    exact Or.inl ⟨hdb.symm, hex, hsame⟩
  next hnone =>
    split at h
    · cases h
    next bytes hbytes =>
      obtain ⟨tenant, htenant, h⟩ := bind_eq_ok.mp h
      injection h with h
      injection h with hdb hev
      exact Or.inr ⟨bytes, tenant, hnone, hbytes, htenant, hdb.symm, hev.symm⟩

/-! ## §2. Replay. -/

/-- The delivery's event belongs to the project (`JOIN events`). -/
def ofProject (db : Db) (projectId : Nat) (d : Delivery) : Bool :=
  (db.events.find? d.eventId).any fun e => decide (e.projectId = projectId)

/-- `SELECT deliveries JOIN events WHERE project_id = … AND public_id = …`. -/
def projectDelivery (db : Db) (projectId : Nat) (publicId : Uuid) : Option Delivery :=
  db.deliveries.rows.find? fun d =>
    ofProject db projectId d && decide (d.publicId = publicId)

/-- `event.payload is not None`: a JSON `null` is read as `None` as well. -/
def Event.hasPayload (e : Event) : Bool :=
  match e.payload with
  | none | some .null => false
  | some _ => true

/-- The event still holds what a delivery needs. -/
def Event.replayable (e : Event) : Bool :=
  e.hasPayload && e.canonicalEnvelope.isSome && e.payloadPurgedAt.isNone

/-- The second half of `_ensure_replayable`: the signing version that the
delivery was accepted under can still sign. -/
def ensureVersion (db : Db) (now : Time) (d : Delivery) : Except AppError Unit :=
  match db.secretVersions.find? fun v =>
      decide (v.endpointId = d.endpointId)
        && decide (v.version = d.signingSecretVersionSnapshot) with
  | none => .error (.conflict "Delivery signing version is unavailable")
  | some version =>
    if version.retireAt.any fun t => decide (t ≤ now) then
      .error (.conflict "Delivery signing version has retired")
    else .ok ()

/-- `_ensure_replayable`. -/
def ensureReplayable (db : Db) (now : Time) (d : Delivery) : Except AppError Unit :=
  if ¬ (db.events.find? d.eventId).any Event.replayable then
    .error (.conflict "Delivery event payload has been purged")
  else ensureVersion db now d

/-- `_replay_copy`. -/
def replayCopy (original : Delivery) (publicId : Uuid) (now : Time) (id : Nat) : Delivery where
  id := id
  publicId := publicId
  organizationId := original.organizationId
  eventId := original.eventId
  endpointId := original.endpointId
  replayOfDeliveryId := some original.id
  endpointPublicIdSnapshot := original.endpointPublicIdSnapshot
  endpointUrlSnapshot := original.endpointUrlSnapshot
  endpointActiveSnapshot := original.endpointActiveSnapshot
  signingSecretVersionSnapshot := original.signingSecretVersionSnapshot
  signatureSchemeSnapshot := original.signatureSchemeSnapshot
  status := .pending
  attemptCount := 0
  nextAttemptAt := now
  createdAt := now
  updatedAt := now

/-- What an accepted replay changes. -/
def acceptReplays (s : Settings) (now : Time) (organizationId : Nat) (tenant : TenantQuotaState)
    (copies : List (Nat → Delivery)) (operation : ReplayOperation) (db : Db) : Db :=
  let db := ensureAdmissionState s now organizationId db
  { db with
    tenantStates := db.tenantStates.put tenant
    deliveries := db.deliveries.appendAll copies
    replayOperations := db.replayOperations ++ [operation] }

/-- The UUIDs a replay draws. -/
structure ReplayDraws where
  replayPublicId : Nat → Uuid
  operationPublicId : Uuid
  legacyKey : Uuid

/-- The operation record of `replay_delivery`. -/
def singleOperation (project : Project) (original : Delivery) (draws : ReplayDraws) (now : Time) :
    ReplayOperation where
  publicId := draws.operationPublicId
  organizationId := original.organizationId
  projectId := project.id
  idempotencyKey := "legacy-" ++ draws.legacyKey
  mode := .single
  requestedCount := 1
  createdCount := 1
  sourceDeliveryIds := [original.publicId]
  createdDeliveryIds := [draws.replayPublicId 0]
  createdAt := now

/-- `replay_delivery`, in one atomic step. -/
def replayDelivery (s : Settings) (now : Time) (project : Project) (deliveryId : Uuid)
    (draws : ReplayDraws) (db : Db) : Except AppError Db :=
  match projectDelivery db project.id deliveryId with
  | none => .error (.notFound "Delivery" deliveryId)
  | some original => do
      ensureReplayable db now original
      let tenant ← admitReplaysLocked s db (tenantState s db now original.organizationId) now 1
      .ok (acceptReplays s now original.organizationId tenant
        [replayCopy original (draws.replayPublicId 0) now]
        (singleOperation project original draws now) db)

/-- The query for an operation under the project's idempotency key. -/
def existingOperation (db : Db) (projectId : Nat) (idempotencyKey : String) :
    Option ReplayOperation :=
  db.replayOperations.find? fun o =>
    decide (o.projectId = projectId) && decide (o.idempotencyKey = idempotencyKey)

/-- `sources`: the dead deliveries of the project among the requested. -/
def replaySources (db : Db) (projectId : Nat) (deliveryIds : List Uuid) : List Delivery :=
  db.deliveries.rows.filter fun d =>
    ofProject db projectId d && decide (d.publicId ∈ deliveryIds) && decide (d.status = .dead)

/-- `by_public_id[public_id]`; a later row replaces an earlier one. -/
def sourceOf (sources : List Delivery) (publicId : Uuid) : Option Delivery :=
  sources.reverse.find? fun d => decide (d.publicId = publicId)

/-- The copies in the order of the request. -/
def replayCopies (sources : List Delivery) (deliveryIds : List Uuid) (draws : ReplayDraws)
    (now : Time) : List (Nat → Delivery) :=
  deliveryIds.zipIdx.filterMap fun x =>
    (sourceOf sources x.1).map fun original => replayCopy original (draws.replayPublicId x.2) now

/-- The operation record of `replay_deliveries`. -/
def bulkOperation (project : Project) (deliveryIds : List Uuid) (idempotencyKey : String)
    (draws : ReplayDraws) (now : Time) : ReplayOperation where
  publicId := draws.operationPublicId
  organizationId := project.organizationId
  projectId := project.id
  idempotencyKey := idempotencyKey
  mode := if deliveryIds.length = 1 then .single else .bulk
  requestedCount := deliveryIds.length
  createdCount := deliveryIds.length
  sourceDeliveryIds := deliveryIds
  createdDeliveryIds := (List.range deliveryIds.length).map draws.replayPublicId
  createdAt := now

/-- Every source can be replayed. -/
def ensureAllReplayable (db : Db) (now : Time) : List Delivery → Except AppError Unit
  | [] => .ok ()
  | d :: ds => do
      ensureReplayable db now d
      ensureAllReplayable db now ds

/-- `replay_deliveries`, in one atomic step. -/
def replayDeliveries (s : Settings) (now : Time) (project : Project) (deliveryIds : List Uuid)
    (idempotencyKey : String) (draws : ReplayDraws) (db : Db) : Except AppError Db :=
  if ¬ (1 ≤ idempotencyKey.length ∧ idempotencyKey.length ≤ s.idempotencyKeyMaxLength) then
    .error (.validation "Idempotency-Key length is invalid")
  else if ¬ (1 ≤ deliveryIds.length ∧ deliveryIds.length ≤ s.bulkReplayMaxDeliveries) then
    .error (.validation "Replay batch size exceeds configured limit")
  else
    match existingOperation db project.id idempotencyKey with
    | some operation =>
      if operation.sourceDeliveryIds = deliveryIds then .ok db
      else .error (.conflict "Idempotency-Key was already used with different deliveries")
    | none =>
      let sources := replaySources db project.id deliveryIds
      if (sources.map Delivery.publicId).dedup.length ≠ deliveryIds.length then
        .error (.validation "All replay sources must be dead deliveries in the project")
      else do
        ensureAllReplayable db now sources
        let tenant ← admitReplaysLocked s db
          (tenantState s db now project.organizationId) now deliveryIds.length
        .ok (acceptReplays s now project.organizationId tenant
          (replayCopies sources deliveryIds draws now)
          (bulkOperation project deliveryIds idempotencyKey draws now) db)

theorem replayDelivery_ok (h : replayDelivery s now project deliveryId draws db = .ok db') :
    ∃ original tenant, projectDelivery db project.id deliveryId = some original
      ∧ ensureReplayable db now original = .ok ()
      ∧ admitReplaysLocked s db (tenantState s db now original.organizationId) now 1 = .ok tenant
      ∧ db' = acceptReplays s now original.organizationId tenant
          [replayCopy original (draws.replayPublicId 0) now]
          (singleOperation project original draws now) db := by
  unfold replayDelivery at h
  split at h
  · cases h
  next original hfind =>
    obtain ⟨_, hensure, h⟩ := bind_eq_ok.mp h
    obtain ⟨tenant, hadmitting, h⟩ := bind_eq_ok.mp h
    injection h with h
    exact ⟨original, tenant, hfind, hensure, hadmitting, h.symm⟩

theorem replayDeliveries_ok
    (h : replayDeliveries s now project deliveryIds key draws db = .ok db') :
    db' = db ∨ ∃ tenant,
      ensureAllReplayable db now (replaySources db project.id deliveryIds) = .ok ()
      ∧ admitReplaysLocked s db (tenantState s db now project.organizationId) now
          deliveryIds.length = .ok tenant
      ∧ db' = acceptReplays s now project.organizationId tenant
          (replayCopies (replaySources db project.id deliveryIds) deliveryIds draws now)
          (bulkOperation project deliveryIds key draws now) db := by
  unfold replayDeliveries at h
  split at h
  · cases h
  split at h
  · cases h
  split at h
  · split at h
    · injection h with h
      exact Or.inl h.symm
    · cases h
  dsimp only at h
  split at h
  · cases h
  obtain ⟨_, hensure, h⟩ := bind_eq_ok.mp h
  obtain ⟨tenant, hadmitting, h⟩ := bind_eq_ok.mp h
  injection h with h
  exact Or.inr ⟨tenant, hensure, hadmitting, h.symm⟩

theorem ensureAllReplayable_ok : ensureAllReplayable db now sources = .ok ()
      ↔ ∀ d ∈ sources, ensureReplayable db now d = .ok () := by
  induction sources with
  | nil => exact ⟨fun _ d hd => absurd hd not_mem_nil, fun _ => rfl⟩
  | cons _ _ ih =>
    unfold ensureAllReplayable
    rw [bind_eq_ok, forall_mem_cons, ← ih]
    constructor
    · rintro ⟨⟨⟩, hd, hds⟩
      exact ⟨hd, hds⟩
    · rintro ⟨hd, hds⟩
      exact ⟨(), hd, hds⟩

/-- As many public ids as requested: the request names each source once, and
every id of it has one. -/
theorem replaySources_complete
    (h : ((replaySources db projectId deliveryIds).map Delivery.publicId).dedup.length
      = deliveryIds.length) :
    deliveryIds.Nodup
      ∧ ∀ id ∈ deliveryIds, ∃ x ∈ replaySources db projectId deliveryIds, x.publicId = id := by
  have hsub : ((replaySources db projectId deliveryIds).map Delivery.publicId).dedup
      ⊆ deliveryIds := by
    intro id hid
    obtain ⟨x, hx, rfl⟩ := mem_map.mp (mem_dedup.mp hid)
    have hx := (mem_filter.mp hx).2
    rw [Bool.and_eq_true, Bool.and_eq_true] at hx
    exact of_decide_eq_true hx.1.2
  have hperm := (subperm_of_subset (nodup_dedup _) hsub).perm_of_length_le h.symm.le
  refine ⟨hperm.nodup_iff.mp (nodup_dedup _), fun id hid => ?_⟩
  exact mem_map.mp (mem_dedup.mp (hperm.mem_iff.mpr hid))

/-- Every copy is a copy of one of the sources. -/
theorem mem_replayCopies (h : f ∈ replayCopies sources deliveryIds draws now) :
    ∃ original ∈ sources, ∃ publicId, f = replayCopy original publicId now := by
  obtain ⟨x, -, hx⟩ := mem_filterMap.mp h
  obtain ⟨original, hsource, hf⟩ := Option.map_eq_some_iff.mp hx
  exact ⟨original, mem_reverse.mp (mem_of_find?_eq_some hsource), _, hf.symm⟩

/-! ## §3. Cancellation. -/

/-- The canceled row. -/
def cancelRow (now : Time) (reason : Option String) (d : Delivery) : Delivery :=
  { d with
    status := .canceled
    canceledAt := some now
    canceledReason := reason
    nextAttemptAt := now
    updatedAt := now }

/-- A canceled probe gives its half-open circuit back: open, and over at once. -/
def cancelEndpoint (now : Time) (deliveryId : Nat) (e : EndpointQuotaState) :
    EndpointQuotaState :=
  if e.halfOpenProbeDeliveryId = some deliveryId then
    { e with
      halfOpenProbeDeliveryId := none
      circuitState := .opened
      circuitOpenUntil := some now
      updatedAt := now }
  else e

/-- The writes of a cancellation; `state` is the endpoint's state row. -/
def cancelWrite (now : Time) (reason : Option String) (d : Delivery)
    (state : Option EndpointQuotaState) (db : Db) : Db :=
  { db with
    deliveries := db.deliveries.put (cancelRow now reason d)
    endpointStates :=
      match state with
      | none => db.endpointStates
      | some e => db.endpointStates.put (cancelEndpoint now d.id e) }

theorem mem_cancelWrite {e' : EndpointQuotaState}
    (h : e' ∈ (cancelWrite now reason d state db).endpointStates.rows) :
    (state = none ∧ e' ∈ db.endpointStates.rows)
      ∨ ∃ e, state = some e ∧ e' ∈ (db.endpointStates.put (cancelEndpoint now d.id e)).rows := by
  cases state with
  | none => exact Or.inl ⟨rfl, h⟩
  | some e => exact Or.inr ⟨e, rfl, h⟩

/-- `cancel_delivery`, in one atomic step. -/
def cancelDelivery (now : Time) (project : Project) (deliveryId : Uuid) (reason : Option String)
    (db : Db) : Except AppError Db :=
  match projectDelivery db project.id deliveryId with
  | none => .error (.notFound "Delivery" deliveryId)
  | some d =>
    if d.status = .canceled then .ok db
    else if d.status.queued then
      .ok (cancelWrite now reason d (db.endpointStates.find? d.endpointId) db)
    else .error (.conflict "Only pending or retry-scheduled deliveries can be canceled")

theorem cancelDelivery_ok (h : cancelDelivery now project deliveryId reason db = .ok db') :
    db' = db ∨ ∃ d, d ∈ db.deliveries.rows ∧ d.status.queued = true
      ∧ db' = cancelWrite now reason d (db.endpointStates.find? d.endpointId) db := by
  unfold cancelDelivery at h
  split at h
  · cases h
  next d hfind =>
    split at h
    · injection h with h
      exact Or.inl h.symm
    split at h
    next hqueued =>
      injection h with h
      exact Or.inr ⟨d, mem_of_find?_eq_some hfind, hqueued, h.symm⟩
    · cases h

/-! ## §4. Endpoint operation. -/

/-- What an operator does to an endpoint's runtime state. -/
inductive EndpointOperation where
  | pause (reason : Option String)
  | resume
  | recover
  deriving Repr, DecidableEq

/-- `pause_endpoint`, `resume_endpoint`, `recover_endpoint_circuit`: the new
state row. -/
def EndpointOperation.apply (s : Settings) (now : Time) (e : EndpointQuotaState) :
    EndpointOperation → EndpointQuotaState
  | .pause reason =>
    { e with pausedAt := e.pausedAt.or (some now), pauseReason := reason, updatedAt := now }
  | .resume => { e with pausedAt := none, pauseReason := none, updatedAt := now }
  | .recover =>
    { e with
      retryTokens := s.endpointRetryBurst
      retryRefilledAt := now
      circuitState := .closed
      consecutiveFailures := 0
      circuitOpenUntil := none
      halfOpenProbeDeliveryId := none
      updatedAt := now }

/-- The operation on the endpoint with this public id. -/
def operateEndpoint (s : Settings) (now : Time) (project : Project) (endpointPublicId : Uuid)
    (op : EndpointOperation) (db : Db) : Except AppError Db :=
  match db.endpoints.rows.find? fun w =>
      decide (w.projectId = project.id) && decide (w.publicId = endpointPublicId) with
  | none => .error (.notFound "Webhook endpoint" endpointPublicId)
  | some w =>
    match db.endpointStates.find? w.id with
    | none => .error (.runtimeError "Endpoint runtime state is unavailable")
    | some e => .ok { db with endpointStates := db.endpointStates.put (op.apply s now e) }

theorem operateEndpoint_ok (h : operateEndpoint s now project endpointPublicId op db = .ok db') :
    ∃ e ∈ db.endpointStates.rows,
      db' = { db with endpointStates := db.endpointStates.put (op.apply s now e) } := by
  unfold operateEndpoint at h
  split at h
  · cases h
  split at h
  · cases h
  next e he =>
    injection h with h
    exact ⟨e, Table.mem_of_find? he, h.symm⟩

end WebhookPlatform
