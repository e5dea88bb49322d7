/-
  WebhookPlatform.Transactions
  **THE PLATFORM, ONE SQL STATEMENT AT A TIME.**

  The atomic operations of `Platform`, cut into the statements they issue:
  any number of workers, API clients and maintenance loops run them against
  one database under READ COMMITTED, and between two statements of one
  transaction every other transaction may move.  The functions that compute
  on what was read are those of the atomic model.

  Conventions of the embedding:

    • `now()` is the start of the transaction, so a call carries the clock
      at its beginning;
    • `INSERT … ON CONFLICT DO NOTHING` followed by `SELECT … FOR UPDATE` of
      the same state row is one `lock`: the row is there from then on;
    • rows are written when the transaction commits, which is when others
      can see them; until then the row locks keep them as they were read;
    • an insert takes a share lock on the event that its foreign key names,
      and an exclusive lock on its entry of a unique index.
-/
import WebhookPlatform.Lifecycle
import WebhookPlatform.Platform
import WebhookPlatform.Lib.RowLocks

namespace WebhookPlatform

open Relational Transition RowLocks

/-! ## §1. Locks and shared data. -/

/-- What can be locked. -/
inductive Lock where
  /-- `global_control_state`. -/
  | scheduler
  /-- `tenant_quota_state`. -/
  | tenant (organizationId : Nat)
  /-- `endpoint_quota_state`. -/
  | endpointState (endpointId : Nat)
  | delivery (id : Nat)
  /-- An event, `FOR UPDATE`. -/
  | event (id : Nat)
  /-- An event, `FOR KEY SHARE`. -/
  | eventShare (id : Nat)
  /-- An entry of `uq_events_idempotency`. -/
  | eventEntry (projectId : Nat) (idempotencyKey : String)
  /-- An entry of `uq_replay_operations_project_key`. -/
  | operationEntry (projectId : Nat) (idempotencyKey : String)
  deriving Repr, DecidableEq

/-- Two share locks go together; otherwise a row has one holder. -/
def Lock.conflict : Lock → Lock → Bool
  | .eventShare _, .eventShare _ => false
  | .event i, .eventShare j => decide (i = j)
  | .eventShare i, .event j => decide (i = j)
  | a, b => decide (a = b)

theorem Lock.conflict_symm (a b : Lock) : a.conflict b = b.conflict a := by
  cases a <;> cases b <;> simp [Lock.conflict, eq_comm]

/-- The committed world, and the claims that a release or a finalization
has settled, in order. -/
structure Shared extends World where
  settled : List ClaimedDelivery := []

/-! ## §2. Transactions. -/

/-- A call of `claim_due`. -/
structure ClaimCall where
  now : Time
  limit : Nat
  tokens : List Uuid

/-- What `claim_due` holds once its rows are locked; `seen` is the database
as the row-locking select read it. -/
structure Batch where
  available : Nat
  globalState : GlobalControlState
  seen : Db
  candidates : List Delivery

/-- `organization_ids`. -/
def Batch.organizationIds (b : Batch) : List Nat :=
  sortedSet (b.candidates.map Delivery.organizationId)

/-- `endpoint_ids`. -/
def Batch.endpointIds (b : Batch) : List Nat :=
  sortedSet (b.candidates.map Delivery.endpointId)

/-- A call of `ingest_event` that passed validation. -/
structure Ingest (s : Settings) where
  project : Project
  call : IngestCall
  content : Content
  now : Time
  valid : call.content s = .ok content

/-- What an admitted event is stored with. -/
structure Acceptance where
  envelopeBytes : Bytes
  endpoints : List WebhookEndpoint
  tenant : TenantQuotaState

/-- A call of `replay_delivery`. -/
structure ReplayCall where
  project : Project
  deliveryId : Uuid
  draws : ReplayDraws
  now : Time

/-- A call of `replay_deliveries`. -/
structure BulkCall where
  project : Project
  deliveryIds : List Uuid
  idempotencyKey : String
  draws : ReplayDraws
  now : Time

/-- The lengths that `replay_deliveries` accepts; what it raises otherwise. -/
def BulkCall.validated (s : Settings) (q : BulkCall) : Except AppError Unit :=
  if ¬ (1 ≤ q.idempotencyKey.length ∧ q.idempotencyKey.length ≤ s.idempotencyKeyMaxLength) then
    .error (.validation "Idempotency-Key length is invalid")
  else if ¬ (1 ≤ q.deliveryIds.length ∧ q.deliveryIds.length ≤ s.bulkReplayMaxDeliveries) then
    .error (.validation "Replay batch size exceeds configured limit")
  else .ok ()

/-- The end of both replays: the copies to insert and their record.  `bulk`
is the call of `replay_deliveries` that gets the answer. -/
structure ReplayPlan where
  bulk : Option BulkCall
  now : Time
  organizationId : Nat
  tenant : TenantQuotaState
  sources : List Delivery
  copies : List (Nat → Delivery)
  operation : ReplayOperation

/-- The states of the transactions: each names the statement that comes
next, and carries what the transaction has read. -/
inductive Txn (s : Settings) where
  | claimGlobal (k : ClaimCall)
  | claimLive (k : ClaimCall) (g : GlobalControlState)
  | claimScan (k : ClaimCall) (g : GlobalControlState) (available : Nat)
  | claimRows (k : ClaimCall) (g : GlobalControlState) (available : Nat) (ids : List Nat)
  | claimTenants (k : ClaimCall) (b : Batch)
  | claimEndpoints (k : ClaimCall) (b : Batch) (tenants : Nat → TenantQuotaState)
  | claimTenantCounts (k : ClaimCall) (b : Batch) (tenants : Nat → TenantQuotaState)
      (endpoints : Nat → EndpointQuotaState)
  | claimEndpointCounts (k : ClaimCall) (b : Batch) (tenants : Nat → TenantQuotaState)
      (endpoints : Nat → EndpointQuotaState) (tenantCounts : Nat → Nat)
  | claimWrite (k : ClaimCall) (b : Batch) (r : Reads)
  | claimNothing (k : ClaimCall)
  | renewSelect (now : Time) (c : ClaimedDelivery)
  | renewWrite (now : Time) (c : ClaimedDelivery) (d : Delivery)
  | releaseSelect (now : Time) (c : ClaimedDelivery)
  | releaseWrite (now : Time) (c : ClaimedDelivery) (d : Delivery)
  | finalizeSelect (now : Time) (c : ClaimedDelivery) (f : Finalization)
  | finalizeState (now : Time) (c : ClaimedDelivery) (f : Finalization) (d : Delivery)
  | finalizeWrite (now : Time) (c : ClaimedDelivery) (f : Finalization) (d : Delivery)
      (e : EndpointQuotaState)
  | cancelSelect (now : Time) (projectId : Nat) (deliveryId : Uuid) (reason : Option String)
  | cancelState (now : Time) (reason : Option String) (d : Delivery)
  | cancelWrite (now : Time) (reason : Option String) (d : Delivery)
      (state : Option EndpointQuotaState)
  | ingestCheck (q : Ingest s)
  | ingestGlobal (q : Ingest s)
  | ingestTenant (q : Ingest s)
  | ingestRecheck (q : Ingest s) (tenant : TenantQuotaState)
  | ingestEndpoints (q : Ingest s) (tenant : TenantQuotaState) (bytes : Bytes)
  | ingestBacklog (q : Ingest s) (a : Acceptance)
  | ingestOldest (q : Ingest s) (a : Acceptance)
  | ingestRetained (q : Ingest s) (a : Acceptance)
  | ingestFlush (q : Ingest s) (a : Acceptance)
  | ingestWrite (q : Ingest s) (a : Acceptance) (eventId : Nat)
  | ingestRaced (q : Ingest s)
  | ingestReread (q : Ingest s)
  | ingestReturn (q : Ingest s) (r : Except AppError Event)
  | ingested (projectId : Nat) (call : IngestCall) (r : Except AppError Event)
  | replaySelect (q : ReplayCall)
  | replayEvent (q : ReplayCall) (original : Delivery)
  | replayVersion (q : ReplayCall) (original : Delivery)
  | replayGlobal (q : ReplayCall) (original : Delivery)
  | replayTenant (q : ReplayCall) (original : Delivery)
  | bulkCheck (q : BulkCall)
  | bulkGlobal (q : BulkCall)
  | bulkTenant (q : BulkCall)
  | bulkRecheck (q : BulkCall) (tenant : TenantQuotaState)
  | bulkSelect (q : BulkCall) (tenant : TenantQuotaState)
  | bulkEvent (q : BulkCall) (tenant : TenantQuotaState) (sources : List Delivery) (d : Delivery)
      (rest : List Delivery)
  | bulkVersion (q : BulkCall) (tenant : TenantQuotaState) (sources : List Delivery)
      (d : Delivery) (rest : List Delivery)
  | bulkReturn (q : BulkCall) (r : Except AppError ReplayOperation)
  | bulkReplayed (q : BulkCall) (r : Except AppError ReplayOperation)
  | replayBacklog (p : ReplayPlan)
  | replayOldest (p : ReplayPlan)
  | replayInsert (p : ReplayPlan)
  | replayRecord (p : ReplayPlan)
  | replayWrite (p : ReplayPlan)
  | purgeSelect (now : Time)
  | purgeUnsafe (now : Time) (events : List Event)
  | purgeWrite (now : Time) (events : List Event)
  /-- Nothing to write: a refusal, an exception, an answer already there. -/
  | rollback
  | returned

/-! ## §3. Statements. -/

/-- `SELECT … FROM deliveries … FOR UPDATE` of at most one row. -/
def selectForUpdate {s : Settings} (find : Db → Option Delivery) (next : Option Delivery → Txn s) :
    Stmt Shared Lock (Txn s) :=
  .lock (fun d => (find d.db).toList.map fun x => .delivery x.id) fun d => next (find d.db)

/-- `SELECT … FROM endpoint_quota_state … FOR UPDATE`. -/
def selectState {s : Settings} (endpointId : Nat) (next : Option EndpointQuotaState → Txn s) :
    Stmt Shared Lock (Txn s) :=
  .lock (fun d => (d.db.endpointStates.find? endpointId).toList.map fun _ =>
      .endpointState endpointId)
    fun d => next (d.db.endpointStates.find? endpointId)

/-- The deliveries that the claim selected, with their tokens. -/
def claimPicks (s : Settings) (k : ClaimCall) (b : Batch) (r : Reads) : List (Delivery × Uuid) :=
  (r.choose s k.now b.available).selected.zip k.tokens

/-- What a claim commits. -/
def Shared.claimed (s : Settings) (k : ClaimCall) (b : Batch) (r : Reads)
    (claims : List ClaimedDelivery) (d : Shared) : Shared :=
  { d with
    db := { r.store s k.now (r.choose s k.now b.available) d.db with
      deliveries := d.db.deliveries.putAll (claimedRows s k.now (claimPicks s k b r)) }
    issued := d.issued ++ claims
    drawn := d.drawn ++ k.tokens }

/-- What a finalization commits; the unique constraint on the attempt record
may refuse it. -/
def Shared.finalized (s : Settings) (now : Time) (c : ClaimedDelivery) (f : Finalization)
    (x : Delivery) (e : EndpointQuotaState) (d : Shared) : Shared :=
  if recorded d.db x.id c.attemptNumber then d
  else { d with db := finalizeWrite s now c f x e d.db, settled := d.settled ++ [c] }

/-- The refusal of `check_saturation` for the oldest due delivery. -/
def tooOld (s : Settings) (now : Time) (db : Db) : Bool :=
  (oldestDue db now).any fun oldest =>
    decide (s.globalOldestDueAdmissionSeconds ≤ now - oldest)

/-- The plan of `replay_delivery`, before it is charged. -/
def singlePlan (q : ReplayCall) (original : Delivery) (tenant : TenantQuotaState) : ReplayPlan where
  bulk := none
  now := q.now
  organizationId := original.organizationId
  tenant := tenant
  sources := [original]
  copies := [replayCopy original (q.draws.replayPublicId 0) q.now]
  operation := singleOperation q.project original q.draws q.now

/-- The plan of `replay_deliveries`, before it is charged. -/
def bulkPlan (q : BulkCall) (sources : List Delivery) (tenant : TenantQuotaState) :
    ReplayPlan where
  bulk := some q
  now := q.now
  organizationId := q.project.organizationId
  tenant := tenant
  sources := sources
  copies := replayCopies sources q.deliveryIds q.draws q.now
  operation := bulkOperation q.project q.deliveryIds q.idempotencyKey q.draws q.now

/-- The replays that the plan asks for. -/
def ReplayPlan.count (p : ReplayPlan) : Nat := p.operation.requestedCount

/-- The plan is refused. -/
def ReplayPlan.refuse {s : Settings} (p : ReplayPlan) (e : AppError) : Txn s :=
  match p.bulk with
  | none => .rollback
  | some q => .bulkReturn q (.error e)

/-- The plan is committed. -/
def ReplayPlan.done {s : Settings} (p : ReplayPlan) : Txn s :=
  match p.bulk with
  | none => .returned
  | some q => .bulkReplayed q (.ok p.operation)

/-- `admit_replays_locked`, as far as its first query. -/
def admitPlan (s : Settings) (p : ReplayPlan) : Txn s :=
  if p.count < 1 ∨ s.bulkReplayMaxDeliveries < p.count then
    p.refuse (.quotaExceeded "bulk_replay_size" s.quotaRetryAfterMaxSeconds)
  else .replayBacklog p

/-- The loop over the sources of a bulk replay. -/
def bulkNext (s : Settings) (q : BulkCall) (tenant : TenantQuotaState) (sources : List Delivery) :
    List Delivery → Txn s
  | [] => admitPlan s (bulkPlan q sources tenant)
  | d :: rest => .bulkEvent q tenant sources d rest

/-- An ingest that finds the key in use, or goes on to `next`. -/
def ingestLookup {s : Settings} (P : Primitives) (q : Ingest s) (next : Txn s) (d : Shared) :
    Txn s :=
  match existingEvent d.db q.project.id q.call.idempotencyKey with
  | some e => .ingestReturn q (reuseEvent P e q.content)
  | none => next

/-- The re-read after an `IntegrityError`. -/
def ingestAnswer {s : Settings} (P : Primitives) (q : Ingest s) (d : Shared) :
    Except AppError Event :=
  match existingEvent d.db q.project.id q.call.idempotencyKey with
  | some e => reuseEvent P e q.content
  | none => .error (.conflict "Idempotency-Key was already used with different content")

/-- The `ConflictError` of a bulk replay whose key is in use. -/
def replayConflict : AppError :=
  .conflict "Idempotency-Key was already used with different deliveries"

/-- The answer from the operation that holds the key. -/
def reuseOperation (o : ReplayOperation) (deliveryIds : List Uuid) :
    Except AppError ReplayOperation :=
  if o.sourceDeliveryIds = deliveryIds then .ok o else .error replayConflict

/-- A bulk replay that finds its key in use, or goes on to `next`. -/
def bulkLookup {s : Settings} (q : BulkCall) (next : Txn s) (d : Shared) : Txn s :=
  match existingOperation d.db q.project.id q.idempotencyKey with
  | some o => .bulkReturn q (reuseOperation o q.deliveryIds)
  | none => next

/-- The next statement of each transaction. -/
def Txn.stmt (P : Primitives) (s : Settings) : Txn s → Option (Stmt Shared Lock (Txn s))
  -- claim_due, select_fair_deliveries
  | .claimGlobal k =>
    some (.lock (fun _ => [.scheduler]) fun d => .claimLive k (globalState d.db k.now))
  | .claimLive k g => some (.read fun d =>
    if availableSlots s k.now k.limit d.db = 0 then .claimNothing k
    else .claimScan k g (availableSlots s k.now k.limit d.db))
  | .claimScan k g available => some (.read fun d =>
    if (candidateIds s k.now available d.db).isEmpty then .claimNothing k
    else .claimRows k g available (candidateIds s k.now available d.db))
  | .claimRows k g available ids => some (.lockSkip none
      (fun d => (ids.filterMap d.db.deliveries.find?).map fun x => .delivery x.id)
      fun d got =>
        let candidates := (ids.filterMap d.db.deliveries.find?).filter fun x =>
          decide (Lock.delivery x.id ∈ got)
        if candidates.isEmpty then .claimNothing k
        else .claimTenants k ⟨available, g, d.db, candidates⟩)
  | .claimTenants k b => some (.lock (fun _ => b.organizationIds.map .tenant)
      fun d => .claimEndpoints k b (tenantState s d.db k.now))
  | .claimEndpoints k b tenants => some (.lock (fun _ => b.endpointIds.map .endpointState)
      fun d => .claimTenantCounts k b tenants (endpointState s d.db k.now))
  | .claimTenantCounts k b tenants endpoints => some (.read fun d =>
    .claimEndpointCounts k b tenants endpoints (liveOfTenant d.db k.now))
  | .claimEndpointCounts k b tenants endpoints tenantCounts => some (.read fun d =>
    .claimWrite k b ⟨b.globalState, b.candidates, tenants, endpoints, tenantCounts,
      liveOfEndpoint d.db k.now⟩)
  | .claimWrite k b r =>
    match claimAll b.seen (claimPicks s k b r) with
    | .error _ => some (.commit id .returned)
    | .ok claims => some (.commit (Shared.claimed s k b r claims) .returned)
  | .claimNothing k =>
    some (.commit (fun d => { d with db := ensureGlobalState k.now d.db }) .returned)
  -- renew_lease, release_claim, _finalize
  | .renewSelect now c => some (selectForUpdate (guardedRow · c.id (c.holds now)) fun
      | none => .rollback
      | some x => .renewWrite now c x)
  | .renewWrite now _ x => some (.commit
      (fun d => { d with db.deliveries := d.db.deliveries.put (renewRow s now x) }) .returned)
  | .releaseSelect now c => some (selectForUpdate (guardedRow · c.id c.owns) fun
      | none => .rollback
      | some x => .releaseWrite now c x)
  | .releaseWrite now c x => some (.commit
      (fun d => { d with
        db.deliveries := d.db.deliveries.put (releaseRow now x), settled := d.settled ++ [c] })
      .returned)
  | .finalizeSelect now c f => some (selectForUpdate (guardedRow · c.id (c.holds now)) fun
      | none => .rollback
      | some x => .finalizeState now c f x)
  | .finalizeState now c f x => some (selectState x.endpointId fun
      | none => .rollback
      | some e => .finalizeWrite now c f x e)
  | .finalizeWrite now c f x e => some (.commit (Shared.finalized s now c f x e) .returned)
  -- cancel_delivery
  | .cancelSelect now projectId deliveryId reason =>
    some (selectForUpdate (projectDelivery · projectId deliveryId) fun
      | none => .rollback
      | some x => if x.status.queued then .cancelState now reason x else .rollback)
  | .cancelState now reason x => some (selectState x.endpointId (.cancelWrite now reason x))
  | .cancelWrite now reason x state =>
    some (.commit (fun d => { d with db := WebhookPlatform.cancelWrite now reason x state d.db })
      .returned)
  -- ingest_event
  | .ingestCheck q => some (.read (ingestLookup P q (.ingestGlobal q)))
  | .ingestGlobal q => some (.lock (fun _ => [.scheduler]) fun _ => .ingestTenant q)
  | .ingestTenant q => some (.lock (fun _ => [.tenant q.project.organizationId])
      fun d => .ingestRecheck q (tenantState s d.db q.now q.project.organizationId))
  | .ingestRecheck q tenant => some (.read (ingestLookup P q
      (match canonicalJson (envelope P q.project q.call q.content.mode q.now) with
        | none => .ingestReturn q (.error .valueError)
        | some bytes => .ingestEndpoints q tenant bytes)))
  | .ingestEndpoints q tenant bytes => some (.read fun d =>
    let endpoints := fanout d.db q.project.id q.call.eventType
    if s.tenantFanoutPerEvent < endpoints.length then
      .ingestReturn q (.error (.quotaExceeded "fanout_per_event" s.quotaRetryAfterMaxSeconds))
    else .ingestBacklog q ⟨bytes, endpoints, tenant⟩)
  | .ingestBacklog q a => some (.read fun d =>
    if s.globalMaxBacklog < backlog d.db + a.endpoints.length then
      .ingestReturn q (.error (.saturation "global_backlog"))
    else .ingestOldest q a)
  | .ingestOldest q a => some (.read fun d =>
    if tooOld s q.now d.db then .ingestReturn q (.error (.saturation "oldest_due_age"))
    else .ingestRetained q a)
  | .ingestRetained q a => some (.read fun d =>
    if s.tenantRetainedBytes
        < retainedBytes d.db q.project.organizationId + a.envelopeBytes.length then
      .ingestReturn q (.error (.quotaExceeded "retained_bytes" s.quotaRetryAfterMaxSeconds))
    else
      match chargeEvent s a.tenant q.now a.endpoints.length with
      | .error e => .ingestReturn q (.error e)
      | .ok tenant => .ingestFlush q { a with tenant := tenant })
  | .ingestFlush q a =>
    some (.lock (fun _ => [.eventEntry q.project.id q.call.idempotencyKey]) fun d =>
      if (existingEvent d.db q.project.id q.call.idempotencyKey).isSome then .ingestRaced q
      else .ingestWrite q a d.db.events.next)
  | .ingestWrite q a eventId => some (.commit
      (fun d => { d with
        db := acceptEvent P s q.now q.project q.call q.content a.envelopeBytes a.endpoints
          a.tenant d.db })
      (.ingested q.project.id q.call
        (.ok (newEvent P q.project q.call q.content a.envelopeBytes q.now eventId))))
  | .ingestRaced q => some (.commit id (.ingestReread q))
  | .ingestReread q => some (.read fun d =>
    .ingested q.project.id q.call (ingestAnswer P q d))
  | .ingestReturn q r => some (.commit id (.ingested q.project.id q.call r))
  | .ingested _ _ _ => none
  -- replay_delivery
  | .replaySelect q => some (selectForUpdate (projectDelivery · q.project.id q.deliveryId) fun
      | none => .rollback
      | some x => .replayEvent q x)
  | .replayEvent q x => some (.read fun d =>
    if (d.db.events.find? x.eventId).any Event.replayable then .replayVersion q x
    else .rollback)
  | .replayVersion q x => some (.read fun d =>
    match ensureVersion d.db q.now x with
    | .error _ => .rollback
    | .ok _ => .replayGlobal q x)
  | .replayGlobal q x => some (.lock (fun _ => [.scheduler]) fun _ => .replayTenant q x)
  | .replayTenant q x => some (.lock (fun _ => [.tenant x.organizationId]) fun d =>
    admitPlan s (singlePlan q x (tenantState s d.db q.now x.organizationId)))
  -- replay_deliveries
  | .bulkCheck q => some (.read (bulkLookup q (.bulkGlobal q)))
  | .bulkGlobal q => some (.lock (fun _ => [.scheduler]) fun _ => .bulkTenant q)
  | .bulkTenant q => some (.lock (fun _ => [.tenant q.project.organizationId]) fun d =>
    .bulkRecheck q (tenantState s d.db q.now q.project.organizationId))
  | .bulkRecheck q tenant => some (.read (bulkLookup q (.bulkSelect q tenant)))
  | .bulkSelect q tenant => some (.lock
      (fun d => (replaySources d.db q.project.id q.deliveryIds).map fun x => .delivery x.id)
      fun d =>
        let sources := replaySources d.db q.project.id q.deliveryIds
        if (sources.map Delivery.publicId).dedup.length ≠ q.deliveryIds.length then
          .bulkReturn q
            (.error (.validation "All replay sources must be dead deliveries in the project"))
        else bulkNext s q tenant sources sources)
  | .bulkEvent q tenant sources x rest => some (.read fun d =>
    if (d.db.events.find? x.eventId).any Event.replayable then
      .bulkVersion q tenant sources x rest
    else .bulkReturn q (.error (.conflict "Delivery event payload has been purged")))
  | .bulkVersion q tenant sources x rest => some (.read fun d =>
    match ensureVersion d.db q.now x with
    | .error e => .bulkReturn q (.error e)
    | .ok _ => bulkNext s q tenant sources rest)
  | .bulkReturn q r => some (.commit id (.bulkReplayed q r))
  | .bulkReplayed _ _ => none
  -- the end of both replays
  | .replayBacklog p => some (.read fun d =>
    if s.globalMaxBacklog < backlog d.db + p.count then p.refuse (.saturation "global_backlog")
    else .replayOldest p)
  | .replayOldest p => some (.read fun d =>
    if tooOld s p.now d.db then p.refuse (.saturation "oldest_due_age")
    else
      match chargeReplays s p.tenant p.now p.count with
      | .error e => p.refuse e
      | .ok tenant => .replayInsert { p with tenant := tenant })
  | .replayInsert p => some (.lock (fun _ => p.sources.map fun x => .eventShare x.eventId)
      fun _ => .replayRecord p)
  | .replayRecord p => some (.lock
      (fun _ => [.operationEntry p.operation.projectId p.operation.idempotencyKey]) fun d =>
        if (existingOperation d.db p.operation.projectId p.operation.idempotencyKey).isSome then
          p.refuse .integrityError
        else .replayWrite p)
  | .replayWrite p => some (.commit
      (fun d => { d with
        db := acceptReplays s p.now p.organizationId p.tenant p.copies p.operation d.db })
      p.done)
  -- _purge_event_payloads
  | .purgeSelect now => some (.lockSkip (some s.lifecycleCleanupBatchSize)
      (fun d => (purgeCandidates d.db now).map fun e => .event e.id)
      fun d got =>
        let events := (purgeCandidates d.db now).filter fun e => decide (Lock.event e.id ∈ got)
        if events.isEmpty then .rollback else .purgeUnsafe now events)
  | .purgeUnsafe now events => some (.read fun d =>
    .purgeWrite now (events.filter fun e => !hasNonterminalDelivery d.db e.id))
  | .purgeWrite now events => some (.commit
      (fun d => { d with db.events := d.db.events.putAll (events.map (purgeRow now)) }) .returned)
  | .rollback => some (.commit id .returned)
  | .returned => none

/-! ## §4. The program. -/

/-- The calls. -/
inductive Call where
  | claim (limit : Nat) (tokens : List Uuid)
  | renew (c : ClaimedDelivery)
  | release (c : ClaimedDelivery)
  | finalize (c : ClaimedDelivery) (f : Finalization)
  | cancel (projectId : Nat) (deliveryId : Uuid) (reason : Option String)
  | ingest (projectId : Nat) (call : IngestCall)
  | replay (projectId : Nat) (deliveryId : Uuid) (draws : ReplayDraws)
  | replayMany (projectId : Nat) (deliveryIds : List Uuid) (idempotencyKey : String)
      (draws : ReplayDraws)
  | purge

/-- Where a call begins: workers act on claims they were handed, clients on a
project they are authorized for; validation comes before the first query. -/
def Call.begin (s : Settings) (d : Shared) : Call → Option (Txn s)
  | .claim limit tokens =>
    if 0 < limit ∧ tokens.length = limit then some (.claimGlobal ⟨d.clock, limit, tokens⟩)
    else none
  | .renew c => if c ∈ d.issued then some (.renewSelect d.clock c) else none
  | .release c => if c ∈ d.issued then some (.releaseSelect d.clock c) else none
  | .finalize c f => if c ∈ d.issued then some (.finalizeSelect d.clock c f) else none
  | .cancel projectId deliveryId reason =>
    (d.db.projects.find? projectId).map fun p => .cancelSelect d.clock p.id deliveryId reason
  | .ingest projectId call =>
    (d.db.projects.find? projectId).map fun p =>
      match valid : call.content s with
      | .error e => .ingested p.id call (.error e)
      | .ok content => .ingestCheck ⟨p, call, content, d.clock, valid⟩
  | .replay projectId deliveryId draws =>
    (d.db.projects.find? projectId).map fun p => .replaySelect ⟨p, deliveryId, draws, d.clock⟩
  | .replayMany projectId deliveryIds idempotencyKey draws =>
    (d.db.projects.find? projectId).map fun p =>
      let q : BulkCall := ⟨p, deliveryIds, idempotencyKey, draws, d.clock⟩
      match q.validated s with
      | .error e => .bulkReplayed q (.error e)
      | .ok _ => .bulkCheck q
  | .purge => some (.purgeSelect d.clock)

/-- **THE PLATFORM AS CONCURRENT TRANSACTIONS**; the environment is the
clock, which never goes back. -/
def platform (P : Primitives) (s : Settings) : Program Shared Lock (Txn s) Call Time where
  start d c := (c.begin s d).map fun t => (d, t)
  stmt := Txn.stmt P s
  env d now := if d.clock ≤ now then some { d with clock := now } else none
  conflict := Lock.conflict

/-- A state of the whole: the shared data, the open transactions, their
locks. -/
abbrev Platform (s : Settings) := Sys Shared Lock (Txn s)

/-! ## §5. The small deployment. -/

/-- The small deployment, with no transaction open. -/
def smallShared : Shared := { smallWorld with }

/-- An interleaving of transactions on the small deployment. -/
abbrev smallInterleaving (s : Settings) (ms : List (Move Call Time)) :
    Option (Platform s) :=
  run (platform smallPrimitives s).step (Sys.initial smallShared) ms

end WebhookPlatform
