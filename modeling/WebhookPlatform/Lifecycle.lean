/-
  WebhookPlatform.Lifecycle
  **RETENTION AND DELETION** (`app/lifecycle.py`, and the deletion requests
  of `app/services/webhook_service.py`).

    • `purgeCandidates`, `purgeRow` — which events `_purge_event_payloads`
      selects, and what it leaves of them (the transaction around these
      pieces, statement by statement, is in `Transactions`),
    • `deleteDeliveries` — a `DELETE` with what the foreign keys do,
    • `purgeTerminalDeliveries` — an operator's purge of old deliveries,
    • `Tenants` — organizations and their deletion operations,
    • `cleanupDueOrganization` — one bounded step of a deletion: cancel,
      wait, delete deliveries, delete events, delete the organization.
-/
import WebhookPlatform.WebhookService

namespace WebhookPlatform

open Relational RowNumber List

/-! ## §1. Payload retention. -/

/-- `has_nonterminal_delivery`. -/
def hasNonterminalDelivery (db : Db) (eventId : Nat) : Bool :=
  db.deliveries.rows.any fun d => decide (d.eventId = eventId) && !d.status.terminal

theorem hasNonterminalDelivery_false : hasNonterminalDelivery db eventId = false
      ↔ ∀ d ∈ db.deliveries.rows, d.eventId = eventId → d.status.terminal = true := by
  unfold hasNonterminalDelivery
  simp

/-- `_expired_by_policy(Event.created_at, payload_retention_days)`, over the
policy of the organization that owns the event's project. -/
def payloadExpired (db : Db) (now : Time) (e : Event) : Bool :=
  (db.projects.find? e.projectId).any fun p =>
    (db.policies.find? p.organizationId).any fun policy =>
      decide (e.createdAt ≤ now - (policy.payloadRetentionDays : ℚ) * 86400)

/-- The `WHERE` clause of the purge. -/
def purgeable (db : Db) (now : Time) (e : Event) : Bool :=
  e.payloadPurgedAt.isNone && (e.payload.isSome || e.canonicalEnvelope.isSome)
    && !hasNonterminalDelivery db e.id && payloadExpired db now e

/-- The events the purge selects, in its order and before its limit. -/
def purgeCandidates (db : Db) (now : Time) : List Event :=
  orderBy (fun e => toLex (e.createdAt, e.id)) (db.events.rows.filter (purgeable db now))

/-- The purged row; `None` in the JSON column is stored as a JSON `null`. -/
def purgeRow (purgedAt : Time) (e : Event) : Event :=
  { e with
    payload := some .null
    canonicalEnvelope := none
    payloadPurgedAt := some purgedAt }

/-- The events that one run of `_purge_event_payloads` selects. -/
def purgeBatch (s : Settings) (now : Time) (db : Db) : List Event :=
  (purgeCandidates db now).take s.lifecycleCleanupBatchSize

/-- `_purge_event_payloads`, in one atomic step. -/
def purgeEventPayloads (s : Settings) (now : Time) (db : Db) : Db :=
  { db with events := db.events.putAll ((purgeBatch s now db).map (purgeRow now)) }

theorem mem_purgeBatch (h : e ∈ purgeBatch s now db) :
    e ∈ db.events.rows ∧ ∀ d ∈ db.deliveries.rows, d.eventId = e.id → d.status.terminal = true := by
  have hselected := (orderBy_perm _ _).mem_iff.mp (mem_of_mem_take h)
  obtain ⟨hmem, hpurgeable⟩ := mem_filter.mp hselected
  unfold purgeable at hpurgeable
  rw [Bool.and_eq_true, Bool.and_eq_true] at hpurgeable
  have hnone : hasNonterminalDelivery db e.id = false := by
    simpa using hpurgeable.1.2
  exact ⟨hmem, hasNonterminalDelivery_false.mp hnone⟩

/-! ## §2. Deleting deliveries. -/

/-- `endpoint_quota_state.half_open_probe_delivery_id ON DELETE SET NULL`. -/
def unprobe (ids : List Nat) (e : EndpointQuotaState) : EndpointQuotaState :=
  { e with halfOpenProbeDeliveryId := e.halfOpenProbeDeliveryId.filter fun id => decide (id ∉ ids) }

/-- `deliveries.replay_of_delivery_id ON DELETE SET NULL`. -/
def unlink (ids : List Nat) (d : Delivery) : Delivery :=
  { d with replayOfDeliveryId := d.replayOfDeliveryId.filter fun id => decide (id ∉ ids) }

theorem unprobe_endpointId (ids : List Nat) (e : EndpointQuotaState) :
    (unprobe ids e).endpointId = e.endpointId := rfl

theorem unlink_id (ids : List Nat) (d : Delivery) : (unlink ids d).id = d.id := rfl

/-- `DELETE FROM deliveries WHERE id IN (…)`; attempts go with their
delivery. -/
def deleteDeliveries (ids : List Nat) (db : Db) : Db :=
  { db with
    deliveries :=
      (db.deliveries.delete fun d => decide (d.id ∈ ids)).mapRows (unlink ids) (unlink_id ids)
    endpointStates := db.endpointStates.mapRows (unprobe ids) (unprobe_endpointId ids)
    attempts := db.attempts.filter fun a => decide (a.deliveryId ∉ ids) }

theorem mem_deleteDeliveries : d' ∈ (deleteDeliveries ids db).deliveries.rows
      ↔ ∃ d ∈ db.deliveries.rows, d.id ∉ ids ∧ unlink ids d = d' := by
  refine (Table.mem_mapRows (unlink_id ids)).trans ?_
  constructor
  · rintro ⟨d, hd, rfl⟩
    obtain ⟨hmem, hout⟩ := Table.mem_delete.mp hd
    exact ⟨d, hmem, of_decide_eq_false hout, rfl⟩
  · rintro ⟨d, hmem, hout, rfl⟩
    exact ⟨d, Table.mem_delete.mpr ⟨hmem, decide_eq_false hout⟩, rfl⟩

/-- The `WHERE` clause of `purge_terminal_deliveries`. -/
def retired (s : Settings) (now : Time) (db : Db) (projectId : Nat) (d : Delivery) : Bool :=
  ofProject db projectId d && d.status.terminal
    && decide (d.updatedAt ≤ now - (s.deliveryRetentionDays : ℚ) * 86400)

/-- The deliveries that one purge selects. -/
def retiredIds (s : Settings) (now : Time) (projectId maxRecords : Nat) (db : Db) : List Nat :=
  ((orderBy Delivery.id (db.deliveries.rows.filter (retired s now db projectId))).take
    (min maxRecords s.deliveryPurgeBatchSize)).map Delivery.id

/-- `purge_terminal_deliveries`. -/
def purgeTerminalDeliveries (s : Settings) (now : Time) (project : Project) (dryRun : Bool)
    (maxRecords : Nat) (db : Db) : Db :=
  if dryRun then db else deleteDeliveries (retiredIds s now project.id maxRecords db) db

/-- A purge deletes terminal deliveries of the project only. -/
theorem mem_retiredIds (hd : d ∈ db.deliveries.rows)
    (h : d.id ∈ retiredIds s now projectId maxRecords db) :
    ofProject db projectId d = true ∧ d.status.terminal = true := by
  obtain ⟨x, hx, hid⟩ := mem_map.mp h
  have hx := (orderBy_perm _ _).mem_iff.mp (mem_of_mem_take hx)
  obtain ⟨hmem, hretired⟩ := mem_filter.mp hx
  have hxd : x = d := db.deliveries.eq_of_key_eq hmem hd hid
  subst hxd
  unfold retired at hretired
  rw [Bool.and_eq_true, Bool.and_eq_true] at hretired
  exact hretired.1

/-! ## §3. Organizations and their deletion. -/

/-- `ck_organizations_lifecycle_state`. -/
inductive LifecycleState where
  | active
  | deletionPending
  deriving Repr, DecidableEq

/-- `organizations`. -/
structure Organization where
  id : Nat
  lifecycleState : LifecycleState := .active
  deletionRequestedAt : Option Time := none
  deletionScheduledAt : Option Time := none
  deriving Repr, DecidableEq

/-- `ck_org_lifecycle_operations_status`. -/
inductive OperationStatus where
  | pending
  | running
  | completed
  | canceled
  | failed
  deriving Repr, DecidableEq

/-- `organization_lifecycle_operations`; their only kind is `deletion`. -/
structure OrganizationLifecycleOperation where
  id : Nat
  organizationId : Nat
  status : OperationStatus
  scheduledAt : Time
  createdAt : Time
  completedAt : Option Time := none
  deriving Repr, DecidableEq

/-- `status IN ('pending', 'running')`. -/
def OperationStatus.unfinished : OperationStatus → Bool
  | .pending | .running => true
  | .completed | .canceled | .failed => false

/-- The organizations and their operations. -/
structure Tenants where
  organizations : Table Organization Organization.id := Table.empty
  operations : Serial OrganizationLifecycleOperation OrganizationLifecycleOperation.id :=
    Serial.empty

namespace Tenants

/-- `organization.lifecycle_state == "active"`. -/
def isActive (t : Tenants) (organizationId : Nat) : Bool :=
  (t.organizations.find? organizationId).any fun o => decide (o.lifecycleState = .active)

/-- The unfinished operation of the organization. -/
def openOperation (t : Tenants) (organizationId : Nat) : Option OrganizationLifecycleOperation :=
  t.operations.rows.find? fun o =>
    decide (o.organizationId = organizationId) && o.status.unfinished

/-- `request_organization_deletion`, once the caller is authorized. -/
def requestDeletion (s : Settings) (now : Time) (o : Organization) (t : Tenants) : Tenants :=
  match t.openOperation o.id with
  | some _ => t
  | none =>
    let scheduledAt := now + (s.organizationDeletionGraceHours : ℚ) * 3600
    { organizations := t.organizations.put
        { o with
          lifecycleState := .deletionPending
          deletionRequestedAt := some now
          deletionScheduledAt := some scheduledAt }
      operations := t.operations.append fun id => ⟨id, o.id, .pending, scheduledAt, now, none⟩ }

/-- `cancel_organization_deletion`, once the caller is authorized. -/
def cancelDeletion (now : Time) (o : Organization) (t : Tenants) : Except AppError Tenants :=
  match t.openOperation o.id with
  | none => .error (.conflict "Organization deletion is not pending")
  | some operation =>
    if operation.status = .running then
      .error (.conflict "Organization deletion is already running")
    else
      .ok
        { organizations := t.organizations.put
            { o with
              lifecycleState := .active
              deletionRequestedAt := none
              deletionScheduledAt := none }
          operations := t.operations.put
            { operation with status := .canceled, completedAt := some now } }

/-- `_claim_operation`: the first due operation of an organization that is to
be deleted. -/
def claimOperation (t : Tenants) (now : Time) : Option OrganizationLifecycleOperation :=
  (orderBy (fun o => toLex (o.scheduledAt, o.id)) (t.operations.rows.filter fun o =>
    o.status.unfinished && decide (o.scheduledAt ≤ now)
      && (t.organizations.find? o.organizationId).any fun x =>
        decide (x.lifecycleState = .deletionPending))).head?

/-- The operation is under way. -/
def start (operation : OrganizationLifecycleOperation) (t : Tenants) : Tenants :=
  { t with operations := t.operations.put { operation with status := .running } }

/-- The organization is gone, and its operations with it. -/
def remove (organizationId : Nat) (t : Tenants) : Tenants where
  organizations := t.organizations.delete fun o => decide (o.id = organizationId)
  operations := t.operations.delete fun o => decide (o.organizationId = organizationId)

end Tenants

/-! ## §4. Cleaning up an organization. -/

/-- `cancellable`: queued work, and leases that have run out. -/
def cancellable (now : Time) (organizationId : Nat) (d : Delivery) : Bool :=
  decide (d.organizationId = organizationId)
    && (d.status.queued
      || (decide (d.status = .processing) && !d.leaseExpiresAt.any fun t => decide (now < t)))

/-- The deliveries that one step cancels. -/
def cancelBatch (s : Settings) (now : Time) (organizationId : Nat) (db : Db) : List Delivery :=
  (orderBy Delivery.id (db.deliveries.rows.filter (cancellable now organizationId))).take
    s.lifecycleCleanupBatchSize

/-- The row that the deletion cancels. -/
def cleanupRow (now : Time) (d : Delivery) : Delivery :=
  { d with
    status := .canceled
    canceledAt := some now
    canceledReason := some "organization_deletion"
    leaseToken := none
    leaseExpiresAt := none
    updatedAt := now }

/-- `_has_live_delivery`. -/
def hasLiveDelivery (db : Db) (now : Time) (organizationId : Nat) : Bool :=
  db.deliveries.rows.any fun d => decide (d.organizationId = organizationId) && d.live now

/-- The ids that `_delete_delivery_batch` selects. -/
def deliveryBatch (s : Settings) (organizationId : Nat) (db : Db) : List Nat :=
  ((orderBy Delivery.id (db.deliveries.rows.filter fun d =>
    decide (d.organizationId = organizationId))).take s.lifecycleCleanupBatchSize).map Delivery.id

/-- A step of the cleanup deletes deliveries of the organization only. -/
theorem organization_of_deleted
    (hd : d ∈ db.deliveries.rows) (h : d.id ∈ deliveryBatch s organizationId db) :
    d.organizationId = organizationId := by
  obtain ⟨x, hx, hid⟩ := mem_map.mp h
  have hx := (orderBy_perm _ _).mem_iff.mp (mem_of_mem_take hx)
  obtain ⟨hmem, horg⟩ := mem_filter.mp hx
  have hxd : x = d := db.deliveries.eq_of_key_eq hmem hd hid
  subst hxd
  exact of_decide_eq_true horg

/-- The event's project belongs to the organization. -/
def ofOrganization (db : Db) (organizationId : Nat) (e : Event) : Bool :=
  (db.projects.find? e.projectId).any fun p => decide (p.organizationId = organizationId)

/-- The ids that `_delete_orphan_event_batch` selects. -/
def orphanBatch (s : Settings) (organizationId : Nat) (db : Db) : List Nat :=
  ((orderBy Event.id (db.events.rows.filter fun e =>
    ofOrganization db organizationId e
      && !db.deliveries.rows.any fun d => decide (d.eventId = e.id))).take
        s.lifecycleCleanupBatchSize).map Event.id

/-- The project belongs to the organization. -/
def projectOf (db : Db) (organizationId projectId : Nat) : Bool :=
  db.projects.rows.any fun p =>
    decide (p.organizationId = organizationId) && decide (p.id = projectId)

/-- The endpoint belongs to a project of the organization. -/
def endpointOf (db : Db) (organizationId endpointId : Nat) : Bool :=
  db.endpoints.rows.any fun w =>
    projectOf db organizationId w.projectId && decide (w.id = endpointId)

/-- `DELETE FROM organizations`, down the foreign keys; no delivery and no
event of the organization is left when it comes to this. -/
def deleteOrganization (organizationId : Nat) (db : Db) : Db :=
  { db with
    tenantStates := db.tenantStates.delete fun t => decide (t.organizationId = organizationId)
    endpointStates := db.endpointStates.delete fun e => endpointOf db organizationId e.endpointId
    projects := db.projects.delete fun p => decide (p.organizationId = organizationId)
    policies := db.policies.delete fun p => decide (p.organizationId = organizationId)
    endpoints := db.endpoints.delete fun w => projectOf db organizationId w.projectId
    secretVersions := db.secretVersions.filter fun v => !endpointOf db organizationId v.endpointId
    replayOperations := db.replayOperations.filter fun o =>
      decide (o.organizationId ≠ organizationId) }

/-- What is left to do for the organization once its operation runs, and
whether the organization is gone after it. -/
def cleanupStep (s : Settings) (now : Time) (organizationId : Nat) (db : Db) : Db × Bool :=
  if cancelBatch s now organizationId db ≠ [] then
    ({ db with
      deliveries := db.deliveries.putAll
        ((cancelBatch s now organizationId db).map (cleanupRow now)) }, false)
  else if hasLiveDelivery db now organizationId then (db, false)
  else if deliveryBatch s organizationId db ≠ [] then
    (deleteDeliveries (deliveryBatch s organizationId db) db, false)
  else if orphanBatch s organizationId db ≠ [] then
    ({ db with
      events := db.events.delete fun e => decide (e.id ∈ orphanBatch s organizationId db) }, false)
  else if db.deliveries.rows.any (fun d => decide (d.organizationId = organizationId))
      || db.events.rows.any (ofOrganization db organizationId) then (db, false)
  else (deleteOrganization organizationId db, true)

/-- **What a step of the cleanup can do**, with what it has made sure of. -/
inductive Cleanup (s : Settings) (now : Time) (organizationId : Nat) (db : Db) :
    Db × Bool → Prop where
  | canceled : Cleanup s now organizationId db
      ({ db with
        deliveries := db.deliveries.putAll
          ((cancelBatch s now organizationId db).map (cleanupRow now)) }, false)
  | waiting : Cleanup s now organizationId db (db, false)
  | deliveriesDeleted
      (settled : ∀ d ∈ db.deliveries.rows, d.organizationId = organizationId →
        d.status.terminal = true) :
      Cleanup s now organizationId db
        (deleteDeliveries (deliveryBatch s organizationId db) db, false)
  | eventsDeleted : Cleanup s now organizationId db
      ({ db with
        events := db.events.delete fun e => decide (e.id ∈ orphanBatch s organizationId db) },
        false)
  | removed (empty : ∀ d ∈ db.deliveries.rows, d.organizationId ≠ organizationId)
      (eventless : ∀ e ∈ db.events.rows, ofOrganization db organizationId e = false) :
      Cleanup s now organizationId db (deleteOrganization organizationId db, true)

/-- The organization goes when nothing of it is left. -/
theorem Cleanup.gone (h : Cleanup s now organizationId db r) (hr : r.2 = true) :
    r.1 = deleteOrganization organizationId db
      ∧ ∀ d ∈ db.deliveries.rows, d.organizationId ≠ organizationId := by
  cases h with
  | removed empty => exact ⟨rfl, empty⟩
  | _ => exact absurd hr Bool.false_ne_true

theorem mem_cancelBatch (h : d ∈ cancelBatch s now organizationId db) :
    d ∈ db.deliveries.rows ∧ cancellable now organizationId d = true :=
  mem_filter.mp ((orderBy_perm _ _).mem_iff.mp (mem_of_mem_take h))

/-- A row that is neither cancellable nor live is done. -/
theorem terminal_of_settled
    (hcancel : cancellable now d.organizationId d = false) (hlive : d.live now = false) :
    d.status.terminal = true := by
  unfold cancellable at hcancel
  unfold Delivery.live at hlive
  cases hstatus : d.status with
  | succeeded => rfl
  | dead => rfl
  | canceled => rfl
  | pending | retryScheduled => simp [hstatus, DeliveryStatus.queued] at hcancel
  | processing =>
    -- a lease is either over, and can be canceled, or live
    cases hlease : d.leaseExpiresAt.any fun t => decide (now < t) with
    | true => simp [hstatus, hlease] at hlive
    | false => simp [hstatus, hlease] at hcancel

/-- With nothing to cancel and nothing live, a batch that deletes anything
deletes finished deliveries. -/
theorem settled_of_batch (hcancel : cancelBatch s now organizationId db = [])
    (hlive : hasLiveDelivery db now organizationId = false)
    (hbatch : deliveryBatch s organizationId db ≠ []) :
    ∀ d ∈ db.deliveries.rows, d.organizationId = organizationId → d.status.terminal = true := by
  intro d hd horg
  subst horg
  -- the batch size is not zero, so an empty batch leaves nothing out
  have hsize : s.lifecycleCleanupBatchSize ≠ 0 := by
    intro hzero
    unfold deliveryBatch at hbatch
    rw [hzero, take_zero] at hbatch
    exact hbatch rfl
  apply terminal_of_settled
  · by_contra hnot
    have hmem : d ∈ orderBy Delivery.id
        (db.deliveries.rows.filter (cancellable now d.organizationId)) :=
      (orderBy_perm _ _).mem_iff.mpr (mem_filter.mpr ⟨hd, by simpa using hnot⟩)
    rcases take_eq_nil_iff.mp hcancel with hzero | hnil
    · exact hsize hzero
    · rw [hnil] at hmem
      exact not_mem_nil hmem
  · unfold hasLiveDelivery at hlive
    rw [any_eq_false] at hlive
    simpa using hlive d hd

theorem cleanupStep_cleanup (s : Settings) (now : Time) (organizationId : Nat) (db : Db) :
    Cleanup s now organizationId db (cleanupStep s now organizationId db) := by
  unfold cleanupStep
  split
  · exact Cleanup.canceled
  next hcancel =>
    split
    · exact Cleanup.waiting
    next hlive =>
      split
      next hbatch =>
        exact Cleanup.deliveriesDeleted
          (settled_of_batch (not_not.mp hcancel) (by simpa using hlive) hbatch)
      split
      · exact Cleanup.eventsDeleted
      split
      · exact Cleanup.waiting
      next hleft =>
        rw [Bool.or_eq_true, not_or] at hleft
        refine Cleanup.removed (fun d hd horg => hleft.1 ?_) (fun e he => ?_)
        · exact any_eq_true.mpr ⟨d, hd, decide_eq_true horg⟩
        · exact eq_false_of_ne_true fun h => hleft.2 (any_eq_true.mpr ⟨e, he, h⟩)

/-- `_cleanup_due_organization`, in one atomic step. -/
def cleanupDueOrganization (s : Settings) (now : Time) (db : Db) (t : Tenants) : Db × Tenants :=
  match t.claimOperation now with
  | none => (db, t)
  | some operation =>
    let r := cleanupStep s now operation.organizationId db
    (r.1, if r.2 then (t.start operation).remove operation.organizationId
      else t.start operation)

end WebhookPlatform
