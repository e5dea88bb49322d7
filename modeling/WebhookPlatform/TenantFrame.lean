/-
  WebhookPlatform.TenantFrame
  **WHAT A REQUEST CAN REACH**: the requests of a user in a project, with the
  identifiers that the user chooses, and the rows of all other projects.

  A request finds its rows through the project that authorized it: keys and
  endpoints by `project_id`, deliveries through their event.  Some rows are
  reached from there by a foreign key only:

      cancel_delivery             the state of the delivery's endpoint
      replay_delivery             the event and the endpoint of the source
      purge_terminal_deliveries   replays of what is deleted, and the endpoint
                                  states that name it as their probe

  and for these the frame rests on invariants of all runs: a delivery's event
  and endpoint are of ONE project (`OneProject`), a replay is of its source's
  event (`Linked`), a probe is of its endpoint (`Probed`).

  From `Confined` (what differs after a request is of the project) and
  `Reply.Of` (what it returns is), one lemma per request, the theorem is
  `tenant_frame`.
-/
import WebhookPlatform.Circuit
import WebhookPlatform.Snapshots
import WebhookPlatform.ApiKeys

namespace WebhookPlatform

open Relational Transition RowNumber Exceptions List Option Table

/-! ## §1. The key operations in one step. -/

namespace KeyRing

/-- `_generate_unique_api_key`, over the plaintexts that are drawn. -/
def generateUniqueApiKey (d : KeyRing) : List (String × String) → Except AppError (String × String)
  | [] => .error (.conflict "Could not allocate a unique API key prefix; retry the request")
  | plaintext :: plaintexts =>
    if d.keys.rows.any fun k => decide (k.keyPrefix = plaintext.2) then
      d.generateUniqueApiKey plaintexts
    else .ok plaintext

/-- `revoke_api_key`. -/
def revokeApiKey (now : Time) (project : Project) (keyId : Uuid) (d : KeyRing) :
    Except AppError KeyRing := do
  let key ← orNotFound "API key" keyId (d.keyOf project keyId)
  return { d with keys := d.keys.put (key.revoked now) }

/-- The replacement that `rotate_api_key` inserts. -/
def replacement (now : Time) (project : Project) (previous : ApiKey) (draw : KeyDraw)
    (scopes : List String) (expiresAt : Time) (keyPrefix keyDigest : String) : ApiKey where
  id := 0
  publicId := draw.publicId
  projectId := project.id
  name := previous.name
  keyPrefix := keyPrefix
  keyDigest := keyDigest
  scopes := scopes
  expiresAt := some expiresAt
  rotationFamilyId := previous.rotationFamilyId
  rotatedFromId := some previous.id
  createdAt := now

/-- `rotate_api_key`. -/
def rotateApiKey (s : KeySettings) (digest : String → String) (now : Time) (project : Project)
    (keyId : Uuid) (overlapSeconds : Option Int) (draw : KeyDraw) (d : KeyRing) :
    Except AppError KeyRing := do
  let previous ← orNotFound "API key" keyId (d.keyOf project keyId)
  if d.keys.rows.any fun k => decide (k.rotatedFromId = some previous.id) then
    .error (.conflict "API key has already been rotated")
  else if previous.dead now then
    .error (.conflict "Only an active API key can be rotated")
  else do
    let scopes ← validateScopes previous.scopes
    let plaintext ← d.generateUniqueApiKey (draw.plaintexts.take 5)
    let expiresAt ← apiKeyExpiry s now none
    let overlapUntil ← overlapDeadline s now overlapSeconds
    let key := replacement now project previous draw scopes expiresAt plaintext.2
      (digest plaintext.1)
    if d.keys.rows.any fun k =>
        decide (k.publicId = key.publicId) || decide (k.keyPrefix = key.keyPrefix) then
      .error .integrityError
    else .ok (d.inserted key (some (previous, overlapUntil)))

end KeyRing

/-! ## §2. Requests. -/

/-- The deployment with the tables that authorize, and the keys. -/
structure Service extends Deployment where
  members : Table OrganizationMember OrganizationMember.key := Table.empty
  projectMembers : Table ProjectMember ProjectMember.key := Table.empty
  keys : Serial ApiKey ApiKey.id := Serial.empty

namespace Service

/-- The tables as `authorize_project` reads them. -/
def registry (d : Service) : Registry where
  directory := { organizations := d.tenants.organizations, members := d.members }
  operations := d.tenants.operations
  projects := d.db.projects
  projectMembers := d.projectMembers

/-- The tables as the key operations read them. -/
def keyRing (d : Service) : KeyRing := ⟨d.clock, d.registry, d.keys⟩

end Service

/-- The filters of the dead-letter reads. -/
structure DeadFilter where
  endpointId : Option Uuid := none
  reason : Option String := none
  minimumAgeSeconds : Option Int := none

/-- What a user asks for in a project. -/
inductive TenantRequest where
  | replayDelivery (deliveryId : Uuid) (draws : ReplayDraws)
  | replayDeliveries (deliveryIds : List Uuid) (idempotencyKey : String) (draws : ReplayDraws)
  | cancelDelivery (deliveryId : Uuid) (reason : Option String)
  | purgeTerminalDeliveries (dryRun : Bool) (maxRecords : Nat)
  /-- `pause_endpoint`, `resume_endpoint`, `recover_endpoint_circuit`. -/
  | operateEndpoint (endpointId : Uuid) (operation : EndpointOperation)
  | rotateApiKey (keyId : Uuid) (overlapSeconds : Option Int) (draw : KeyDraw)
  | revokeApiKey (keyId : Uuid)
  | listApiKeys (offset limit : Nat)
  | listEndpoints (offset limit : Nat)
  | listEvents (offset limit : Nat)
  | getEvent (eventId : Uuid)
  | listDeliveries (offset limit : Nat)
  | getDelivery (deliveryId : Uuid)
  | listDeadDeliveries (offset limit : Nat) (filter : DeadFilter)
  | exportDeadDeliveries (filter : DeadFilter) (limit : Nat)

/-- The permission that the request asks for. -/
def TenantRequest.permission : TenantRequest → Permission
  | .replayDelivery _ _ | .replayDeliveries _ _ _ => .replay
  | .cancelDelivery _ _ => .deliveryCancel
  | .purgeTerminalDeliveries _ _ => .deliveryPurge
  | .operateEndpoint _ _ => .endpointOperate
  | .rotateApiKey _ _ _ | .revokeApiKey _ | .listApiKeys _ _ => .keyManage
  | .listEndpoints _ _ | .listEvents _ _ | .getEvent _ | .listDeliveries _ _ | .getDelivery _
  | .listDeadDeliveries _ _ _ | .exportDeadDeliveries _ _ => .projectRead

structure TenantCall where
  actor : Nat
  projectId : Uuid
  request : TenantRequest

/-- What a request returns. -/
inductive Reply where
  | deliveries (rows : List Delivery)
  | delivery (row : Delivery) (attempts : List DeliveryAttempt)
  | events (rows : List Event)
  | endpoints (rows : List WebhookEndpoint)
  /-- `_runtime_view`. -/
  | runtime (endpoint : Option WebhookEndpoint) (state : Option EndpointQuotaState)
  | keys (rows : List ApiKey)
  | operations (rows : List ReplayOperation)
  | purge (cutoff : Time) (matched purged : Nat) (dryRun : Bool)

/-- `ORDER BY time DESC, id DESC`; a missing time comes first. -/
def newestFirst {α : Type} (time : α → WithTop Time) (id : α → Nat) (rows : List α) : List α :=
  orderBy (fun a => toLex (OrderDual.toDual (time a), OrderDual.toDual (id a))) rows

/-- `OFFSET … LIMIT …`. -/
def page {α : Type} (offset limit : Nat) (rows : List α) : List α := (rows.drop offset).take limit

/-- The conditions of the filters that are set. -/
def DeadFilter.admits (f : DeadFilter) (now : Time) (x : Delivery) : Bool :=
  (f.endpointId.all fun id => decide (x.endpointPublicIdSnapshot = id))
    && (f.reason.all fun reason => decide (x.deadReason = some reason))
    && f.minimumAgeSeconds.all fun age => x.deadAt.any fun t => decide (t ≤ now - (age : ℚ))

/-- `_dead_deliveries`. -/
def deadDeliveries (db : Db) (now : Time) (projectId : Nat) (offset limit : Nat) (f : DeadFilter) :
    List Delivery :=
  page offset limit (newestFirst (fun x => x.deadAt) Delivery.id
    (db.deliveries.rows.filter fun x =>
      ofProject db projectId x && decide (x.status = .dead) && f.admits now x))

/-- The query of `get_event`. -/
def projectEvent (db : Db) (projectId : Nat) (eventId : Uuid) : Option Event :=
  db.events.rows.find? fun e => decide (e.projectId = projectId) && decide (e.publicId = eventId)

namespace Service

/-- The result of a transaction on the database, and what it returns. -/
def onDb (d : Service) (r : Except AppError Db) (reply : Db → Reply) :
    Except AppError (Service × Reply) :=
  r.map fun db => ({ d with db := db }, reply db)

/-- The result of a transaction on the keys, and the key that it returns. -/
def onKeys (d : Service) (r : Except AppError KeyRing)
    (key : Serial ApiKey ApiKey.id → Option ApiKey) : Except AppError (Service × Reply) :=
  r.map fun ring => ({ d with keys := ring.keys }, .keys (key ring.keys).toList)

/-- The request, once it is authorized. -/
def handle (s : Settings) (ks : KeySettings) (digest : String → String) (d : Service)
    (project : Project) : TenantRequest → Except AppError (Service × Reply)
  | .replayDelivery deliveryId draws =>
    d.onDb (WebhookPlatform.replayDelivery s d.clock project deliveryId draws d.db) fun db =>
      .deliveries (db.deliveries.find? d.db.deliveries.next).toList
  | .replayDeliveries deliveryIds idempotencyKey draws =>
    d.onDb (WebhookPlatform.replayDeliveries s d.clock project deliveryIds idempotencyKey draws
      d.db) fun db => .operations (existingOperation db project.id idempotencyKey).toList
  | .cancelDelivery deliveryId reason =>
    d.onDb (WebhookPlatform.cancelDelivery d.clock project deliveryId reason d.db) fun db =>
      .deliveries ((projectDelivery d.db project.id deliveryId).bind fun x =>
        db.deliveries.find? x.id).toList
  | .purgeTerminalDeliveries dryRun maxRecords =>
    let matched := (retiredIds s d.clock project.id maxRecords d.db).length
    d.onDb (.ok (WebhookPlatform.purgeTerminalDeliveries s d.clock project dryRun maxRecords
      d.db)) fun _ => .purge (d.clock - (s.deliveryRetentionDays : ℚ) * 86400) matched
        (if dryRun then 0 else matched) dryRun
  | .operateEndpoint endpointId operation =>
    d.onDb (WebhookPlatform.operateEndpoint s d.clock project endpointId operation d.db) fun db =>
      .runtime (projectEndpoint d.db project.id endpointId)
        ((projectEndpoint d.db project.id endpointId).bind fun w => db.endpointStates.find? w.id)
  | .rotateApiKey keyId overlapSeconds draw =>
    d.onKeys (d.keyRing.rotateApiKey ks digest d.clock project keyId overlapSeconds draw)
      fun keys => keys.find? d.keys.next
  | .revokeApiKey keyId =>
    d.onKeys (d.keyRing.revokeApiKey d.clock project keyId) fun keys =>
      (d.keyRing.keyOf project keyId).bind fun key => keys.find? key.id
  | .listApiKeys offset limit =>
    .ok (d, .keys (page offset limit (newestFirst (fun k => k.createdAt) ApiKey.id
      (d.keys.rows.filter fun k => decide (k.projectId = project.id)))))
  | .listEndpoints offset limit =>
    .ok (d, .endpoints (page offset limit (newestFirst (fun w => w.createdAt) WebhookEndpoint.id
      (d.db.endpoints.rows.filter fun w => decide (w.projectId = project.id)))))
  | .listEvents offset limit =>
    .ok (d, .events (page offset limit (newestFirst (fun e => e.createdAt) Event.id
      (d.db.events.rows.filter fun e => decide (e.projectId = project.id)))))
  | .getEvent eventId => do
      let event ← orNotFound "Event" eventId (projectEvent d.db project.id eventId)
      return (d, .events [event])
  | .listDeliveries offset limit =>
    .ok (d, .deliveries (page offset limit (newestFirst (fun x => x.createdAt) Delivery.id
      (d.db.deliveries.rows.filter (ofProject d.db project.id)))))
  | .getDelivery deliveryId => do
      let row ← orNotFound "Delivery" deliveryId (projectDelivery d.db project.id deliveryId)
      return (d, .delivery row (d.db.attempts.filter fun a => decide (a.deliveryId = row.id)))
  | .listDeadDeliveries offset limit filter =>
    .ok (d, .deliveries (deadDeliveries d.db d.clock project.id offset limit filter))
  | .exportDeadDeliveries filter limit =>
    .ok (d, .deliveries (deadDeliveries d.db d.clock project.id 0 (min limit 1000) filter))

end Service

/-- `authorize_project` for the request. -/
def TenantCall.authorize (c : TenantCall) (d : Service) : Except AppError Project :=
  authorizeProject c.actor c.projectId c.request.permission false d.registry

namespace Service

/-- A call: authorization, then the request. -/
def serve (s : Settings) (ks : KeySettings) (digest : String → String) (d : Service)
    (c : TenantCall) : Except AppError (Service × Reply) := do
  let project ← c.authorize d
  d.handle s ks digest project c.request

/-- What a call leaves: an exception rolls it back. -/
def after (s : Settings) (ks : KeySettings) (digest : String → String) (d : Service)
    (c : TenantCall) : Service :=
  match d.serve s ks digest c with
  | .ok r => r.1
  | .error _ => d

end Service

/-- What happens to a service. -/
inductive ServiceMove where
  /-- Workers, maintenance, ingestion, and the administration of endpoints and
  organizations. -/
  | action (a : Action)
  | call (c : TenantCall)
  /-- Memberships and keys may be changed by the other requests in any way. -/
  | accounts (members : Table OrganizationMember OrganizationMember.key)
      (projectMembers : Table ProjectMember ProjectMember.key) (keys : Serial ApiKey ApiKey.id)
  | createOrganization (o : Organization)
  | createProject (project : Project)

namespace Service

/-- One move; `none` when it is not possible in this state. -/
def step (P : Primitives) (s : Settings) (ks : KeySettings) (digest : String → String)
    (d : Service) : ServiceMove → Option Service
  | .action a => (d.toDeployment.step P s a).map fun x => { d with toDeployment := x }
  | .call c => some (d.after s ks digest c)
  | .accounts members projectMembers keys =>
    some { d with members := members, projectMembers := projectMembers, keys := keys }
  | .createOrganization o =>
    some { d with tenants.organizations := d.tenants.organizations.insert o }
  | .createProject project => some { d with db.projects := d.db.projects.insert project }

/-- One move at an arbitrary moment. -/
def stepAt (P : Primitives) (s : Settings) (ks : KeySettings) (digest : String → String)
    (d : Service) (x : Time × ServiceMove) : Option Service :=
  ({ d with clock := x.1 } : Service).step P s ks digest x.2

end Service

/-! ## §3. One project. -/

/-- **The event and the endpoint of a delivery are of one project**, and that
of the delivery's organization. -/
def OneProject (db : Db) : Prop :=
  ∀ x ∈ db.deliveries.rows, ∃ e ∈ db.events.rows, ∃ w ∈ db.endpoints.rows,
    ∃ p ∈ db.projects.rows, e.id = x.eventId ∧ w.id = x.endpointId ∧ e.projectId = p.id
      ∧ w.projectId = p.id ∧ p.organizationId = x.organizationId

variable {d d' : Service}

/-- The owners of an old row outlive the step. -/
theorem OneProject.outlive (hone : OneProject db) (h : Outlives db db')
    (hx : x ∈ db.deliveries.rows) :
    ∃ e ∈ db'.events.rows, ∃ w ∈ db'.endpoints.rows, ∃ p ∈ db'.projects.rows,
      e.id = x.eventId ∧ w.id = x.endpointId ∧ e.projectId = p.id ∧ w.projectId = p.id
        ∧ p.organizationId = x.organizationId := by
  obtain ⟨e, he, w, hw, p, hp, hex, hwx, hep, hwp, horg⟩ := hone x hx
  obtain ⟨p', hp', hpid, hporg⟩ := h.project hx hp horg
  have hevent : ∃ e' ∈ db'.events.rows, e'.id = e.id ∧ e'.projectId = e.projectId := by
    rcases h.events e he with hkept | horphan
    · exact hkept
    · exact absurd hex.symm (horphan x hx)
  have hendpoint : ∃ w' ∈ db'.endpoints.rows, w'.id = w.id ∧ w'.projectId = w.projectId := by
    rcases h.endpoints w hw with hkept | ⟨q, hq, hqw, hremoved⟩
    · exact hkept
    · -- the organization goes only when it has no deliveries
      rw [db.projects.eq_of_key_eq hq hp (hqw.trans hwp)] at hremoved
      exact absurd horg.symm (hremoved.empty x hx)
  obtain ⟨e', he', heid, heproject⟩ := hevent
  obtain ⟨w', hw', hwid, hwproject⟩ := hendpoint
  exact ⟨e', he', w', hw', p', hp', heid.trans hex, hwid.trans hwx,
    heproject.trans (hep.trans hpid.symm), hwproject.trans (hwp.trans hpid.symm), hporg⟩

section Steps

variable {d d' : Deployment}

/-- **A step keeps every delivery under one project.** -/
theorem Effect.oneProject (h : Effect P s d a d') (hd : OneProject d.db) : OneProject d'.db := by
  intro x' hx'
  cases h.row hx' with
  | worked _ _ mem work =>
    have hsame := work.same
    rw [hsame.eventId, hsame.organizationId, hsame.endpointId]
    exact hd.outlive h.outlives mem
  | ingested project w _ _ hproject hw owner _ event projects endpoints =>
    obtain ⟨e, he, hid, heproject⟩ := event
    rw [projects, endpoints]
    exact ⟨e, he, w, hw, project, hproject, hid, rfl, heproject, owner, rfl⟩
  | replayed _ _ _ _ _ mem source =>
    -- the copy has the event, the endpoint and the organization of its source
    have howners := hd.outlive h.outlives mem
    exact howners

end Steps

/-- What the frame of a request rests on. -/
structure Deployment.Kept (d : Deployment) : Prop where
  oneProject : OneProject d.db
  linked : d.Linked
  probed : d.Probed

namespace Deployment.Kept

variable {d d' : Deployment}

theorem effect (hd : d.Kept) (h : Effect P s d a d') : d'.Kept :=
  ⟨h.oneProject hd.oneProject, h.linked hd.linked, h.probed hd.probed⟩

theorem fresh (h : d.Fresh) : d.Kept := by
  refine ⟨?_, ?_, ?_⟩
  · intro x hx
    rw [h.deliveries] at hx
    cases hx
  · intro x hx
    rw [h.deliveries] at hx
    cases hx
  · intro e he
    rw [h.endpointStates] at he
    cases he

end Deployment.Kept

/-! ## §4. What differs after a request. -/

/-- The state of an endpoint of the project. -/
def stateOf (db : Db) (projectId : Nat) (e : EndpointQuotaState) : Bool :=
  (db.endpoints.find? e.endpointId).any fun w => decide (w.projectId = projectId)

/-- **What differs is of the project.** -/
structure Db.Confined (p : Nat) (db db' : Db) : Prop where
  events : db'.events = db.events
  endpoints : db'.endpoints = db.endpoints
  deliveries : DifferIn (fun x => ofProject db p x = true) db.deliveries.rows db'.deliveries.rows
  endpointStates : DifferIn (fun e => stateOf db p e = true) db.endpointStates.rows
    db'.endpointStates.rows

section Confined

theorem Db.Confined.refl (p : Nat) (db : Db) : db.Confined p db :=
  ⟨rfl, rfl, DifferIn.refl _ _, DifferIn.refl _ _⟩

theorem ofProject_iff : ofProject db p x = true
    ↔ ∃ v ∈ db.events.rows, v.id = x.eventId ∧ v.projectId = p := by
  unfold ofProject
  rw [Option.any_eq_true]
  constructor
  · rintro ⟨v, hfind, hproject⟩
    exact ⟨v, Table.mem_of_find? hfind, Table.key_of_find? hfind, of_decide_eq_true hproject⟩
  · rintro ⟨v, hv, hid, hproject⟩
    exact ⟨v, Table.find?_eq_some.mpr ⟨hv, hid⟩, decide_eq_true hproject⟩

theorem stateOf_iff : stateOf db p e = true
    ↔ ∃ w ∈ db.endpoints.rows, w.id = e.endpointId ∧ w.projectId = p := by
  unfold stateOf
  rw [Option.any_eq_true]
  constructor
  · rintro ⟨w, hfind, hproject⟩
    exact ⟨w, Table.mem_of_find? hfind, Table.key_of_find? hfind, of_decide_eq_true hproject⟩
  · rintro ⟨w, hw, hid, hproject⟩
    exact ⟨w, Table.find?_eq_some.mpr ⟨hw, hid⟩, decide_eq_true hproject⟩

theorem ofProject_congr (h : y.eventId = x.eventId) : ofProject db p y = ofProject db p x := by
  unfold ofProject
  rw [h]

theorem projectDelivery_some (h : projectDelivery db p deliveryId = some x) :
    x ∈ db.deliveries.rows ∧ ofProject db p x = true := by
  have hfound := List.find?_some h
  rw [Bool.and_eq_true] at hfound
  exact ⟨mem_of_find?_eq_some h, hfound.1⟩

/-- The endpoint's state is of the project of the endpoint's deliveries. -/
theorem OneProject.stateOf (hone : OneProject db) (hx : x ∈ db.deliveries.rows)
    (howner : ofProject db p x = true) (he : e.endpointId = x.endpointId) :
    stateOf db p e = true := by
  obtain ⟨v, hv, hvx, hvp⟩ := ofProject_iff.mp howner
  obtain ⟨v', hv', w, hw, q, -, hvx', hwx, hvq, hwq, -⟩ := hone x hx
  have hsame : v' = v := db.events.eq_of_key_eq hv' hv (hvx'.trans hvx.symm)
  subst hsame
  exact stateOf_iff.mpr ⟨w, hw, hwx.trans he.symm, hwq.trans (hvq.symm.trans hvp)⟩

/-! ### Replays. -/

/-- Copies of the project's deliveries are its deliveries. -/
theorem acceptReplays_confined
    (h : ∀ f ∈ copies, ∃ original publicId, ofProject db p original = true
      ∧ f = replayCopy original publicId now) :
    db.Confined p (acceptReplays s now organizationId tenant copies operation db) := by
  refine ⟨rfl, rfl, ?_, DifferIn.refl _ _⟩
  show DifferIn _ _ (db.deliveries.appendAll copies).rows
  have hid : ∀ f ∈ copies, ∀ n, (f n).id = n := by
    intro f hf n
    obtain ⟨original, publicId, -, rfl⟩ := h f hf
    rfl
  rw [Serial.rows_appendAll hid]
  apply DifferIn.append
  intro y hy
  obtain ⟨f, hf, n, rfl⟩ := Serial.mem_built hy
  obtain ⟨original, publicId, howner, rfl⟩ := h f hf
  exact howner

theorem replayDelivery_confined (h : replayDelivery s now project deliveryId draws db = .ok db') :
    db.Confined project.id db' := by
  obtain ⟨original, tenant, hfind, -, -, rfl⟩ := replayDelivery_ok h
  apply acceptReplays_confined
  intro f hf
  rw [mem_singleton] at hf
  exact ⟨original, _, (projectDelivery_some hfind).2, hf⟩

theorem replayDeliveries_confined
    (h : replayDeliveries s now project deliveryIds key draws db = .ok db') :
    db.Confined project.id db' := by
  rcases replayDeliveries_ok h with rfl | ⟨tenant, -, -, rfl⟩
  · exact Db.Confined.refl _ _
  · apply acceptReplays_confined
    intro f hf
    obtain ⟨original, hsource, publicId, rfl⟩ := mem_replayCopies hf
    have hselected := (mem_filter.mp hsource).2
    rw [Bool.and_eq_true, Bool.and_eq_true] at hselected
    exact ⟨original, publicId, hselected.1.1, rfl⟩

/-! ### Cancellations. -/

theorem cancelWrite_confined (hone : OneProject db) (hx : x ∈ db.deliveries.rows)
    (howner : ofProject db p x = true) :
    db.Confined p (cancelWrite now reason x (db.endpointStates.find? x.endpointId) db) := by
  refine ⟨rfl, rfl, ?_, ?_⟩
  · exact DifferIn.put hx rfl howner howner
  · cases hfind : db.endpointStates.find? x.endpointId with
    | none => exact DifferIn.refl _ _
    | some e =>
      have hid : e.endpointId = x.endpointId := key_of_find? hfind
      have hnew := (cancelEndpoint_probe now x.id e).1
      exact DifferIn.put (mem_of_find? hfind) hnew (hone.stateOf hx howner hid)
        (hone.stateOf hx howner (hnew.trans hid))

theorem cancelDelivery_confined (hone : OneProject db)
    (h : cancelDelivery now project deliveryId reason db = .ok db') :
    db.Confined project.id db' := by
  unfold cancelDelivery at h
  split at h
  · cases h
  next x hfind =>
    obtain ⟨hx, howner⟩ := projectDelivery_some hfind
    split at h
    · cases h
      exact Db.Confined.refl _ _
    split at h
    · cases h
      exact cancelWrite_confined hone hx howner
    · cases h

/-! ### Endpoint operations. -/

theorem operateEndpoint_confined
    (h : operateEndpoint s now project endpointId operation db = .ok db') :
    db.Confined project.id db' := by
  unfold operateEndpoint at h
  split at h
  · cases h
  next w hfind =>
    obtain ⟨hw, howner⟩ := projectEndpoint_some hfind
    split at h
    · cases h
    next e he =>
      cases h
      have hid : e.endpointId = w.id := key_of_find? he
      have hnew := (operation.apply_probe s now e).1
      refine ⟨rfl, rfl, DifferIn.refl _ _, DifferIn.put (mem_of_find? he) hnew ?_ ?_⟩
      · exact stateOf_iff.mpr ⟨w, hw, hid.symm, howner⟩
      · exact stateOf_iff.mpr ⟨w, hw, (hnew.trans hid).symm, howner⟩

end Confined

/-! ### Purges. -/

section Purge

variable {d : Deployment} (hd : d.Kept) {ids : List Nat}
  (hids : ∀ id ∈ ids, ∃ x ∈ d.db.deliveries.rows, x.id = id ∧ ofProject d.db p x = true)

include hd hids

/-- A replay of what is deleted is of the project. -/
theorem unlink_confined (hy : y ∈ d.db.deliveries.rows) :
    unlink ids y = y ∨ (ofProject d.db p y = true ∧ ofProject d.db p (unlink ids y) = true) := by
  by_cases howner : ofProject d.db p y = true
  · exact .inr ⟨howner, howner⟩
  · left
    have hfar : y.replayOfDeliveryId.filter (fun id => decide (id ∉ ids))
        = y.replayOfDeliveryId := by
      cases hlink : y.replayOfDeliveryId with
      | none => rfl
      | some id =>
        refine filter_some_pos (decide_eq_true fun hid => howner ?_)
        obtain ⟨x, hx, hxid, hxp⟩ := hids id hid
        have hreplay := (hd.linked y hy id hlink).2 x hx hxid
        rw [← ofProject_congr hreplay.eventId]
        exact hxp
    unfold unlink
    rw [hfar]

/-- A state that names what is deleted is of the project. -/
theorem unprobe_confined (he : e ∈ d.db.endpointStates.rows) :
    unprobe ids e = e ∨ (stateOf d.db p e = true ∧ stateOf d.db p (unprobe ids e) = true) := by
  by_cases howner : stateOf d.db p e = true
  · exact .inr ⟨howner, howner⟩
  · left
    have hfar : e.halfOpenProbeDeliveryId.filter (fun id => decide (id ∉ ids))
        = e.halfOpenProbeDeliveryId := by
      cases hprobe : e.halfOpenProbeDeliveryId with
      | none => rfl
      | some id =>
        refine filter_some_pos (decide_eq_true fun hid => howner ?_)
        obtain ⟨x, hx, hxid, hxp⟩ := hids id hid
        obtain ⟨y, hy, hyid, hyep, -⟩ := hd.probed e he id hprobe
        have hxy : y = x := d.db.deliveries.eq_of_key_eq hy hx (hyid.trans hxid.symm)
        subst hxy
        exact hd.oneProject.stateOf hy hxp hyep.symm
    unfold unprobe
    rw [hfar]

theorem deleteDeliveries_confined : d.db.Confined p (deleteDeliveries ids d.db) := by
  refine ⟨rfl, rfl, ?_, DifferIn.mapRows (unprobe_endpointId ids) fun e he =>
    unprobe_confined hd hids he⟩
  have hdeleted : DifferIn (fun x => ofProject d.db p x = true) d.db.deliveries.rows
      (d.db.deliveries.toTable.delete fun x => decide (x.id ∈ ids)).rows := by
    apply DifferIn.delete
    intro x hx hid
    obtain ⟨y, hy, hyid, hyp⟩ := hids x.id (of_decide_eq_true hid)
    rw [← d.db.deliveries.eq_of_key_eq hy hx hyid]
    exact hyp
  refine hdeleted.trans (DifferIn.mapRows (unlink_id ids) ?_)
  intro y hy
  exact unlink_confined hd hids (mem_delete.mp hy).1

end Purge

theorem retiredIds_owned {now : Time} {id : Nat}
    (h : id ∈ retiredIds s now projectId maxRecords db) :
    ∃ x ∈ db.deliveries.rows, x.id = id ∧ ofProject db projectId x = true := by
  obtain ⟨x, hx, rfl⟩ := mem_map.mp h
  have hmem := (mem_filter.mp ((orderBy_perm _ _).mem_iff.mp (mem_of_mem_take hx))).1
  exact ⟨x, hmem, rfl, (mem_retiredIds hmem h).1⟩

theorem purgeTerminalDeliveries_confined (hd : d.Kept) (s : Settings) (now : Time)
    (project : Project) (dryRun : Bool) (maxRecords : Nat) :
    d.db.Confined project.id (purgeTerminalDeliveries s now project dryRun maxRecords d.db) := by
  unfold purgeTerminalDeliveries
  split
  · exact Db.Confined.refl _ _
  · exact deleteDeliveries_confined hd fun id hid => retiredIds_owned hid

/-! ### Keys. -/

section Keys

variable {d d' : KeyRing}

/-- A new version of a key of the project. -/
theorem put_differ (hk : d.keyOf project keyId = some k) (hages : k.Ages k') :
    DifferIn (fun k => k.projectId = project.id) d.keys.rows (d.keys.put k').rows := by
  obtain ⟨hmem, hproject⟩ := keyOf_some hk
  exact DifferIn.put hmem hages.kin.id hproject (hages.kin.projectId.trans hproject)

theorem revokeApiKey_differ (h : d.revokeApiKey now project keyId = .ok d') :
    DifferIn (fun k => k.projectId = project.id) d.keys.rows d'.keys.rows := by
  obtain ⟨key, hkey, h⟩ := bind_eq_ok.mp h
  cases h
  exact put_differ (orNotFound_eq_ok.mp hkey) (key.ages_revoked now)

theorem rotateApiKey_ok
    (h : d.rotateApiKey ks digest now project keyId overlapSeconds draw = .ok d') :
    ∃ previous key overlapUntil, d.keyOf project keyId = some previous
      ∧ key.projectId = project.id ∧ d' = d.inserted key (some (previous, overlapUntil)) := by
  obtain ⟨previous, hprevious, h⟩ := bind_eq_ok.mp h
  obtain ⟨-, h⟩ := guard_eq_ok.mp h
  obtain ⟨-, h⟩ := guard_eq_ok.mp h
  obtain ⟨scopes, -, h⟩ := bind_eq_ok.mp h
  obtain ⟨plaintext, -, h⟩ := bind_eq_ok.mp h
  obtain ⟨expiresAt, -, h⟩ := bind_eq_ok.mp h
  obtain ⟨overlapUntil, -, h⟩ := bind_eq_ok.mp h
  obtain ⟨-, h⟩ := guard_eq_ok.mp h
  cases h
  exact ⟨previous, _, overlapUntil, orNotFound_eq_ok.mp hprevious, rfl, rfl⟩

theorem rotateApiKey_differ
    (h : d.rotateApiKey ks digest now project keyId overlapSeconds draw = .ok d') :
    DifferIn (fun k => k.projectId = project.id) d.keys.rows d'.keys.rows := by
  obtain ⟨previous, key, overlapUntil, hprevious, hproject, rfl⟩ := rotateApiKey_ok h
  refine (put_differ hprevious (previous.ages_overlapped overlapUntil)).trans ?_
  show DifferIn _ _ (Serial.append _ _).rows
  rw [Serial.rows_append rfl]
  apply DifferIn.append
  intro k hk
  rw [mem_singleton.mp hk]
  exact hproject

end Keys

/-! ## §5. One request. -/

/-- What differs after a request is of the project `p`. -/
structure Service.Confined (p : Nat) (d d' : Service) : Prop where
  db : d.db.Confined p d'.db
  keys : DifferIn (fun k => k.projectId = p) d.keys.rows d'.keys.rows

/-- What is returned is of the project `p`. -/
def Reply.Of (db : Db) (p : Nat) : Reply → Prop
  | .deliveries rows => ∀ x ∈ rows, ofProject db p x = true
  | .delivery row attempts => ofProject db p row = true ∧ ∀ a ∈ attempts, a.deliveryId = row.id
  | .events rows => ∀ e ∈ rows, e.projectId = p
  | .endpoints rows => ∀ w ∈ rows, w.projectId = p
  | .runtime endpoint state =>
    (∀ w, endpoint = some w → w.projectId = p) ∧ ∀ e, state = some e → stateOf db p e = true
  | .keys rows => ∀ k ∈ rows, k.projectId = p
  | .operations rows => ∀ o ∈ rows, o.projectId = p
  | .purge _ _ _ _ => True

theorem Service.Confined.refl (p : Nat) (d : Service) : d.Confined p d :=
  ⟨Db.Confined.refl p d.db, DifferIn.refl _ _⟩

theorem mem_page {α : Type} {time : α → WithTop Time} {id : α → Nat} {rows : List α} {a : α}
    (h : a ∈ page offset limit (newestFirst time id rows)) : a ∈ rows :=
  (orderBy_perm _ _).mem_iff.mp (mem_of_mem_drop (mem_of_mem_take h))

theorem mem_deadDeliveries {now : Time} (h : x ∈ deadDeliveries db now p offset limit f) :
    ofProject db p x = true := by
  have hx := (mem_filter.mp (mem_page h)).2
  rw [Bool.and_eq_true, Bool.and_eq_true] at hx
  exact hx.1.1

section Requests

theorem onDb_ok (h : d.onDb r f = .ok (d', reply)) :
    ∃ db, r = .ok db ∧ d' = { d with db := db } ∧ reply = f db := by
  cases r with
  | error => cases h
  | ok db =>
    cases h
    exact ⟨db, rfl, rfl, rfl⟩

theorem onKeys_ok (h : d.onKeys r f = .ok (d', reply)) :
    ∃ ring, r = .ok ring ∧ d' = { d with keys := ring.keys }
      ∧ reply = .keys (f ring.keys).toList := by
  cases r with
  | error => cases h
  | ok ring =>
    cases h
    exact ⟨ring, rfl, rfl, rfl⟩

/-- Of which project a delivery is does not change. -/
theorem Db.Confined.ofProject (h : db.Confined p db') (q : Nat) (x : Delivery) :
    ofProject db' q x = ofProject db q x := by
  unfold WebhookPlatform.ofProject
  rw [h.events]

theorem Db.Confined.stateOf (h : db.Confined p db') (q : Nat) (e : EndpointQuotaState) :
    stateOf db' q e = stateOf db q e := by
  unfold WebhookPlatform.stateOf
  rw [h.endpoints]

/-- **A request reaches the rows of its project only.** -/
theorem handle_frame (hd : d.Kept) (h : d.handle s ks digest project request = .ok (d', reply)) :
    d.Confined project.id d' ∧ reply.Of d'.db project.id := by
  cases request with
  | replayDelivery =>
    obtain ⟨db, hdb, rfl, rfl⟩ := onDb_ok h
    have hconfined := replayDelivery_confined hdb
    refine ⟨⟨hconfined, DifferIn.refl _ _⟩, ?_⟩
    intro x hx
    rw [hconfined.ofProject]
    exact hconfined.deliveries.of_next (mem_toList.mp hx)
  | replayDeliveries =>
    obtain ⟨db, hdb, rfl, rfl⟩ := onDb_ok h
    refine ⟨⟨replayDeliveries_confined hdb, DifferIn.refl _ _⟩, ?_⟩
    intro o ho
    have hfound := List.find?_some (mem_toList.mp ho)
    rw [Bool.and_eq_true] at hfound
    exact of_decide_eq_true hfound.1
  | cancelDelivery =>
    obtain ⟨db, hdb, rfl, rfl⟩ := onDb_ok h
    have hconfined := cancelDelivery_confined hd.oneProject hdb
    refine ⟨⟨hconfined, DifferIn.refl _ _⟩, ?_⟩
    intro y hy
    obtain ⟨x, hx, hfind⟩ := bind_eq_some_iff.mp (mem_toList.mp hy)
    obtain ⟨hmem, howner⟩ := projectDelivery_some hx
    rw [hconfined.ofProject]
    exact hconfined.deliveries.of_key hmem howner hfind
  | purgeTerminalDeliveries dryRun maxRecords =>
    obtain ⟨db, hdb, rfl, rfl⟩ := onDb_ok h
    cases hdb
    exact ⟨⟨purgeTerminalDeliveries_confined hd s _ project dryRun maxRecords,
      DifferIn.refl _ _⟩, trivial⟩
  | operateEndpoint =>
    obtain ⟨db, hdb, rfl, rfl⟩ := onDb_ok h
    have hconfined := operateEndpoint_confined hdb
    refine ⟨⟨hconfined, DifferIn.refl _ _⟩, fun w hw => (projectEndpoint_some hw).2, ?_⟩
    intro e he
    obtain ⟨w, hw, hfind⟩ := bind_eq_some_iff.mp he
    obtain ⟨hmem, howner⟩ := projectEndpoint_some hw
    rw [hconfined.stateOf]
    exact stateOf_iff.mpr ⟨w, hmem, (key_of_find? hfind).symm, howner⟩
  | rotateApiKey =>
    unfold Service.handle at h
    obtain ⟨ring, hring, rfl, rfl⟩ := onKeys_ok h
    have hdiffer := rotateApiKey_differ hring
    refine ⟨⟨Db.Confined.refl _ _, hdiffer⟩, ?_⟩
    intro k hk
    exact hdiffer.of_next (mem_toList.mp hk)
  | revokeApiKey =>
    unfold Service.handle at h
    obtain ⟨ring, hring, rfl, rfl⟩ := onKeys_ok h
    have hdiffer := revokeApiKey_differ hring
    refine ⟨⟨Db.Confined.refl _ _, hdiffer⟩, ?_⟩
    intro k hk
    obtain ⟨key, hkey, hfind⟩ := bind_eq_some_iff.mp (mem_toList.mp hk)
    obtain ⟨hmem, hproject⟩ := keyOf_some hkey
    exact hdiffer.of_key hmem hproject hfind
  | listApiKeys | listEndpoints | listEvents =>
    cases h
    refine ⟨Service.Confined.refl _ _, fun x hx => ?_⟩
    exact of_decide_eq_true (mem_filter.mp (mem_page hx)).2
  | getEvent =>
    obtain ⟨event, hevent, h⟩ := bind_eq_ok.mp h
    cases h
    refine ⟨Service.Confined.refl _ _, fun e he => ?_⟩
    have hfound := List.find?_some (orNotFound_eq_ok.mp hevent)
    rw [Bool.and_eq_true] at hfound
    rw [mem_singleton.mp he]
    exact of_decide_eq_true hfound.1
  | listDeliveries =>
    cases h
    exact ⟨Service.Confined.refl _ _, fun x hx => (mem_filter.mp (mem_page hx)).2⟩
  | getDelivery =>
    obtain ⟨row, hrow, h⟩ := bind_eq_ok.mp h
    cases h
    refine ⟨Service.Confined.refl _ _, (projectDelivery_some (orNotFound_eq_ok.mp hrow)).2, ?_⟩
    intro a ha
    exact of_decide_eq_true (mem_filter.mp ha).2
  | listDeadDeliveries | exportDeadDeliveries =>
    cases h
    exact ⟨Service.Confined.refl _ _, fun x hx => mem_deadDeliveries hx⟩

/-- A request that changes something is one of an active organization. -/
theorem TenantCall.authorized {c : TenantCall} (h : c.authorize d = .ok project)
    (hwrite : c.request.permission.pendingRead = false) :
    d.toDeployment.authorized project.id = some project := by
  obtain ⟨hproject, ⟨o, ho, hallows⟩, -⟩ := authorizeProject_ok h
  have hmem := (Registry.projectOf_some hproject).1
  have hactive : o.lifecycleState = .active := by
    rcases hallows with hactive | hread | ⟨hnever, -⟩
    · exact hactive
    · rw [hwrite] at hread
      cases hread
    · cases hnever
  refine filter_eq_some_iff.mpr ⟨Table.find?_key hmem, ?_⟩
  exact (any_eq_true _ _).mpr ⟨o, ho, decide_eq_true hactive⟩

/-- The operation of an authorized project, as an action. -/
theorem op_effect_of (hauthorized : e.authorized project.id = some project)
    (hpermits : e.permits o = (e.authorized project.id).isSome)
    (hstep : e.toWorld.step P s o = e.toWorld.onProject project.id f) (hf : f project = .ok db) :
    Effect P s e (.op o) { e with db := db } := by
  apply Deployment.step_effect
  have hfind := (Deployment.authorized_some hauthorized).1
  simp only [Deployment.step, hpermits, hauthorized, hstep, World.onProject, hfind,
    isSome_some, if_true, map_some, hf, World.commit]

/-- **A request is an action of the deployment**, or leaves it alone. -/
theorem handle_effect {c : TenantCall} (P : Primitives) (hauthorized : c.authorize d = .ok project)
    (h : d.handle s ks digest project c.request = .ok (d', reply)) :
    ∃ a, Effect P s d.toDeployment a d'.toDeployment := by
  have hactive := TenantCall.authorized hauthorized
  generalize c.request = request at h hactive
  cases request with
  | replayDelivery deliveryId draws =>
    obtain ⟨db, hdb, rfl, -⟩ := onDb_ok h
    exact ⟨.op (.replay project.id deliveryId draws), op_effect_of (hactive rfl) rfl rfl hdb⟩
  | replayDeliveries deliveryIds idempotencyKey draws =>
    obtain ⟨db, hdb, rfl, -⟩ := onDb_ok h
    exact ⟨.op (.replayMany project.id deliveryIds idempotencyKey draws),
      op_effect_of (hactive rfl) rfl rfl hdb⟩
  | cancelDelivery deliveryId reason =>
    obtain ⟨db, hdb, rfl, -⟩ := onDb_ok h
    exact ⟨.op (.cancel project.id deliveryId reason), op_effect_of (hactive rfl) rfl rfl hdb⟩
  | operateEndpoint endpointId operation =>
    obtain ⟨db, hdb, rfl, -⟩ := onDb_ok h
    exact ⟨.op (.operate project.id endpointId operation), op_effect_of (hactive rfl) rfl rfl hdb⟩
  | purgeTerminalDeliveries dryRun maxRecords =>
    obtain ⟨db, hdb, rfl, -⟩ := onDb_ok h
    refine ⟨.purgeTerminalDeliveries project.id dryRun maxRecords, Deployment.step_effect ?_⟩
    show d.toDeployment.onProject project.id _ = _
    rw [Deployment.onProject, hactive rfl, map_some, hdb]
    rfl
  | rotateApiKey | revokeApiKey =>
    unfold Service.handle at h
    obtain ⟨ring, -, rfl, -⟩ := onKeys_ok h
    exact ⟨.purgeEventPayloads, Deployment.effect_refl _⟩
  | getEvent | getDelivery =>
    obtain ⟨row, -, h⟩ := bind_eq_ok.mp h
    cases h
    exact ⟨.purgeEventPayloads, Deployment.effect_refl _⟩
  | listApiKeys | listEndpoints | listEvents | listDeliveries | listDeadDeliveries
  | exportDeadDeliveries =>
    cases h
    exact ⟨.purgeEventPayloads, Deployment.effect_refl _⟩

/-! ## §6. Every run. -/

end Requests

theorem Service.kept_step (hd : d.Kept) (h : d.step P s ks digest m = some d') : d'.Kept := by
  cases m with
  | action =>
    obtain ⟨x, hx, rfl⟩ := map_eq_some_iff.mp h
    exact hd.effect (Deployment.step_effect hx)
  | call c =>
    cases h
    unfold Service.after
    cases hserve : d.serve s ks digest c with
    | error => exact hd
    | ok =>
      obtain ⟨project, hauthorized, h⟩ := bind_eq_ok.mp hserve
      obtain ⟨a, heffect⟩ := handle_effect ⟨id, fun _ => ""⟩ hauthorized h
      exact hd.effect heffect
  | accounts =>
    cases h
    exact hd
  | createOrganization =>
    cases h
    exact ⟨hd.oneProject, hd.linked, hd.probed⟩
  | createProject project =>
    cases h
    refine ⟨?_, hd.linked, hd.probed⟩
    intro x hx
    obtain ⟨e, he, w, hw, p, hp, howners⟩ := hd.oneProject x hx
    exact ⟨e, he, w, hw, p, mem_insert_of_mem project hp, howners⟩

theorem Service.kept_run (hfresh : d.Fresh)
    (hrun : run (Service.stepAt P s ks digest) d xs = some d') : d'.Kept := by
  refine run_inv (I := fun d : Service => d.Kept) ?_ (Deployment.Kept.fresh hfresh) hrun
  intro d x d' hd hstep
  have hclock : ({ d with clock := x.1 } : Service).Kept := ⟨hd.oneProject, hd.linked, hd.probed⟩
  exact Service.kept_step hclock hstep

/-- The rows of the project `q` are the same. -/
structure Service.SameRows (q : Nat) (d d' : Service) : Prop where
  deliveries : ∀ x, (x ∈ d'.db.deliveries.rows ∧ ofProject d'.db q x = true)
    ↔ (x ∈ d.db.deliveries.rows ∧ ofProject d.db q x = true)
  events : ∀ e, (e ∈ d'.db.events.rows ∧ e.projectId = q)
    ↔ (e ∈ d.db.events.rows ∧ e.projectId = q)
  endpoints : ∀ w, (w ∈ d'.db.endpoints.rows ∧ w.projectId = q)
    ↔ (w ∈ d.db.endpoints.rows ∧ w.projectId = q)
  endpointStates : ∀ e, (e ∈ d'.db.endpointStates.rows ∧ stateOf d'.db q e = true)
    ↔ (e ∈ d.db.endpointStates.rows ∧ stateOf d.db q e = true)
  keys : ∀ k, (k ∈ d'.keys.rows ∧ k.projectId = q) ↔ (k ∈ d.keys.rows ∧ k.projectId = q)

/-- A delivery is of one project at most. -/
theorem ofProject_unique (hp : ofProject db p x = true) (hq : ofProject db q x = true) : p = q := by
  obtain ⟨v, hv, hvx, rfl⟩ := ofProject_iff.mp hp
  obtain ⟨u, hu, hux, rfl⟩ := ofProject_iff.mp hq
  rw [db.events.eq_of_key_eq hv hu (hvx.trans hux.symm)]

theorem stateOf_unique (hp : stateOf db p e = true) (hq : stateOf db q e = true) : p = q := by
  obtain ⟨v, hv, hve, rfl⟩ := stateOf_iff.mp hp
  obtain ⟨w, hw, hwe, rfl⟩ := stateOf_iff.mp hq
  rw [db.endpoints.eq_of_key_eq hv hw (hve.trans hwe.symm)]

/-- Where only rows of `p` differ, those of another project are the same. -/
theorem Service.Confined.sameRows (h : d.Confined p d') (hne : q ≠ p) : d.SameRows q d' where
  deliveries := by
    intro x
    rw [h.db.ofProject]
    exact h.db.deliveries.same_of_disjoint (fun y hq hp => hne (ofProject_unique hq hp)) x
  events := by
    rw [h.db.events]
    exact fun e => Iff.rfl
  endpoints := by
    rw [h.db.endpoints]
    exact fun w => Iff.rfl
  endpointStates := by
    intro e
    rw [h.db.stateOf]
    exact h.db.endpointStates.same_of_disjoint (fun y hq hp => hne (stateOf_unique hq hp)) e
  keys := by
    exact h.keys.same_of_disjoint fun k hq hp => hne (hq.symm.trans hp)

/-- **THE TENANT FRAME.**  In every reachable state the event and the endpoint
of each delivery are of one project, and that of the delivery's organization.
And whatever a request asks for that is authorized for the project `p`: what it
changes is of `p`, the rows of every other project are the same after it, and
what it returns is of `p`. -/
theorem tenant_frame (P : Primitives) (s : Settings) (ks : KeySettings) (digest : String → String)
    (d d' : Service) (xs : List (Time × ServiceMove)) (hfresh : d.Fresh)
    (hrun : run (Service.stepAt P s ks digest) d xs = some d') :
    OneProject d'.db
      ∧ ∀ (c : TenantCall) (p : Project), c.authorize d' = .ok p →
        d'.Confined p.id (d'.after s ks digest c)
        ∧ (∀ q, q ≠ p.id → d'.SameRows q (d'.after s ks digest c))
        ∧ ∀ d'' reply, d'.serve s ks digest c = .ok (d'', reply) → reply.Of d''.db p.id := by
  have hkept := Service.kept_run hfresh hrun
  refine ⟨hkept.oneProject, ?_⟩
  intro c p hauthorized
  -- an authorized call is the request for this project
  have hserve : d'.serve s ks digest c = d'.handle s ks digest p c.request := by
    unfold Service.serve
    rw [hauthorized]
    rfl
  have hconfined : d'.Confined p.id (d'.after s ks digest c) := by
    unfold Service.after
    cases hresult : d'.serve s ks digest c with
    | error => exact Service.Confined.refl p.id d'
    | ok => exact (handle_frame hkept (hserve.symm.trans hresult)).1
  refine ⟨hconfined, fun q hne => hconfined.sameRows hne, ?_⟩
  intro d'' reply hreply
  exact (handle_frame hkept (hserve.symm.trans hreply)).2

/-- A second organization comes with its project; the first project has an
endpoint and an event. -/
def secondTenant : List (Time × ServiceMove) :=
  [(0, .createOrganization { id := 2 }),
    (0, .createProject
      { smallProject with id := 2, publicId := "project-2", organizationId := 2 }),
    (0, .accounts ((Table.empty.insert ⟨1, 1, .owner⟩).insert ⟨2, 2, .owner⟩) Table.empty
      Serial.empty),
    (0, .action registerEndpoint), (0, .action (.op (.ingest 1 firstEvent)))]

/-- The owner of the second organization asks for the delivery of the first. -/
def foreignCancel : TenantCall := ⟨2, "project-2", .cancelDelivery "delivery-1" none⟩

theorem tenant_frame_foreign :
    ∃ d' p, run (Service.stepAt smallPrimitives Settings.defaults {} id)
        { freshDeployment with } secondTenant = some d'
      ∧ d'.db.deliveries.rows.length = 1 ∧ foreignCancel.authorize d' = .ok p ∧ p.id = 2
      ∧ OneProject d'.db ∧ d'.SameRows 1 (d'.after Settings.defaults {} id foreignCancel) := by
  obtain ⟨d', hrun, hlength, hauthorize⟩ : ∃ d',
      run (Service.stepAt smallPrimitives Settings.defaults {} id) { freshDeployment with }
        secondTenant = some d'
      ∧ d'.db.deliveries.rows.length = 1
      ∧ (foreignCancel.authorize d').toOption.any (fun p => decide (p.id = 2)) = true := by
    decide +kernel
  cases hproject : foreignCancel.authorize d' with
  | error =>
    rw [hproject] at hauthorize
    cases hauthorize
  | ok p =>
    rw [hproject] at hauthorize
    have hid : p.id = 2 := of_decide_eq_true hauthorize
    obtain ⟨hone, hcalls⟩ := tenant_frame smallPrimitives Settings.defaults {} id
      { freshDeployment with } d' secondTenant freshDeployment_fresh hrun
    refine ⟨d', p, hrun, hlength, hproject, hid, hone, ?_⟩
    exact (hcalls foreignCancel p hproject).2.1 1 (by omega)

end WebhookPlatform
