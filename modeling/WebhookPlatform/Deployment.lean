/-
  WebhookPlatform.Deployment
  **THE WHOLE DEPLOYMENT AS A STATE MACHINE.**

  A `Deployment` is a `World` together with the organizations; its actions
  are the operations of `World` and the requests and maintenance around
  them: endpoints are created, edited and deactivated, secrets rotated,
  projects deactivated, old deliveries and payloads purged, organizations
  deleted.  A request acts for a project of an ACTIVE organization, as
  authorization demands; workers and the maintenance loop ask nobody.

  `step_effect` says once what a step does, with the whole database it
  leaves.  Everything proved about deployments starts from there.
-/
import WebhookPlatform.Platform
import WebhookPlatform.Administration
import WebhookPlatform.Lifecycle

namespace WebhookPlatform

open Relational Transition Exceptions Option

/-! ## §1. Deployments and actions. -/

/-- The world, its organizations, and the sequence of endpoint ids. -/
structure Deployment extends World where
  tenants : Tenants
  /-- The next id of `webhook_endpoints`. -/
  endpointIds : Nat

/-- The actions. -/
inductive Action where
  | op (o : Op)
  | createEndpoint (projectId : Nat) (r : EndpointCreate)
  | updateEndpoint (projectId : Nat) (endpointPublicId : Uuid) (u : EndpointUpdate)
  | deactivateEndpoint (projectId : Nat) (endpointPublicId : Uuid)
  | rotateEndpointSecret (projectId : Nat) (endpointPublicId : Uuid)
  | deactivateProject (projectId : Nat)
  | purgeTerminalDeliveries (projectId : Nat) (dryRun : Bool) (maxRecords : Nat)
  | requestDeletion (organizationId : Nat)
  | cancelDeletion (organizationId : Nat)
  | purgeEventPayloads
  | cleanupDueOrganization

namespace Deployment

/-- `authorize_project` for a permission that changes something: the project
exists and its organization is active. -/
def authorized (d : Deployment) (projectId : Nat) : Option Project :=
  (d.db.projects.find? projectId).filter fun p => d.tenants.isActive p.organizationId

/-- The operation is allowed: an API key also needs an active project. -/
def permits (d : Deployment) : Op → Bool
  | .ingest projectId _ => (d.authorized projectId).any Project.isActive
  | .replay projectId _ _ => (d.authorized projectId).isSome
  | .replayMany projectId _ _ _ => (d.authorized projectId).isSome
  | .cancel projectId _ _ => (d.authorized projectId).isSome
  | .operate projectId _ _ => (d.authorized projectId).isSome
  | _ => true

/-- Commit the transaction's result; an exception rolls it back. -/
def commit (d : Deployment) : Except AppError Db → Deployment
  | .ok db => { d with db := db }
  | .error _ => d

/-- The transaction of an authorized request. -/
def onProject (d : Deployment) (projectId : Nat) (f : Project → Except AppError Db) :
    Option Deployment :=
  (d.authorized projectId).map fun p => d.commit (f p)

/-- One action; `none` when it is not possible in this deployment. -/
def step (P : Primitives) (s : Settings) (d : Deployment) : Action → Option Deployment
  | .op o =>
    if d.permits o then (d.toWorld.step P s o).map fun w => { d with toWorld := w } else none
  | .createEndpoint projectId r =>
    (d.authorized projectId).map fun p =>
      match createEndpoint s d.clock p r d.endpointIds d.db with
      | .ok db => { d with db := db, endpointIds := d.endpointIds + 1 }
      | .error _ => d
  | .updateEndpoint projectId endpointPublicId u =>
    d.onProject projectId fun p => updateEndpoint s d.clock p endpointPublicId u d.db
  | .deactivateEndpoint projectId endpointPublicId =>
    d.onProject projectId fun p => deactivateEndpoint d.clock p endpointPublicId d.db
  | .rotateEndpointSecret projectId endpointPublicId =>
    d.onProject projectId fun p => rotateEndpointSecret s d.clock p endpointPublicId d.db
  | .deactivateProject projectId => d.onProject projectId fun p => deactivateProject p d.db
  | .purgeTerminalDeliveries projectId dryRun maxRecords =>
    d.onProject projectId fun p =>
      .ok (purgeTerminalDeliveries s d.clock p dryRun maxRecords d.db)
  | .requestDeletion organizationId =>
    (d.tenants.organizations.find? organizationId).map fun o =>
      { d with tenants := d.tenants.requestDeletion s d.clock o }
  | .cancelDeletion organizationId =>
    (d.tenants.organizations.find? organizationId).map fun o =>
      match d.tenants.cancelDeletion d.clock o with
      | .ok t => { d with tenants := t }
      | .error _ => d
  | .purgeEventPayloads => some { d with db := purgeEventPayloads s d.clock d.db }
  | .cleanupDueOrganization =>
    let r := cleanupDueOrganization s d.clock d.db d.tenants
    some { d with db := r.1, tenants := r.2 }

/-- One action at an arbitrary moment: the clocks of workers and replicas need
not agree. -/
def stepAt (P : Primitives) (s : Settings) (d : Deployment) (x : Time × Action) :
    Option Deployment :=
  ({ d with clock := x.1 } : Deployment).step P s x.2

/-- A deployment before its first request: organizations, projects and
policies, and nothing else. -/
structure Fresh (d : Deployment) : Prop where
  globalState : d.db.globalState = none
  tenantStates : d.db.tenantStates.rows = []
  endpointStates : d.db.endpointStates.rows = []
  endpoints : d.db.endpoints.rows = []
  secretVersions : d.db.secretVersions = []
  events : d.db.events.rows = []
  deliveries : d.db.deliveries.rows = []
  attempts : d.db.attempts = []
  replayOperations : d.db.replayOperations = []
  issued : d.issued = []
  sent : d.sent = []
  operations : d.tenants.operations.rows = []

end Deployment

/-! ## §2. What an action does. -/

/-- The deliveries that a claim selects, with their tokens. -/
def claimedPicks (s : Settings) (now : Time) (limit : Nat) (tokens : List Uuid) (db : Db) :
    List (Delivery × Uuid) :=
  (selectFairDeliveries s now limit db).2.zip tokens

/-- The database after a claim. -/
def claimedDb (s : Settings) (now : Time) (limit : Nat) (tokens : List Uuid) (db : Db) : Db :=
  { (selectFairDeliveries s now limit db).1 with
    deliveries := (selectFairDeliveries s now limit db).1.deliveries.putAll
      (claimedRows s now (claimedPicks s now limit tokens db)) }

/-- The deliveries that a replay copies. -/
def Action.sources (db : Db) : Action → List Delivery
  | .op (.replay projectId deliveryId _) => (projectDelivery db projectId deliveryId).toList
  | .op (.replayMany projectId deliveryIds _ _) => replaySources db projectId deliveryIds
  | _ => []

/-- How the row of an endpoint may be edited. -/
inductive EndpointEdit (s : Settings) (now : Time) (db : Db) (w : WebhookEndpoint) :
    WebhookEndpoint → Prop where
  | updated (u : EndpointUpdate)
      (limit : w.isActive = false → (u.apply now w).isActive = true →
        activeEndpoints db w.projectId (some w.id) < s.tenantEndpointsPerProject) :
      EndpointEdit s now db w (u.apply now w)
  | deactivated : EndpointEdit s now db w { w with isActive := false, updatedAt := now }

/-- **The effect of an action**: the deployment it leaves, and what had to
hold. -/
inductive Effect (P : Primitives) (s : Settings) (d : Deployment) : Action → Deployment → Prop where
  /-- A refusal, or nothing to do. -/
  | idle (a : Action) (drawn : List Uuid) (keep : ∀ t ∈ d.drawn, t ∈ drawn) :
      Effect P s d a { d with drawn := drawn }
  | ticked (now : Time) (later : d.clock ≤ now) :
      Effect P s d (.op (.tick now)) { d with clock := now }
  | sent (c : ClaimedDelivery) (issued : c ∈ d.issued) (unsent : c ∉ d.sent) :
      Effect P s d (.op (.send c)) { d with sent := d.sent ++ [c] }
  | claimed (limit : Nat) (tokens : List Uuid) (claims : List ClaimedDelivery)
      (positive : limit ≠ 0) (length : tokens.length = limit)
      (unused : ∀ t ∈ tokens, t ∉ d.drawn)
      (built : BuiltFrom d.db (claimedPicks s d.clock limit tokens d.db) claims) :
      Effect P s d (.op (.claim limit tokens))
        { d with
          db := claimedDb s d.clock limit tokens d.db
          issued := d.issued ++ claims
          drawn := d.drawn ++ tokens }
  | renewed (c : ClaimedDelivery) (x : Delivery) (mem : x ∈ d.db.deliveries.rows)
      (issued : c ∈ d.issued) (id : x.id = c.id) (holds : c.holds d.clock x = true) :
      Effect P s d (.op (.renew c))
        { d with db.deliveries := d.db.deliveries.put (renewRow s d.clock x) }
  | released (c : ClaimedDelivery) (x : Delivery) (mem : x ∈ d.db.deliveries.rows)
      (issued : c ∈ d.issued) (id : x.id = c.id) (owns : c.owns x = true) :
      Effect P s d (.op (.release c))
        { d with db.deliveries := d.db.deliveries.put (releaseRow d.clock x) }
  | finalized (c : ClaimedDelivery) (f : Finalization) (x : Delivery) (e : EndpointQuotaState)
      (mem : x ∈ d.db.deliveries.rows) (issued : c ∈ d.issued) (id : x.id = c.id)
      (holds : c.holds d.clock x = true)
      (state : d.db.endpointStates.find? x.endpointId = some e) :
      Effect P s d (.op (.finalize c f)) { d with db := finalizeWrite s d.clock c f x e d.db }
  | ingested (project : Project) (call : IngestCall) (content : Content) (bytes : Bytes)
      (tenant : TenantQuotaState) (mem : project ∈ d.db.projects.rows)
      (active : d.tenants.isActive project.organizationId = true)
      (admitted : admitEventLocked s d.db (tenantState s d.db d.clock project.organizationId)
          d.clock project.organizationId (fanout d.db project.id call.eventType).length bytes.length
        = .ok tenant) :
      Effect P s d (.op (.ingest project.id call))
        { d with
          db := acceptEvent P s d.clock project call content bytes
            (fanout d.db project.id call.eventType) tenant d.db }
  | replayed (a : Action) (project : Project) (organizationId : Nat) (tenant : TenantQuotaState)
      (copies : List (Nat → Delivery)) (operation : ReplayOperation)
      (mem : project ∈ d.db.projects.rows)
      (active : d.tenants.isActive project.organizationId = true)
      (source : ∀ f ∈ copies, ∃ original ∈ a.sources d.db, original ∈ d.db.deliveries.rows
        ∧ ofProject d.db project.id original = true
        ∧ ensureReplayable d.db d.clock original = .ok ()
        ∧ ∃ publicId, f = replayCopy original publicId d.clock)
      (admitted : ∃ count, copies.length ≤ count ∧ admitReplaysLocked s d.db
        (tenantState s d.db d.clock organizationId) d.clock count = .ok tenant) :
      Effect P s d a
        { d with db := acceptReplays s d.clock organizationId tenant copies operation d.db }
  | canceled (projectId : Nat) (deliveryId : Uuid) (reason : Option String) (x : Delivery)
      (mem : x ∈ d.db.deliveries.rows) (queued : x.status.queued = true) :
      Effect P s d (.op (.cancel projectId deliveryId reason))
        { d with db := cancelWrite d.clock reason x (d.db.endpointStates.find? x.endpointId) d.db }
  | operated (projectId : Nat) (endpointPublicId : Uuid) (operation : EndpointOperation)
      (e : EndpointQuotaState) (mem : e ∈ d.db.endpointStates.rows) :
      Effect P s d (.op (.operate projectId endpointPublicId operation))
        { d with db.endpointStates := d.db.endpointStates.put (operation.apply s d.clock e) }
  | created (project : Project) (r : EndpointCreate) (mem : project ∈ d.db.projects.rows)
      (limit : activeEndpoints d.db project.id none < s.tenantEndpointsPerProject) :
      Effect P s d (.createEndpoint project.id r)
        { d with
          db := { ensureTenantState s d.clock d.db project.organizationId with
            endpoints := d.db.endpoints.insert (newEndpoint project.id r d.clock d.endpointIds)
            endpointStates :=
              d.db.endpointStates.insert (endpointQuotaValues d.endpointIds s d.clock)
            secretVersions := d.db.secretVersions ++ [⟨d.endpointIds, 1, d.clock, none⟩] }
          endpointIds := d.endpointIds + 1 }
  | edited (a : Action) (w w' : WebhookEndpoint)
      (states : Table TenantQuotaState TenantQuotaState.organizationId)
      (mem : w ∈ d.db.endpoints.rows) (edit : EndpointEdit s d.clock d.db w w')
      (ensured : states = d.db.tenantStates
        ∨ ∃ org, states = (ensureTenantState s d.clock d.db org).tenantStates) :
      Effect P s d a
        { d with
          db := { d.db with tenantStates := states, endpoints := d.db.endpoints.put w' } }
  | rotated (projectId : Nat) (endpointPublicId : Uuid) (w : WebhookEndpoint)
      (mem : w ∈ d.db.endpoints.rows) :
      Effect P s d (.rotateEndpointSecret projectId endpointPublicId)
        { d with
          db := { d.db with
            endpoints := d.db.endpoints.put
              { w with secretVersion := w.secretVersion + 1, updatedAt := d.clock }
            secretVersions := rotatedVersions d.clock
              (d.clock + s.endpointSecretOverlapSeconds) w d.db.secretVersions } }
  | projectDeactivated (project : Project) (mem : project ∈ d.db.projects.rows) :
      Effect P s d (.deactivateProject project.id)
        { d with db.projects := d.db.projects.put { project with isActive := false } }
  | retired (project : Project) (maxRecords : Nat) (mem : project ∈ d.db.projects.rows)
      (active : d.tenants.isActive project.organizationId = true) :
      Effect P s d (.purgeTerminalDeliveries project.id false maxRecords)
        { d with db := deleteDeliveries (retiredIds s d.clock project.id maxRecords d.db) d.db }
  | payloadsPurged :
      Effect P s d .purgeEventPayloads { d with db := purgeEventPayloads s d.clock d.db }
  | deletionRequested (o : Organization) (mem : o ∈ d.tenants.organizations.rows)
      (closed : d.tenants.openOperation o.id = none) :
      Effect P s d (.requestDeletion o.id)
        { d with tenants := d.tenants.requestDeletion s d.clock o }
  | deletionCanceled (o : Organization) (t : Tenants) (mem : o ∈ d.tenants.organizations.rows)
      (canceled : d.tenants.cancelDeletion d.clock o = .ok t) :
      Effect P s d (.cancelDeletion o.id) { d with tenants := t }
  | cleaned (operation : OrganizationLifecycleOperation) (r : Db × Bool)
      (due : d.tenants.claimOperation d.clock = some operation)
      (cleanup : Cleanup s d.clock operation.organizationId d.db r) :
      Effect P s d .cleanupDueOrganization
        { d with
          db := r.1
          tenants :=
            if r.2 then (d.tenants.start operation).remove operation.organizationId
            else d.tenants.start operation }

namespace Deployment

variable {d d' : Deployment}

theorem authorized_some (h : d.authorized projectId = some p) :
    d.db.projects.find? projectId = some p ∧ p ∈ d.db.projects.rows ∧ p.id = projectId
      ∧ d.tenants.isActive p.organizationId = true := by
  obtain ⟨hfind, hactive⟩ := filter_eq_some_iff.mp h
  exact ⟨hfind, Table.mem_of_find? hfind, Table.key_of_find? hfind, hactive⟩

theorem effect_refl (a : Action) : Effect P s d a d := Effect.idle a d.drawn fun _ ht => ht

/-- A transaction has its effect, or is rolled back. -/
theorem commit_effect (h : ∀ db, r = .ok db → Effect P s d a { d with db := db }) :
    Effect P s d a (d.commit r) := by
  cases r with
  | error => exact effect_refl a
  | ok db => exact h db rfl

/-- The transaction of an authorized request. -/
theorem onProject_effect (hf : ∀ p ∈ d.db.projects.rows, p.id = projectId →
      d.tenants.isActive p.organizationId = true →
      ∀ db, f p = .ok db → Effect P s d a { d with db := db })
    (h : d.onProject projectId f = some d') : Effect P s d a d' := by
  obtain ⟨p, hp, rfl⟩ := map_eq_some_iff.mp h
  obtain ⟨-, hmem, hid, hactive⟩ := authorized_some hp
  exact commit_effect (hf p hmem hid hactive)

/-- The transaction of an authorized operation of the world. -/
theorem world_effect (hpermit : (d.authorized projectId).isSome = true)
    (hf : ∀ p ∈ d.db.projects.rows, p.id = projectId → d.tenants.isActive p.organizationId = true →
      ∀ db, f p = .ok db → Effect P s d a { d with db := db })
    (h : d.toWorld.onProject projectId f = some w) : Effect P s d a { d with toWorld := w } := by
  obtain ⟨p, hp⟩ := isSome_iff_exists.mp hpermit
  obtain ⟨hfind, hmem, hid, hactive⟩ := authorized_some hp
  obtain ⟨q, hq, rfl⟩ := map_eq_some_iff.mp h
  rw [hfind] at hq
  cases hq
  cases hr : f p with
  | error => exact effect_refl a
  | ok db => exact hf p hmem hid hactive db hr

theorem claim_effect (hlen : tokens.length = limit) (hunused : ∀ t ∈ tokens, t ∉ d.drawn) :
    Effect P s d (.op (.claim limit tokens))
      { d with toWorld := d.toWorld.claim s limit tokens } := by
  have hkept : Effect P s d (.op (.claim limit tokens)) { d with drawn := d.drawn ++ tokens } :=
    Effect.idle _ _ fun t ht => List.mem_append_left _ ht
  unfold World.claim claimDue
  by_cases hzero : limit = 0
  · rw [if_pos hzero]
    simpa using hkept
  · rw [if_neg hzero]
    dsimp only
    cases hall : claimAll d.db ((selectFairDeliveries s d.clock limit d.db).2.zip tokens) with
    | error => exact hkept
    | ok claims =>
      exact Effect.claimed limit tokens claims hzero hlen hunused (claimAll_built _ hall)

theorem renew_effect (hc : c ∈ d.issued) :
    Effect P s d (.op (.renew c)) { d with db := (renewLease s d.clock c d.db).1 } := by
  unfold renewLease
  split
  · exact effect_refl _
  next x hx =>
    obtain ⟨hmem, hid, hguard⟩ := guardedRow_some hx
    exact Effect.renewed c x hmem hc hid hguard

theorem release_effect (hc : c ∈ d.issued) :
    Effect P s d (.op (.release c)) { d with db := (releaseClaim d.clock c d.db).1 } := by
  unfold releaseClaim
  split
  · exact effect_refl _
  next x hx =>
    obtain ⟨hmem, hid, hguard⟩ := guardedRow_some hx
    exact Effect.released c x hmem hc hid hguard

theorem finalize_effect (hc : c ∈ d.issued) :
    Effect P s d (.op (.finalize c f)) (d.commit ((finalize s d.clock c f d.db).map Prod.fst)) := by
  apply commit_effect
  intro db hdb
  obtain ⟨r, hr, rfl⟩ := of_map_ok hdb
  obtain rfl | ⟨x, e, hx, he, rfl⟩ := finalize_ok hr
  · exact effect_refl _
  · obtain ⟨hmem, hid, hguard⟩ := guardedRow_some hx
    exact Effect.finalized c f x e hmem hc hid hguard he

theorem ingest_effect (hmem : project ∈ d.db.projects.rows)
    (hactive : d.tenants.isActive project.organizationId = true)
    (h : (ingestEvent P s d.clock project call d.db).map Prod.fst = .ok db) :
    Effect P s d (.op (.ingest project.id call)) { d with db := db } := by
  obtain ⟨r, hr, rfl⟩ := of_map_ok h
  obtain ⟨c, -, ⟨hsame, -⟩ | ⟨bytes, tenant, -, -, hadmitting, hdb, -⟩⟩ := ingestEvent_ok hr
  · rw [hsame]
    exact effect_refl _
  · rw [hdb]
    exact Effect.ingested project call c bytes tenant hmem hactive hadmitting

theorem replay_effect (hmem : project ∈ d.db.projects.rows)
    (hactive : d.tenants.isActive project.organizationId = true)
    (h : replayDelivery s d.clock project deliveryId draws d.db = .ok db) :
    Effect P s d (.op (.replay project.id deliveryId draws)) { d with db := db } := by
  obtain ⟨original, tenant, hfind, hensure, hadmitting, rfl⟩ := replayDelivery_ok h
  refine Effect.replayed _ project _ tenant _ _ hmem hactive ?_ ⟨1, le_refl _, hadmitting⟩
  intro f hf
  have hproject := List.find?_some hfind
  rw [Bool.and_eq_true] at hproject
  refine ⟨original, ?_, List.mem_of_find?_eq_some hfind, hproject.1, hensure, _,
    List.mem_singleton.mp hf⟩
  show original ∈ (projectDelivery d.db project.id deliveryId).toList
  rw [hfind]
  exact List.mem_singleton.mpr rfl

theorem replayMany_effect (hmem : project ∈ d.db.projects.rows)
    (hactive : d.tenants.isActive project.organizationId = true)
    (h : replayDeliveries s d.clock project ids key draws d.db = .ok db) :
    Effect P s d (.op (.replayMany project.id ids key draws)) { d with db := db } := by
  obtain rfl | ⟨tenant, hensure, hadmitting, rfl⟩ := replayDeliveries_ok h
  · exact effect_refl _
  · refine Effect.replayed _ project _ tenant _ _ hmem hactive ?_ ⟨_, ?_, hadmitting⟩
    · intro f hf
      obtain ⟨original, hsource, publicId, rfl⟩ := mem_replayCopies hf
      obtain ⟨hrow, hfilter⟩ := List.mem_filter.mp hsource
      rw [Bool.and_eq_true, Bool.and_eq_true] at hfilter
      exact ⟨original, hsource, hrow, hfilter.1.1, ensureAllReplayable_ok.mp hensure _ hsource,
        publicId, rfl⟩
    · exact (List.length_filterMap_le _ _).trans (List.length_zipIdx).le

theorem cancel_effect (h : cancelDelivery d.clock project deliveryId reason d.db = .ok db) :
    Effect P s d (.op (.cancel projectId deliveryId reason)) { d with db := db } := by
  obtain rfl | ⟨x, hmem, hqueued, rfl⟩ := cancelDelivery_ok h
  · exact effect_refl _
  · exact Effect.canceled projectId deliveryId reason x hmem hqueued

theorem update_effect (h : updateEndpoint s d.clock project endpointPublicId u d.db = .ok db) :
    Effect P s d a { d with db := db } := by
  obtain ⟨w, hmem, hproject, hlimit, hdb⟩ := updateEndpoint_ok h
  have hedit : EndpointEdit s d.clock d.db w (u.apply d.clock w) := by
    rw [← hproject] at hlimit
    exact EndpointEdit.updated u hlimit
  rcases hdb with rfl | rfl
  · exact Effect.edited a w _ d.db.tenantStates hmem hedit (Or.inl rfl)
  · exact Effect.edited a w _ _ hmem hedit (Or.inr ⟨_, rfl⟩)

/-- The effect of an operation of the world. -/
theorem op_effect (hpermit : d.permits o = true) (h : d.toWorld.step P s o = some w) :
    Effect P s d (.op o) { d with toWorld := w } := by
  cases o with
  | claim =>
    obtain ⟨⟨hlen, -, hunused⟩, rfl⟩ := World.of_guard h
    exact claim_effect hlen hunused
  | send c =>
    obtain ⟨⟨hissued, hunsent⟩, rfl⟩ := World.of_guard h
    exact Effect.sent c hissued hunsent
  | renew =>
    obtain ⟨hc, rfl⟩ := World.of_guard h
    exact renew_effect hc
  | release =>
    obtain ⟨hc, rfl⟩ := World.of_guard h
    exact release_effect hc
  | finalize c f =>
    obtain ⟨hc, rfl⟩ := World.of_guard h
    have heffect := finalize_effect (P := P) (s := s) (f := f) hc
    cases hr : (finalize s d.clock c f d.db).map Prod.fst with
    | error => exact effect_refl _
    | ok =>
      rw [hr] at heffect
      exact heffect
  | ingest =>
    obtain ⟨p, hp, -⟩ := (any_eq_true _ _).mp hpermit
    refine world_effect (isSome_iff_exists.mpr ⟨p, hp⟩) ?_ h
    rintro q hq rfl hactive db hdb
    exact ingest_effect hq hactive hdb
  | replay =>
    refine world_effect hpermit ?_ h
    rintro q hq rfl hactive db hdb
    exact replay_effect hq hactive hdb
  | replayMany =>
    refine world_effect hpermit ?_ h
    rintro q hq rfl hactive db hdb
    exact replayMany_effect hq hactive hdb
  | cancel =>
    exact world_effect hpermit (fun _ _ _ _ _ hdb => cancel_effect hdb) h
  | operate projectId endpointPublicId operation =>
    refine world_effect hpermit ?_ h
    intro q _ _ _ db hdb
    obtain ⟨e, he, rfl⟩ := operateEndpoint_ok hdb
    exact Effect.operated projectId endpointPublicId operation e he
  | tick now =>
    obtain ⟨hle, rfl⟩ := World.of_guard h
    exact Effect.ticked now hle

/-- **What a step does.** -/
theorem step_effect (h : d.step P s a = some d') : Effect P s d a d' := by
  cases a with
  | op =>
    obtain ⟨hpermit, h⟩ := ite_none_right_eq_some.mp h
    obtain ⟨w, hw, rfl⟩ := map_eq_some_iff.mp h
    exact op_effect hpermit hw
  | createEndpoint _ r =>
    obtain ⟨p, hp, hd'⟩ := map_eq_some_iff.mp h
    obtain ⟨-, hmem, rfl, -⟩ := authorized_some hp
    split at hd'
    next db hdb =>
      subst hd'
      obtain ⟨hlimit, rfl⟩ := createEndpoint_ok hdb
      exact Effect.created p r hmem hlimit
    subst hd'
    exact effect_refl _
  | updateEndpoint =>
    exact onProject_effect (fun _ _ _ _ _ hdb => update_effect hdb) h
  | deactivateEndpoint =>
    refine onProject_effect (fun p _ _ _ db hdb => ?_) h
    obtain rfl | ⟨w, hmem, rfl⟩ := deactivateEndpoint_ok hdb
    · exact effect_refl _
    · exact Effect.edited _ w _ d.db.tenantStates hmem EndpointEdit.deactivated (Or.inl rfl)
  | rotateEndpointSecret projectId endpointPublicId =>
    refine onProject_effect (fun p _ _ _ db hdb => ?_) h
    obtain ⟨w, hmem, rfl⟩ := rotateEndpointSecret_ok hdb
    exact Effect.rotated projectId endpointPublicId w hmem
  | deactivateProject =>
    refine onProject_effect ?_ h
    rintro p hp rfl - db hdb
    cases hdb
    exact Effect.projectDeactivated p hp
  | purgeTerminalDeliveries _ dryRun maxRecords =>
    refine onProject_effect ?_ h
    rintro p hp rfl hactive db hdb
    cases hdb
    unfold purgeTerminalDeliveries
    cases dryRun with
    | true => exact effect_refl _
    | false => exact Effect.retired p maxRecords hp hactive
  | requestDeletion =>
    obtain ⟨o, ho, rfl⟩ := map_eq_some_iff.mp h
    obtain ⟨hmem, rfl⟩ := Table.find?_eq_some.mp ho
    cases hopen : d.tenants.openOperation o.id with
    | none => exact Effect.deletionRequested o hmem hopen
    | some =>
      unfold Tenants.requestDeletion
      rw [hopen]
      exact effect_refl _
  | cancelDeletion =>
    obtain ⟨o, ho, hd'⟩ := map_eq_some_iff.mp h
    obtain ⟨hmem, rfl⟩ := Table.find?_eq_some.mp ho
    split at hd'
    next t ht =>
      subst hd'
      exact Effect.deletionCanceled o t hmem ht
    subst hd'
    exact effect_refl _
  | purgeEventPayloads =>
    cases h
    exact Effect.payloadsPurged
  | cleanupDueOrganization =>
    cases h
    unfold cleanupDueOrganization
    split
    · exact effect_refl _
    next operation hdue =>
      exact Effect.cleaned operation _ hdue (cleanupStep_cleanup s d.clock _ d.db)

theorem stepAt_effect {x : Time × Action} (h : d.stepAt P s x = some d') :
    Effect P s { d with clock := x.1 } x.2 d' := step_effect h

end Deployment

/-! ## §3. A small deployment. -/

/-- Organization 1 with its project, and nothing else. -/
def freshDeployment : Deployment where
  db := { projects := Table.empty.insert smallProject }
  clock := 0
  tenants := { organizations := Table.empty.insert { id := 1 } }
  endpointIds := 1

theorem freshDeployment_fresh : freshDeployment.Fresh := by
  constructor <;> rfl

/-- The request for the project's first endpoint. -/
def registerEndpoint : Action :=
  .createEndpoint 1
    { publicId := "endpoint-1", url := "https://receiver.example/hook", urlFault := none
      eventTypes := none, signatureScheme := .legacy }

/-- The project's first event. -/
def firstEvent : IngestCall where
  idempotencyKey := "key-1"
  eventType := "order.created"
  payload := .obj []
  eventPublicId := "event-1"
  deliveryPublicId := fun _ => "delivery-1"

/-- The claim of its delivery under `token`, as attempt `n`. -/
def firstClaim (token : Uuid) (n : Nat) : ClaimedDelivery :=
  { smallClaim token n with
    canonicalEnvelope := (canonicalJson
      (envelope smallPrimitives smallProject firstEvent .native 0)).getD [] }

/-- A run of the small deployment, each action at its moment. -/
abbrev freshRun (s : Settings) (xs : List (Time × Action)) : Option Deployment :=
  run (Deployment.stepAt smallPrimitives s) freshDeployment xs

end WebhookPlatform
