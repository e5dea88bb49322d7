/-
  WebhookPlatform.Administration
  **ENDPOINTS, SECRETS AND PROJECTS** (`app/services/webhook_service.py`,
  `check_endpoint_limit` of `app/admission.py`): the requests that edit what
  later events are accepted under.  Each is a transaction over the database
  as it stands once the caller is authorized.

  `validate_webhook_url` resolves names, so its answer is an input: the text
  of the exception it raises, if it raises one.
-/
import WebhookPlatform.WebhookService

namespace WebhookPlatform

open Relational Exceptions

/-! ## §1. The endpoint limit. -/

/-- `endpoint_count`: the project's active endpoints, without `exclude`. -/
def activeEndpoints (db : Db) (projectId : Nat) (exclude : Option Nat) : Nat :=
  db.endpoints.rows.countP fun w =>
    decide (w.projectId = projectId) && w.isActive && decide (exclude ≠ some w.id)

/-- `check_endpoint_limit`, as far as it can refuse. -/
def checkEndpointLimit (s : Settings) (db : Db) (projectId : Nat) (exclude : Option Nat) :
    Except AppError Unit :=
  if s.tenantEndpointsPerProject ≤ activeEndpoints db projectId exclude then
    .error (.quotaExceeded "endpoints_per_project" s.quotaRetryAfterMaxSeconds)
  else .ok ()

theorem checkEndpointLimit_ok (h : checkEndpointLimit s db projectId exclude = .ok u) :
    activeEndpoints db projectId exclude < s.tenantEndpointsPerProject := by
  unfold checkEndpointLimit at h
  split at h
  · cases h
  next hlimit => exact not_le.mp hlimit

/-! ## §2. Creating and editing endpoints. -/

/-- The `event_types` column for a request's filter; `None` reads back as
`None`. -/
def storedFilter (eventTypes : Option (List String)) : Option Json :=
  eventTypes.map fun types => .arr (types.map fun type => .str (pyStr type))

/-- A request to create an endpoint. -/
structure EndpointCreate where
  publicId : Uuid
  url : String
  /-- What `validate_webhook_url` raises. -/
  urlFault : Option String
  eventTypes : Option (List String)
  signatureScheme : SignatureScheme

/-- The `WebhookEndpoint` row. -/
def newEndpoint (projectId : Nat) (r : EndpointCreate) (now : Time) (id : Nat) :
    WebhookEndpoint where
  id := id
  publicId := r.publicId
  projectId := projectId
  url := r.url
  eventTypes := storedFilter r.eventTypes
  signatureScheme := r.signatureScheme
  isActive := true
  secretVersion := 1
  createdAt := now
  updatedAt := now

/-- `create_endpoint`; `id` is the next of the sequence. -/
def createEndpoint (s : Settings) (now : Time) (project : Project) (r : EndpointCreate) (id : Nat)
    (db : Db) : Except AppError Db :=
  match r.urlFault with
  | some message => .error (.validation message)
  | none => do
      checkEndpointLimit s db project.id none
      .ok { ensureTenantState s now db project.organizationId with
        endpoints := db.endpoints.insert (newEndpoint project.id r now id)
        endpointStates := db.endpointStates.insert (endpointQuotaValues id s now)
        secretVersions := db.secretVersions ++ [⟨id, 1, now, none⟩] }

/-- `_endpoint`. -/
def projectEndpoint (db : Db) (projectId : Nat) (endpointPublicId : Uuid) :
    Option WebhookEndpoint :=
  db.endpoints.rows.find? fun w =>
    decide (w.projectId = projectId) && decide (w.publicId = endpointPublicId)

/-- A request to edit an endpoint: the fields that are set. -/
structure EndpointUpdate where
  url : Option String := none
  /-- What `validate_webhook_url` raises. -/
  urlFault : Option String := none
  isActive : Option Bool := none
  eventTypes : Option (Option (List String)) := none
  signatureScheme : Option SignatureScheme := none

/-- The edited row. -/
def EndpointUpdate.apply (u : EndpointUpdate) (now : Time) (w : WebhookEndpoint) :
    WebhookEndpoint :=
  { w with
    url := u.url.getD w.url
    isActive := u.isActive.getD w.isActive
    eventTypes :=
      match u.eventTypes with
      | none => w.eventTypes
      | some eventTypes => storedFilter eventTypes
    signatureScheme := u.signatureScheme.getD w.signatureScheme
    updatedAt := now }

/-- `update_endpoint`: only a reactivation is held against the limit. -/
def updateEndpoint (s : Settings) (now : Time) (project : Project) (endpointPublicId : Uuid)
    (u : EndpointUpdate) (db : Db) : Except AppError Db :=
  match projectEndpoint db project.id endpointPublicId with
  | none => .error (.notFound "Webhook endpoint" endpointPublicId)
  | some w =>
    match u.url.bind fun _ => u.urlFault with
    | some message => .error (.validation message)
    | none =>
      if u.isActive = some true ∧ w.isActive = false then do
        checkEndpointLimit s db project.id (some w.id)
        .ok { ensureTenantState s now db project.organizationId with
          endpoints := db.endpoints.put (u.apply now w) }
      else .ok { db with endpoints := db.endpoints.put (u.apply now w) }

/-- `deactivate_endpoint`. -/
def deactivateEndpoint (now : Time) (project : Project) (endpointPublicId : Uuid) (db : Db) :
    Except AppError Db :=
  match projectEndpoint db project.id endpointPublicId with
  | none => .error (.notFound "Webhook endpoint" endpointPublicId)
  | some w =>
    if w.isActive then
      .ok { db with endpoints := db.endpoints.put { w with isActive := false, updatedAt := now } }
    else .ok db

/-! ## §3. Signing secrets and projects. -/

/-- The row is the endpoint's version `version`. -/
def EndpointSigningSecretVersion.is (endpointId version : Nat) (v : EndpointSigningSecretVersion) :
    Bool :=
  decide (v.endpointId = endpointId) && decide (v.version = version)

/-- The version rows after the current one was given its end and the next
one was added. -/
def rotatedVersions (now retireAt : Time) (w : WebhookEndpoint)
    (versions : List EndpointSigningSecretVersion) : List EndpointSigningSecretVersion :=
  (versions.map fun v =>
      if v.is w.id w.secretVersion then { v with retireAt := some retireAt } else v)
    ++ [⟨w.id, w.secretVersion + 1, now, none⟩]

/-- `rotate_endpoint_secret`. -/
def rotateEndpointSecret (s : Settings) (now : Time) (project : Project)
    (endpointPublicId : Uuid) (db : Db) : Except AppError Db :=
  match projectEndpoint db project.id endpointPublicId with
  | none => .error (.notFound "Webhook endpoint" endpointPublicId)
  | some w =>
    if db.secretVersions.any (·.is w.id w.secretVersion) then
      .ok { db with
        endpoints := db.endpoints.put
          { w with secretVersion := w.secretVersion + 1, updatedAt := now }
        secretVersions :=
          rotatedVersions now (now + s.endpointSecretOverlapSeconds) w db.secretVersions }
    else .error (.conflict "Current endpoint signing version is missing")

/-- `deactivate_project`. -/
def deactivateProject (project : Project) (db : Db) : Except AppError Db :=
  .ok { db with projects := db.projects.put { project with isActive := false } }

/-! ## §4. What a request that succeeds has done. -/

theorem createEndpoint_ok {id : Nat} (h : createEndpoint s now project r id db = .ok db') :
    activeEndpoints db project.id none < s.tenantEndpointsPerProject
      ∧ db' = { ensureTenantState s now db project.organizationId with
          endpoints := db.endpoints.insert (newEndpoint project.id r now id)
          endpointStates := db.endpointStates.insert (endpointQuotaValues id s now)
          secretVersions := db.secretVersions ++ [⟨id, 1, now, none⟩] } := by
  unfold createEndpoint at h
  split at h
  · cases h
  obtain ⟨_, hlimit, h⟩ := bind_eq_ok.mp h
  injection h with h
  exact ⟨checkEndpointLimit_ok hlimit, h.symm⟩

theorem projectEndpoint_some (h : projectEndpoint db projectId endpointPublicId = some w) :
    w ∈ db.endpoints.rows ∧ w.projectId = projectId := by
  have hfound := List.find?_some h
  rw [Bool.and_eq_true, decide_eq_true_eq] at hfound
  exact ⟨List.mem_of_find?_eq_some h, hfound.1⟩

/-- An update puts the edited row; if the row becomes active the project was
below its limit without it. -/
theorem updateEndpoint_ok (h : updateEndpoint s now project endpointPublicId u db = .ok db') :
    ∃ w ∈ db.endpoints.rows, w.projectId = project.id
      ∧ (w.isActive = false → (u.apply now w).isActive = true →
          activeEndpoints db project.id (some w.id) < s.tenantEndpointsPerProject)
      ∧ (db' = { db with endpoints := db.endpoints.put (u.apply now w) }
        ∨ db' = { ensureTenantState s now db project.organizationId with
            endpoints := db.endpoints.put (u.apply now w) }) := by
  unfold updateEndpoint at h
  split at h
  · cases h
  next w hfind =>
    obtain ⟨hmem, hproject⟩ := projectEndpoint_some hfind
    split at h
    · cases h
    split at h
    · obtain ⟨_, hlimit, h⟩ := bind_eq_ok.mp h
      injection h with h
      exact ⟨w, hmem, hproject, fun _ _ => checkEndpointLimit_ok hlimit, Or.inr h.symm⟩
    next hkept =>
      injection h with h
      refine ⟨w, hmem, hproject, fun hoff hon => ?_, Or.inl h.symm⟩
      -- an inactive row that is not reactivated stays inactive
      have hsame : u.isActive.getD w.isActive = true := hon
      rw [hoff] at hsame
      cases hactive : u.isActive with
      | none => simp [hactive] at hsame
      | some =>
        rw [hactive, Option.getD_some] at hsame
        subst hsame
        exact absurd ⟨hactive, hoff⟩ hkept

theorem deactivateEndpoint_ok (h : deactivateEndpoint now project endpointPublicId db = .ok db') :
    db' = db ∨ ∃ w ∈ db.endpoints.rows, db' = { db with
        endpoints := db.endpoints.put { w with isActive := false, updatedAt := now } } := by
  unfold deactivateEndpoint at h
  split at h
  · cases h
  next w hfind =>
    split at h
    · injection h with h
      exact Or.inr ⟨w, (projectEndpoint_some hfind).1, h.symm⟩
    injection h with h
    exact Or.inl h.symm

theorem rotateEndpointSecret_ok
    (h : rotateEndpointSecret s now project endpointPublicId db = .ok db') :
    ∃ w ∈ db.endpoints.rows, db' = { db with
      endpoints := db.endpoints.put
        { w with secretVersion := w.secretVersion + 1, updatedAt := now }
      secretVersions :=
        rotatedVersions now (now + s.endpointSecretOverlapSeconds) w db.secretVersions } := by
  unfold rotateEndpointSecret at h
  split at h
  · cases h
  next w hfind =>
    split at h
    · injection h with h
      exact ⟨w, (projectEndpoint_some hfind).1, h.symm⟩
    · cases h

end WebhookPlatform
