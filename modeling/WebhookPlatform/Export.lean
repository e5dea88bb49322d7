/-
  WebhookPlatform.Export
  **THE EXPORT OF AN ORGANIZATION**: `export_organization`.

  Every section and every count is fetched with one row more than the limit,
  and `truncated` says whether any of them has that row.  The audit events
  are fetched by `list_audit`, which allows 1000 rows at most: with the limit
  1000 there is no row more, and the export misses audit events in silence.
  That is the only gap (`export_complete_iff`).

  Conventions of the embedding:

    • the queries of one export see one state,
    • tables without an id column are in the order in which they were filled,
    • the organization's public id comes with the call.
-/
import WebhookPlatform.Audit
import WebhookPlatform.ApiKeys
import WebhookPlatform.Transactions

namespace WebhookPlatform

open Relational RowNumber Exceptions List

/-! ## §1. The rows of an organization. -/

/-- The committed data: the platform's, and the tables that authorize. -/
structure Realm where
  shared : Shared
  directory : Directory := {}
  operations : Serial OrganizationLifecycleOperation OrganizationLifecycleOperation.id :=
    Serial.empty
  projectMembers : Table ProjectMember ProjectMember.key := Table.empty
  keys : Serial ApiKey ApiKey.id := Serial.empty

abbrev Realm.db (d : Realm) : Db := d.shared.db

/-- What the export counts. -/
inductive Counted where
  | members
  | projects
  | projectMembers
  | apiKeys
  | endpoints
  | events
  | deliveries
  | attempts
  deriving Repr, DecidableEq

/-- The keys of `bounded_counts`. -/
def Counted.all : List Counted :=
  [.members, .projects, .projectMembers, .apiKeys, .endpoints, .events, .deliveries, .attempts]

theorem Counted.mem_all (c : Counted) : c ∈ all := by cases c <;> decide

namespace Realm

/-- `JOIN projects ON projects.id = project_id WHERE organization_id = …`,
with the project's public id. -/
def joined {α : Type} (d : Realm) (organizationId : Nat) (projectId : α → Nat) (rows : List α) :
    List (α × Uuid) :=
  rows.filterMap fun a => (d.db.projects.find? (projectId a)).bind fun p =>
    if p.organizationId = organizationId then some (a, p.publicId) else none

variable (d : Realm) (organizationId : Nat)

def membersOf : List OrganizationMember :=
  d.directory.members.rows.filter fun m => decide (m.organizationId = organizationId)

def projectsOf : List Project :=
  orderBy Project.id
    (d.db.projects.rows.filter fun p => decide (p.organizationId = organizationId))

def apiKeysOf : List (ApiKey × Uuid) :=
  d.joined organizationId ApiKey.projectId (orderBy ApiKey.id d.keys.rows)

def endpointsOf : List (WebhookEndpoint × Uuid) :=
  d.joined organizationId WebhookEndpoint.projectId
    (orderBy WebhookEndpoint.id d.db.endpoints.rows)

def deliveriesOf : List Delivery :=
  d.db.deliveries.rows.filter fun x => decide (x.organizationId = organizationId)

/-- `JOIN deliveries ON deliveries.id = delivery_id WHERE organization_id = …`. -/
def attemptsOf : List DeliveryAttempt :=
  d.db.attempts.filter fun a =>
    (d.db.deliveries.find? a.deliveryId).any fun x => decide (x.organizationId = organizationId)

/-- How many rows there are. -/
def total : Counted → Nat
  | .members => (d.membersOf organizationId).length
  | .projects => (d.projectsOf organizationId).length
  | .projectMembers =>
    (d.joined organizationId ProjectMember.projectId d.projectMembers.rows).length
  | .apiKeys => (d.apiKeysOf organizationId).length
  | .endpoints => (d.endpointsOf organizationId).length
  | .events => (d.joined organizationId Event.projectId d.db.events.rows).length
  | .deliveries => (d.deliveriesOf organizationId).length
  | .attempts => (d.attemptsOf organizationId).length

/-- The latest lifecycle operation. -/
def latestOperation : Option OrganizationLifecycleOperation :=
  (orderBy (fun o => OrderDual.toDual (toLex (o.createdAt, o.id)))
    (d.operations.rows.filter fun o => decide (o.organizationId = organizationId))).head?

end Realm

/-! ## §2. The export. -/

/-- `api_key_status`. -/
inductive ApiKeyStatus where
  | revoked
  | expired
  | active
  deriving Repr, DecidableEq

def apiKeyStatus (now : Time) (k : ApiKey) : ApiKeyStatus :=
  if !k.isActive || k.revokedAt.isSome then .revoked
  else if k.expired now then .expired
  else .active

/-- An API key in the export. -/
structure ExportedKey where
  publicId : Uuid
  projectPublicId : Uuid
  keyPrefix : String
  scopes : List String
  expiresAt : Option Time
  status : ApiKeyStatus
  createdAt : Time

/-- An endpoint in the export. -/
structure ExportedEndpoint where
  publicId : Uuid
  projectPublicId : Uuid
  isActive : Bool
  signingVersion : Nat
  createdAt : Time
  updatedAt : Time

/-- The result of `export_organization`; a project is its whole row. -/
structure OrganizationExport where
  generatedAt : Time
  organization : Organization
  policy : OrganizationPolicy
  lifecycle : Option OrganizationLifecycleOperation
  counts : Counted → Nat
  members : List OrganizationMember
  projects : List Project
  apiKeys : List ExportedKey
  endpoints : List ExportedEndpoint
  auditEvents : List AdministrativeAuditEvent
  truncated : Bool

def exportedKey (now : Time) (row : ApiKey × Uuid) : ExportedKey :=
  ⟨row.1.publicId, row.2, row.1.keyPrefix, row.1.scopes, row.1.expiresAt, apiKeyStatus now row.1,
    row.1.createdAt⟩

def exportedEndpoint (row : WebhookEndpoint × Uuid) : ExportedEndpoint :=
  ⟨row.1.publicId, row.2, row.1.isActive, row.1.secretVersion, row.1.createdAt, row.1.updatedAt⟩

/-- The rest of `export_organization`, with the audit events of `list_audit`. -/
def exportRows (limit : Nat) (d : Realm) (organization : Organization)
    (policy : OrganizationPolicy) (auditEvents : List AdministrativeAuditEvent) :
    OrganizationExport :=
  let members := (d.membersOf organization.id).take (limit + 1)
  let projects := (d.projectsOf organization.id).take (limit + 1)
  let apiKeys := (d.apiKeysOf organization.id).take (limit + 1)
  let endpoints := (d.endpointsOf organization.id).take (limit + 1)
  -- `bounded_count`
  let counts c := min (d.total organization.id c) (limit + 1)
  { generatedAt := d.shared.clock
    organization := organization
    policy := policy
    lifecycle := d.latestOperation organization.id
    counts := fun c => min (counts c) limit
    members := members.take limit
    projects := projects.take limit
    apiKeys := (apiKeys.take limit).map (exportedKey d.shared.clock)
    endpoints := (endpoints.take limit).map exportedEndpoint
    auditEvents := auditEvents.take limit
    truncated := [members.length, projects.length, apiKeys.length, endpoints.length,
        auditEvents.length].any (fun n => decide (limit < n))
      || Counted.all.any fun c => decide (limit < counts c) }

/-- `export_organization`. -/
def exportOrganization (actor organizationId : Nat) (publicId : Uuid) (limit : Nat) (d : Realm)
    (trail : AuditTrail) : Except AppError OrganizationExport := do
  let organization ← authorizeOrganization actor organizationId .orgExport false d.directory
  match d.db.policies.find? organization.id with
  | none => .error (.runtimeError "Organization policy is unavailable")
  | some policy =>
    match listAudit trail publicId none none (min (limit + 1) 1000) none none with
    | .error _ => .error .valueError
    | .ok auditEvents => return exportRows limit d organization policy auditEvents

/-! ## §3. What `truncated` says. -/

/-- Every section has all rows of the organization, and every count is the
true total. -/
structure OrganizationExport.Complete (e : OrganizationExport) (organizationId : Nat)
    (publicId : Uuid) (d : Realm) (trail : AuditTrail) : Prop where
  members : e.members = d.membersOf organizationId
  projects : e.projects = d.projectsOf organizationId
  apiKeys : e.apiKeys = (d.apiKeysOf organizationId).map (exportedKey d.shared.clock)
  endpoints : e.endpoints = (d.endpointsOf organizationId).map exportedEndpoint
  auditEvents : e.auditEvents = orderBy AdministrativeAuditEvent.turn
    (AuditTrail.matching trail publicId none none)
  counts : ∀ c, e.counts c = d.total organizationId c

section Truncated

theorem exportOrganization_ok
    (h : exportOrganization actor organizationId publicId limit d trail = .ok e) :
    ∃ organization policy, organization.id = organizationId
      ∧ e = exportRows limit d organization policy ((orderBy AdministrativeAuditEvent.turn
          (AuditTrail.matching trail publicId none none)).take (min (limit + 1) 1000)) := by
  obtain ⟨organization, hauthorized, h⟩ := bind_eq_ok.mp h
  have hid : organization.id = organizationId :=
    Table.key_of_find? (authorizeOrganization_ok hauthorized).1
  split at h
  · cases h
  next policy _ =>
    split at h
    · cases h
    next auditEvents haudit =>
      refine ⟨organization, policy, hid, (Except.ok.inj h).symm.trans (congrArg _ ?_)⟩
      exact listAudit_ok haudit

/-- **An export is not truncated** if no total exceeds the limit, and no row
more than the limit was fetched from the audit trail. -/
theorem exportRows_truncated :
    (exportRows limit d organization policy auditEvents).truncated = false
      ↔ (∀ c, d.total organization.id c ≤ limit) ∧ auditEvents.length ≤ limit := by
  have hcount : ∀ n, ¬ limit < min n (limit + 1) ↔ n ≤ limit := fun n => by omega
  have hcounts : (∀ c ∈ Counted.all, d.total organization.id c ≤ limit)
      ↔ ∀ c, d.total organization.id c ≤ limit :=
    ⟨fun h c => h c c.mem_all, fun h c _ => h c⟩
  simp only [exportRows, Bool.or_eq_false_iff, any_eq_false, decide_eq_true_eq,
    forall_mem_cons, length_take, Nat.min_comm (limit + 1), hcount, hcounts]
  constructor
  · exact fun h => ⟨h.2, not_lt.mp h.1.2.2.2.2.1⟩
  · -- a section is among the counts
    intro h
    exact ⟨⟨h.1 .members, h.1 .projects, h.1 .apiKeys, h.1 .endpoints, not_lt.mpr h.2,
      fun _ hx => by cases hx⟩, h.1⟩

/-- An export whose totals are within the limit has every row of its
sections. -/
theorem exportRows_complete (hcounts : ∀ c, d.total organization.id c ≤ limit)
    (haudit : auditEvents.take limit = orderBy AdministrativeAuditEvent.turn
      (AuditTrail.matching trail publicId none none)) :
    (exportRows limit d organization policy auditEvents).Complete organization.id publicId d
      trail := by
  have htake {α : Type} (rows : List α) (h : rows.length ≤ limit) :
      (rows.take (limit + 1)).take limit = rows := by
    rw [take_of_length_le (h.trans (Nat.le_succ limit)), take_of_length_le h]
  constructor
  · exact htake _ (hcounts .members)
  · exact htake _ (hcounts .projects)
  · exact congrArg (List.map _) (htake _ (hcounts .apiKeys))
  · exact congrArg (List.map _) (htake _ (hcounts .endpoints))
  · exact haudit
  · intro c
    have hc := hcounts c
    show min (min (d.total organization.id c) (limit + 1)) limit = _
    omega

end Truncated

/-- **AN EXPORT THAT SAYS IT IS COMPLETE IS COMPLETE, EXCEPT** at the largest
limit: there it is so exactly if the organization has no more than 1000 audit
events, or if it has more than 1000 rows of some other kind. -/
theorem export_complete_iff (actor organizationId : Nat) (publicId : Uuid) (limit : Nat)
    (hlimit : 1 ≤ limit ∧ limit ≤ 1000) (d : Realm) (trail : AuditTrail) (e : OrganizationExport)
    (h : exportOrganization actor organizationId publicId limit d trail = .ok e) :
    (e.truncated = false → e.Complete organizationId publicId d trail)
      ↔ limit < 1000 ∨ (AuditTrail.matching trail publicId none none).length ≤ 1000
        ∨ ∃ c, limit < d.total organizationId c := by
  obtain ⟨organization, policy, rfl, rfl⟩ := exportOrganization_ok h
  have hlength : (orderBy AdministrativeAuditEvent.turn
      (AuditTrail.matching trail publicId none none)).length
      = (AuditTrail.matching trail publicId none none).length := (orderBy_perm _ _).length_eq
  rw [exportRows_truncated, length_take, hlength]
  constructor
  · intro hcomplete
    by_contra hgap
    simp only [not_or, not_exists, not_lt, not_le] at hgap
    obtain ⟨hlargest, hmany, hcounts⟩ := hgap
    -- the section has 1000 rows, and the trail has more
    have hall := congrArg List.length (hcomplete ⟨hcounts, by omega⟩).auditEvents
    simp only [exportRows, length_take, hlength] at hall
    omega
  · rintro hlarge ⟨hcounts, haudit⟩
    refine exportRows_complete hcounts ?_
    have hfew : (AuditTrail.matching trail publicId none none).length ≤ limit := by
      rcases hlarge with hlt | hfew | ⟨c, hc⟩
      · omega
      · omega
      · exact absurd hc (not_lt.mpr (hcounts c))
    rw [take_take, take_of_length_le]
    rw [hlength]
    omega

/-- An organization with an owner and a policy, and one row of every kind. -/
def ownedRealm : Realm where
  shared :=
    { db := { smallDb with
        policies := Table.empty.insert ⟨1, 30, 30⟩
        attempts := [⟨1, 1, 0, 0, .retryScheduled, some 503, some "http_503", none⟩] }
      clock := 0 }
  directory :=
    { organizations := Table.empty.insert ⟨1, .active, none, none⟩
      members := Table.empty.insert ⟨1, 7, .owner⟩ }
  projectMembers := Table.empty.insert ⟨1, 7, .admin⟩
  keys := Serial.empty.append fun id =>
    { id := id, publicId := "key-1", projectId := 1, name := "ci", keyPrefix := "whp_1"
      keyDigest := "digest-1", scopes := [], expiresAt := none, rotationFamilyId := "family-1"
      createdAt := 0 }

/-- An audit trail with `n` events of one instant. -/
def auditTrailOf (n : Nat) : AuditTrail where
  rows := (List.range n).map fun id => ⟨id, "o", "member.added", "member", 0⟩
  nodup := by
    rw [map_map]
    exact (map_id _).symm ▸ nodup_range

/-- Its export at the limit 1, with one audit event. -/
theorem export_complete_iff_small : (∀ c, ownedRealm.total 1 c = 1)
      ∧ ∃ e, exportOrganization 7 1 "o" 1 ownedRealm (auditTrailOf 1) = .ok e
        ∧ e.truncated = false ∧ e.Complete 1 "o" ownedRealm (auditTrailOf 1) := by
  refine ⟨fun c => by cases c <;> decide +kernel, _, rfl, by decide +kernel, ?_⟩
  exact (export_complete_iff 7 1 "o" 1 (by decide) ownedRealm (auditTrailOf 1) _ rfl).mpr
    (Or.inl (by decide)) (by decide +kernel)

theorem auditTrailOf_matching (n : Nat) :
    (AuditTrail.matching (auditTrailOf n) "o" none none).length = n := by
  have hall : AuditTrail.matching (auditTrailOf n) "o" none none = (auditTrailOf n).rows := by
    refine filter_eq_self.mpr fun e he => ?_
    obtain ⟨id, -, rfl⟩ := mem_map.mp he
    rfl
  rw [hall]
  exact (length_map _).trans length_range

/-- **1001 AUDIT EVENTS, LIMIT 1000**: the export has 1000 of them and says that
nothing is missing. -/
theorem export_misses_audit_event :
    ∃ e, exportOrganization 7 1 "o" 1000 ownedRealm (auditTrailOf 1001) = .ok e
      ∧ e.truncated = false ∧ e.auditEvents.length = 1000
      ∧ (AuditTrail.matching (auditTrailOf 1001) "o" none none).length = 1001 := by
  have hmany := auditTrailOf_matching 1001
  generalize auditTrailOf 1001 = trail at hmany ⊢
  obtain ⟨fetched, haudit, hlength⟩ : ∃ fetched,
      listAudit trail "o" none none 1000 none none = .ok fetched ∧ fetched.length = 1000 := by
    refine ⟨_, listAudit_page trail none none (by decide) (by decide) none, ?_⟩
    rw [length_take, Keyset.length_remaining, hmany]
    decide
  refine ⟨exportRows 1000 ownedRealm ⟨1, .active, none, none⟩ ⟨1, 30, 30⟩ fetched, ?_, ?_,
    length_take_of_le hlength.ge, hmany⟩
  · show (match listAudit trail "o" none none 1000 none none with
      | .error _ => Except.error AppError.valueError
      | .ok auditEvents => .ok (exportRows 1000 ownedRealm _ _ auditEvents)) = _
    rw [haudit]
  · exact exportRows_truncated.mpr ⟨fun c => by cases c <;> decide +kernel, hlength.le⟩

end WebhookPlatform
