/-
  WebhookPlatform.Authorization
  **WHO MAY DO WHAT**: `authorize_organization` and `authorize_project`.

  An organization role grants permissions in the organization; owners and
  admins have the project permissions in all its projects, plain members those
  of their project role.  An organization that is to be deleted can be read,
  and its deletion can be managed, and nothing else.

      owner     every permission
      admin     every permission but `ORG_DELETE`
      member    `ORG_READ`

  `Registry` holds the tables that decide.  The lemmas say what a grant tells
  about them: the caller's row, the role that permits, the state of the
  organization (`authorizeOrganization_ok`, `authorizeProject_ok`).
-/
import WebhookPlatform.Membership
import WebhookPlatform.Lib.Exceptions

namespace WebhookPlatform

open Relational Exceptions

/-! ## §1. Roles and permissions. -/

/-- `Permission`. -/
inductive Permission where
  | orgRead
  | memberManage
  | policyManage
  | orgExport
  | orgDelete
  | auditRead
  | projectRead
  | projectManage
  | keyManage
  | endpointManage
  | endpointOperate
  | replay
  | deliveryCancel
  | deliveryPurge
  deriving Repr, DecidableEq

/-- `ck_project_members_role`. -/
inductive ProjectRole where
  | admin
  | operator
  | viewer
  deriving Repr, DecidableEq

/-- `ORGANIZATION_ROLE_PERMISSIONS`. -/
def OrganizationRole.permits : OrganizationRole → Permission → Bool
  | .owner, _ => true
  | .admin, p => decide (p ≠ .orgDelete)
  | .member, p => decide (p = .orgRead)

/-- `PROJECT_ROLE_PERMISSIONS`. -/
def ProjectRole.permits : ProjectRole → Permission → Bool
  | .admin, p =>
    decide (p ∈ [.projectRead, .projectManage, .keyManage, .endpointManage, .endpointOperate,
      .replay, .deliveryCancel, .deliveryPurge])
  | .operator, p => decide (p ∈ [.projectRead, .endpointOperate, .replay, .deliveryCancel])
  | .viewer, p => decide (p = .projectRead)

/-- `_ORGANIZATION_PERMISSIONS`; the others are `_PROJECT_PERMISSIONS`. -/
def Permission.ofOrganization (p : Permission) : Bool :=
  decide (p ∈ [.orgRead, .memberManage, .policyManage, .orgExport, .orgDelete, .auditRead])

/-- `_PENDING_READ_PERMISSIONS`. -/
def Permission.pendingRead (p : Permission) : Bool :=
  decide (p ∈ [.orgRead, .orgExport, .auditRead, .projectRead])

/-! ## §2. The tables. -/

/-- `project_members`. -/
structure ProjectMember where
  projectId : Nat
  userId : Nat
  role : ProjectRole
  deriving Repr, DecidableEq

/-- `uq_project_members_project_user`. -/
def ProjectMember.key (m : ProjectMember) : Nat × Nat := (m.projectId, m.userId)

/-- Accounts, organizations and their members, projects and their members. -/
structure Registry where
  directory : Directory := {}
  operations : Serial OrganizationLifecycleOperation OrganizationLifecycleOperation.id :=
    Serial.empty
  projects : Table Project Project.id := Table.empty
  projectMembers : Table ProjectMember ProjectMember.key := Table.empty

/-- The project with this public id. -/
def Registry.projectOf (r : Registry) (projectId : Uuid) : Option Project :=
  r.projects.rows.find? fun p => decide (p.publicId = projectId)

/-- The project belongs to the organization. -/
def Registry.within (r : Registry) (organizationId projectId : Nat) : Bool :=
  (r.projects.find? projectId).any fun p => decide (p.organizationId = organizationId)

/-! ## §3. Authorization. -/

/-- `raise NotFoundError` without the row. -/
def orNotFound {α : Type} (resource identifier : String) : Option α → Except AppError α
  | none => .error (.notFound resource identifier)
  | some a => .ok a

theorem orNotFound_eq_ok {α : Type} {resource identifier : String} {x : Option α} {a : α} :
    orNotFound resource identifier x = .ok a ↔ x = some a := by
  cases x with
  | none => simp [orNotFound]
  | some => simp [orNotFound]

/-- `_ensure_lifecycle_allows`. -/
def ensureLifecycleAllows (organization : Organization) (permission : Permission)
    (allowDeletionPending : Bool) : Except AppError Unit :=
  if organization.lifecycleState = .active then .ok ()
  else if permission.pendingRead then .ok ()
  else if allowDeletionPending && decide (permission = .orgDelete) then .ok ()
  else .error (.forbidden "Organization mutations are disabled while deletion is pending")

/-- `authorize_organization`. -/
def authorizeOrganization (actor organizationId : Nat) (permission : Permission)
    (allowDeletionPending : Bool) (d : Directory) : Except AppError Organization :=
  match d.organizations.find? organizationId, d.members.find? (organizationId, actor) with
  | some organization, some m =>
    if m.role.permits permission = false then .error (.forbidden "Permission denied")
    else do
      ensureLifecycleAllows organization permission allowDeletionPending
      return organization
  | _, _ => .error (.notFound "Organization" (toString organizationId))

/-- What the first query of `authorize_project` returns. -/
structure VisibleProject where
  project : Project
  organization : Organization
  role : OrganizationRole
  deriving DecidableEq

/-- The first query of `authorize_project`: the project, its organization and
the caller's role in it. -/
def visibleProject (actor : Nat) (projectId : Uuid) (r : Registry) :
    Except AppError VisibleProject := do
  let project ← orNotFound "Project" projectId (r.projectOf projectId)
  let organization ← orNotFound "Project" projectId
    (r.directory.organizations.find? project.organizationId)
  let m ← orNotFound "Project" projectId
    (r.directory.members.find? (project.organizationId, actor))
  return ⟨project, organization, m.role⟩

/-- The rest of `authorize_project`; `role` is the answer to its second
query, which only plain members need. -/
def grantProject (projectId : Uuid) (permission : Permission) (allowDeletionPending : Bool)
    (v : VisibleProject) (role : Option ProjectRole) : Except AppError Project :=
  match v.role with
  | .owner | .admin =>
    if permission.ofOrganization then .error (.forbidden "Permission denied")
    else do
      ensureLifecycleAllows v.organization permission allowDeletionPending
      return v.project
  | .member => do
      let role ← orNotFound "Project" projectId role
      if role.permits permission = false then .error (.forbidden "Permission denied")
      else do
        ensureLifecycleAllows v.organization permission allowDeletionPending
        return v.project

/-- The caller's role in the project. -/
def Registry.projectRole (r : Registry) (actor : Nat) (v : VisibleProject) : Option ProjectRole :=
  (r.projectMembers.find? (v.project.id, actor)).map ProjectMember.role

/-- `authorize_project`. -/
def authorizeProject (actor : Nat) (projectId : Uuid) (permission : Permission)
    (allowDeletionPending : Bool) (r : Registry) : Except AppError Project := do
  let v ← visibleProject actor projectId r
  grantProject projectId permission allowDeletionPending v (r.projectRole actor v)

/-! ## §4. What a grant says. -/

/-- A lifecycle that lets the permission be used. -/
def Organization.Allows (o : Organization) (permission : Permission)
    (allowDeletionPending : Bool) : Prop :=
  o.lifecycleState = .active ∨ permission.pendingRead = true
    ∨ (allowDeletionPending = true ∧ permission = .orgDelete)

variable {r : Registry}

theorem ensureLifecycleAllows_eq_ok :
    ensureLifecycleAllows o permission allowDeletionPending = .ok u
      ↔ o.Allows permission allowDeletionPending := by
  unfold ensureLifecycleAllows Organization.Allows
  split
  next h => simp [h]
  next h =>
    split
    next hread => simp [hread]
    next hread =>
      split
      next hdelete => simpa [h, hread] using hdelete
      next hdelete => simpa [h, hread] using hdelete

/-- The caller is a member whose role permits, and the organization's state
allows. -/
theorem authorizeOrganization_ok
    (h : authorizeOrganization actor organizationId permission allowDeletionPending d = .ok o) :
    d.organizations.find? organizationId = some o ∧ o.Allows permission allowDeletionPending
      ∧ ∃ m, d.members.find? (organizationId, actor) = some m
        ∧ m.role.permits permission = true := by
  unfold authorizeOrganization at h
  split at h
  next organization m horg hm =>
    obtain ⟨hpermits, h⟩ := guard_eq_ok.mp h
    obtain ⟨_, hlifecycle, h⟩ := bind_eq_ok.mp h
    cases h
    exact ⟨horg, ensureLifecycleAllows_eq_ok.mp hlifecycle, m, hm,
      Bool.eq_true_of_not_eq_false hpermits⟩
  · cases h

theorem visibleProject_ok {v : VisibleProject} (h : visibleProject actor projectId r = .ok v) :
    r.projectOf projectId = some v.project
      ∧ r.directory.organizations.find? v.project.organizationId = some v.organization
      ∧ ∃ m, r.directory.members.find? (v.project.organizationId, actor) = some m
        ∧ m.role = v.role := by
  obtain ⟨project, hproject, h⟩ := bind_eq_ok.mp h
  obtain ⟨organization, horganization, h⟩ := bind_eq_ok.mp h
  obtain ⟨m, hm, h⟩ := bind_eq_ok.mp h
  cases h
  exact ⟨orNotFound_eq_ok.mp hproject, orNotFound_eq_ok.mp horganization, m,
    orNotFound_eq_ok.mp hm, rfl⟩

theorem grantProject_ok
    (h : grantProject projectId permission allowDeletionPending v role = .ok project) :
    project = v.project ∧ v.organization.Allows permission allowDeletionPending := by
  unfold grantProject at h
  split at h
  -- the third branch also looks at the project role
  case' h_3 => obtain ⟨_, -, h⟩ := bind_eq_ok.mp h
  all_goals
    obtain ⟨-, h⟩ := guard_eq_ok.mp h
    obtain ⟨_, hlifecycle, h⟩ := bind_eq_ok.mp h
    cases h
    exact ⟨rfl, ensureLifecycleAllows_eq_ok.mp hlifecycle⟩

/-- The project is the one asked for, its organization's state allows, and
the caller is a member of it. -/
theorem authorizeProject_ok
    (h : authorizeProject actor projectId permission allowDeletionPending r = .ok project) :
    r.projectOf projectId = some project
      ∧ (∃ o, r.directory.organizations.find? project.organizationId = some o
        ∧ o.Allows permission allowDeletionPending)
      ∧ ∃ m, r.directory.members.find? (project.organizationId, actor) = some m := by
  obtain ⟨v, hv, h⟩ := bind_eq_ok.mp h
  obtain ⟨hproject, horganization, m, hm, -⟩ := visibleProject_ok hv
  obtain ⟨rfl, hallows⟩ := grantProject_ok h
  exact ⟨hproject, ⟨v.organization, horganization, hallows⟩, m, hm⟩

theorem Registry.projectOf_some (h : r.projectOf projectId = some p) :
    p ∈ r.projects.rows ∧ p.publicId = projectId := by
  unfold Registry.projectOf at h
  have hid := List.find?_some h
  exact ⟨List.mem_of_find?_eq_some h, of_decide_eq_true hid⟩

/-- Managing the members is one of the permissions. -/
theorem authorizeMembers_eq (actor organizationId : Nat) (d : Directory) :
    authorizeMembers actor organizationId d
      = (authorizeOrganization actor organizationId .memberManage false d).map fun _ => () := by
  unfold authorizeMembers authorizeOrganization
  cases d.organizations.find? organizationId with
  | none => rfl
  | some o =>
    cases hm : d.members.find? (organizationId, actor) with
    | none => rfl
    | some m =>
      dsimp only
      have hpermits : m.role.permits .memberManage = m.role.managesMembers := by
        cases m.role <;> rfl
      rw [hpermits]
      cases hmanages : m.role.managesMembers with
      | false => rfl
      | true =>
        by_cases hactive : o.lifecycleState = .active
        · simp [ensureLifecycleAllows, hactive, Except.map]
        · simp [ensureLifecycleAllows, hactive, Except.map, Permission.pendingRead]

/-- `ORG_DELETE` is the owners' permission. -/
theorem OrganizationRole.permits_orgDelete {role : OrganizationRole}
    (h : role.permits .orgDelete = true) : role = .owner := by
  cases role with
  | owner => rfl
  | admin | member => exact absurd h (by decide)

end WebhookPlatform
