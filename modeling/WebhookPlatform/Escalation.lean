/-
  WebhookPlatform.Escalation
  **NOBODY MAKES THEMSELVES AN OWNER.**

  The requests that write accounts, organizations, projects and memberships,
  each one atomic.  Admins hold `MEMBER_MANAGE` as owners do; what keeps them
  from the owners is `_require_owner_for_owner_change`, which every change of
  a member goes through with the member's current and requested role:

      add       (none,      requested)
      update    (current,   requested)
      remove    (current,   none)

  `request_owners` is the step: if anybody's ownership of an existing
  organization differs afterwards, the caller was an owner of it.
-/
import WebhookPlatform.Authorization
import WebhookPlatform.Tenancy

namespace WebhookPlatform

open Relational Transition Exceptions

/-! ## §1. The requests. -/

/-- `_require_owner_for_owner_change`. -/
def requireOwnerForOwnerChange (actor organizationId : Nat)
    (currentRole requestedRole : Option OrganizationRole) (d : Directory) : Except AppError Unit :=
  if currentRole = some .owner ∨ requestedRole = some .owner then
    requireOwner actor organizationId d
  else .ok ()

/-- `_ensure_not_last_owner`. -/
def ensureNotLastOwner (organizationId : Nat) (member : OrganizationMember) (d : Directory) :
    Except AppError Unit :=
  if member.role = .owner ∧ (d.owners organizationId).length ≤ 1 then
    .error (.conflict "An organization must retain an owner")
  else .ok ()

namespace Registry

/-- The organizations with their deletions. -/
def tenants (r : Registry) : Tenants := ⟨r.directory.organizations, r.operations⟩

/-- Store the organizations with their deletions. -/
def withTenants (r : Registry) (t : Tenants) : Registry :=
  { r with
    directory := { r.directory with organizations := t.organizations }
    operations := t.operations }

/-- `create_organization`; the id comes from the sequence. -/
def createOrganization (actor organizationId : Nat) (r : Registry) : Except AppError Registry :=
  if (r.directory.users.find? actor).isNone
      ∨ (r.directory.organizations.find? organizationId).isSome then
    .error .integrityError
  else .ok { r with directory := r.directory.created organizationId actor }

/-- `add_member`. -/
def addMember (actor organizationId userId : Nat) (role : OrganizationRole) (r : Registry) :
    Except AppError Registry := do
  let _ ← authorizeOrganization actor organizationId .memberManage false r.directory
  requireOwnerForOwnerChange actor organizationId none (some role) r.directory
  let _ ← orNotFound "User" (toString userId) (r.directory.users.find? userId)
  if (r.directory.members.find? (organizationId, userId)).isSome then
    .error (.conflict "User is already an organization member")
  else .ok { r with directory := r.directory.added ⟨actor, organizationId, userId, role⟩ }

/-- `update_member`. -/
def updateMember (actor organizationId userId : Nat) (role : OrganizationRole) (r : Registry) :
    Except AppError Registry := do
  let _ ← authorizeOrganization actor organizationId .memberManage false r.directory
  let member ← orNotFound "Organization member" (toString userId)
    (r.directory.members.find? (organizationId, userId))
  requireOwnerForOwnerChange actor organizationId (some member.role) (some role) r.directory
  let _ ← (if role ≠ .owner then ensureNotLastOwner organizationId member r.directory else .ok ())
  return { r with
    directory := r.directory.changed ⟨actor, organizationId, userId, some role⟩ member }

/-- `remove_member`: the memberships in the organization's projects go first. -/
def removeMember (actor organizationId userId : Nat) (r : Registry) : Except AppError Registry := do
  let _ ← authorizeOrganization actor organizationId .memberManage false r.directory
  let member ← orNotFound "Organization member" (toString userId)
    (r.directory.members.find? (organizationId, userId))
  requireOwnerForOwnerChange actor organizationId (some member.role) none r.directory
  ensureNotLastOwner organizationId member r.directory
  return { r with
    directory := r.directory.changed ⟨actor, organizationId, userId, none⟩ member
    projectMembers := r.projectMembers.delete fun m =>
      decide (m.userId = userId) && r.within organizationId m.projectId }

/-- The requests that write nothing here: `list_members`, the policy, the
audit trail, the export, the state of a deletion. -/
def consult (actor organizationId : Nat) (permission : Permission) (r : Registry) :
    Except AppError Registry := do
  let _ ← authorizeOrganization actor organizationId permission false r.directory
  return r

/-- `request_organization_deletion`. -/
def requestDeletion (s : Settings) (now : Time) (actor organizationId : Nat) (r : Registry) :
    Except AppError Registry := do
  let organization ← authorizeOrganization actor organizationId .orgDelete true r.directory
  return r.withTenants (r.tenants.requestDeletion s now organization)

/-- `cancel_organization_deletion`. -/
def cancelDeletion (now : Time) (actor organizationId : Nat) (r : Registry) :
    Except AppError Registry := do
  let organization ← authorizeOrganization actor organizationId .orgDelete true r.directory
  let t ← r.tenants.cancelDeletion now organization
  return r.withTenants t

/-- `create_project`; the ids are drawn with the request.  The `flush` that
meets `uq_projects_name` stands before the `try` of the commit. -/
def createProject (now : Time) (actor organizationId id : Nat) (publicId : Uuid) (name : String)
    (r : Registry) : Except AppError Registry := do
  let organization ← authorizeOrganization actor organizationId .projectManage false r.directory
  if r.projects.rows.any fun p =>
      decide (p.organizationId = organization.id) && decide (p.name = name) then
    .error .integrityError
  else .ok { r with
    projects := r.projects.insert
      { id := id, publicId := publicId, organizationId := organization.id, name := name
        createdAt := now }
    projectMembers := r.projectMembers.insert ⟨id, actor, .admin⟩ }

/-- `deactivate_project`. -/
def deactivateProject (actor : Nat) (projectId : Uuid) (r : Registry) :
    Except AppError Registry := do
  let project ← authorizeProject actor projectId .projectManage false r
  return { r with projects := r.projects.put { project with isActive := false } }

/-- The organization member that `add_project_member` and
`upsert_project_member` ask for. -/
def organizationMember (project : Project) (userId : Nat) (r : Registry) :
    Except AppError OrganizationMember :=
  orNotFound "Organization member" (toString userId)
    (r.directory.members.find? (project.organizationId, userId))

/-- `add_project_member`. -/
def addProjectMember (actor : Nat) (projectId : Uuid) (userId : Nat) (role : ProjectRole)
    (r : Registry) : Except AppError Registry := do
  let project ← authorizeProject actor projectId .projectManage false r
  let _ ← r.organizationMember project userId
  if (r.projectMembers.find? (project.id, userId)).isSome then
    .error (.conflict "User is already a project member")
  else .ok { r with projectMembers := r.projectMembers.insert ⟨project.id, userId, role⟩ }

/-- `upsert_project_member`. -/
def upsertProjectMember (actor : Nat) (projectId : Uuid) (userId : Nat) (role : ProjectRole)
    (r : Registry) : Except AppError Registry := do
  let project ← authorizeProject actor projectId .projectManage false r
  let _ ← r.organizationMember project userId
  return { r with
    projectMembers := (r.projectMembers.insert ⟨project.id, userId, role⟩).put
      ⟨project.id, userId, role⟩ }

/-- `update_project_member`. -/
def updateProjectMember (actor : Nat) (projectId : Uuid) (userId : Nat) (role : ProjectRole)
    (r : Registry) : Except AppError Registry := do
  let project ← authorizeProject actor projectId .projectManage false r
  let member ← orNotFound "Project member" (toString userId)
    (r.projectMembers.find? (project.id, userId))
  return { r with projectMembers := r.projectMembers.put { member with role := role } }

/-- `remove_project_member`. -/
def removeProjectMember (actor : Nat) (projectId : Uuid) (userId : Nat) (r : Registry) :
    Except AppError Registry := do
  let project ← authorizeProject actor projectId .projectManage false r
  let member ← orNotFound "Project member" (toString userId)
    (r.projectMembers.find? (project.id, userId))
  return { r with projectMembers := r.projectMembers.delete fun m => decide (m.key = member.key) }

/-- `UserService.create`. -/
def createUser (email : String) (r : Registry) : Except AppError Registry :=
  if r.directory.taken email then .error (.alreadyExists "User" "email" email)
  else .ok { r with
    directory := { r.directory with users := r.directory.users.append fun id => { id, email } } }

/-- `UserService.delete` of the caller's own account, with its cascade. -/
def deleteUser (actor : Nat) (r : Registry) : Except AppError Registry := do
  let _ ← orNotFound "User" (toString actor) (r.directory.users.find? actor)
  return { r with
    directory := r.directory.withoutUser actor
    projectMembers := r.projectMembers.delete fun m => decide (m.userId = actor) }

end Registry

/-- The requests. -/
inductive RegistryRequest where
  | createOrganization (organizationId : Nat)
  | addMember (organizationId userId : Nat) (role : OrganizationRole)
  | updateMember (organizationId userId : Nat) (role : OrganizationRole)
  | removeMember (organizationId userId : Nat)
  | consult (organizationId : Nat) (permission : Permission)
  | requestDeletion (organizationId : Nat)
  | cancelDeletion (organizationId : Nat)
  | createProject (organizationId id : Nat) (publicId : Uuid) (name : String)
  | deactivateProject (projectId : Uuid)
  | addProjectMember (projectId : Uuid) (userId : Nat) (role : ProjectRole)
  | upsertProjectMember (projectId : Uuid) (userId : Nat) (role : ProjectRole)
  | updateProjectMember (projectId : Uuid) (userId : Nat) (role : ProjectRole)
  | removeProjectMember (projectId : Uuid) (userId : Nat)
  | createUser (email : String)
  | deleteUser
  deriving Repr, DecidableEq

/-- A request, its caller and its time. -/
structure RegistryCall where
  actor : Nat
  now : Time
  request : RegistryRequest

namespace Registry

/-- What the request of the call commits. -/
def request (s : Settings) (r : Registry) (c : RegistryCall) : Except AppError Registry :=
  match c.request with
  | .createOrganization organizationId => r.createOrganization c.actor organizationId
  | .addMember organizationId userId role => r.addMember c.actor organizationId userId role
  | .updateMember organizationId userId role => r.updateMember c.actor organizationId userId role
  | .removeMember organizationId userId => r.removeMember c.actor organizationId userId
  | .consult organizationId permission => r.consult c.actor organizationId permission
  | .requestDeletion organizationId => r.requestDeletion s c.now c.actor organizationId
  | .cancelDeletion organizationId => r.cancelDeletion c.now c.actor organizationId
  | .createProject organizationId id publicId name =>
    r.createProject c.now c.actor organizationId id publicId name
  | .deactivateProject projectId => r.deactivateProject c.actor projectId
  | .addProjectMember projectId userId role => r.addProjectMember c.actor projectId userId role
  | .upsertProjectMember projectId userId role =>
    r.upsertProjectMember c.actor projectId userId role
  | .updateProjectMember projectId userId role =>
    r.updateProjectMember c.actor projectId userId role
  | .removeProjectMember projectId userId => r.removeProjectMember c.actor projectId userId
  | .createUser email => r.createUser email
  | .deleteUser => r.deleteUser c.actor

/-- One request; an exception rolls it back. -/
def step (s : Settings) (r : Registry) (c : RegistryCall) : Option Registry :=
  match r.request s c with
  | .ok r' => some r'
  | .error _ => some r

end Registry

/-! ## §2. Ownership across a request. -/

/-- The user is an owner of the organization. -/
def Directory.IsOwner (d : Directory) (organizationId userId : Nat) : Prop :=
  ∃ m, d.members.find? (organizationId, userId) = some m ∧ m.role = .owner

section Changes

variable {d d' : Directory}

/-- The check lets only owners pass when one of the roles is `owner`. -/
theorem requireOwnerForOwnerChange_ok
    (h : requireOwnerForOwnerChange actor organizationId currentRole requestedRole d = .ok ())
    (howner : currentRole = some .owner ∨ requestedRole = some .owner) :
    d.IsOwner organizationId actor := by
  unfold requireOwnerForOwnerChange at h
  rw [if_pos howner] at h
  unfold requireOwner at h
  split at h
  · cases h
  next m hm =>
    obtain ⟨howner, -⟩ := guard_eq_ok.mp h
    exact ⟨m, hm, not_not.mp howner⟩

/-- A change of a member is a change of its own row. -/
theorem find?_changed (hm : d.members.find? q.key = some m) (k : Nat × Nat) :
    (d.changed q m).members.find? k
      = if q.key = k then q.role.map fun role => { m with role := role }
        else d.members.find? k := by
  have hmkey : m.key = q.key := Table.key_of_find? hm
  unfold Directory.changed
  cases hrole : q.role with
  | some =>
    dsimp only
    by_cases hk : q.key = k
    · subst hk
      rw [if_pos rfl]
      exact Table.find?_put_self hm hmkey
    · rw [if_neg hk]
      exact Table.find?_put_ne (fun h => hk (hmkey.symm.trans h))
  | none =>
    dsimp only
    by_cases hk : q.key = k
    · subst hk
      rw [if_pos rfl, Table.find?_eq_none.mpr]
      · rfl
      · intro x hx
        exact of_decide_eq_false (Table.mem_delete.mp hx).2
    · rw [if_neg hk]
      apply Table.find?_delete
      intro x _ hx
      exact decide_eq_false fun h => hk (h.symm.trans hx)

/-- The account's rows go with it. -/
theorem find?_withoutUser (organizationId : Nat) (hne : other ≠ userId) :
    (d.withoutUser userId).members.find? (organizationId, other)
      = d.members.find? (organizationId, other) := by
  apply Table.find?_delete
  intro x _ hx
  have hother : x.userId = other := congrArg Prod.snd hx
  exact decide_eq_false fun h => hne (hother.symm.trans h)

/-- What a request does to the members. -/
inductive Remember (actor : Nat) (d : Directory) : Directory → Prop where
  | kept (d' : Directory) (members : d'.members = d.members)
      (known : ∀ k, d.organizations.find? k ≠ none → d'.organizations.find? k ≠ none) :
      Remember actor d d'
  | created (organizationId : Nat) (new : d.organizations.find? organizationId = none) :
      Remember actor d (d.created organizationId actor)
  | added (q : AddCall) (new : d.members.find? (q.organizationId, q.userId) = none)
      (byOwner : q.role = .owner → d.IsOwner q.organizationId actor) :
      Remember actor d (d.added q)
  | changed (q : ChangeCall) (m : OrganizationMember) (row : d.members.find? q.key = some m)
      (byOwner : m.role = .owner ∨ q.role = some .owner → d.IsOwner q.organizationId actor) :
      Remember actor d (d.changed q m)
  | deleted : Remember actor d (d.withoutUser actor)

theorem Remember.known (h : Remember actor d d')
    (hknown : d.organizations.find? organizationId ≠ none) :
    d'.organizations.find? organizationId ≠ none := by
  cases h with
  | kept _ _ known => exact known organizationId hknown
  | created =>
    show (d.organizations.insert _).find? organizationId ≠ none
    rw [Table.find?_insert]
    cases hfound : d.organizations.find? organizationId with
    | none => exact absurd hfound hknown
    | some o => exact Option.some_ne_none o
  | changed q =>
    unfold Directory.changed
    cases q.role <;> exact hknown
  | added | deleted => exact hknown

/-- **Whoever changes the owners is one of them.** -/
theorem Remember.byOwner (h : Remember actor d d')
    (hknown : d.organizations.find? organizationId ≠ none)
    (hdiffers : ¬ (d'.IsOwner organizationId userId ↔ d.IsOwner organizationId userId)) :
    d.IsOwner organizationId actor := by
  -- the row of the user is not the one that was there
  have hrow : d'.members.find? (organizationId, userId)
      ≠ d.members.find? (organizationId, userId) := by
    intro hsame
    apply hdiffers
    unfold Directory.IsOwner
    rw [hsame]
  cases h with
  | kept _ members => exact absurd (by rw [members]) hrow
  | created new hnew =>
    -- a new organization is another one
    apply absurd _ hrow
    apply Table.find?_insert_ne
    intro hkey
    have hsame : new = organizationId := congrArg Prod.fst hkey
    exact hknown (hsame ▸ hnew)
  | added q hnew hby =>
    by_cases hkey : (q.organizationId, q.userId) = (organizationId, userId)
    · obtain ⟨rfl, rfl⟩ := Prod.mk.inj hkey
      have hadded : (d.added q).members.find? (q.organizationId, q.userId)
          = some ⟨q.organizationId, q.userId, q.role⟩ := by
        have hself : (OrganizationMember.mk q.organizationId q.userId q.role).key
            = (q.organizationId, q.userId) := rfl
        unfold Directory.added
        dsimp only
        rw [Table.find?_insert, hnew, if_pos hself]
        rfl
      apply hby
      by_contra hrole
      apply hdiffers
      unfold Directory.IsOwner
      rw [hadded, hnew]
      simp [hrole]
    · apply absurd _ hrow
      apply Table.find?_insert_ne
      exact hkey
  | changed q _ hm hby =>
    rw [find?_changed hm] at hrow
    by_cases hkey : q.key = (organizationId, userId)
    · have horg : q.organizationId = organizationId := congrArg Prod.fst hkey
      rw [← horg]
      apply hby
      by_contra hroles
      rw [not_or] at hroles
      apply hdiffers
      unfold Directory.IsOwner
      rw [find?_changed hm, if_pos hkey, ← hkey, hm]
      cases hrole : q.role with
      | none => simp [hroles.1]
      | some role =>
        have hnot : role ≠ .owner := fun h => hroles.2 (hrole.trans (congrArg some h))
        simp [hroles.1, hnot]
    · rw [if_neg hkey] at hrow
      exact absurd rfl hrow
  | deleted =>
    by_cases hself : userId = actor
    · subst hself
      -- the account that goes was an owner
      by_contra hnot
      apply hdiffers
      constructor
      · rintro ⟨m, hm, -⟩
        have hdeleted := (Table.mem_delete.mp (Table.mem_of_find? hm)).2
        have huser : m.userId = userId := congrArg Prod.snd (Table.key_of_find? hm)
        exact absurd huser (of_decide_eq_false hdeleted)
      · intro howner
        exact absurd howner hnot
    · exact absurd (find?_withoutUser organizationId hself) hrow

end Changes

namespace Registry

variable {r r' : Registry}

theorem find?_put_known {t : Table Organization Organization.id} (o : Organization)
    (hknown : t.find? k ≠ none) : (t.put o).find? k ≠ none := by
  by_cases hk : o.id = k
  · cases hfound : t.find? k with
    | none => exact absurd hfound hknown
    | some =>
      rw [Table.find?_put_self hfound hk]
      exact Option.some_ne_none o
  · rw [Table.find?_put_ne hk]
    exact hknown

theorem requestDeletion_known (s : Settings) (now : Time) (o : Organization) (k : Nat)
    (hknown : r.directory.organizations.find? k ≠ none) :
    (r.withTenants (r.tenants.requestDeletion s now o)).directory.organizations.find? k ≠ none := by
  show (r.tenants.requestDeletion s now o).organizations.find? k ≠ none
  unfold Tenants.requestDeletion
  split
  · exact hknown
  · exact find?_put_known _ hknown

theorem cancelDeletion_known {now : Time} {o : Organization}
    (h : r.tenants.cancelDeletion now o = .ok t) (k : Nat)
    (hknown : r.directory.organizations.find? k ≠ none) :
    (r.withTenants t).directory.organizations.find? k ≠ none := by
  obtain ⟨_, -, -, rfl⟩ := Tenants.cancelDeletion_ok h
  exact find?_put_known _ hknown

theorem updateMember_remember (h : r.updateMember actor organizationId userId role = .ok r') :
    Remember actor r.directory r'.directory := by
  obtain ⟨_, -, h⟩ := bind_eq_ok.mp h
  obtain ⟨m, hm, h⟩ := bind_eq_ok.mp h
  obtain ⟨_, howner, h⟩ := bind_eq_ok.mp h
  obtain ⟨_, -, h⟩ := bind_eq_ok.mp h
  cases h
  show Remember actor r.directory (r.directory.changed ⟨actor, organizationId, userId, some role⟩ m)
  apply Remember.changed
  · exact orNotFound_eq_ok.mp hm
  · intro hroles
    apply requireOwnerForOwnerChange_ok howner
    exact hroles.imp_left (congrArg some)

theorem removeMember_remember (h : r.removeMember actor organizationId userId = .ok r') :
    Remember actor r.directory r'.directory := by
  obtain ⟨_, -, h⟩ := bind_eq_ok.mp h
  obtain ⟨m, hm, h⟩ := bind_eq_ok.mp h
  obtain ⟨_, howner, h⟩ := bind_eq_ok.mp h
  obtain ⟨_, -, h⟩ := bind_eq_ok.mp h
  cases h
  show Remember actor r.directory (r.directory.changed ⟨actor, organizationId, userId, none⟩ m)
  apply Remember.changed
  · exact orNotFound_eq_ok.mp hm
  · intro hroles
    apply requireOwnerForOwnerChange_ok howner
    exact hroles.imp_left (congrArg some)

/-- What each request does to the members. -/
theorem request_remember (h : r.request s c = .ok r') :
    Remember c.actor r.directory r'.directory := by
  unfold request at h
  split at h
  · -- create_organization
    obtain ⟨hnew, h⟩ := guard_eq_ok.mp h
    cases h
    apply Remember.created
    rw [not_or] at hnew
    simpa using hnew.2
  · obtain ⟨_, -, h⟩ := bind_eq_ok.mp h
    obtain ⟨_, howner, h⟩ := bind_eq_ok.mp h
    obtain ⟨_, -, h⟩ := bind_eq_ok.mp h
    obtain ⟨hnew, h⟩ := guard_eq_ok.mp h
    cases h
    apply Remember.added
    · simpa using hnew
    · intro hrole
      exact requireOwnerForOwnerChange_ok howner (Or.inr (congrArg some hrole))
  · exact updateMember_remember h
  · exact removeMember_remember h
  · -- consult
    obtain ⟨_, -, h⟩ := bind_eq_ok.mp h
    cases h
    exact .kept _ rfl fun _ h => h
  · -- request_organization_deletion
    obtain ⟨_, -, h⟩ := bind_eq_ok.mp h
    cases h
    exact .kept _ rfl (requestDeletion_known s c.now _)
  · -- cancel_organization_deletion
    obtain ⟨_, -, h⟩ := bind_eq_ok.mp h
    obtain ⟨_, hcancel, h⟩ := bind_eq_ok.mp h
    cases h
    exact .kept _ rfl (cancelDeletion_known hcancel)
  · -- create_project
    obtain ⟨_, -, h⟩ := bind_eq_ok.mp h
    obtain ⟨-, h⟩ := guard_eq_ok.mp h
    cases h
    exact .kept _ rfl fun _ h => h
  · -- deactivate_project
    obtain ⟨_, -, h⟩ := bind_eq_ok.mp h
    cases h
    exact .kept _ rfl fun _ h => h
  · -- add_project_member
    obtain ⟨_, -, h⟩ := bind_eq_ok.mp h
    obtain ⟨_, -, h⟩ := bind_eq_ok.mp h
    obtain ⟨-, h⟩ := guard_eq_ok.mp h
    cases h
    exact .kept _ rfl fun _ h => h
  · -- upsert_project_member
    obtain ⟨_, -, h⟩ := bind_eq_ok.mp h
    obtain ⟨_, -, h⟩ := bind_eq_ok.mp h
    cases h
    exact .kept _ rfl fun _ h => h
  · -- update_project_member
    obtain ⟨_, -, h⟩ := bind_eq_ok.mp h
    obtain ⟨_, -, h⟩ := bind_eq_ok.mp h
    cases h
    exact .kept _ rfl fun _ h => h
  · -- remove_project_member
    obtain ⟨_, -, h⟩ := bind_eq_ok.mp h
    obtain ⟨_, -, h⟩ := bind_eq_ok.mp h
    cases h
    exact .kept _ rfl fun _ h => h
  · -- UserService.create
    obtain ⟨-, h⟩ := guard_eq_ok.mp h
    cases h
    exact .kept _ rfl fun _ h => h
  · -- UserService.delete
    obtain ⟨_, -, h⟩ := bind_eq_ok.mp h
    cases h
    exact .deleted

/-- A request keeps the organizations, and its caller owns those whose owners
it changes. -/
theorem step_owners (h : r.step s c = some r')
    (hknown : r.directory.organizations.find? organizationId ≠ none) :
    r'.directory.organizations.find? organizationId ≠ none
      ∧ ∀ userId, ¬ (r'.directory.IsOwner organizationId userId
          ↔ r.directory.IsOwner organizationId userId) →
        r.directory.IsOwner organizationId c.actor := by
  unfold step at h
  split at h
  next r' hrequest =>
    cases h
    have hremember := request_remember hrequest
    exact ⟨hremember.known hknown, fun userId hdiffers => hremember.byOwner hknown hdiffers⟩
  cases h
  exact ⟨hknown, fun userId hdiffers => absurd Iff.rfl hdiffers⟩

end Registry

/-- **NO ESCALATION TO OWNERSHIP.**  In every run of requests by arbitrary
users, from any state: the owners of an organization change only in a request
of one of them; a run of requests by others leaves them as they are; and
`ORG_DELETE` is granted to owners only. -/
theorem no_escalation_to_ownership (s : Settings) (r : Registry) (calls : List RegistryCall) :
    Along (Registry.step s) (fun u c v => ∀ organizationId userId,
        u.directory.organizations.find? organizationId ≠ none →
        ¬ (v.directory.IsOwner organizationId userId
          ↔ u.directory.IsOwner organizationId userId) →
        u.directory.IsOwner organizationId c.actor) r calls
      ∧ (∀ organizationId r', r.directory.organizations.find? organizationId ≠ none →
        run (Registry.step s) r calls = some r' →
        Along (Registry.step s)
          (fun u c _ => ¬ u.directory.IsOwner organizationId c.actor) r calls →
        ∀ userId, r'.directory.IsOwner organizationId userId
          ↔ r.directory.IsOwner organizationId userId)
      ∧ ∀ (u : Registry) actor organizationId allowDeletionPending o,
        authorizeOrganization actor organizationId .orgDelete allowDeletionPending u.directory
          = .ok o → u.directory.IsOwner organizationId actor := by
  refine ⟨?_, ?_, ?_⟩
  · have hfree : Along (Registry.step s) (fun _ _ _ => True) r calls :=
      along_of_forall (fun _ _ _ _ => trivial) r
    apply along_of_inv (I := fun _ => True) ?_ calls r trivial hfree
    intro u c v _ huv _
    refine ⟨trivial, fun organizationId userId hknown hdiffers => ?_⟩
    exact (Registry.step_owners huv hknown).2 userId hdiffers
  · intro organizationId r' hknown hrun hothers
    -- the organization is there, with the owners it had at the start
    have hend := run_inv_of_along (I := fun u : Registry =>
        u.directory.organizations.find? organizationId ≠ none
          ∧ ∀ userId, u.directory.IsOwner organizationId userId
            ↔ r.directory.IsOwner organizationId userId) ?_ calls r r'
      ⟨hknown, fun _ => Iff.rfl⟩ hothers hrun
    · exact hend.2
    · intro u c v hu huv hother
      obtain ⟨hv, howners⟩ := Registry.step_owners huv hu.1
      refine ⟨hv, fun userId => ?_⟩
      rw [← hu.2 userId]
      by_contra hdiffers
      exact hother (howners userId hdiffers)
  · intro u actor organizationId allowDeletionPending o h
    obtain ⟨-, -, m, hm, hpermits⟩ := authorizeOrganization_ok h
    exact ⟨m, hm, OrganizationRole.permits_orgDelete hpermits⟩

end WebhookPlatform
