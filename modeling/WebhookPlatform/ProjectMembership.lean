/-
  WebhookPlatform.ProjectMembership
  **A PROJECT MEMBER IS A MEMBER OF THE ORGANIZATION**: the project-member
  operations together with those of `Membership`, one SQL statement at a time.

  Two operations create project members.  `upsert_project_member` locks the
  row of the organization member first; `add_project_member` only reads it:

      add_project_member       remove_member
      ──────────────────       ─────────────
      reads the member
                               locks the member, deletes its project members
                               deletes the member, commits
      inserts, commits         — a project member without a member

  The insert may also slip in between the two deletions.  Where it does
  neither, every project member is a member (`project_members_are_members`);
  `orphan_project_member` is the run above, and what becomes of it when the
  user is invited again.

  Conventions of the embedding, besides those of `Membership`:

    • a bulk `DELETE` locks the rows it finds, and removes them at the commit,
    • the cascade of an account locks the account, so that nobody inserts a
      row that refers to it.
-/
import WebhookPlatform.Escalation

namespace WebhookPlatform

open Relational Transition RowLocks Exceptions List Option

/-! ## §1. Transactions. -/

/-- What can be locked. -/
inductive RegistryLock where
  | directory (k : DirectoryLock)
  /-- A row of `project_members`, or its entry of the unique index. -/
  | projectMember (projectId userId : Nat)
  deriving Repr, DecidableEq

def RegistryLock.conflict : RegistryLock → RegistryLock → Bool
  | .directory a, .directory b => a.conflict b
  | .projectMember p u, .projectMember q v => decide ((p, u) = (q, v))
  | _, _ => false

def RegistryLock.ofDirectory : RegistryLock → Option DirectoryLock
  | .directory k => some k
  | .projectMember _ _ => none

/-- The four operations; the role is that of the call, if it has one. -/
inductive ProjectOperation where
  | add (role : ProjectRole)
  | upsert (role : ProjectRole)
  | update (role : ProjectRole)
  | remove
  deriving Repr, DecidableEq

structure ProjectCall where
  actor : Nat
  projectId : Uuid
  userId : Nat
  operation : ProjectOperation
  deriving Repr, DecidableEq

/-- The states of the transactions. -/
inductive ProjectTxn where
  /-- A transaction of `Membership`. -/
  | member (t : MemberTxn)
  | removeWrite (q : ChangeCall) (m : OrganizationMember) (deleted : List (Nat × Nat))
  | authorize (c : ProjectCall)
  | projectRole (c : ProjectCall) (v : VisibleProject)
  | addMember (c : ProjectCall) (role : ProjectRole) (project : Project)
  | addExisting (c : ProjectCall) (role : ProjectRole) (project : Project)
  | addInsert (c : ProjectCall) (role : ProjectRole) (project : Project)
  | addWrite (c : ProjectCall) (role : ProjectRole) (project : Project)
  | upsertMember (c : ProjectCall) (role : ProjectRole) (project : Project)
  | upsertSelect (c : ProjectCall) (role : ProjectRole) (project : Project)
  | upsertInsert (c : ProjectCall) (role : ProjectRole) (project : Project)
  | upsertWrite (c : ProjectCall) (role : ProjectRole) (project : Project)
  | updateSelect (c : ProjectCall) (role : ProjectRole) (project : Project)
  | updateWrite (row : ProjectMember) (role : ProjectRole)
  | removeSelect (c : ProjectCall) (project : Project)
  | removeRow (row : ProjectMember)
  | leave (r : Except AppError Unit)
  | returned (r : Except AppError Unit)

/-- Go on with the result, or leave with the exception. -/
def ProjectTxn.orLeave {α : Type} (r : Except AppError α) (next : α → ProjectTxn) : ProjectTxn :=
  match r with
  | .error e => .leave (.error e)
  | .ok a => next a

namespace Registry

/-- The user's rows in the projects of the organization. -/
def projectRows (r : Registry) (organizationId userId : Nat) : List ProjectMember :=
  r.projectMembers.rows.filter fun m =>
    decide (m.userId = userId) && r.within organizationId m.projectId

/-- The user's rows in all projects. -/
def accountRows (r : Registry) (userId : Nat) : List ProjectMember :=
  r.projectMembers.rows.filter fun m => decide (m.userId = userId)

/-- What `remove_member` commits. -/
def memberRemoved (q : ChangeCall) (m : OrganizationMember) (deleted : List (Nat × Nat))
    (r : Registry) : Registry :=
  { r with
    directory := r.directory.changed q m
    projectMembers := r.projectMembers.delete fun x => decide (x.key ∈ deleted) }

/-- What the deletion of an account commits, the cascades included. -/
def accountDeleted (userId : Nat) (r : Registry) : Registry :=
  { r with
    directory := r.directory.withoutUser userId
    projectMembers := r.projectMembers.delete fun m => decide (m.userId = userId) }

end Registry

/-- The first statement of an operation on its project. -/
def ProjectCall.enter (c : ProjectCall) (project : Project) : ProjectTxn :=
  match c.operation with
  | .add role => .addMember c role project
  | .upsert role => .upsertMember c role project
  | .update role => .updateSelect c role project
  | .remove => .removeSelect c project

/-- A statement of `Membership`. -/
def MemberTxn.embedded (t : MemberTxn) : Option (Stmt Registry RegistryLock ProjectTxn) :=
  t.stmt.map (Stmt.embed Registry.directory (fun r d => { r with directory := d })
    .directory RegistryLock.ofDirectory .member)

/-- The `DELETE` of `remove_member`, before that of the member. -/
def removalStmt (q : ChangeCall) (m : OrganizationMember) : Stmt Registry RegistryLock ProjectTxn :=
  .lock
    (fun r => (r.projectRows q.organizationId q.userId).map fun x =>
      .projectMember x.projectId x.userId)
    fun r => .removeWrite q m ((r.projectRows q.organizationId q.userId).map ProjectMember.key)

/-- The deletion of an account, with the rows of its cascades. -/
def cascadeStmt (userId : Nat) : Stmt Registry RegistryLock ProjectTxn :=
  .lock
    (fun r => .directory (.user userId)
      :: ((r.directory.members.rows.filter fun m => decide (m.userId = userId)).map fun m =>
          .directory (.member m.organizationId m.userId))
        ++ (r.accountRows userId).map fun x => .projectMember x.projectId x.userId)
    fun _ => .member (.deleteWrite userId)

/-- The statements of `Membership`, with what they do to project members. -/
def MemberTxn.registryStmt : MemberTxn → Option (Stmt Registry RegistryLock ProjectTxn)
  | .changeWrite q m =>
    match q.role with
    | none => some (removalStmt q m)
    | some _ => (MemberTxn.changeWrite q m).embedded
  | .deleteRows userId => some (cascadeStmt userId)
  | .deleteWrite userId =>
    some (.commit (Registry.accountDeleted userId) (.returned (.ok ())))
  | t => t.embedded

/-- The insert of a project member: the share lock on the account, and the
entry of the unique index. -/
def insertLocks (c : ProjectCall) (project : Project) : List RegistryLock :=
  [.directory (.userShare c.userId), .projectMember project.id c.userId]

/-- The insert finds the account, and no row under its key. -/
def Registry.insertable (r : Registry) (c : ProjectCall) (project : Project) : Bool :=
  (r.directory.users.find? c.userId).isSome
    && (r.projectMembers.find? (project.id, c.userId)).isNone

/-- The new row. -/
def ProjectCall.row (c : ProjectCall) (role : ProjectRole) (project : Project) : ProjectMember :=
  ⟨project.id, c.userId, role⟩

/-- The commit of a new row. -/
def Registry.projectMemberAdded (row : ProjectMember) (r : Registry) : Registry :=
  { r with projectMembers := r.projectMembers.insert row }

/-- The commit of a changed row. -/
def Registry.projectMemberChanged (row : ProjectMember) (r : Registry) : Registry :=
  { r with projectMembers := r.projectMembers.put row }

/-- The commit of a removed row. -/
def Registry.projectMemberRemoved (row : ProjectMember) (r : Registry) : Registry :=
  { r with projectMembers := r.projectMembers.delete fun x => decide (x.key = row.key) }

/-- The next statement of each transaction. -/
def ProjectTxn.stmt : ProjectTxn → Option (Stmt Registry RegistryLock ProjectTxn)
  | .member t => t.registryStmt
  | .removeWrite q m deleted =>
    some (.commit (Registry.memberRemoved q m deleted) (.returned (.ok ())))
  -- authorize_project
  | .authorize c =>
    some (.read fun r => .orLeave (visibleProject c.actor c.projectId r) fun v =>
      if v.role = .member then .projectRole c v
      else .orLeave (grantProject c.projectId .projectManage false v none) c.enter)
  | .projectRole c v =>
    some (.read fun r => .orLeave
      (grantProject c.projectId .projectManage false v (r.projectRole c.actor v)) c.enter)
  -- add_project_member
  | .addMember c role project =>
    some (.read fun r => .orLeave
      (orNotFound "Organization member" (toString c.userId)
        (r.directory.members.find? (project.organizationId, c.userId)))
      fun _ => .addExisting c role project)
  | .addExisting c role project =>
    some (.read fun r =>
      if (r.projectMembers.find? (project.id, c.userId)).isSome then
        .leave (.error (.conflict "User is already a project member"))
      else .addInsert c role project)
  | .addInsert c role project =>
    some (.lock (fun _ => insertLocks c project) fun r =>
      if r.insertable c project then .addWrite c role project
      else .leave (.error .integrityError))
  | .addWrite c role project =>
    some (.commit (Registry.projectMemberAdded (c.row role project)) (.returned (.ok ())))
  -- upsert_project_member
  | .upsertMember c role project =>
    some (.lock
      (fun r => (r.directory.members.find? (project.organizationId, c.userId)).toList.map
        fun _ => .directory (.member project.organizationId c.userId))
      fun r => .orLeave
        (orNotFound "Organization member" (toString c.userId)
          (r.directory.members.find? (project.organizationId, c.userId)))
        fun _ => .upsertSelect c role project)
  | .upsertSelect c role project =>
    some (.lock
      (fun r => (r.projectMembers.find? (project.id, c.userId)).toList.map
        fun x => .projectMember x.projectId x.userId)
      fun r =>
        match r.projectMembers.find? (project.id, c.userId) with
        | none => .upsertInsert c role project
        | some row => .updateWrite row role)
  | .upsertInsert c role project =>
    some (.lock (fun _ => insertLocks c project) fun r =>
      if r.insertable c project then .upsertWrite c role project
      else .leave (.error .integrityError))
  | .upsertWrite c role project =>
    some (.commit (Registry.projectMemberAdded (c.row role project)) (.returned (.ok ())))
  -- update_project_member
  | .updateSelect c role project =>
    some (.lock
      (fun r => (r.projectMembers.find? (project.id, c.userId)).toList.map
        fun x => .projectMember x.projectId x.userId)
      fun r => .orLeave
        (orNotFound "Project member" (toString c.userId)
          (r.projectMembers.find? (project.id, c.userId)))
        fun row => .updateWrite row role)
  | .updateWrite row role =>
    some (.commit (Registry.projectMemberChanged { row with role := role }) (.returned (.ok ())))
  -- remove_project_member
  | .removeSelect c project =>
    some (.lock
      (fun r => (r.projectMembers.find? (project.id, c.userId)).toList.map
        fun x => .projectMember x.projectId x.userId)
      fun r => .orLeave
        (orNotFound "Project member" (toString c.userId)
          (r.projectMembers.find? (project.id, c.userId)))
        fun row => .removeRow row)
  | .removeRow row => some (.commit (Registry.projectMemberRemoved row) (.returned (.ok ())))
  | .leave x => some (.commit id (.returned x))
  | .returned _ => none

/-- The calls. -/
inductive RegistryTxnCall where
  | member (c : MemberCall)
  | project (c : ProjectCall)

/-- **The operations on members and project members as a program.** -/
def projectMembership :
    Program Registry RegistryLock ProjectTxn RegistryTxnCall (Nat × LifecycleState) where
  start r c :=
    match c with
    | .member c =>
      (startMember r.directory c).map fun x => ({ r with directory := x.1 }, .member x.2)
    | .project c => some (r, .authorize c)
  stmt := ProjectTxn.stmt
  env r e := (setLifecycle r.directory e).map fun d => { r with directory := d }
  conflict := RegistryLock.conflict

/-! ## §2. What the transactions know. -/

namespace Registry

/-- The user is a member of the organization. -/
def hasMember (r : Registry) (organizationId userId : Nat) : Bool :=
  (r.directory.members.find? (organizationId, userId)).isSome

/-- **Every project member is a member of the project's organization.** -/
def Housed (r : Registry) : Prop :=
  ∀ x ∈ r.projectMembers.rows, ∃ p, r.projects.find? x.projectId = some p
    ∧ r.hasMember p.organizationId x.userId = true

instance {r : Registry} : Decidable r.Housed := List.decidableBAll _ _

end Registry

/-- The user gets no new project in the organization. -/
def Registry.GainsNone (organizationId userId : Nat) (r r' : Registry) : Prop :=
  ∀ x ∈ r'.projectRows organizationId userId,
    x.key ∈ (r.projectRows organizationId userId).map ProjectMember.key

/-- The changes that a lock allows to the others: a locked member gets no new
project. -/
def RegistryLock.keeps : RegistryLock → Registry → Registry → Prop
  | .directory k, r, r' => k.keeps r.directory r'.directory
      ∧ ∀ organizationId userId, k = .member organizationId userId →
        Registry.GainsNone organizationId userId r r'
  | .projectMember _ _, _, _ => True

/-- The changes that all transactions make: who is no member gets no new
project. -/
structure Registry.Relies (r r' : Registry) : Prop where
  projects : r'.projects = r.projects
  strangers : ∀ organizationId userId, r.hasMember organizationId userId = false →
    Registry.GainsNone organizationId userId r r'

/-- The locks on members and accounts. -/
def directoryLocks (held : List RegistryLock) : List DirectoryLock :=
  held.filterMap RegistryLock.ofDirectory

/-- The project is the one that was authorized. -/
def Registry.Knows (r : Registry) (project : Project) : Prop :=
  r.projects.find? project.id = some project

/-- The row of the organization member is locked, and there. -/
structure ProjectCall.Holds (c : ProjectCall) (project : Project) (r : Registry)
    (held : List RegistryLock) : Prop where
  known : r.Knows project
  locked : .directory (.member project.organizationId c.userId) ∈ held
  member : r.hasMember project.organizationId c.userId = true

/-- What a transaction knows at its next statement. -/
def ProjectTxn.ok (r : Registry) (held : List RegistryLock) : ProjectTxn → Prop
  | .member t => t.ok r.directory (directoryLocks held)
  | .removeWrite q m deleted => q.Holds m r.directory (directoryLocks held) ∧ q.role = none
      ∧ ∀ x ∈ r.projectRows q.organizationId q.userId, x.key ∈ deleted
  | .projectRole _ v => r.Knows v.project
  | .addMember _ _ project | .addExisting _ _ project | .addInsert _ _ project
  | .addWrite _ _ project | .upsertMember _ _ project => r.Knows project
  | .upsertSelect c _ project | .upsertInsert c _ project | .upsertWrite c _ project =>
    c.Holds project r held
  | _ => True

/-- No transaction but the unguarded insert. -/
def Guarded (_ : Registry) (t : ProjectTxn) (_ : List RegistryLock) : Prop :=
  ∀ c role project, t ≠ .addWrite c role project

theorem Registry.Relies.refl (r : Registry) : r.Relies r :=
  ⟨rfl, fun _ _ _ _ hx => mem_map_of_mem hx⟩

section Knowledge

variable {r r' : Registry} {t : ProjectTxn}

theorem mem_directoryLocks : k ∈ directoryLocks held ↔ .directory k ∈ held := by
  unfold directoryLocks
  rw [mem_filterMap]
  constructor
  · rintro ⟨l, hl, hk⟩
    cases l with
    | directory =>
      cases hk
      exact hl
    | projectMember => cases hk
  · intro h
    exact ⟨.directory k, h, rfl⟩

theorem directoryLocks_append (held got : List RegistryLock) :
    directoryLocks (held ++ got) = directoryLocks held ++ directoryLocks got :=
  filterMap_append

theorem directoryLocks_map (ks : List DirectoryLock) : directoryLocks (ks.map .directory) = ks := by
  unfold directoryLocks
  rw [filterMap_map]
  exact filterMap_some

variable {next : Registry → ProjectTxn}

theorem Registry.mem_projectRows : x ∈ r.projectRows organizationId userId
      ↔ x ∈ r.projectMembers.rows ∧ x.userId = userId
        ∧ r.within organizationId x.projectId = true := by
  unfold Registry.projectRows
  rw [mem_filter, Bool.and_eq_true, decide_eq_true_eq]

theorem Registry.within_iff (h : r.projects.find? projectId = some p) :
    r.within organizationId projectId = true ↔ p.organizationId = organizationId := by
  unfold Registry.within
  rw [h]
  exact decide_eq_true_iff

/-- Where no key is new, nobody has a new project. -/
theorem rows_keep (hprojects : r'.projects = r.projects) (hkeys : ∀ x ∈ r'.projectMembers.rows,
      x.key ∈ r.projectMembers.rows.map ProjectMember.key)
    (organizationId userId : Nat) : Registry.GainsNone organizationId userId r r' := by
  intro x hx
  obtain ⟨hmem, huser, hwithin⟩ := Registry.mem_projectRows.mp hx
  obtain ⟨y, hy, hkey⟩ := mem_map.mp (hkeys x hmem)
  have hproject : y.projectId = x.projectId := congrArg Prod.fst hkey
  have hsame : y.userId = x.userId := congrArg Prod.snd hkey
  refine mem_map.mpr ⟨y, Registry.mem_projectRows.mpr ⟨hy, hsame.trans huser, ?_⟩, hkey⟩
  rw [hproject]
  unfold Registry.within at hwithin ⊢
  rw [← hprojects]
  exact hwithin

theorem Registry.Knows.keep (h : r.Knows project) (hprojects : r'.projects = r.projects) :
    r'.Knows project := by
  unfold Registry.Knows
  rw [hprojects]
  exact h

theorem ProjectCall.Holds.stable {c : ProjectCall} (h : c.Holds project r held)
    (hprojects : r'.projects = r.projects) (hkeeps : ∀ k ∈ held, k.keeps r r') :
    c.Holds project r' held := by
  refine ⟨h.known.keep hprojects, h.locked, ?_⟩
  have hrow : r'.directory.members.find? (project.organizationId, c.userId)
      = r.directory.members.find? (project.organizationId, c.userId) := (hkeeps _ h.locked).1
  unfold Registry.hasMember
  rw [hrow]
  exact h.member

theorem ProjectCall.Holds.mono {c : ProjectCall} {project : Project} {got : List RegistryLock}
    (h : c.Holds project r held) : c.Holds project r (held ++ got) :=
  ⟨h.known, mem_append_left _ h.locked, h.member⟩

/-- What is under lock stays known. -/
theorem registry_stable (h : t.ok r held) (hprojects : r'.projects = r.projects)
    (hkeeps : ∀ k ∈ held, k.keeps r r') : t.ok r' held := by
  have hdirectory : ∀ k ∈ directoryLocks held, k.keeps r.directory r'.directory :=
    fun k hk => (hkeeps _ (mem_directoryLocks.mp hk)).1
  cases t with
  | member => exact ok_stable h hdirectory
  | removeWrite =>
    obtain ⟨hholds, hrole, hdeleted⟩ := h
    refine ⟨⟨hholds.locked, (hdirectory _ hholds.locked).trans hholds.row⟩, hrole, ?_⟩
    intro x hx
    have hold := (hkeeps _ (mem_directoryLocks.mp hholds.locked)).2 _ _ rfl x hx
    obtain ⟨y, hy, hkey⟩ := mem_map.mp hold
    rw [← hkey]
    exact hdeleted y hy
  | projectRole => exact Registry.Knows.keep h hprojects
  | addMember c role project | addExisting c role project | addInsert c role project
  | addWrite c role project | upsertMember c role project =>
    exact Registry.Knows.keep h hprojects
  | upsertSelect c role project | upsertInsert c role project | upsertWrite c role project =>
    exact ProjectCall.Holds.stable h hprojects hkeeps
  | _ => trivial

theorem ok_orLeaveProject {α : Type} {x : Except AppError α} {next : α → ProjectTxn}
    (h : ∀ a, x = .ok a → (next a).ok r held) : (ProjectTxn.orLeave x next).ok r held := by
  cases x with
  | error => trivial
  | ok a => exact h a rfl

theorem enterProject_ok (c : ProjectCall) {project : Project} (h : r.Knows project) :
    (c.enter project).ok r held := by
  unfold ProjectCall.enter
  split
  · exact h
  · exact h
  · trivial
  · trivial

theorem knows_of_visible {actor : Nat} {projectId : Uuid} {v : VisibleProject}
    (h : visibleProject actor projectId r = .ok v) : r.Knows v.project := by
  obtain ⟨hproject, -⟩ := visibleProject_ok h
  exact Table.find?_key (Registry.projectOf_some hproject).1

/-! ## §3. The statements of `Membership`. -/

theorem embedded_read {t : MemberTxn} (h : t.embedded = some (.read next)) :
    ∃ f, t.stmt = some (.read f) ∧ next = fun r => .member (f r.directory) := by
  obtain ⟨st, hst, h⟩ := map_eq_some_iff.mp h
  cases st with
  | read f =>
    cases h
    exact ⟨f, hst, rfl⟩
  | lock | lockSkip | commit => cases h

theorem embedded_lock {t : MemberTxn} (h : t.embedded = some (.lock want next)) :
    ∃ f g, t.stmt = some (.lock f g) ∧ want = (fun r => (f r.directory).map .directory)
      ∧ next = fun r => .member (g r.directory) := by
  obtain ⟨st, hst, h⟩ := map_eq_some_iff.mp h
  cases st with
  | lock f g =>
    cases h
    exact ⟨f, g, hst, rfl, rfl⟩
  | read | lockSkip | commit => cases h

theorem embedded_commit {t : MemberTxn} {next : ProjectTxn}
    (h : t.embedded = some (.commit write next)) :
    ∃ f l, t.stmt = some (.commit f l)
      ∧ write = (fun r => { r with directory := f r.directory }) ∧ next = .member l := by
  obtain ⟨st, hst, h⟩ := map_eq_some_iff.mp h
  cases st with
  | commit f l =>
    cases h
    exact ⟨f, l, hst, rfl, rfl⟩
  | read | lock | lockSkip => cases h

/-- The member is not taken away by the statement. -/
def MemberTxn.Spares : MemberTxn → Prop
  | .changeWrite q _ => q.role ≠ none
  | .deleteRows _ | .deleteWrite _ => False
  | _ => True

/-- Where the statements differ from those of `Membership`. -/
theorem registryStmt_cases {t : MemberTxn} {st : Stmt Registry RegistryLock ProjectTxn}
    (h : t.registryStmt = some st) :
    (t.embedded = some st ∧ t.Spares)
      ∨ (∃ q m, t = .changeWrite q m ∧ q.role = none ∧ st = removalStmt q m)
      ∨ (∃ userId, t = .deleteRows userId ∧ st = cascadeStmt userId)
      ∨ ∃ userId, t = .deleteWrite userId
        ∧ st = .commit (Registry.accountDeleted userId) (.returned (.ok ())) := by
  cases t with
  | changeWrite q m =>
    cases hrole : q.role with
    | none =>
      simp only [MemberTxn.registryStmt, hrole] at h
      cases h
      exact Or.inr (Or.inl ⟨q, m, rfl, hrole, rfl⟩)
    | some role =>
      simp only [MemberTxn.registryStmt, hrole] at h
      refine Or.inl ⟨h, ?_⟩
      show q.role ≠ none
      rw [hrole]
      exact some_ne_none role
  | deleteRows userId =>
    cases h
    exact Or.inr (Or.inr (Or.inl ⟨userId, rfl, rfl⟩))
  | deleteWrite userId =>
    cases h
    exact Or.inr (Or.inr (Or.inr ⟨userId, rfl, rfl⟩))
  | _ => exact Or.inl ⟨h, trivial⟩

theorem registryLock_ok {t : MemberTxn} (h : t.ok r.directory (directoryLocks held))
    (hst : t.registryStmt = some (.lock want next)) : (next r).ok r (held ++ want r) := by
  rcases registryStmt_cases hst with ⟨hst, -⟩ | ⟨q, m, rfl, hrole, hst⟩ | ⟨userId, rfl, hst⟩
    | ⟨userId, -, hst⟩
  · obtain ⟨f, g, hf, rfl, rfl⟩ := embedded_lock hst
    have hok := ok_lock h hf
    show MemberTxn.ok r.directory (directoryLocks (held ++ (f r.directory).map .directory)) _
    rw [directoryLocks_append, directoryLocks_map]
    exact hok
  · -- the rows that the DELETE finds are all the user has
    cases hst
    refine ⟨?_, hrole, fun x hx => mem_map_of_mem hx⟩
    rw [directoryLocks_append]
    exact h.1.mono
  · cases hst
    refine ⟨mem_directoryLocks.mpr ?_, fun m hm hid => mem_directoryLocks.mpr ?_⟩
    · exact mem_append_right _ (mem_append_left _ mem_cons_self)
    · refine mem_append_right _ (mem_append_left _ (mem_cons_of_mem _ ?_))
      exact mem_map.mpr ⟨m, mem_filter.mpr ⟨hm, decide_eq_true hid⟩, rfl⟩
  · cases hst

/-! ## §4. The statements on project members. -/

theorem registry_read (h : t.ok r held)
    (hst : t.stmt = some (.read next)) : (next r).ok r held := by
  cases t with
  | member =>
    rcases registryStmt_cases hst with ⟨hst, -⟩ | ⟨q, m, -, -, hst⟩ | ⟨userId, -, hst⟩
      | ⟨userId, -, hst⟩
    · obtain ⟨f, hf, rfl⟩ := embedded_read hst
      exact ok_read h hf
    · cases hst
    · cases hst
    · cases hst
  | authorize c =>
    cases hst
    apply ok_orLeaveProject
    intro v hv
    have hknows := knows_of_visible hv
    split
    · exact hknows
    · apply ok_orLeaveProject
      intro project hgrant
      obtain ⟨rfl, -⟩ := grantProject_ok hgrant
      exact enterProject_ok c hknows
  | projectRole c =>
    cases hst
    apply ok_orLeaveProject
    intro project hgrant
    obtain ⟨rfl, -⟩ := grantProject_ok hgrant
    exact enterProject_ok c h
  | addMember =>
    cases hst
    apply ok_orLeaveProject
    intro _ _
    exact h
  | addExisting =>
    cases hst
    dsimp only
    split
    · trivial
    · exact h
  | _ => cases hst

theorem registry_lock (h : t.ok r held) (hst : t.stmt = some (.lock want next)) :
    (next r).ok r (held ++ want r) := by
  cases t with
  | member => exact registryLock_ok h hst
  | addInsert =>
    cases hst
    dsimp only
    split
    · exact h
    · trivial
  | upsertMember =>
    cases hst
    apply ok_orLeaveProject
    intro m hm
    have hrow := orNotFound_eq_ok.mp hm
    refine ⟨h, ?_, ?_⟩
    · dsimp only
      rw [hrow]
      exact mem_append_right _ mem_cons_self
    · unfold Registry.hasMember
      rw [hrow]
      rfl
  | upsertSelect | upsertInsert =>
    cases hst
    dsimp only
    split
    · exact ProjectCall.Holds.mono h
    · trivial
  | updateSelect | removeSelect =>
    cases hst
    exact ok_orLeaveProject fun _ _ => trivial
  | _ => cases hst

/-! ## §5. Commits. -/

/-- Where projects and project members stay and no member of a project goes,
everybody is still housed. -/
theorem Registry.Housed.mono (h : r.Housed) (hprojects : r'.projects = r.projects)
    (hkeys : ∀ x ∈ r'.projectMembers.rows, x.key ∈ r.projectMembers.rows.map ProjectMember.key)
    (hmembers : ∀ x ∈ r'.projectMembers.rows, ∀ p, r.projects.find? x.projectId = some p →
      r.hasMember p.organizationId x.userId = true →
      r'.hasMember p.organizationId x.userId = true) : r'.Housed := by
  intro x hx
  obtain ⟨y, hy, hkey⟩ := mem_map.mp (hkeys x hx)
  have hproject : y.projectId = x.projectId := congrArg Prod.fst hkey
  have huser : y.userId = x.userId := congrArg Prod.snd hkey
  obtain ⟨p, hp, hmember⟩ := h y hy
  rw [hproject] at hp
  rw [huser] at hmember
  refine ⟨p, ?_, hmembers x hx p hp hmember⟩
  rw [hprojects]
  exact hp

/-- A statement of `Membership` that spares the member keeps all members. -/
theorem commit_persists {t : MemberTxn} {held : List DirectoryLock} {write : Directory → Directory}
    {next : MemberTxn} (hok : t.ok d held) (hst : t.stmt = some (.commit write next))
    (hspares : t.Spares) (h : (d.members.find? k).isSome = true) :
    ((write d).members.find? k).isSome = true := by
  have hinsert : ∀ m, ((d.members.insert m).find? k).isSome = true := by
    intro m
    obtain ⟨x, hx⟩ := isSome_iff_exists.mp h
    rw [Table.find?_insert, hx]
    rfl
  cases t with
  | changeWrite =>
    cases hst
    rw [find?_changed hok.1.row k]
    split
    · obtain ⟨role, hrole⟩ := ne_none_iff_exists'.mp hspares
      rw [hrole]
      rfl
    · exact h
  | addWrite | createWrite =>
    cases hst
    exact hinsert _
  | deleteWrite => exact absurd hspares not_false
  | registerWrite email | editWrite u e | leave x =>
    cases hst
    exact h
  | _ => cases hst

/-- The removal of a member takes away all projects of the user. -/
theorem memberRemoved_housed (h : r.Housed) (hrow : r.directory.members.find? q.key = some m)
    (hdeleted : ∀ x ∈ r.projectRows q.organizationId q.userId, x.key ∈ deleted) :
    (r.memberRemoved q m deleted).Housed := by
  have hprojects : (r.memberRemoved q m deleted).projects = r.projects := rfl
  apply h.mono hprojects
  · intro x hx
    exact mem_map_of_mem (Table.mem_delete.mp hx).1
  · intro x hx p hp hmember
    obtain ⟨hold, hleft⟩ := Table.mem_delete.mp hx
    have hne : q.key ≠ (p.organizationId, x.userId) := by
      intro heq
      injection heq with horganization huser
      have hmine : x ∈ r.projectRows q.organizationId q.userId := Registry.mem_projectRows.mpr
          ⟨hold, huser.symm, (Registry.within_iff hp).mpr horganization.symm⟩
      rw [decide_eq_true (hdeleted x hmine)] at hleft
      cases hleft
    show ((r.directory.changed q m).members.find? _).isSome = true
    rw [find?_changed hrow, if_neg hne]
    exact hmember

theorem accountDeleted_housed (h : r.Housed) (userId : Nat) : (r.accountDeleted userId).Housed := by
  have hprojects : (r.accountDeleted userId).projects = r.projects := rfl
  apply h.mono hprojects
  · intro x hx
    exact mem_map_of_mem (Table.mem_delete.mp hx).1
  · intro x hx p _ hmember
    have hne : x.userId ≠ userId := of_decide_eq_false (Table.mem_delete.mp hx).2
    show ((r.directory.withoutUser userId).members.find? _).isSome = true
    rw [find?_withoutUser _ hne]
    exact hmember

/-- A new project member is housed where the member is there. -/
theorem projectMemberAdded_housed {c : ProjectCall} (h : r.Housed) (hknows : r.Knows project)
    (hmember : r.hasMember project.organizationId c.userId = true) :
    (r.projectMemberAdded (c.row role project)).Housed := by
  intro x hx
  rcases Table.mem_insert hx with rfl | hx
  · exact ⟨project, hknows, hmember⟩
  · exact h x hx

/-- The new row is in the way of one member only. -/
theorem projectMemberAdded_keeps {c : ProjectCall} (hknows : r.Knows project)
    (hne : (project.organizationId, c.userId) ≠ (organizationId, userId)) :
    Registry.GainsNone organizationId userId r (r.projectMemberAdded (c.row role project)) := by
  intro x hx
  obtain ⟨hmem, huser, hwithin⟩ := Registry.mem_projectRows.mp hx
  rcases Table.mem_insert hmem with rfl | hmem
  · have horganization : project.organizationId = organizationId :=
      (Registry.within_iff hknows).mp hwithin
    exact absurd (Prod.ext horganization huser) hne
  · exact mem_map_of_mem (Registry.mem_projectRows.mpr ⟨hmem, huser, hwithin⟩)

/-- The new row goes to a member. -/
theorem projectMemberAdded_relies {c : ProjectCall} (hknows : r.Knows project)
    (hmember : r.hasMember project.organizationId c.userId = true) :
    r.Relies (r.projectMemberAdded (c.row role project)) := by
  refine ⟨rfl, ?_⟩
  intro organizationId userId hnone
  apply projectMemberAdded_keeps hknows
  intro heq
  injection heq with horganization huser
  rw [horganization, huser, hnone] at hmember
  cases hmember

/-- What a commit has to show. -/
def Commits (r : Registry) (held : List RegistryLock) (write : Registry → Registry)
    (next : ProjectTxn) : Prop :=
  (write r).Housed ∧ next.ok (write r) [] ∧ r.Relies (write r)
    ∧ ∀ k, (∀ h ∈ held, RegistryLock.conflict h k = false) → k.keeps r (write r)

/-- A commit that adds no project member. -/
theorem commits_of_keys {next : ProjectTxn}
    (hhoused : (write r).Housed) (hnext : next.ok (write r) [])
    (hprojects : (write r).projects = r.projects)
    (hkeys : ∀ x ∈ (write r).projectMembers.rows,
      x.key ∈ r.projectMembers.rows.map ProjectMember.key)
    (hdirectory : ∀ k, (∀ h ∈ directoryLocks held, DirectoryLock.conflict h k = false) →
      k.keeps r.directory (write r).directory) : Commits r held write next := by
  refine ⟨hhoused, hnext, ⟨hprojects, fun o u _ => rows_keep hprojects hkeys o u⟩, ?_⟩
  intro k hfree
  cases k with
  | directory k =>
    refine ⟨hdirectory k fun h hh => hfree _ (mem_directoryLocks.mp hh), ?_⟩
    intro organizationId userId _
    exact rows_keep hprojects hkeys organizationId userId
  | projectMember => trivial

theorem memberCommits {t : MemberTxn} {next : ProjectTxn}
    (hr : r.Housed) (h : t.ok r.directory (directoryLocks held))
    (hst : t.registryStmt = some (.commit write next)) : Commits r held write next := by
  rcases registryStmt_cases hst with ⟨hst, hspares⟩ | ⟨q, m, rfl, -, hst⟩ | ⟨userId, rfl, hst⟩
    | ⟨userId, rfl, hst⟩
  · obtain ⟨f, l, hf, rfl, rfl⟩ := embedded_commit hst
    obtain ⟨hnext, hkeeps⟩ := commit_keeps h hf
    refine commits_of_keys ?_ hnext rfl (fun x hx => mem_map_of_mem hx) hkeeps
    have hprojects : { r with directory := f r.directory }.projects = r.projects := rfl
    apply hr.mono hprojects
    · intro x hx
      exact mem_map_of_mem hx
    · intro x _ p _ hmember
      exact commit_persists h hf hspares hmember
  · cases hst
  · cases hst
  · cases hst
    obtain ⟨-, hkeeps⟩ := commit_keeps h rfl
    exact commits_of_keys (accountDeleted_housed hr userId) trivial rfl
      (fun x hx => mem_map_of_mem (Table.mem_delete.mp hx).1) hkeeps

theorem registry_commit {next : ProjectTxn} (hr : r.Housed)
    (h : t.ok r held) (hst : t.stmt = some (.commit write next))
    (hguarded : Guarded r t []) : Commits r held write next := by
  cases t with
  | member => exact memberCommits hr h hst
  | removeWrite =>
    cases hst
    obtain ⟨hholds, hrole, hdeleted⟩ := h
    refine commits_of_keys (memberRemoved_housed hr hholds.row hdeleted) trivial rfl
      (fun x hx => mem_map_of_mem (Table.mem_delete.mp hx).1) ?_
    intro k hfree
    exact changed_keeps hholds hfree
  | addWrite c role project => exact absurd rfl (hguarded c role project)
  | upsertWrite =>
    cases hst
    refine ⟨projectMemberAdded_housed hr h.known h.member, trivial,
      projectMemberAdded_relies h.known h.member, ?_⟩
    intro k hfree
    cases k with
    | directory k =>
      refine ⟨keeps_of_members rfl k, ?_⟩
      rintro organizationId userId rfl
      apply projectMemberAdded_keeps h.known
      exact ne_of_no_conflict (mem_directoryLocks.mpr h.locked)
        fun h hh => hfree _ (mem_directoryLocks.mp hh)
    | projectMember => trivial
  | updateWrite row role =>
    cases hst
    have hkeys : ∀ x ∈ (r.projectMemberChanged { row with role := role }).projectMembers.rows,
        x.key ∈ r.projectMembers.rows.map ProjectMember.key := by
      intro x hx
      have := mem_map_of_mem (f := ProjectMember.key) hx
      unfold Registry.projectMemberChanged at this
      rw [Table.keys_put] at this
      exact this
    exact commits_of_keys (hr.mono rfl hkeys fun _ _ _ _ h => h) trivial rfl hkeys
      fun k _ => keeps_of_members rfl k
  | removeRow row =>
    cases hst
    have hkeys : ∀ x ∈ (r.projectMemberRemoved row).projectMembers.rows,
        x.key ∈ r.projectMembers.rows.map ProjectMember.key :=
      fun x hx => mem_map_of_mem (Table.mem_delete.mp hx).1
    exact commits_of_keys (hr.mono rfl hkeys fun _ _ _ _ h => h) trivial rfl hkeys
      fun k _ => keeps_of_members rfl k
  | leave x =>
    cases hst
    exact commits_of_keys hr trivial rfl (fun x hx => mem_map_of_mem hx)
      fun k _ => keeps_of_members rfl k
  | _ => cases hst

/-- A change of the directory that leaves the members alone. -/
theorem directory_keeps (hr : r.Housed) (h : d.members = r.directory.members) :
    { r with directory := d }.Housed ∧ r.Relies { r with directory := d }
      ∧ ∀ k : RegistryLock, k.keeps r { r with directory := d } := by
  have hgains : ∀ o u, Registry.GainsNone o u r { r with directory := d } :=
    fun o u x hx => mem_map_of_mem hx
  refine ⟨?_, ⟨rfl, fun o u _ => hgains o u⟩, ?_⟩
  · intro x hx
    obtain ⟨p, hp, hmember⟩ := hr x hx
    refine ⟨p, hp, ?_⟩
    show (d.members.find? (p.organizationId, x.userId)).isSome = true
    rw [h]
    exact hmember
  · intro k
    cases k with
    | directory k => exact ⟨keeps_of_members h k, fun o u _ => hgains o u⟩
    | projectMember => trivial

/-- No statement skips locked rows. -/
theorem registry_skip {limit : Option Nat} {next : Registry → List RegistryLock → ProjectTxn} :
    t.stmt ≠ some (.lockSkip limit want next) := by
  intro hst
  cases t with
  | member t =>
    rcases registryStmt_cases hst with ⟨hst, -⟩ | ⟨q, m, -, -, hst⟩ | ⟨userId, -, hst⟩
      | ⟨userId, -, hst⟩
    · obtain ⟨st, hst, h⟩ := map_eq_some_iff.mp hst
      cases st with
      | lockSkip => cases t <;> simp [MemberTxn.stmt] at hst
      | read | lock | commit => cases h
    · cases hst
    · cases hst
    · cases hst
  | _ => cases hst

end Knowledge

/-- **The outline of the operations, `add_project_member`'s insert apart.** -/
def projectOutline : Outline projectMembership Guarded where
  glob := Registry.Housed
  ok := fun r held t => t.ok r held
  keeps := RegistryLock.keeps
  rely := Registry.Relies
  conflict_symm := by
    intro a b
    cases a <;> cases b
    · exact DirectoryLock.conflict_symm _ _
    · rfl
    · rfl
    · simp [projectMembership, RegistryLock.conflict, eq_comm]
  stable := fun _ _ _ _ _ h hrely hkeeps => registry_stable h hrely.projects hkeeps
  start_ok := by
    intro r c r' t hr h
    cases c with
    | member =>
      obtain ⟨⟨d, t⟩, hstart, h⟩ := map_eq_some_iff.mp h
      cases h
      obtain ⟨hmembers, -, hok⟩ := start_keeps hstart
      obtain ⟨hhoused, hkept⟩ := directory_keeps hr hmembers
      exact ⟨hhoused, hok, hkept⟩
    | project =>
      cases h
      obtain ⟨hhoused, hkept⟩ := directory_keeps hr rfl
      exact ⟨hhoused, trivial, hkept⟩
  env_ok := by
    intro r e r' hr h
    obtain ⟨d, hset, rfl⟩ := map_eq_some_iff.mp h
    obtain ⟨o, -, rfl⟩ := map_eq_some_iff.mp hset
    exact directory_keeps hr rfl
  read_ok := fun _ _ _ _ _ h hst _ => registry_read h hst
  lock_ok := fun _ _ _ _ _ _ h hst _ => registry_lock h hst
  skip_ok := by
    intro r held t limit want next got _ _ hst
    exact absurd hst registry_skip
  commit_ok := fun _ _ _ _ _ hr h hst hguarded => registry_commit hr h hst hguarded

/-! ## §6. Runs. -/

/-- At its commit `add_project_member` finds the member that it has seen, and
nobody is between the two deletions of `remove_member`. -/
def InsertsUndisturbed (s : Sys Registry RegistryLock ProjectTxn)
    (m : Move RegistryTxnCall (Nat × LifecycleState))
    (_ : Sys Registry RegistryLock ProjectTxn) : Prop :=
  ∀ i c role project, m = .exec i → s.locals i = some (.addWrite c role project) →
    s.db.hasMember project.organizationId c.userId = true
      ∧ ∀ j q member deleted, s.locals j = some (.removeWrite q member deleted) →
        q.key ≠ (project.organizationId, c.userId)

/-- Only a transaction between the two deletions minds a new project member. -/
theorem added_ok {r : Registry} {t : ProjectTxn} {c : ProjectCall} (h : t.ok r held)
    (hknows : r.Knows project) (hfree : ∀ q member deleted, t = .removeWrite q member deleted →
      q.key ≠ (project.organizationId, c.userId)) :
    t.ok (r.projectMemberAdded (c.row role project)) held := by
  cases t with
  | removeWrite q m deleted =>
    obtain ⟨hholds, hrole, hdeleted⟩ := h
    refine ⟨hholds, hrole, ?_⟩
    intro x hx
    have hne : (project.organizationId, c.userId) ≠ (q.organizationId, q.userId) :=
      Ne.symm (hfree q m deleted rfl)
    obtain ⟨y, hy, hkey⟩ := mem_map.mp (projectMemberAdded_keeps hknows hne x hx)
    rw [← hkey]
    exact hdeleted y hy
  | upsertSelect c role project | upsertInsert c role project | upsertWrite c role project =>
    exact ⟨h.known, h.locked, h.member⟩
  | _ => exact h

/-- **One step.**  The insert of `add_project_member` is the one that no lock
guards; the others are steps of the outline. -/
theorem undisturbed_step (hs : projectOutline.Inv s) (h : projectMembership.step s m = some t)
    (hm : InsertsUndisturbed s m t) : projectOutline.Inv t ∧ s.db.Relies t.db := by
  by_cases hadd : ∃ i c role project, m = .exec i ∧ s.locals i = some (.addWrite c role project)
  · obtain ⟨i, c, role, project, rfl, hl⟩ := hadd
    obtain ⟨hmember, hfree⟩ := hm i c role project rfl hl
    have hknows : s.db.Knows project := hs.ok i _ hl
    obtain ⟨st, hst, hexec⟩ := projectMembership.step_exec hl h
    cases hst
    cases hexec
    refine ⟨?_, projectMemberAdded_relies hknows hmember⟩
    apply projectOutline.inv_release hs
    · exact projectMemberAdded_housed hs.glob hknows hmember
    · intro l hl
      cases hl
      trivial
    · intro j l _ hj
      refine added_ok (hs.ok j l hj) hknows ?_
      rintro q member deleted rfl
      exact hfree j q member deleted hj
  · have hallowed : Allowed projectMembership Guarded s m t := by
      rintro i l st hi hl - c role project rfl
      exact hadd ⟨i, c, role, project, hi, hl⟩
    refine ⟨projectOutline.inv_step hs h hallowed, ?_⟩
    exact projectOutline.rely_step Registry.Relies.refl hs h hallowed

/-- Who is no member has no project in the organization. -/
theorem Registry.Housed.none {r : Registry} (h : r.Housed)
    (hnone : r.hasMember organizationId userId = false) :
    r.projectRows organizationId userId = [] := by
  apply eq_nil_iff_forall_not_mem.mpr
  intro x hx
  obtain ⟨hmem, huser, hwithin⟩ := Registry.mem_projectRows.mp hx
  obtain ⟨p, hp, hmember⟩ := h x hmem
  rw [(Registry.within_iff hp).mp hwithin, huser, hnone] at hmember
  cases hmember

/-- Who was no member before the step has no project in the organization after
it, in particular who has just been invited again. -/
def NoOldRole (s : Sys Registry RegistryLock ProjectTxn)
    (_ : Move RegistryTxnCall (Nat × LifecycleState))
    (t : Sys Registry RegistryLock ProjectTxn) : Prop :=
  ∀ organizationId userId, s.db.hasMember organizationId userId = false →
    t.db.projectRows organizationId userId = []

/-- **EVERY PROJECT MEMBER IS A MEMBER OF THE ORGANIZATION**, under every
interleaving of the statements in which no insert of `add_project_member` is
disturbed; and nobody regains an old role. -/
theorem project_members_are_members (r : Registry) (hr : r.Housed)
    (ms : List (Move RegistryTxnCall (Nat × LifecycleState)))
    (h : Along projectMembership.step InsertsUndisturbed (Sys.initial r) ms) :
    Along projectMembership.step (fun s m t => t.db.Housed ∧ NoOldRole s m t)
      (Sys.initial r) ms := by
  apply along_of_inv (I := projectOutline.Inv) _ ms _ (projectOutline.inv_initial hr) h
  intro s m t hs hstep hm
  obtain ⟨ht, hrely⟩ := undisturbed_step hs hstep hm
  refine ⟨ht, ht.glob, ?_⟩
  intro organizationId userId hnone
  apply eq_nil_iff_forall_not_mem.mpr
  intro x hx
  have hold := hrely.strangers organizationId userId hnone x hx
  rw [Registry.Housed.none hs.glob hnone] at hold
  cases hold

/-- An owner, a second account that is a member, and a project. -/
def teamRegistry : Registry where
  directory :=
    { users := (Serial.empty.append fun id => { id, email := "owner@example.com" }).append
        fun id => { id, email := "member@example.com" }
      organizations := Table.empty.insert { id := 1 }
      members := (Table.empty.insert ⟨1, 1, .owner⟩).insert ⟨1, 2, .member⟩ }
  projects := Table.empty.insert
    { id := 1, publicId := "project-1", organizationId := 1, createdAt := 0 }

/-- The member is to become admin of the project, the member is to go, and is
to come back. -/
def addToProject : RegistryTxnCall := .project ⟨1, "project-1", 2, .add .admin⟩

def removeFromTeam : RegistryTxnCall := .member (.removeMember 1 1 2)

def inviteAgain : List (Move RegistryTxnCall (Nat × LifecycleState)) :=
  [.begin 2 (.member (.addMember 1 1 2 .member)), .exec 2, .exec 2, .exec 2, .exec 2, .exec 2]

/-- The removal begins before the insert, and deletes after it. -/
def insertThenRemoval : List (Move RegistryTxnCall (Nat × LifecycleState)) :=
  [.begin 0 addToProject, .exec 0, .exec 0, .begin 1 removeFromTeam, .exec 1, .exec 1,
    .exec 0, .exec 0, .exec 0, .exec 1, .exec 1]

/-- The removal commits between the two reads of the insert and its commit. -/
def removalThenInsert : List (Move RegistryTxnCall (Nat × LifecycleState)) :=
  [.begin 0 addToProject, .exec 0, .exec 0, .exec 0, .begin 1 removeFromTeam, .exec 1, .exec 1,
    .exec 1, .exec 1, .exec 0, .exec 0]

/-- The check that a move of the first `n` transactions disturbs no insert. -/
def insertsUndisturbed (n : Nat) (s : Sys Registry RegistryLock ProjectTxn)
    (m : Move RegistryTxnCall (Nat × LifecycleState)) : Bool :=
  match m with
  | .begin i _ => decide (i < n)
  | .exec i =>
    match s.locals i with
    | some (.addWrite c _ project) =>
      s.db.hasMember project.organizationId c.userId
        && (List.range n).all fun j =>
          match s.locals j with
          | some (.removeWrite q _ _) => decide (q.key ≠ (project.organizationId, c.userId))
          | _ => true
    | _ => true
  | _ => true

theorem undisturbed_sound (hidle : ∀ j, n ≤ j → s.locals j = none)
    (h : insertsUndisturbed n s m = true) : InsertsUndisturbed s m t := by
  rintro i c role project rfl hl
  simp only [insertsUndisturbed, hl] at h
  obtain ⟨hmember, hall⟩ := (Bool.and_eq_true _ _).mp h
  refine ⟨hmember, ?_⟩
  intro j q member deleted hj
  have hlt : j < n := by
    by_contra hge
    rw [hidle j (Nat.le_of_not_lt hge)] at hj
    cases hj
  have hother := all_eq_true.mp hall j (mem_range.mpr hlt)
  simp only [hj] at hother
  exact of_decide_eq_true hother

/-- The insert comes first, the removal deletes its row, and the user who is
invited again has no role. -/
theorem project_members_are_members_removed :
    Along projectMembership.step (fun s m t => t.db.Housed ∧ NoOldRole s m t)
        (Sys.initial teamRegistry) (insertThenRemoval ++ inviteAgain)
      ∧ (run projectMembership.step (Sys.initial teamRegistry)
          (insertThenRemoval ++ inviteAgain)).any
        (fun t => t.db.hasMember 1 2 && decide (t.db.projectRows 1 2 = [])) = true := by
  refine ⟨project_members_are_members teamRegistry ?_ _ ?_, by decide +kernel⟩
  · intro x hx
    cases hx
  · exact projectMembership.along_of_check 3 (fun _ _ _ h => of_decide_eq_true h)
      (fun _ _ _ => undisturbed_sound) (by decide +kernel)

/-- **A PROJECT MEMBER THAT IS NO MEMBER**: the removal commits while the
insert is under way.  Invited again, the user is admin of the project. -/
theorem orphan_project_member :
    ∃ s t, run projectMembership.step (Sys.initial teamRegistry) removalThenInsert = some s
      ∧ run projectMembership.step s inviteAgain = some t
      ∧ ¬ s.db.Housed ∧ s.db.hasMember 1 2 = false
      ∧ t.db.hasMember 1 2 = true ∧ t.db.projectRows 1 2 = [⟨1, 2, .admin⟩] := by
  decide +kernel

end WebhookPlatform
