/-
  WebhookPlatform.Membership
  **THE OWNERS OF AN ORGANIZATION**: `create_organization`, `add_member`,
  `update_member`, `remove_member` and the account operations of
  `UserService`, one SQL statement at a time.

  A change that takes an owner away locks that member's row, then ALL owner
  rows, and counts them.  Two owners who demote each other therefore wait for
  each other's rows, and one of them still stands when the other commits.

  Deleting an account goes another way: `ON DELETE CASCADE` removes the
  account's memberships, and nobody counts.  An organization keeps an owner
  along every run in which no account is deleted that is the only owner of
  an organization (`organizations_keep_an_owner`), and loses it otherwise
  (`deleted_account_leaves_no_owner`).

  Conventions of the embedding:

    • an insert takes a share lock on the account that its foreign key names,
      and an exclusive lock on its entry of a unique index,
    • the id of a new organization is drawn with the call,
    • the state of an organization changes at any moment.
-/
import WebhookPlatform.Lifecycle
import WebhookPlatform.Lib.RowLocks

namespace WebhookPlatform

open Relational Transition RowLocks List Table

/-! ## §1. Accounts, organizations, members. -/

/-- `ck_org_members_role`. -/
inductive OrganizationRole where
  | owner
  | admin
  | member
  deriving Repr, DecidableEq

/-- `organization_members`. -/
structure OrganizationMember where
  organizationId : Nat
  userId : Nat
  role : OrganizationRole
  deriving Repr, DecidableEq

/-- `uq_org_members_org_user`. -/
def OrganizationMember.key (m : OrganizationMember) : Nat × Nat := (m.organizationId, m.userId)

/-- `users`. -/
structure User where
  id : Nat
  email : String
  isActive : Bool := true
  deriving Repr, DecidableEq

/-- The tables, and the organization ids that were drawn. -/
structure Directory where
  users : Serial User User.id := Serial.empty
  organizations : Table Organization Organization.id := Table.empty
  members : Table OrganizationMember OrganizationMember.key := Table.empty
  drawn : List Nat := []

namespace Directory

/-- The owners of the organization. -/
def owners (d : Directory) (organizationId : Nat) : List OrganizationMember :=
  d.members.rows.filter fun m =>
    decide (m.organizationId = organizationId) && decide (m.role = .owner)

/-- The organization has an owner for whom `p` holds. -/
def HasOwner (d : Directory) (organizationId : Nat) (p : OrganizationMember → Prop) : Prop :=
  ∃ m ∈ d.members.rows, m.organizationId = organizationId ∧ m.role = .owner ∧ p m

/-- **Every organization has an owner.** -/
def Owned (d : Directory) : Prop := ∀ o ∈ d.organizations.rows, d.HasOwner o.id fun _ => True

instance {d : Directory} [DecidablePred p] : Decidable (d.HasOwner organizationId p) :=
  List.decidableBEx _ _

instance {d : Directory} : Decidable d.Owned := List.decidableBAll _ _

/-- The email address is taken. -/
def taken (d : Directory) (email : String) : Bool :=
  d.users.rows.any fun u => decide (u.email = email)

end Directory

/-! ## §2. Authorization. -/

/-- `Permission.MEMBER_MANAGE in ORGANIZATION_ROLE_PERMISSIONS[role]`. -/
def OrganizationRole.managesMembers : OrganizationRole → Bool
  | .owner | .admin => true
  | .member => false

/-- `authorize_organization` with `MEMBER_MANAGE`. -/
def authorizeMembers (actor organizationId : Nat) (d : Directory) : Except AppError Unit :=
  match d.organizations.find? organizationId, d.members.find? (organizationId, actor) with
  | some o, some m =>
    if !m.role.managesMembers then .error (.forbidden "Permission denied")
    else if o.lifecycleState ≠ .active then
      .error (.forbidden "Organization mutations are disabled while deletion is pending")
    else .ok ()
  | _, _ => .error (.notFound "Organization" (toString organizationId))

/-- `_require_owner_for_owner_change`, once one of the roles is `owner`. -/
def requireOwner (actor organizationId : Nat) (d : Directory) : Except AppError Unit :=
  match d.members.find? (organizationId, actor) with
  | none => .error (.notFound "Organization member" (toString actor))
  | some m =>
    if m.role ≠ .owner then .error (.forbidden "Only an owner can change owner membership")
    else .ok ()

/-! ## §3. Transactions. -/

/-- What can be locked. -/
inductive DirectoryLock where
  /-- A row of `organization_members`, or its entry of the unique index. -/
  | member (organizationId userId : Nat)
  /-- An account that is deleted or updated. -/
  | user (id : Nat)
  /-- An account, `FOR KEY SHARE`. -/
  | userShare (id : Nat)
  /-- An entry of the unique index on `users.email`. -/
  | email (address : String)
  deriving Repr, DecidableEq

/-- Two share locks go together; otherwise a row has one holder. -/
def DirectoryLock.conflict : DirectoryLock → DirectoryLock → Bool
  | .userShare _, .userShare _ => false
  | .user i, .userShare j => decide (i = j)
  | .userShare i, .user j => decide (i = j)
  | a, b => decide (a = b)

theorem DirectoryLock.conflict_symm (a b : DirectoryLock) : a.conflict b = b.conflict a := by
  cases a <;> cases b <;> simp [DirectoryLock.conflict, eq_comm]

/-- A call of `update_member`, or, without a role, of `remove_member`. -/
structure ChangeCall where
  actor : Nat
  organizationId : Nat
  userId : Nat
  role : Option OrganizationRole
  deriving Repr, DecidableEq

/-- A call of `add_member`. -/
structure AddCall where
  actor : Nat
  organizationId : Nat
  userId : Nat
  role : OrganizationRole
  deriving Repr, DecidableEq

/-- What `UserService.update` or `deactivate` assigns. -/
structure UserEdit where
  email : Option String := none
  isActive : Option Bool := none
  deriving Repr, DecidableEq

/-- The states of the transactions: each names the statement that comes
next, and carries what the transaction has read. -/
inductive MemberTxn where
  | changeAuthorize (q : ChangeCall)
  | changeSelect (q : ChangeCall)
  | changeActor (q : ChangeCall) (m : OrganizationMember)
  | changeOwners (q : ChangeCall) (m : OrganizationMember)
  | changeWrite (q : ChangeCall) (m : OrganizationMember)
  | addAuthorize (q : AddCall)
  | addActor (q : AddCall)
  | addUser (q : AddCall)
  | addExisting (q : AddCall)
  | addInsert (q : AddCall)
  | addWrite (q : AddCall)
  | createInsert (organizationId userId : Nat)
  | createWrite (organizationId userId : Nat)
  | registerLookup (email : String)
  | registerInsert (email : String)
  | registerWrite (email : String)
  | editLookup (userId : Nat) (e : UserEdit)
  | editSelect (userId : Nat) (e : UserEdit)
  | editWrite (u : User) (e : UserEdit)
  | deleteLookup (userId : Nat)
  | deleteRows (userId : Nat)
  | deleteWrite (userId : Nat)
  /-- Nothing to write: a refusal or an exception. -/
  | leave (r : Except AppError Unit)
  | returned (r : Except AppError Unit)

/-- The caller has to be an owner: `"owner" in {current_role, requested_role}`. -/
def ChangeCall.touchesOwner (q : ChangeCall) (m : OrganizationMember) : Bool :=
  decide (m.role = .owner) || decide (q.role = some .owner)

/-- The member is an owner and will not be one. -/
def ChangeCall.losesOwner (q : ChangeCall) (m : OrganizationMember) : Bool :=
  decide (m.role = .owner) && decide (q.role ≠ some .owner)

/-- The row of the member that the call is about. -/
def ChangeCall.key (q : ChangeCall) : Nat × Nat := (q.organizationId, q.userId)

namespace Directory

/-- What a change of a member commits. -/
def changed (q : ChangeCall) (m : OrganizationMember) (d : Directory) : Directory :=
  match q.role with
  | some role => { d with members := d.members.put { m with role := role } }
  | none => { d with members := d.members.delete fun x => decide (x.key = q.key) }

/-- What `add_member` commits. -/
def added (q : AddCall) (d : Directory) : Directory :=
  { d with members := d.members.insert ⟨q.organizationId, q.userId, q.role⟩ }

/-- What `create_organization` commits. -/
def created (organizationId userId : Nat) (d : Directory) : Directory :=
  { d with
    organizations := d.organizations.insert { id := organizationId }
    members := d.members.insert ⟨organizationId, userId, .owner⟩ }

/-- What the deletion of an account commits, the cascade included. -/
def withoutUser (userId : Nat) (d : Directory) : Directory :=
  { d with
    users := d.users.delete fun u => decide (u.id = userId)
    members := d.members.delete fun m => decide (m.userId = userId) }

end Directory

/-- The row after the assignments. -/
def User.edited (e : UserEdit) (u : User) : User :=
  { u with email := e.email.getD u.email, isActive := e.isActive.getD u.isActive }

/-- Go on, or leave with the exception. -/
def MemberTxn.orLeave (r : Except AppError Unit) (next : MemberTxn) : MemberTxn :=
  match r with
  | .error e => .leave (.error e)
  | .ok () => next

/-- The next statement of each transaction. -/
def MemberTxn.stmt : MemberTxn → Option (Stmt Directory DirectoryLock MemberTxn)
  -- update_member, remove_member
  | .changeAuthorize q =>
    some (.read fun d => .orLeave (authorizeMembers q.actor q.organizationId d) (.changeSelect q))
  | .changeSelect q =>
    some (.lock
      (fun d => (d.members.find? q.key).toList.map fun _ => .member q.organizationId q.userId)
      fun d =>
        match d.members.find? q.key with
        | none => .leave (.error (.notFound "Organization member" (toString q.userId)))
        | some m => if q.touchesOwner m then .changeActor q m else .changeWrite q m)
  | .changeActor q m =>
    some (.read fun d => .orLeave (requireOwner q.actor q.organizationId d)
      (if q.losesOwner m then .changeOwners q m else .changeWrite q m))
  -- _ensure_not_last_owner
  | .changeOwners q m =>
    some (.lock
      (fun d => (d.owners q.organizationId).map fun o => .member o.organizationId o.userId)
      fun d =>
        if (d.owners q.organizationId).length ≤ 1 then
          .leave (.error (.conflict "An organization must retain an owner"))
        else .changeWrite q m)
  | .changeWrite q m => some (.commit (Directory.changed q m) (.returned (.ok ())))
  -- add_member
  | .addAuthorize q =>
    some (.read fun d => .orLeave (authorizeMembers q.actor q.organizationId d)
      (if q.role = .owner then .addActor q else .addUser q))
  | .addActor q =>
    some (.read fun d => .orLeave (requireOwner q.actor q.organizationId d) (.addUser q))
  | .addUser q =>
    some (.read fun d =>
      match d.users.find? q.userId with
      | none => .leave (.error (.notFound "User" (toString q.userId)))
      | some _ => .addExisting q)
  | .addExisting q =>
    some (.read fun d =>
      match d.members.find? (q.organizationId, q.userId) with
      | some _ => .leave (.error (.conflict "User is already an organization member"))
      | none => .addInsert q)
  | .addInsert q =>
    some (.lock (fun _ => [.userShare q.userId, .member q.organizationId q.userId]) fun d =>
      match d.users.find? q.userId, d.members.find? (q.organizationId, q.userId) with
      | some _, none => .addWrite q
      | _, _ => .leave (.error .integrityError))
  | .addWrite q => some (.commit (Directory.added q) (.returned (.ok ())))
  -- create_organization
  | .createInsert organizationId userId =>
    some (.lock (fun _ => [.userShare userId, .member organizationId userId]) fun d =>
      match d.users.find? userId, d.members.find? (organizationId, userId) with
      | some _, none => .createWrite organizationId userId
      | _, _ => .leave (.error .integrityError))
  | .createWrite organizationId userId =>
    some (.commit (Directory.created organizationId userId) (.returned (.ok ())))
  -- UserService.create
  | .registerLookup email =>
    some (.read fun d =>
      if d.taken email then .leave (.error (.alreadyExists "User" "email" email))
      else .registerInsert email)
  | .registerInsert email =>
    some (.lock (fun _ => [.email email]) fun d =>
      if d.taken email then .leave (.error (.alreadyExists "User" "email" email))
      else .registerWrite email)
  | .registerWrite email =>
    some (.commit (fun d => { d with users := d.users.append fun id => { id, email } })
      (.returned (.ok ())))
  -- UserService.update, deactivate
  | .editLookup userId e =>
    some (.read fun d =>
      match d.users.find? userId with
      | none => .leave (.error (.notFound "User" (toString userId)))
      | some _ => .editSelect userId e)
  -- an UPDATE that matches no row: the account is gone
  | .editSelect userId e =>
    some (.lock (fun _ => .user userId :: e.email.toList.map .email) fun d =>
      match d.users.find? userId with
      | none => .leave (.error .staleDataError)
      | some u =>
        if e.email.any fun email => decide (u.email ≠ email) && d.taken email then
          .leave (.error (.alreadyExists "User" "email" (e.email.getD "")))
        else .editWrite u e)
  | .editWrite u e =>
    some (.commit (fun d => { d with users := d.users.put (u.edited e) }) (.returned (.ok ())))
  -- UserService.delete
  | .deleteLookup userId =>
    some (.read fun d =>
      match d.users.find? userId with
      | none => .leave (.error (.notFound "User" (toString userId)))
      | some _ => .deleteRows userId)
  | .deleteRows userId =>
    some (.lock
      (fun d => .user userId :: (d.members.rows.filter fun m => decide (m.userId = userId)).map
        fun m => .member m.organizationId m.userId)
      fun _ => .deleteWrite userId)
  | .deleteWrite userId => some (.commit (Directory.withoutUser userId) (.returned (.ok ())))
  | .leave r => some (.commit id (.returned r))
  | .returned _ => none

/-- The calls. -/
inductive MemberCall where
  | createOrganization (organizationId userId : Nat)
  | addMember (actor organizationId userId : Nat) (role : OrganizationRole)
  | updateMember (actor organizationId userId : Nat) (role : OrganizationRole)
  | removeMember (actor organizationId userId : Nat)
  | createUser (email : String)
  | updateUser (userId : Nat) (email : Option String)
  | deactivateUser (userId : Nat)
  | deleteUser (userId : Nat)

/-- The first statement of a call; ids are drawn once. -/
def startMember (d : Directory) : MemberCall → Option (Directory × MemberTxn)
  | .createOrganization organizationId userId =>
    if organizationId ∈ d.drawn then none
    else some ({ d with drawn := organizationId :: d.drawn }, .createInsert organizationId userId)
  | .addMember actor organizationId userId role =>
    some (d, .addAuthorize ⟨actor, organizationId, userId, role⟩)
  | .updateMember actor organizationId userId role =>
    some (d, .changeAuthorize ⟨actor, organizationId, userId, some role⟩)
  | .removeMember actor organizationId userId =>
    some (d, .changeAuthorize ⟨actor, organizationId, userId, none⟩)
  | .createUser email => some (d, .registerLookup email)
  | .updateUser userId email => some (d, .editLookup userId { email := email })
  | .deactivateUser userId => some (d, .editLookup userId { isActive := some false })
  | .deleteUser userId => some (d, .deleteLookup userId)

/-- A request for deletion, or its cancellation, changes the state of an
organization. -/
def setLifecycle (d : Directory) (e : Nat × LifecycleState) : Option Directory :=
  (d.organizations.find? e.1).map fun o =>
    { d with organizations := d.organizations.put { o with lifecycleState := e.2 } }

/-- **The membership operations as a program.** -/
def membership :
    Program Directory DirectoryLock MemberTxn MemberCall (Nat × LifecycleState) where
  start := startMember
  stmt := MemberTxn.stmt
  env := setLifecycle
  conflict := DirectoryLock.conflict

/-! ## §4. What the transactions know. -/

/-- The changes that a lock allows to the others. -/
def DirectoryLock.keeps : DirectoryLock → Directory → Directory → Prop
  | .member organizationId userId, d, d' =>
    d'.members.find? (organizationId, userId) = d.members.find? (organizationId, userId)
  | .user id, d, d' => ∀ m ∈ d'.members.rows, m.userId = id → m.key ∈ d.members.rows.map
      OrganizationMember.key
  | .userShare _, _, _ => True
  | .email _, _, _ => True

/-- The member's row is locked, and is as it was read. -/
structure ChangeCall.Holds (q : ChangeCall) (m : OrganizationMember) (d : Directory)
    (held : List DirectoryLock) : Prop where
  locked : .member q.organizationId q.userId ∈ held
  row : d.members.find? q.key = some m

/-- Another owner's row is locked. -/
def ChangeCall.OtherOwner (q : ChangeCall) (d : Directory) (held : List DirectoryLock) : Prop :=
  ∃ o : OrganizationMember, o.organizationId = q.organizationId ∧ o.userId ≠ q.userId
    ∧ o.role = .owner ∧ .member q.organizationId o.userId ∈ held
    ∧ d.members.find? (q.organizationId, o.userId) = some o

/-- What a transaction knows at its next statement. -/
def MemberTxn.ok (d : Directory) (held : List DirectoryLock) : MemberTxn → Prop
  | .changeActor q m => q.Holds m d held
  | .changeOwners q m => q.Holds m d held
  | .changeWrite q m => q.Holds m d held ∧ (q.losesOwner m = true → q.OtherOwner d held)
  | .addWrite q => .userShare q.userId ∈ held ∧ .member q.organizationId q.userId ∈ held
  | .createWrite organizationId userId =>
    .userShare userId ∈ held ∧ .member organizationId userId ∈ held
      ∧ d.members.find? (organizationId, userId) = none
  | .deleteWrite userId => .user userId ∈ held
      ∧ ∀ m ∈ d.members.rows, m.userId = userId → .member m.organizationId m.userId ∈ held
  | _ => True

/-- No account is deleted that is the only owner of an organization. -/
def SparesLastOwners (d : Directory) (t : MemberTxn) (_ : List DirectoryLock) : Prop :=
  ∀ userId, t = .deleteWrite userId →
    ∀ o ∈ d.organizations.rows, d.HasOwner o.id fun m => m.userId ≠ userId

instance : Decidable (SparesLastOwners d t got) := by
  cases t with
  | deleteWrite userId =>
    exact decidable_of_iff (∀ o ∈ d.organizations.rows, d.HasOwner o.id fun m => m.userId ≠ userId)
      (by simp [SparesLastOwners])
  | _ => exact .isTrue fun _ h => by cases h

section Statements

variable {d d' : Directory} {t : MemberTxn}

theorem Directory.mem_owners : m ∈ d.owners organizationId
      ↔ m ∈ d.members.rows ∧ m.organizationId = organizationId ∧ m.role = .owner := by
  unfold Directory.owners
  rw [mem_filter, Bool.and_eq_true, decide_eq_true_eq, decide_eq_true_eq]

/-- With two owners one of them is somebody else. -/
theorem Directory.other_owner (userId : Nat) (h : 1 < (d.owners organizationId).length) :
    ∃ o ∈ d.owners organizationId, o.userId ≠ userId := by
  by_contra hnone
  push Not at hnone
  have hkeys : ((d.owners organizationId).map OrganizationMember.key).Nodup :=
    d.members.nodup.sublist (filter_sublist.map _)
  have hall : ∀ k ∈ (d.owners organizationId).map OrganizationMember.key,
      k = (organizationId, userId) := by
    intro k hk
    obtain ⟨o, ho, rfl⟩ := mem_map.mp hk
    exact Prod.ext (Directory.mem_owners.mp ho).2.1 (hnone o ho)
  rw [eq_replicate_of_mem hall, nodup_replicate, length_map] at hkeys
  omega

theorem ok_orLeave (h : t.ok d held) : (MemberTxn.orLeave r t).ok d held := by
  unfold MemberTxn.orLeave
  split
  · trivial
  · exact h

theorem ChangeCall.Holds.mono {q : ChangeCall} (h : q.Holds m d held) : q.Holds m d (held ++ got) :=
  ⟨mem_append_left _ h.locked, h.row⟩

/-- What is under lock stays known. -/
theorem ok_stable (h : t.ok d held) (hkeeps : ∀ k ∈ held, k.keeps d d') : t.ok d' held := by
  have hrow : ∀ {q : ChangeCall} {m : OrganizationMember}, q.Holds m d held →
      q.Holds m d' held := by
    intro q m hq
    exact ⟨hq.locked, (hkeeps _ hq.locked).trans hq.row⟩
  cases t with
  | changeActor => exact hrow h
  | changeOwners => exact hrow h
  | changeWrite =>
    refine ⟨hrow h.1, fun hloses => ?_⟩
    obtain ⟨o, horg, hne, hrole, hlocked, hfind⟩ := h.2 hloses
    exact ⟨o, horg, hne, hrole, hlocked, (hkeeps _ hlocked).trans hfind⟩
  | createWrite =>
    obtain ⟨hshare, hentry, hnone⟩ := h
    exact ⟨hshare, hentry, (hkeeps _ hentry).trans hnone⟩
  | deleteWrite =>
    refine ⟨h.1, fun m hm hid => ?_⟩
    -- a row of the account cannot be new while the account is locked
    obtain ⟨m', hm', hkey⟩ := mem_map.mp (hkeeps _ h.1 m hm hid)
    injection hkey with horg huser
    rw [← horg, ← huser]
    exact h.2 m' hm' (huser.trans hid)
  | _ => exact h

theorem ok_read {next : Directory → MemberTxn} (h : t.ok d held)
    (hst : t.stmt = some (.read next)) : (next d).ok d held := by
  cases t with
  | changeAuthorize | addActor =>
    cases hst
    exact ok_orLeave trivial
  | changeActor =>
    cases hst
    refine ok_orLeave ?_
    split
    · exact h
    next hloses => exact ⟨h, fun hyes => absurd hyes hloses⟩
  | addAuthorize =>
    cases hst
    refine ok_orLeave ?_
    split <;> trivial
  | addUser q | addExisting q | registerLookup email | editLookup userId e | deleteLookup userId =>
    cases hst
    dsimp only
    split <;> trivial
  | _ => simp [MemberTxn.stmt] at hst

theorem ok_lock {next : Directory → MemberTxn} (h : t.ok d held)
    (hst : t.stmt = some (.lock want next)) : (next d).ok d (held ++ want d) := by
  cases t with
  | changeSelect q =>
    injection hst with hst
    injection hst with hwant hnext
    subst hwant hnext
    dsimp only
    split
    · trivial
    next m hm =>
      have hholds : q.Holds m d (held ++ (Option.toList (some m)).map
          fun _ => .member q.organizationId q.userId) :=
        ⟨mem_append_right _ mem_cons_self, hm⟩
      rw [hm]
      split
      · exact hholds
      next htouch =>
        refine ⟨hholds, fun hloses => absurd ?_ htouch⟩
        unfold ChangeCall.losesOwner at hloses
        unfold ChangeCall.touchesOwner
        rw [((Bool.and_eq_true _ _).mp hloses).1]
        rfl
  | changeOwners q =>
    injection hst with hst
    injection hst with hwant hnext
    subst hwant hnext
    dsimp only
    split
    · trivial
    next hmany =>
      refine ⟨ChangeCall.Holds.mono h, fun _ => ?_⟩
      obtain ⟨o, ho, hne⟩ := Directory.other_owner q.userId (not_le.mp hmany)
      obtain ⟨hmem, horg, hrole⟩ := Directory.mem_owners.mp ho
      refine ⟨o, horg, hne, hrole, ?_, ?_⟩
      · exact mem_append_right _ (mem_map.mpr ⟨o, ho, by rw [horg]⟩)
      · rw [← horg]
        exact Table.find?_key hmem
  | addInsert =>
    injection hst with hst
    injection hst with hwant hnext
    subst hwant hnext
    dsimp only
    split
    · exact ⟨mem_append_right _ mem_cons_self, mem_append_right _ (mem_cons_of_mem _ mem_cons_self)⟩
    · trivial
  | createInsert =>
    injection hst with hst
    injection hst with hwant hnext
    subst hwant hnext
    dsimp only
    split
    next hnone =>
      exact ⟨mem_append_right _ mem_cons_self,
        mem_append_right _ (mem_cons_of_mem _ mem_cons_self), hnone⟩
    · trivial
  | registerInsert =>
    injection hst with hst
    injection hst with hwant hnext
    subst hwant hnext
    dsimp only
    split <;> trivial
  | editSelect =>
    injection hst with hst
    injection hst with hwant hnext
    subst hwant hnext
    dsimp only
    split
    · trivial
    · split <;> trivial
  | deleteRows =>
    injection hst with hst
    injection hst with hwant hnext
    subst hwant hnext
    refine ⟨mem_append_right _ mem_cons_self, fun m hm hid => ?_⟩
    refine mem_append_right _ (mem_cons_of_mem _ (mem_map.mpr ⟨m, ?_, rfl⟩))
    exact mem_filter.mpr ⟨hm, decide_eq_true hid⟩
  | _ => simp [MemberTxn.stmt] at hst

end Statements

/-! ## §5. Commits. -/

section Commits

variable {d : Directory} {held : List DirectoryLock}

theorem ne_of_no_conflict (hlocked : .member organizationId userId ∈ held)
    (hfree : ∀ h ∈ held, DirectoryLock.conflict h (.member a b) = false) :
    (organizationId, userId) ≠ (a, b) := by
  intro heq
  injection heq with ho hu
  have hno := hfree _ hlocked
  rw [ho, hu] at hno
  exact absurd hno (by simp [DirectoryLock.conflict])

/-- A change touches its own row only. -/
theorem changed_keeps {q : ChangeCall} {m : OrganizationMember} (h : q.Holds m d held)
    {k : DirectoryLock} (hfree : ∀ h ∈ held, DirectoryLock.conflict h k = false) :
    k.keeps d (Directory.changed q m d) := by
  have hkey : m.key = q.key := key_of_find? h.row
  cases k with
  | member a b =>
    have hne := ne_of_no_conflict h.locked hfree
    show (Directory.changed q m d).members.find? (a, b) = _
    unfold Directory.changed
    split
    next role =>
      refine Table.find?_put_ne fun heq => hne ?_
      exact hkey.symm.trans heq
    refine Table.find?_delete fun x _ hx => decide_eq_false fun hxq => hne ?_
    exact hxq.symm.trans hx
  | user =>
    intro x hx _
    unfold Directory.changed at hx
    split at hx
    next role =>
      rw [← keys_put]
      exact mem_map_of_mem hx
    · exact mem_map_of_mem (mem_delete.mp hx).1
  | userShare => trivial
  | email => trivial

/-- A change leaves the other rows. -/
theorem mem_changed_of_ne (hkey : m.key = q.key) (hx : x ∈ d.members.rows) (hne : x.key ≠ q.key) :
    x ∈ (Directory.changed q m d).members.rows := by
  unfold Directory.changed
  split
  next role =>
    refine mem_put.mpr (Or.inr ⟨hx, ?_⟩)
    show x.key ≠ m.key
    rw [hkey]
    exact hne
  · exact mem_delete.mpr ⟨hx, decide_eq_false hne⟩

theorem changed_organizations (q : ChangeCall) (m : OrganizationMember) :
    (Directory.changed q m d).organizations = d.organizations := by
  unfold Directory.changed
  split <;> rfl

/-- **A change leaves an owner.** -/
theorem changed_owned (hd : d.Owned) (h : q.Holds m d held)
    (hother : q.losesOwner m = true → q.OtherOwner d held) : (Directory.changed q m d).Owned := by
  have hkey : m.key = q.key := key_of_find? h.row
  intro o ho
  rw [changed_organizations] at ho
  obtain ⟨x, hx, horg, hrole, -⟩ := hd o ho
  by_cases hxq : x.key = q.key
  · -- the owner at hand is the member that changes
    have hxm : x = m := d.members.eq_of_key_eq hx (mem_of_find? h.row) (hxq.trans hkey.symm)
    subst hxm
    by_cases hloses : q.losesOwner x = true
    · obtain ⟨y, hyorg, hne, hyrole, -, hfind⟩ := hother hloses
      have hxorg : x.organizationId = q.organizationId := congrArg Prod.fst hxq
      refine ⟨y, mem_changed_of_ne hkey (mem_of_find? hfind) ?_, ?_, hyrole, trivial⟩
      · intro heq
        exact hne (congrArg Prod.snd heq)
      · rw [hyorg, ← hxorg, horg]
    · have hstays : q.role = some .owner := by
        unfold ChangeCall.losesOwner at hloses
        rw [hrole] at hloses
        simpa using hloses
      refine ⟨{ x with role := .owner }, ?_, horg, rfl, trivial⟩
      unfold Directory.changed
      rw [hstays]
      exact mem_put.mpr (Or.inl ⟨rfl, x, hx, rfl⟩)
  · exact ⟨x, mem_changed_of_ne hkey hx hxq, horg, hrole, trivial⟩

variable {d' : Directory}

/-- An insert touches its own row only. -/
theorem insert_keeps {m : OrganizationMember}
    (hmembers : d'.members = d.members.insert m) (hshare : .userShare m.userId ∈ held)
    (hentry : .member m.organizationId m.userId ∈ held) {k : DirectoryLock}
    (hfree : ∀ h ∈ held, DirectoryLock.conflict h k = false) : k.keeps d d' := by
  cases k with
  | member a b =>
    show d'.members.find? (a, b) = _
    rw [hmembers]
    exact Table.find?_insert_ne (ne_of_no_conflict hentry hfree)
  | user =>
    intro x hx hid
    rw [hmembers] at hx
    rcases mem_insert hx with rfl | hx
    · -- the account of the new row is locked against deletion
      have hno := hfree _ hshare
      rw [hid] at hno
      exact absurd hno (by simp [DirectoryLock.conflict])
    · exact mem_map_of_mem hx
  | userShare => trivial
  | email => trivial

/-- The cascade touches the rows of the account only, and those are locked. -/
theorem withoutUser_keeps {userId : Nat} (hrows : ∀ m ∈ d.members.rows, m.userId = userId →
      .member m.organizationId m.userId ∈ held) {k : DirectoryLock}
    (hfree : ∀ h ∈ held, DirectoryLock.conflict h k = false) :
    k.keeps d (Directory.withoutUser userId d) := by
  cases k with
  | member =>
    refine Table.find?_delete fun x hx hkey => decide_eq_false fun hid => ?_
    exact ne_of_no_conflict (hrows x hx hid) hfree hkey
  | user =>
    intro x hx _
    exact mem_map_of_mem (mem_delete.mp hx).1
  | userShare => trivial
  | email => trivial

/-- Where members and organizations stay, every lock is respected. -/
theorem keeps_of_members (h : d'.members = d.members) (k : DirectoryLock) : k.keeps d d' := by
  cases k with
  | member a b =>
    show d'.members.find? (a, b) = _
    rw [h]
  | user =>
    intro x hx _
    rw [h] at hx
    exact mem_map_of_mem hx
  | userShare => trivial
  | email => trivial

theorem owned_of_members (hd : d.Owned) (h : d'.members = d.members)
    (ho : d'.organizations = d.organizations) : d'.Owned := by
  intro o hmem
  rw [ho] at hmem
  obtain ⟨m, hm, hrest⟩ := hd o hmem
  exact ⟨m, by rw [h]; exact hm, hrest⟩

theorem created_owned (hd : d.Owned) (hnone : d.members.find? (organizationId, userId) = none) :
    (Directory.created organizationId userId d).Owned := by
  intro o ho
  rcases mem_insert ho with rfl | ho
  · refine ⟨⟨organizationId, userId, .owner⟩, ?_, rfl, rfl, trivial⟩
    have hfind : (d.members.insert ⟨organizationId, userId, .owner⟩).find? (organizationId, userId)
        = some ⟨organizationId, userId, .owner⟩ := by
      rw [Table.find?_insert, hnone]
      exact if_pos rfl
    exact mem_of_find? hfind
  · obtain ⟨m, hm, hrest⟩ := hd o ho
    exact ⟨m, mem_insert_of_mem _ hm, hrest⟩

/-- **What a commit leaves to the others**: it changes nothing that a lock
protects unless its transaction holds a conflicting one. -/
theorem commit_keeps {t : MemberTxn} {write : Directory → Directory} {next : MemberTxn}
    (h : t.ok d held) (hst : t.stmt = some (.commit write next)) :
    next.ok (write d) []
      ∧ ∀ k, (∀ h ∈ held, DirectoryLock.conflict h k = false) → k.keeps d (write d) := by
  cases t with
  | changeWrite =>
    injection hst with hst
    injection hst with hwrite hnext
    subst hwrite hnext
    exact ⟨trivial, fun k hfree => changed_keeps h.1 hfree⟩
  | addWrite q =>
    injection hst with hst
    injection hst with hwrite hnext
    subst hwrite hnext
    refine ⟨trivial, fun k hfree => ?_⟩
    exact @insert_keeps d held (Directory.added q d) ⟨q.organizationId, q.userId, q.role⟩ rfl
      h.1 h.2 k hfree
  | createWrite organizationId userId =>
    injection hst with hst
    injection hst with hwrite hnext
    subst hwrite hnext
    refine ⟨trivial, fun k hfree => ?_⟩
    exact @insert_keeps d held (Directory.created organizationId userId d)
      ⟨organizationId, userId, .owner⟩ rfl h.1 h.2.1 k hfree
  | registerWrite email | editWrite u e =>
    injection hst with hst
    injection hst with hwrite hnext
    subst hwrite hnext
    refine ⟨trivial, fun k _ => keeps_of_members ?_ k⟩
    rfl
  | deleteWrite =>
    injection hst with hst
    injection hst with hwrite hnext
    subst hwrite hnext
    exact ⟨trivial, fun k hfree => withoutUser_keeps h.2 hfree⟩
  | leave =>
    injection hst with hst
    injection hst with hwrite hnext
    subst hwrite hnext
    exact ⟨trivial, fun k _ => keeps_of_members rfl k⟩
  | _ => simp [MemberTxn.stmt] at hst

/-- **A commit leaves every organization an owner.** -/
theorem commit_owned {next : MemberTxn} (hd : d.Owned) (h : t.ok d held)
    (hst : t.stmt = some (.commit write next)) (hspares : SparesLastOwners d t []) :
    (write d).Owned := by
  cases t with
  | changeWrite =>
    injection hst with hst
    injection hst with hwrite hnext
    subst hwrite
    exact changed_owned hd h.1 h.2
  | addWrite =>
    injection hst with hst
    injection hst with hwrite hnext
    subst hwrite
    intro o ho
    obtain ⟨m, hm, hrest⟩ := hd o ho
    exact ⟨m, mem_insert_of_mem _ hm, hrest⟩
  | createWrite =>
    injection hst with hst
    injection hst with hwrite hnext
    subst hwrite
    exact created_owned hd h.2.2
  | registerWrite email | editWrite u e =>
    injection hst with hst
    injection hst with hwrite hnext
    subst hwrite
    exact owned_of_members hd rfl rfl
  | deleteWrite userId =>
    injection hst with hst
    injection hst with hwrite hnext
    subst hwrite
    intro o ho
    obtain ⟨m, hm, horg, hrole, hne⟩ := hspares userId rfl o ho
    exact ⟨m, mem_delete.mpr ⟨hm, decide_eq_false hne⟩, horg, hrole, trivial⟩
  | leave =>
    injection hst with hst
    injection hst with hwrite hnext
    subst hwrite
    exact hd
  | _ => simp [MemberTxn.stmt] at hst

end Commits

/-! ## §6. Every run. -/

theorem start_keeps (h : startMember d c = some (d', t)) :
    d'.members = d.members ∧ d'.organizations = d.organizations ∧ t.ok d' [] := by
  cases c with
  | createOrganization =>
    obtain ⟨-, h⟩ := Option.ite_none_left_eq_some.mp h
    injection h with h
    injection h with hd ht
    subst hd ht
    exact ⟨rfl, rfl, trivial⟩
  | _ =>
    injection h with h
    injection h with hd ht
    subst hd ht
    exact ⟨rfl, rfl, trivial⟩

theorem setLifecycle_keeps (hd : d.Owned) (h : setLifecycle d e = some d') :
    d'.members = d.members ∧ d'.Owned := by
  obtain ⟨o, ho, rfl⟩ := Option.map_eq_some_iff.mp h
  refine ⟨rfl, fun x hx => ?_⟩
  have hid : x.id ∈ d.organizations.rows.map Organization.id := by
    rw [← keys_put]
    exact mem_map_of_mem hx
  obtain ⟨y, hy, hyx⟩ := mem_map.mp hid
  rw [← hyx]
  exact hd y hy

/-- **The outline of the membership operations.** -/
def memberOutline : Outline membership SparesLastOwners where
  glob := Directory.Owned
  ok := fun d held t => t.ok d held
  keeps := DirectoryLock.keeps
  rely := fun _ _ => True
  conflict_symm := DirectoryLock.conflict_symm
  stable := fun _ _ _ _ _ h _ hkeeps => ok_stable h hkeeps
  start_ok := by
    intro d c d' t hd h
    obtain ⟨hmembers, horganizations, hok⟩ := start_keeps h
    exact ⟨owned_of_members hd hmembers horganizations, hok, trivial,
      fun k => keeps_of_members hmembers k⟩
  env_ok := by
    intro d e d' hd h
    obtain ⟨hmembers, howned⟩ := setLifecycle_keeps hd h
    exact ⟨howned, trivial, fun k => keeps_of_members hmembers k⟩
  read_ok := fun _ _ _ _ _ h hst _ => ok_read h hst
  lock_ok := fun _ _ _ _ _ _ h hst _ => ok_lock h hst
  skip_ok := by
    intro d held t limit want next got _ _ hst
    cases t <;> simp [membership, MemberTxn.stmt] at hst
  commit_ok := by
    intro d held t write next hd h hst hspares
    obtain ⟨hnext, hkeeps⟩ := commit_keeps h hst
    exact ⟨commit_owned hd h hst hspares, hnext, trivial, hkeeps⟩

/-- **EVERY ORGANIZATION KEEPS AN OWNER**, under every interleaving of the
statements, as long as no account is deleted that is the only owner of an
organization at that moment. -/
theorem organizations_keep_an_owner (d : Directory) (hd : d.Owned)
    (ms : List (Move MemberCall (Nat × LifecycleState)))
    (hspares : Along membership.step (Allowed membership SparesLastOwners) (Sys.initial d) ms) :
    Along membership.step (fun _ _ t => t.db.Owned) (Sys.initial d) ms :=
  memberOutline.along (fun _ _ _ _ ht _ _ => ht.glob) hd ms hspares

/-! ## §7. Runs. -/

/-- An account is registered and creates an organization. -/
def firstOwner : List (Move MemberCall (Nat × LifecycleState)) :=
  [.begin 0 (.createUser "ada@example.com"), .exec 0, .exec 0, .exec 0,
    .begin 1 (.createOrganization 7 1), .exec 1, .exec 1]

/-- Two owners, each of whom demotes the other: both lock the other's row,
and then both wait for all owner rows.  One transaction is aborted.  In the
end the account of the demoted one is deleted. -/
def mutualDemotion : List (Move MemberCall (Nat × LifecycleState)) :=
  firstOwner
    ++ [.begin 2 (.createUser "bob@example.com"), .exec 2, .exec 2, .exec 2,
      .begin 3 (.addMember 1 7 2 .owner), .exec 3, .exec 3, .exec 3, .exec 3, .exec 3, .exec 3,
      .begin 4 (.updateMember 1 7 2 .member), .exec 4, .exec 4, .exec 4,
      .begin 5 (.updateMember 2 7 1 .member), .exec 5, .exec 5, .exec 5,
      .abort 5, .exec 4, .exec 4,
      .begin 6 (.deleteUser 2), .exec 6, .exec 6, .exec 6]

/-- The demotion that is left goes through, the demoted account is deleted,
and an owner remains. -/
theorem organizations_keep_an_owner_mutual :
    (run membership.step (Sys.initial {}) mutualDemotion).isSome = true
      ∧ Along membership.step (fun _ _ t => t.db.Owned) (Sys.initial {}) mutualDemotion := by
  refine ⟨by decide +kernel, organizations_keep_an_owner {} ?_ mutualDemotion ?_⟩
  · intro o ho
    cases ho
  · decide +kernel

/-- The only owner deletes their account. -/
def lastOwnerLeaves : List (Move MemberCall (Nat × LifecycleState)) :=
  firstOwner ++ [.begin 2 (.deleteUser 1), .exec 2, .exec 2, .exec 2]

/-- **AN ACCOUNT GOES, AND ITS ORGANIZATION HAS NO OWNER**, nor any other
member. -/
theorem deleted_account_leaves_no_owner :
    ∃ t, run membership.step (Sys.initial {}) lastOwnerLeaves = some t
      ∧ t.db.organizations.rows.map Organization.id = [7] ∧ t.db.members.rows = []
      ∧ ¬ t.db.Owned := by
  decide +kernel

end WebhookPlatform
