/-
  WebhookPlatform.Deletion
  **THE DELETION OF AN ORGANIZATION**, from the request to the last row.

  An organization's state and its operations are kept in two tables, by
  requests and by a cleanup that commits batch after batch.  In every
  deployment that a run reaches (`deletion_machine`):

    • an organization is to be deleted exactly when it has exactly one
      unfinished operation,
    • cleanup takes nothing away before that operation is due, which is no
      sooner than the grace period after the request,
    • what cleanup has begun to take away never becomes active again,
    • a repeated request returns the operation that is under way.

  `TenantChange` says once what a step does to the two tables.
-/
import WebhookPlatform.Tenancy

namespace WebhookPlatform

open Relational Transition RowNumber List Table

/-! ## §1. Requests. -/

namespace Tenants

/-- `request_organization_deletion` with the operation that it returns. -/
def requestOrganizationDeletion (s : Settings) (now : Time) (o : Organization) (t : Tenants) :
    Tenants × OrganizationLifecycleOperation :=
  match t.openOperation o.id with
  | some operation => (t, operation)
  | none =>
    (t.requestDeletion s now o,
      ⟨t.operations.next, o.id, .pending,
        now + (s.organizationDeletionGraceHours : ℚ) * 3600, now, none⟩)

variable {t t' : Tenants} {s : Settings} {now : Time}

theorem requestOrganizationDeletion_fst :
    (t.requestOrganizationDeletion s now o).1 = t.requestDeletion s now o := by
  unfold requestOrganizationDeletion
  cases hopen : t.openOperation o.id with
  | none => rfl
  | some =>
    unfold requestDeletion
    rw [hopen]

/-- The rows after a request that was not made before. -/
theorem operations_requestDeletion (h : t.openOperation o.id = none) :
    (t.requestDeletion s now o).operations.rows = t.operations.rows
      ++ [⟨t.operations.next, o.id, .pending,
        now + (s.organizationDeletionGraceHours : ℚ) * 3600, now, none⟩] := by
  unfold requestDeletion
  rw [h]
  exact Serial.rows_append rfl

theorem organizations_requestDeletion (s : Settings) (now : Time)
    (h : t.openOperation o.id = none) :
    ∃ x : Organization, x.id = o.id
      ∧ (t.requestDeletion s now o).organizations = t.organizations.put x := by
  refine ⟨{ o with
    lifecycleState := .deletionPending
    deletionRequestedAt := some now
    deletionScheduledAt := some (now + (s.organizationDeletionGraceHours : ℚ) * 3600) }, rfl, ?_⟩
  unfold requestDeletion
  rw [h]

/-- The returned operation is in the table. -/
theorem requestOrganizationDeletion_mem : (t.requestOrganizationDeletion s now o).2
        ∈ (t.requestOrganizationDeletion s now o).1.operations.rows
      ∧ (t.requestOrganizationDeletion s now o).2.organizationId = o.id
      ∧ (t.requestOrganizationDeletion s now o).2.status.unfinished = true := by
  unfold requestOrganizationDeletion
  split
  next operation hopen => exact openOperation_some hopen
  next hopen =>
    refine ⟨?_, rfl, rfl⟩
    rw [operations_requestDeletion hopen]
    exact mem_append_right _ (mem_singleton.mpr rfl)

end Tenants

/-! ## §2. What a step does to the tenants. -/

/-- **The change of the tenants.** -/
inductive TenantChange (s : Settings) (now : Time) (t : Tenants) : Action → Tenants → Prop where
  | kept (a : Action) : TenantChange s now t a t
  | requested (o : Organization) (mem : o ∈ t.organizations.rows)
      (closed : t.openOperation o.id = none) :
      TenantChange s now t (.requestDeletion o.id) (t.requestDeletion s now o)
  | canceled (o : Organization) (t' : Tenants) (mem : o ∈ t.organizations.rows)
      (done : t.cancelDeletion now o = .ok t') : TenantChange s now t (.cancelDeletion o.id) t'
  | started (operation : OrganizationLifecycleOperation)
      (due : t.claimOperation now = some operation) :
      TenantChange s now t .cleanupDueOrganization (t.start operation)
  | removed (operation : OrganizationLifecycleOperation)
      (due : t.claimOperation now = some operation) :
      TenantChange s now t .cleanupDueOrganization
        ((t.start operation).remove operation.organizationId)

theorem Effect.tenantChange (h : Effect P s d a d') :
    TenantChange s d.clock d.tenants a d'.tenants := by
  cases h with
  | deletionRequested o mem closed => exact TenantChange.requested o mem closed
  | deletionCanceled o t mem canceled => exact TenantChange.canceled o t mem canceled
  | cleaned operation r due =>
    show TenantChange _ _ _ _ (if r.2 = true then _ else _)
    split
    · exact TenantChange.removed operation due
    · exact TenantChange.started operation due
  | _ => exact TenantChange.kept _

section Changes

variable {t t' : Tenants}

/-- An operation that was there before, at another stage. -/
structure OperationKept (x y : OrganizationLifecycleOperation) : Prop where
  id : y.id = x.id
  organizationId : y.organizationId = x.organizationId
  scheduledAt : y.scheduledAt = x.scheduledAt
  createdAt : y.createdAt = x.createdAt

theorem OperationKept.refl (x : OrganizationLifecycleOperation) : OperationKept x x :=
  ⟨rfl, rfl, rfl, rfl⟩

theorem OperationKept.trans (h : OperationKept x y) (h' : OperationKept y z) : OperationKept x z :=
  ⟨h'.id.trans h.id, h'.organizationId.trans h.organizationId,
    h'.scheduledAt.trans h.scheduledAt, h'.createdAt.trans h.createdAt⟩

/-- An operation comes from the step before, or from a request. -/
theorem TenantChange.origin (h : TenantChange s now t a t') (hy : y ∈ t'.operations.rows) :
    (∃ x ∈ t.operations.rows, OperationKept x y)
      ∨ (a = .requestDeletion y.organizationId ∧ y.createdAt = now
        ∧ y.scheduledAt = now + (s.organizationDeletionGraceHours : ℚ) * 3600) := by
  have hput : ∀ {x y z : OrganizationLifecycleOperation}, x ∈ t.operations.rows →
      OperationKept x z → y ∈ (t.operations.put z).rows →
      ∃ x ∈ t.operations.rows, OperationKept x y := by
    intro x y z hx hkept hy
    rcases mem_of_mem_put hy with rfl | hy
    · exact ⟨x, hx, hkept⟩
    · exact ⟨y, hy, OperationKept.refl y⟩
  cases h with
  | kept => exact Or.inl ⟨y, hy, OperationKept.refl y⟩
  | requested _ _ closed =>
    rw [Tenants.operations_requestDeletion closed, mem_append, mem_singleton] at hy
    rcases hy with hy | rfl
    · exact Or.inl ⟨y, hy, OperationKept.refl y⟩
    · exact Or.inr ⟨rfl, rfl, rfl⟩
  | canceled _ _ _ done =>
    obtain ⟨operation, hopen, -, rfl⟩ := Tenants.cancelDeletion_ok done
    refine Or.inl (hput (Tenants.openOperation_some hopen).1 ?_ hy)
    exact ⟨rfl, rfl, rfl, rfl⟩
  | started _ due =>
    refine Or.inl (hput (Tenants.claimOperation_some due).1 ?_ hy)
    exact ⟨rfl, rfl, rfl, rfl⟩
  | removed _ due =>
    refine Or.inl (hput (Tenants.claimOperation_some due).1 ?_ (mem_delete.mp hy).1)
    exact ⟨rfl, rfl, rfl, rfl⟩

/-- No step makes an organization. -/
theorem TenantChange.organizations (h : TenantChange s now t a t')
    (ho : o' ∈ t'.organizations.rows) : o'.id ∈ t.organizations.rows.map Organization.id := by
  have hput : ∀ {x y : Organization}, y ∈ (t.organizations.put x).rows →
      y.id ∈ t.organizations.rows.map Organization.id := by
    intro x y hy
    rw [← keys_put]
    exact mem_map_of_mem hy
  cases h with
  | kept => exact mem_map_of_mem ho
  | requested _ _ closed =>
    obtain ⟨x, -, horgs⟩ := Tenants.organizations_requestDeletion s now closed
    rw [horgs] at ho
    exact hput ho
  | canceled _ _ _ done =>
    obtain ⟨operation, -, -, rfl⟩ := Tenants.cancelDeletion_ok done
    exact hput ho
  | started => exact mem_map_of_mem ho
  | removed => exact mem_map_of_mem (mem_delete.mp ho).1

/-! ## §3. An operation until it is canceled. -/

/-- The operation is still there, unfinished or canceled, or the organization
is gone. -/
def Tenants.Tracks (x : OrganizationLifecycleOperation) (t : Tenants) : Prop :=
  (∃ y ∈ t.operations.rows, OperationKept x y
      ∧ (y.status.unfinished = true ∨ y.status = .canceled))
    ∨ x.organizationId ∉ t.organizations.rows.map Organization.id

theorem tracks_put (hy : y ∈ t.operations.rows) (hkept : OperationKept x y)
    (hstatus : y.status.unfinished = true ∨ y.status = .canceled)
    (hz : ∀ w ∈ t.operations.rows, w.id = z.id → OperationKept w z)
    (hzstatus : z.status.unfinished = true ∨ z.status = .canceled) :
    Tenants.Tracks x ⟨organizations, t.operations.put z⟩ := by
  obtain ⟨y', hy', hid, rfl | rfl⟩ := exists_put z hy
  · exact Or.inl ⟨y', hy', hkept, hstatus⟩
  · exact Or.inl ⟨y', hy', hkept.trans (hz y hy hid.symm), hzstatus⟩

theorem TenantChange.tracks (h : TenantChange s now t a t') (hx : t.Tracks x) : t'.Tracks x := by
  rcases hx with ⟨y, hy, hkept, hstatus⟩ | habsent
  · -- the row that is put carries the fields of the one that was read
    have hsame : ∀ {operation z : OrganizationLifecycleOperation}, operation ∈ t.operations.rows →
        OperationKept operation z → ∀ w ∈ t.operations.rows, w.id = z.id → OperationKept w z := by
      intro operation z hmem hz w hw hid
      have heq : w = operation := t.operations.eq_of_key_eq hw hmem (hid.trans hz.id)
      rw [heq]
      exact hz
    cases h with
    | kept => exact Or.inl ⟨y, hy, hkept, hstatus⟩
    | requested _ _ closed =>
      refine Or.inl ⟨y, ?_, hkept, hstatus⟩
      rw [Tenants.operations_requestDeletion closed]
      exact mem_append_left _ hy
    | canceled _ _ _ done =>
      obtain ⟨operation, hopen, -, rfl⟩ := Tenants.cancelDeletion_ok done
      exact tracks_put hy hkept hstatus
        (hsame (Tenants.openOperation_some hopen).1 ⟨rfl, rfl, rfl, rfl⟩) (Or.inr rfl)
    | started _ due =>
      exact tracks_put hy hkept hstatus
        (hsame (Tenants.claimOperation_some due).1 ⟨rfl, rfl, rfl, rfl⟩) (Or.inl rfl)
    | removed operation due =>
      have hstart : (t.start operation).Tracks x := tracks_put hy hkept hstatus
        (hsame (Tenants.claimOperation_some due).1 ⟨rfl, rfl, rfl, rfl⟩) (Or.inl rfl)
      by_cases horg : x.organizationId = operation.organizationId
      · refine Or.inr fun hmem => ?_
        obtain ⟨o, ho, hid⟩ := mem_map.mp hmem
        exact of_decide_eq_false (mem_delete.mp ho).2 (hid.trans horg)
      · rcases hstart with ⟨z, hz, hzkept, hzstatus⟩ | habsent
        · refine Or.inl ⟨z, mem_delete.mpr ⟨hz, decide_eq_false ?_⟩, hzkept, hzstatus⟩
          rw [hzkept.organizationId]
          exact horg
        · refine Or.inr fun hmem => habsent ?_
          obtain ⟨o, ho, hid⟩ := mem_map.mp hmem
          exact mem_map.mpr ⟨o, (mem_delete.mp ho).1, hid⟩
  · refine Or.inr fun hmem => habsent ?_
    obtain ⟨o, ho, hid⟩ := mem_map.mp hmem
    rw [← hid]
    exact h.organizations ho

/-! ## §4. Pending organizations. -/

/-- An organization that is to be deleted has an unfinished operation. -/
def Tenants.Pursued (t : Tenants) : Prop :=
  ∀ o ∈ t.organizations.rows, o.lifecycleState = .deletionPending →
    ∃ x ∈ t.operations.rows, x.organizationId = o.id ∧ x.status.unfinished = true

theorem TenantChange.pursued (h : TenantChange s now t a t') (ht : t.Pursued) : t'.Pursued := by
  have hstart : ∀ {operation}, t.claimOperation now = some operation →
      (t.start operation).Pursued := by
    intro operation due o ho hpending
    obtain ⟨hmem, hopen⟩ := Tenants.claimOperation_some due
    obtain ⟨x, hx, horg, hunfinished⟩ := ht o ho hpending
    obtain ⟨y, hy, hid, rfl | rfl⟩ := exists_put { operation with status := .running } hx
    · exact ⟨y, hy, horg, hunfinished⟩
    · have hxo : operation = x := t.operations.eq_of_key_eq hmem hx hid
      subst hxo
      exact ⟨_, hy, horg, rfl⟩
  cases h with
  | kept => exact ht
  | requested _ _ closed =>
    intro y hy hpending
    obtain ⟨x, hxid, horgs⟩ := Tenants.organizations_requestDeletion s now closed
    rw [horgs] at hy
    rw [Tenants.operations_requestDeletion closed]
    rcases mem_of_mem_put hy with rfl | hy
    · exact ⟨_, mem_append_right _ (mem_singleton.mpr rfl), hxid.symm, rfl⟩
    · obtain ⟨z, hz, hrest⟩ := ht y hy hpending
      exact ⟨z, mem_append_left _ hz, hrest⟩
  | canceled _ _ _ done =>
    obtain ⟨operation, hopen, -, rfl⟩ := Tenants.cancelDeletion_ok done
    intro y hy hpending
    rcases mem_put.mp hy with ⟨rfl, -⟩ | ⟨hy, hne⟩
    · cases hpending
    · obtain ⟨z, hz, horg, hunfinished⟩ := ht y hy hpending
      refine ⟨z, mem_put.mpr (Or.inr ⟨hz, fun hid => hne ?_⟩), horg, hunfinished⟩
      -- the canceled operation is one of the organization that becomes active
      have hzo : z = operation :=
        t.operations.eq_of_key_eq hz (Tenants.openOperation_some hopen).1 hid
      rw [← horg, hzo]
      exact (Tenants.openOperation_some hopen).2.1
  | started _ due => exact hstart due
  | removed _ due =>
    intro o ho hpending
    obtain ⟨hmem, hne⟩ := mem_delete.mp ho
    obtain ⟨x, hx, horg, hunfinished⟩ := hstart due o hmem hpending
    refine ⟨x, mem_delete.mpr ⟨hx, decide_eq_false ?_⟩, horg, hunfinished⟩
    rw [horg]
    exact of_decide_eq_false hne

/-- **Pending means one unfinished operation.** -/
theorem Tenants.pending_iff (ht : t.Orderly) (hp : t.Pursued) (ho : o ∈ t.organizations.rows) :
    o.lifecycleState = .deletionPending ↔ ∃! x, x ∈ t.operations.rows
      ∧ x.organizationId = o.id ∧ x.status.unfinished = true := by
  constructor
  · intro hpending
    obtain ⟨x, hx, horg, hunfinished⟩ := hp o ho hpending
    refine ⟨x, ⟨hx, horg, hunfinished⟩, ?_⟩
    rintro y ⟨hy, hyorg, hyunfinished⟩
    exact ht.single y hy x hx (hyorg.trans horg.symm) hyunfinished hunfinished
  · rintro ⟨x, ⟨hx, horg, hunfinished⟩, -⟩
    have hclosed := ht.closed x hx hunfinished
    rw [horg] at hclosed
    unfold Tenants.isActive at hclosed
    rw [Table.find?_key ho] at hclosed
    cases hstate : o.lifecycleState with
    | active => simp [hstate] at hclosed
    | deletionPending => rfl

/-! ## §5. Deletions that have begun. -/

/-- A deletion of the organization is under way, or done. -/
def Tenants.Doomed (organizationId : Nat) (t : Tenants) : Prop :=
  t.deleting organizationId = true
    ∨ organizationId ∉ t.organizations.rows.map Organization.id

theorem TenantChange.doomed (h : TenantChange s now t a t') (hd : t.Doomed organizationId) :
    t'.Doomed organizationId := by
  rcases hd with hdeleting | habsent
  · have hstart : ∀ {operation}, t.claimOperation now = some operation →
        (t.start operation).deleting organizationId = true := by
      intro operation due
      refine Tenants.deleting_put (Tenants.claimOperation_some due).1 ?_ ?_ ?_ hdeleting
      · rfl
      · rfl
      · exact fun _ => rfl
    cases h with
    | kept => exact Or.inl hdeleting
    | requested => exact Or.inl (Tenants.requestDeletion_mono hdeleting)
    | canceled _ _ _ done => exact Or.inl (Tenants.cancelDeletion_mono done hdeleting)
    | started _ due => exact Or.inl (hstart due)
    | removed operation due =>
      by_cases horg : organizationId = operation.organizationId
      · refine Or.inr fun hmem => ?_
        obtain ⟨o, ho, hid⟩ := mem_map.mp hmem
        exact of_decide_eq_false (mem_delete.mp ho).2 (hid.trans horg)
      · exact Or.inl (Tenants.remove_mono horg (hstart due))
  · refine Or.inr fun hmem => habsent ?_
    obtain ⟨o, ho, hid⟩ := mem_map.mp hmem
    rw [← hid]
    exact h.organizations ho

theorem Tenants.Doomed.inactive (ht : t.Orderly) (h : t.Doomed organizationId) :
    t.isActive organizationId = false := by
  rcases h with hdeleting | habsent
  · exact ht.inactive hdeleting
  · unfold Tenants.isActive
    cases hfind : t.organizations.find? organizationId with
    | none => rfl
    | some o =>
      obtain ⟨ho, hid⟩ := Table.find?_eq_some.mp hfind
      exact absurd (mem_map.mpr ⟨o, ho, hid⟩) habsent

theorem Tenants.claimOperation_due (h : t.claimOperation now = some operation) :
    operation.scheduledAt ≤ now := by
  have hmem := (orderBy_perm _ _).mem_iff.mp (mem_of_head? h)
  have hfilter := (mem_filter.mp hmem).2
  rw [Bool.and_eq_true, Bool.and_eq_true, decide_eq_true_eq] at hfilter
  exact hfilter.1.2

end Changes

/-! ## §6. What a cleanup takes away. -/

/-- Something of the organization is canceled or deleted. -/
inductive Erased (d d' : Deployment) (organizationId : Nat) : Prop where
  | canceled (x x' : Delivery) (mem : x ∈ d.db.deliveries.rows)
      (organization : x.organizationId = organizationId) (before : x.status ≠ .canceled)
      (mem' : x' ∈ d'.db.deliveries.rows) (id : x'.id = x.id) (after : x'.status = .canceled)
  | delivery (x : Delivery) (mem : x ∈ d.db.deliveries.rows)
      (organization : x.organizationId = organizationId)
      (gone : ∀ x' ∈ d'.db.deliveries.rows, x'.id ≠ x.id)
  | event (e : Event) (mem : e ∈ d.db.events.rows)
      (organization : ofOrganization d.db organizationId e = true)
      (gone : ∀ e' ∈ d'.db.events.rows, e'.id ≠ e.id)
  | organization (o : Organization) (mem : o ∈ d.tenants.organizations.rows)
      (id : o.id = organizationId)
      (gone : ∀ o' ∈ d'.tenants.organizations.rows, o'.id ≠ organizationId)

section Erasures

/-- A step of the cleanup keeps the deliveries of other organizations, and
their status. -/
theorem Cleanup.delivery (h : Cleanup s now organizationId db r) (hx : x ∈ db.deliveries.rows)
    (horg : x.organizationId ≠ organizationId) :
    ∃ x' ∈ r.1.deliveries.rows, x'.id = x.id ∧ x'.status = x.status := by
  cases h with
  | canceled =>
    show ∃ x' ∈ (db.deliveries.putAll _).rows, _
    rw [Serial.putAll_toTable]
    obtain ⟨x', hx', hid, rfl | hnew⟩ := exists_putAll _ hx
    · exact ⟨x', hx', rfl, rfl⟩
    · obtain ⟨y, hy, rfl⟩ := mem_map.mp hnew
      obtain ⟨hmem, hcancel⟩ := mem_cancelBatch hy
      have hxy : y = x := db.deliveries.eq_of_key_eq hmem hx hid
      subst hxy
      unfold cancellable at hcancel
      rw [Bool.and_eq_true, decide_eq_true_eq] at hcancel
      exact absurd hcancel.1 horg
  | deliveriesDeleted =>
    have hout : x.id ∉ deliveryBatch s organizationId db := fun hin =>
      horg (organization_of_deleted hx hin)
    exact ⟨unlink (deliveryBatch s organizationId db) x,
      mem_deleteDeliveries.mpr ⟨x, hx, hout, rfl⟩, unlink_id _ x, rfl⟩
  | waiting => exact ⟨x, hx, rfl, rfl⟩
  | eventsDeleted => exact ⟨x, hx, rfl, rfl⟩
  | removed => exact ⟨x, hx, rfl, rfl⟩

/-- A step of the cleanup keeps the events of other organizations. -/
theorem Cleanup.event (h : Cleanup s now organizationId db r) (he : e ∈ db.events.rows)
    (horg : ofOrganization db organizationId e = false) : e ∈ r.1.events.rows := by
  cases h with
  | eventsDeleted =>
    refine mem_delete.mpr ⟨he, decide_eq_false fun hin => ?_⟩
    obtain ⟨y, hy, hid⟩ := mem_map.mp hin
    obtain ⟨hmem, hfilter⟩ := mem_filter.mp ((orderBy_perm _ _).mem_iff.mp (mem_of_mem_take hy))
    have hye : y = e := db.events.eq_of_key_eq hmem he hid
    subst hye
    rw [Bool.and_eq_true, horg] at hfilter
    exact absurd hfilter.1 (by decide)
  | canceled => exact he
  | waiting => exact he
  | deliveriesDeleted => exact he
  | removed => exact he

/-- **Cleanup takes away what a due operation asks for**, and begins a
deletion that nobody stops. -/
theorem erased_by_cleanup (h : d.stepAt P s (now, .cleanupDueOrganization) = some d')
    (herased : Erased d d' organizationId) :
    (∃ x ∈ d.tenants.operations.rows, x.organizationId = organizationId
      ∧ x.status.unfinished = true ∧ x.scheduledAt ≤ now) ∧ d'.tenants.Doomed organizationId := by
  cases h
  cases hdue : d.tenants.claimOperation now with
  | none =>
    -- nothing is due, and nothing changes
    have hsame : cleanupDueOrganization s now d.db d.tenants = (d.db, d.tenants) := by
      unfold cleanupDueOrganization
      rw [hdue]
    simp only [hsame] at herased
    cases herased with
    | canceled x x' mem _ before mem' id after =>
      have hxx : x' = x := d.db.deliveries.eq_of_key_eq mem' mem id
      subst hxx
      exact absurd after before
    | delivery x mem _ gone | event x mem _ gone => exact absurd rfl (gone x mem)
    | organization o mem id gone => exact absurd id (gone o mem)
  | some operation =>
    obtain ⟨hmem, hopen⟩ := Tenants.claimOperation_some hdue
    have hclean := cleanupStep_cleanup s now operation.organizationId d.db
    have hdb : (cleanupDueOrganization s now d.db d.tenants).1
        = (cleanupStep s now operation.organizationId d.db).1 := by
      unfold cleanupDueOrganization
      rw [hdue]
    have htenants : (cleanupDueOrganization s now d.db d.tenants).2
        = if (cleanupStep s now operation.organizationId d.db).2 then
            (d.tenants.start operation).remove operation.organizationId
          else d.tenants.start operation := by
      unfold cleanupDueOrganization
      rw [hdue]
    have horg : operation.organizationId = organizationId := by
      by_contra hne
      cases herased with
      | canceled _ x' mem organization before mem' id after =>
        simp only [hdb] at mem'
        obtain ⟨y, hy, hyid, hstatus⟩ := hclean.delivery mem
          (fun heq => hne (heq.symm.trans organization))
        have hyx : y = x' := eq_of_key_eq _ hy mem' (hyid.trans id.symm)
        rw [hyx, after] at hstatus
        exact before hstatus.symm
      | delivery _ mem organization gone =>
        simp only [hdb] at gone
        obtain ⟨y, hy, hyid, -⟩ := hclean.delivery mem
          (fun heq => hne (heq.symm.trans organization))
        exact gone y hy hyid
      | event e mem organization gone =>
        simp only [hdb] at gone
        refine gone e (hclean.event mem (eq_false_of_ne_true fun heq => hne ?_)) rfl
        obtain ⟨p, hp, hpa⟩ := (Option.any_eq_true _ _).mp heq
        obtain ⟨q, hq, hqb⟩ := (Option.any_eq_true _ _).mp organization
        rw [hp] at hq
        cases hq
        rw [← of_decide_eq_true hpa, ← of_decide_eq_true hqb]
      | organization o mem id gone =>
        simp only [htenants] at gone
        refine gone o ?_ id
        split
        · refine mem_delete.mpr ⟨mem, decide_eq_false fun heq => hne ?_⟩
          exact heq.symm.trans id
        · exact mem
    subst horg
    refine ⟨⟨operation, hmem, rfl, hopen, Tenants.claimOperation_due hdue⟩, ?_⟩
    show Tenants.Doomed _ (cleanupDueOrganization s now d.db d.tenants).2
    rw [htenants]
    split
    · refine Or.inr fun hin => ?_
      obtain ⟨o, ho, hid⟩ := mem_map.mp hin
      exact of_decide_eq_false (mem_delete.mp ho).2 hid
    · exact Or.inl (Tenants.start_deleting operation hmem)

end Erasures

/-! ## §7. Every run. -/

/-- **The deletion machine** in a deployment that the actions `xs` have led
to. -/
structure DeletionMachine (P : Primitives) (s : Settings) (xs : List (Time × Action))
    (d : Deployment) : Prop where
  /-- To be deleted is to have exactly one unfinished operation. -/
  pending : ∀ o ∈ d.tenants.organizations.rows,
    o.lifecycleState = .deletionPending ↔ ∃! x, x ∈ d.tenants.operations.rows
      ∧ x.organizationId = o.id ∧ x.status.unfinished = true
  /-- An operation is scheduled the grace period after its request. -/
  grace : ∀ x ∈ d.tenants.operations.rows, ∃ now, (now, .requestDeletion x.organizationId) ∈ xs
    ∧ x.createdAt = now ∧ now + (s.organizationDeletionGraceHours : ℚ) * 3600 ≤ x.scheduledAt
  /-- Cleanup takes nothing away before the operation is due. -/
  notBefore : ∀ now d' organizationId,
    d.stepAt P s (now, .cleanupDueOrganization) = some d' → Erased d d' organizationId →
    ∃ x ∈ d.tenants.operations.rows, x.organizationId = organizationId
      ∧ x.status.unfinished = true ∧ x.scheduledAt ≤ now
  /-- What cleanup has begun to take away is never active again. -/
  neverActive : ∀ now d' organizationId,
    d.stepAt P s (now, .cleanupDueOrganization) = some d' → Erased d d' organizationId →
    ∀ ys d'', run (Deployment.stepAt P s) d' ys = some d'' →
      d''.tenants.isActive organizationId = false
  /-- A later request returns the same operation, as long as it is not
  canceled. -/
  sameOperation : ∀ now o d', o ∈ d.tenants.organizations.rows →
    d.stepAt P s (now, .requestDeletion o.id) = some d' →
    ∀ ys d'', run (Deployment.stepAt P s) d' ys = some d'' →
    ∀ o' ∈ d''.tenants.organizations.rows, o'.id = o.id →
    (∀ x ∈ d''.tenants.operations.rows,
      x.id = (d.tenants.requestOrganizationDeletion s now o).2.id → x.status ≠ .canceled) →
    ∀ later, OperationKept (d.tenants.requestOrganizationDeletion s now o).2
      (d''.tenants.requestOrganizationDeletion s later o').2

section Runs

variable {d d' : Deployment}

theorem tenantChange_of_step {x : Time × Action} (h : d.stepAt P s x = some d') :
    TenantChange s x.1 d.tenants x.2 d'.tenants := (Deployment.stepAt_effect h).tenantChange

/-- An operation comes from the deployment at the start, or from a request of
the run. -/
theorem origin_run (h : run (Deployment.stepAt P s) d xs = some d')
    (hy : y ∈ d'.tenants.operations.rows) :
    (∃ x ∈ d.tenants.operations.rows, OperationKept x y)
      ∨ ∃ now, (now, .requestDeletion y.organizationId) ∈ xs ∧ y.createdAt = now
        ∧ y.scheduledAt = now + (s.organizationDeletionGraceHours : ℚ) * 3600 := by
  induction xs generalizing d with
  | nil =>
    cases h
    exact Or.inl ⟨y, hy, OperationKept.refl y⟩
  | cons x _ ih =>
    obtain ⟨u, hu, hrun⟩ := run_cons.mp h
    rcases ih hrun with ⟨z, hz, hzy⟩ | ⟨now, hmem, hcreated, hscheduled⟩
    · rcases (tenantChange_of_step hu).origin hz with ⟨w, hw, hwz⟩ | ⟨ha, hcreated, hscheduled⟩
      · exact Or.inl ⟨w, hw, hwz.trans hzy⟩
      · refine Or.inr ⟨x.1, ?_, hzy.createdAt.trans hcreated, hzy.scheduledAt.trans hscheduled⟩
        rw [hzy.organizationId, ← ha]
        exact mem_cons_self
    · exact Or.inr ⟨now, mem_cons_of_mem x hmem, hcreated, hscheduled⟩

/-- What a change of the tenants keeps holds after a run. -/
theorem tenants_run {I : Tenants → Prop}
    (hI : ∀ {now t a t'}, TenantChange s now t a t' → I t → I t') (hd : I d.tenants)
    (h : run (Deployment.stepAt P s) d xs = some d') : I d'.tenants := by
  refine run_inv (I := fun u : Deployment => I u.tenants) ?_ hd h
  intro u x u' hu hstep
  exact hI (tenantChange_of_step hstep) hu

theorem same_operation (horderly : d'.tenants.Orderly) (htracks : d'.tenants.Tracks x)
    (ho : o ∈ d'.tenants.organizations.rows) (hid : o.id = x.organizationId)
    (hcanceled : ∀ y ∈ d'.tenants.operations.rows, y.id = x.id → y.status ≠ .canceled)
    (later : Time) : OperationKept x (d'.tenants.requestOrganizationDeletion s later o).2 := by
  rcases htracks with ⟨y, hy, hkept, hstatus⟩ | habsent
  · have hopen : y.status.unfinished = true := hstatus.resolve_right (hcanceled y hy hkept.id)
    cases hfound : d'.tenants.openOperation o.id with
    | none =>
      have hnone := Tenants.openOperation_none.mp hfound y hy (hkept.organizationId.trans hid.symm)
      rw [hopen] at hnone
      exact absurd hnone (by decide)
    | some z =>
      obtain ⟨hz, hzorg, hzopen⟩ := Tenants.openOperation_some hfound
      have hzy : z = y := horderly.single z hz y hy
        (hzorg.trans (hid.trans hkept.organizationId.symm)) hzopen hopen
      unfold Tenants.requestOrganizationDeletion
      rw [hfound, hzy]
      exact hkept
  · exact absurd (mem_map.mpr ⟨o, ho, hid⟩) habsent

end Runs

/-- **THE DELETION OF ORGANIZATIONS**, in every deployment that a run reaches
from active organizations, with clocks that need not agree. -/
theorem deletion_machine (P : Primitives) (s : Settings) (d : Deployment)
    (hfresh : d.tenants.operations.rows = [])
    (hactive : ∀ o ∈ d.tenants.organizations.rows, o.lifecycleState = .active)
    (xs : List (Time × Action)) (d' : Deployment)
    (hrun : run (Deployment.stepAt P s) d xs = some d') : DeletionMachine P s xs d' := by
  have hstart : d.tenants.Orderly := by
    constructor
    · intro a ha
      rw [hfresh] at ha
      cases ha
    · intro o ho
      rw [hfresh] at ho
      cases ho
  have hpursued : d.tenants.Pursued := by
    intro o ho hpending
    rw [hactive o ho] at hpending
    exact absurd hpending (by decide)
  have horderly := orderly_run hstart hrun
  constructor
  · intro o ho
    exact Tenants.pending_iff horderly
      (tenants_run (fun hchange => hchange.pursued) hpursued hrun) ho
  · intro x hx
    rcases origin_run hrun hx with ⟨y, hy, -⟩ | ⟨now, hmem, hcreated, hscheduled⟩
    · rw [hfresh] at hy
      cases hy
    · exact ⟨now, hmem, hcreated, hscheduled.ge⟩
  · intro now u organizationId hstep herased
    exact (erased_by_cleanup hstep herased).1
  · intro now u organizationId hstep herased ys v hys
    have hu : u.tenants.Orderly := (Deployment.stepAt_effect hstep).orderly horderly
    exact Tenants.Doomed.inactive (orderly_run hu hys)
      (tenants_run (fun hchange => hchange.doomed) (erased_by_cleanup hstep herased).2 hys)
  · intro now o u ho hstep ys v hys o' ho' hid hcanceled later
    have hu : u.tenants.Orderly := (Deployment.stepAt_effect hstep).orderly horderly
    have htenants : u.tenants = (d'.tenants.requestOrganizationDeletion s now o).1 := by
      obtain ⟨o₁, ho₁, rfl⟩ := Option.map_eq_some_iff.mp hstep
      have heq : o₁ = o := Option.some.inj (ho₁.symm.trans (Table.find?_key ho))
      rw [Tenants.requestOrganizationDeletion_fst, heq]
    obtain ⟨hmem, horg, hopen⟩ :=
      @Tenants.requestOrganizationDeletion_mem d'.tenants s now o
    have htracks : u.tenants.Tracks (d'.tenants.requestOrganizationDeletion s now o).2 := by
      rw [htenants]
      exact Or.inl ⟨_, hmem, OperationKept.refl _, Or.inl hopen⟩
    exact same_operation (orderly_run hu hys)
      (tenants_run (fun hchange => hchange.tracks) htracks hys) ho' (hid.trans horg.symm)
      hcanceled later

/-- The small deployment's organization is to be deleted, and after the grace
period its pending delivery is canceled. -/
def deletionRun : List (Time × Action) :=
  [(0, registerEndpoint), (0, .op (.ingest 1 firstEvent)), (0, .requestDeletion 1),
    (Settings.defaults.organizationDeletionGraceHours * 3600, .cleanupDueOrganization)]

theorem deletion_machine_small :
    ∃ d, freshRun Settings.defaults deletionRun = some d
      ∧ (d.db.deliveries.rows.map Delivery.status = [.canceled])
      ∧ DeletionMachine smallPrimitives Settings.defaults deletionRun d := by
  obtain ⟨d, hd, hcanceled⟩ : ∃ d, freshRun Settings.defaults deletionRun = some d
      ∧ d.db.deliveries.rows.map Delivery.status = [.canceled] := by decide +kernel
  refine ⟨d, hd, hcanceled, ?_⟩
  exact deletion_machine smallPrimitives Settings.defaults freshDeployment rfl (by decide)
    deletionRun d hd

end WebhookPlatform
