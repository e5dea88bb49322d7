/-
  WebhookPlatform.Tenancy
  **WHO OWNS WHAT WHILE TENANTS COME AND GO.**

    • `Tenants.Orderly` — an organization has at most one unfinished deletion,
      and while it has one the organization is not active,
    • `Belongs` — a delivery's event and its endpoint belong to projects of
      the delivery's organization,

  in every reachable state (`orderly_run`, `belongs_run`).  Rows other than
  deliveries go only when nothing needs them any more (`Effect.outlives`): an
  event without deliveries, or an organization without any.
-/
import WebhookPlatform.DeliveryRows

namespace WebhookPlatform

open Relational Transition RowNumber List Table

/-! ## §1. Deletions. -/

namespace Tenants

/-- A deletion of the organization is under way. -/
def deleting (t : Tenants) (organizationId : Nat) : Bool :=
  t.operations.rows.any fun o =>
    decide (o.organizationId = organizationId) && decide (o.status = .running)

theorem deleting_iff {t : Tenants} : t.deleting organizationId = true
      ↔ ∃ o ∈ t.operations.rows, o.organizationId = organizationId ∧ o.status = .running := by
  unfold deleting
  simp only [any_eq_true, Bool.and_eq_true, decide_eq_true_eq]

/-- At most one unfinished deletion for each organization, and none for an
active one. -/
structure Orderly (t : Tenants) : Prop where
  single : ∀ a ∈ t.operations.rows, ∀ b ∈ t.operations.rows,
    a.organizationId = b.organizationId → a.status.unfinished = true →
    b.status.unfinished = true → a = b
  closed : ∀ o ∈ t.operations.rows, o.status.unfinished = true →
    t.isActive o.organizationId = false

variable {t t' : Tenants}

theorem Orderly.inactive (h : t.Orderly)
    (hd : t.deleting organizationId = true) : t.isActive organizationId = false := by
  obtain ⟨o, ho, rfl, hrunning⟩ := deleting_iff.mp hd
  exact h.closed o ho (by rw [hrunning]; rfl)

theorem openOperation_none : t.openOperation organizationId = none
      ↔ ∀ o ∈ t.operations.rows, o.organizationId = organizationId →
        o.status.unfinished = false := by
  unfold openOperation
  rw [List.find?_eq_none]
  simp

theorem openOperation_some (h : t.openOperation organizationId = some operation) :
    operation ∈ t.operations.rows ∧ operation.organizationId = organizationId
      ∧ operation.status.unfinished = true := by
  have hfound := List.find?_some h
  rw [Bool.and_eq_true, decide_eq_true_eq] at hfound
  exact ⟨mem_of_find?_eq_some h, hfound⟩

theorem cancelDeletion_ok (h : t.cancelDeletion now o = .ok t') :
    ∃ operation, t.openOperation o.id = some operation ∧ operation.status ≠ .running ∧ t' =
        { organizations := t.organizations.put
            { o with
              lifecycleState := .active
              deletionRequestedAt := none
              deletionScheduledAt := none }
          operations := t.operations.put
            { operation with status := .canceled, completedAt := some now } } := by
  unfold cancelDeletion at h
  split at h
  · cases h
  next operation hopen =>
    split at h
    · cases h
    next hstatus =>
      injection h with h
      exact ⟨operation, hopen, hstatus, h.symm⟩

theorem claimOperation_some (h : t.claimOperation now = some operation) :
    operation ∈ t.operations.rows ∧ operation.status.unfinished = true := by
  have hmem := (orderBy_perm _ _).mem_iff.mp (mem_of_head? h)
  obtain ⟨hrow, hfilter⟩ := mem_filter.mp hmem
  rw [Bool.and_eq_true, Bool.and_eq_true] at hfilter
  exact ⟨hrow, hfilter.1.1⟩

/-- Only the put organization changes whether it is active. -/
theorem isActive_put_ne (h : x.id ≠ organizationId)
    (operations : Serial OrganizationLifecycleOperation OrganizationLifecycleOperation.id) :
    isActive ⟨t.organizations.put x, operations⟩ organizationId = t.isActive organizationId := by
  unfold isActive
  dsimp only
  rw [Table.find?_put_ne h]

theorem isActive_put_self (ho : o ∈ t.organizations.rows) (hid : x.id = o.id)
    (operations : Serial OrganizationLifecycleOperation OrganizationLifecycleOperation.id) :
    isActive ⟨t.organizations.put x, operations⟩ o.id = decide (x.lifecycleState = .active) := by
  unfold isActive
  dsimp only
  rw [Table.find?_put_self (Table.find?_key ho) hid]
  rfl

theorem requestDeletion_orderly (ht : t.Orderly) (ho : o ∈ t.organizations.rows)
    (hopen : t.openOperation o.id = none) : (t.requestDeletion s now o).Orderly := by
  unfold requestDeletion
  rw [hopen]
  dsimp only
  have hnone := openOperation_none.mp hopen
  constructor
  · dsimp only
    rw [Serial.rows_append rfl]
    intro a ha b hb horg hopenA hopenB
    rcases mem_append.mp ha with ha | ha
    · rcases mem_append.mp hb with hb | hb
      · exact ht.single a ha b hb horg hopenA hopenB
      · rw [mem_singleton.mp hb] at horg
        rw [hnone a ha horg] at hopenA
        exact absurd hopenA (by decide)
    · rcases mem_append.mp hb with hb | hb
      · rw [mem_singleton.mp ha] at horg
        rw [hnone b hb horg.symm] at hopenB
        exact absurd hopenB (by decide)
      · rw [mem_singleton.mp ha, mem_singleton.mp hb]
  · dsimp only
    rw [Serial.rows_append rfl]
    intro x hx hopenX
    by_cases horg : o.id = x.organizationId
    · -- the organization itself is to be deleted now
      rw [← horg]
      refine (isActive_put_self ho ?_ _).trans ?_
      · rfl
      · rfl
    · refine (isActive_put_ne ?_ _).trans ?_
      · exact horg
      rcases mem_append.mp hx with hx | hx
      · exact ht.closed x hx hopenX
      · rw [mem_singleton.mp hx] at horg
        exact absurd rfl horg

theorem cancelDeletion_orderly (ht : t.Orderly) (h : t.cancelDeletion now o = .ok t') :
    t'.Orderly := by
  obtain ⟨operation, hopen, -, rfl⟩ := cancelDeletion_ok h
  obtain ⟨hmem, horg, hunfinished⟩ := openOperation_some hopen
  -- an unfinished operation that is left is an old one, of another organization
  have hleft : ∀ x ∈ (t.operations.put
      { operation with status := .canceled, completedAt := some now }).rows,
      x.status.unfinished = true → x ∈ t.operations.rows ∧ x.organizationId ≠ o.id := by
    intro x hx hopenX
    rcases mem_put.mp hx with ⟨rfl, -⟩ | ⟨hx, hne⟩
    · exact absurd hopenX (by simp [OperationStatus.unfinished])
    · refine ⟨hx, fun hxo => hne ?_⟩
      rw [ht.single x hx operation hmem (hxo.trans horg.symm) hopenX hunfinished]
  constructor
  · intro a ha b hb hab hopenA hopenB
    exact ht.single a (hleft a ha hopenA).1 b (hleft b hb hopenB).1 hab hopenA hopenB
  · intro x hx hopenX
    obtain ⟨hold, hne⟩ := hleft x hx hopenX
    refine (isActive_put_ne ?_ _).trans (ht.closed x hold hopenX)
    exact Ne.symm hne

/-- The rows after a deletion was started. -/
theorem mem_start (hmem : operation ∈ t.operations.rows)
    (hopen : operation.status.unfinished = true) (hx : x ∈ (t.start operation).operations.rows) :
    ∃ y ∈ t.operations.rows, y.id = x.id ∧ y.organizationId = x.organizationId
      ∧ (x.status.unfinished = true → y.status.unfinished = true) := by
  rcases mem_of_mem_put hx with rfl | hx
  · exact ⟨operation, hmem, rfl, rfl, fun _ => hopen⟩
  · exact ⟨x, hx, rfl, rfl, id⟩

theorem start_orderly (ht : t.Orderly)
    (hmem : operation ∈ t.operations.rows) (hopen : operation.status.unfinished = true) :
    (t.start operation).Orderly := by
  constructor
  · intro a ha b hb hab hopenA hopenB
    obtain ⟨a₀, ha₀, haid, haorg, hastatus⟩ := mem_start hmem hopen ha
    obtain ⟨b₀, hb₀, hbid, hborg, hbstatus⟩ := mem_start hmem hopen hb
    have hsame := ht.single a₀ ha₀ b₀ hb₀ (haorg.trans (hab.trans hborg.symm)) (hastatus hopenA)
      (hbstatus hopenB)
    exact (t.start operation).operations.eq_of_key_eq ha hb
      (haid.symm.trans ((congrArg OrganizationLifecycleOperation.id hsame).trans hbid))
  · intro x hx hopenX
    obtain ⟨y, hy, -, horg, hstatus⟩ := mem_start hmem hopen hx
    rw [← horg]
    exact ht.closed y hy (hstatus hopenX)

theorem remove_orderly (ht : t.Orderly) (organizationId : Nat) :
    (t.remove organizationId).Orderly := by
  constructor
  · intro a ha b hb hab hopenA hopenB
    exact ht.single a (mem_delete.mp ha).1 b (mem_delete.mp hb).1 hab hopenA hopenB
  · intro x hx hopenX
    have hold := ht.closed x (mem_delete.mp hx).1 hopenX
    unfold isActive at hold ⊢
    cases hfind : (t.remove organizationId).organizations.find? x.organizationId with
    | none => rfl
    | some =>
      -- an organization that is left was there before
      obtain ⟨hy, hyid⟩ := Table.find?_eq_some.mp hfind
      rw [Table.find?_eq_some.mpr ⟨(mem_delete.mp hy).1, hyid⟩] at hold
      exact hold

theorem start_deleting (operation : OrganizationLifecycleOperation)
    (hmem : operation ∈ t.operations.rows) :
    (t.start operation).deleting operation.organizationId = true := by
  refine deleting_iff.mpr ⟨{ operation with status := .running }, ?_, rfl, rfl⟩
  exact mem_put.mpr (Or.inl ⟨rfl, operation, hmem, rfl⟩)

/-- A deletion that is under way is under way after any other operation row
was put. -/
theorem deleting_put {organizations : Table Organization Organization.id}
    (hmem : operation ∈ t.operations.rows) (hid : x.id = operation.id)
    (horg : x.organizationId = operation.organizationId)
    (hstatus : operation.status = .running → x.status = .running)
    (h : t.deleting organizationId = true) :
    deleting ⟨organizations, t.operations.put x⟩ organizationId = true := by
  obtain ⟨o, ho, rfl, hrunning⟩ := deleting_iff.mp h
  obtain ⟨o', ho', hkey, rfl | rfl⟩ := exists_put x ho
  · exact deleting_iff.mpr ⟨o', ho', rfl, hrunning⟩
  · have hsame : operation = o := t.operations.eq_of_key_eq hmem ho (hid.symm.trans hkey)
    subst hsame
    exact deleting_iff.mpr ⟨o', ho', horg, hstatus hrunning⟩

theorem requestDeletion_mono (h : t.deleting organizationId = true) :
    (t.requestDeletion s now o).deleting organizationId = true := by
  obtain ⟨x, hx, horg, hrunning⟩ := deleting_iff.mp h
  unfold requestDeletion
  split
  · exact h
  refine deleting_iff.mpr ⟨x, ?_, horg, hrunning⟩
  dsimp only
  rw [Serial.rows_append rfl]
  exact mem_append_left _ hx

theorem cancelDeletion_mono (hc : t.cancelDeletion now o = .ok t')
    (h : t.deleting organizationId = true) : t'.deleting organizationId = true := by
  obtain ⟨operation, hopen, hstatus, rfl⟩ := cancelDeletion_ok hc
  refine deleting_put (openOperation_some hopen).1 ?_ ?_ ?_ h
  · rfl
  · rfl
  · exact fun hrunning => absurd hrunning hstatus

theorem remove_mono {removed : Nat} (hne : organizationId ≠ removed)
    (h : t.deleting organizationId = true) : (t.remove removed).deleting organizationId = true := by
  obtain ⟨x, hx, horg, hrunning⟩ := deleting_iff.mp h
  refine deleting_iff.mpr ⟨x, mem_delete.mpr ⟨hx, ?_⟩, horg, hrunning⟩
  rw [horg]
  exact decide_eq_false hne

end Tenants

section Effects

/-- **Deletions stay orderly.** -/
theorem Effect.orderly (h : Effect P s d a d') (hd : d.tenants.Orderly) : d'.tenants.Orderly := by
  cases h with
  | deletionRequested _ mem closed => exact Tenants.requestDeletion_orderly hd mem closed
  | deletionCanceled _ _ _ canceled => exact Tenants.cancelDeletion_orderly hd canceled
  | cleaned _ r due =>
    obtain ⟨hmem, hopen⟩ := Tenants.claimOperation_some due
    have hstart := Tenants.start_orderly hd hmem hopen
    show Tenants.Orderly (if r.2 = true then _ else _)
    split
    · exact Tenants.remove_orderly hstart _
    · exact hstart
  | _ => exact hd

/-! ## §2. What outlives a step. -/

/-- The organization goes, with the state of its endpoints; it had no
deliveries left. -/
structure Removed (db db' : Db) (organizationId : Nat) : Prop where
  empty : ∀ x ∈ db.deliveries.rows, x.organizationId ≠ organizationId
  states : ∀ e ∈ db'.endpointStates.rows, endpointOf db organizationId e.endpointId = false

/-- Events, projects and endpoints are there after a step, unless nothing
needs them. -/
structure Outlives (db db' : Db) : Prop where
  events : ∀ e ∈ db.events.rows,
    (∃ e' ∈ db'.events.rows, e'.id = e.id ∧ e'.projectId = e.projectId)
      ∨ ∀ x ∈ db.deliveries.rows, x.eventId ≠ e.id
  projects : ∀ p ∈ db.projects.rows,
    (∃ p' ∈ db'.projects.rows, p'.id = p.id ∧ p'.organizationId = p.organizationId)
      ∨ Removed db db' p.organizationId
  endpoints : ∀ w ∈ db.endpoints.rows,
    (∃ w' ∈ db'.endpoints.rows, w'.id = w.id ∧ w'.projectId = w.projectId)
      ∨ ∃ p ∈ db.projects.rows, p.id = w.projectId ∧ Removed db db' p.organizationId

theorem outlives_of_eq (events : db'.events = db.events)
    (projects : db'.projects = db.projects) (endpoints : db'.endpoints = db.endpoints) :
    Outlives db db' := by
  constructor
  · rw [events]
    exact fun e he => Or.inl ⟨e, he, rfl, rfl⟩
  · rw [projects]
    exact fun p hp => Or.inl ⟨p, hp, rfl, rfl⟩
  · rw [endpoints]
    exact fun w hw => Or.inl ⟨w, hw, rfl, rfl⟩

/-- Endpoints outlive the edit of one of them. -/
theorem outlives_endpoint (events : db'.events = db.events) (projects : db'.projects = db.projects)
    (endpoints : db'.endpoints = db.endpoints.put w') (hw : w ∈ db.endpoints.rows)
    (hid : w'.id = w.id) (hproject : w'.projectId = w.projectId) : Outlives db db' := by
  have hsame : Outlives db { db' with endpoints := db.endpoints } :=
    outlives_of_eq events projects rfl
  refine ⟨hsame.events, ?_, fun x hx => Or.inl ?_⟩
  · rw [projects]
    exact fun p hp => Or.inl ⟨p, hp, rfl, rfl⟩
  · rw [endpoints]
    obtain ⟨x', hx', hkey, rfl | rfl⟩ := exists_put w' hx
    · exact ⟨x', hx', hkey, rfl⟩
    · have hxw : x = w := db.endpoints.eq_of_key_eq hx hw (hkey.symm.trans hid)
      subst hxw
      exact ⟨x', hx', hkey, hproject⟩

theorem outlives_purge (s : Settings) (now : Time) (db : Db) :
    Outlives db (purgeEventPayloads s now db) := by
  refine ⟨fun e he => Or.inl ?_, fun p hp => Or.inl ⟨p, hp, rfl, rfl⟩,
    fun w hw => Or.inl ⟨w, hw, rfl, rfl⟩⟩
  show ∃ e' ∈ (db.events.putAll _).rows, _
  rw [Serial.putAll_toTable]
  obtain ⟨e', he', hkey, rfl | hnew⟩ := exists_putAll _ he
  · exact ⟨e', he', hkey, rfl⟩
  · obtain ⟨x, hx, rfl⟩ := mem_map.mp hnew
    have hxe : x = e := db.events.eq_of_key_eq (mem_purgeBatch hx).1 he hkey
    subst hxe
    exact ⟨_, he', hkey, rfl⟩

/-- An event that the cleanup deletes has no delivery. -/
theorem orphan_of_mem (he : e ∈ db.events.rows) (h : e.id ∈ orphanBatch s organizationId db) :
    ∀ x ∈ db.deliveries.rows, x.eventId ≠ e.id := by
  obtain ⟨y, hy, hid⟩ := mem_map.mp h
  have hy := (orderBy_perm _ _).mem_iff.mp (mem_of_mem_take hy)
  obtain ⟨hrow, hfilter⟩ := mem_filter.mp hy
  have hye : y = e := db.events.eq_of_key_eq hrow he hid
  subst hye
  rw [Bool.and_eq_true, Bool.not_eq_true', any_eq_false] at hfilter
  intro x hx
  simpa using hfilter.2 x hx

theorem outlives_cleanup {now : Time} (h : Cleanup s now organizationId db r) :
    Outlives db r.1 := by
  cases h with
  | canceled | waiting | deliveriesDeleted => exact outlives_of_eq rfl rfl rfl
  | eventsDeleted =>
    refine ⟨fun e he => ?_, fun p hp => Or.inl ⟨p, hp, rfl, rfl⟩,
      fun w hw => Or.inl ⟨w, hw, rfl, rfl⟩⟩
    by_cases horphan : e.id ∈ orphanBatch s organizationId db
    · exact Or.inr (orphan_of_mem he horphan)
    · exact Or.inl ⟨e, mem_delete.mpr ⟨he, decide_eq_false horphan⟩, rfl, rfl⟩
  | removed empty =>
    have hremoved : Removed db (deleteOrganization organizationId db) organizationId :=
      ⟨empty, fun e he => (mem_delete.mp he).2⟩
    refine ⟨fun e he => Or.inl ⟨e, he, rfl, rfl⟩, fun p hp => ?_, fun w hw => ?_⟩
    · by_cases horg : p.organizationId = organizationId
      · rw [horg]
        exact Or.inr hremoved
      · exact Or.inl ⟨p, mem_delete.mpr ⟨hp, decide_eq_false horg⟩, rfl, rfl⟩
    · cases howner : projectOf db organizationId w.projectId with
      | false => exact Or.inl ⟨w, mem_delete.mpr ⟨hw, howner⟩, rfl, rfl⟩
      | true =>
        obtain ⟨p, hp, hpw⟩ := any_eq_true.mp howner
        rw [Bool.and_eq_true, decide_eq_true_eq, decide_eq_true_eq] at hpw
        refine Or.inr ⟨p, hp, hpw.2, ?_⟩
        rw [hpw.1]
        exact hremoved

/-- **What outlives a step.** -/
theorem Effect.outlives (h : Effect P s d a d') : Outlives d.db d'.db := by
  cases h with
  | claimed limit tokens =>
    obtain ⟨g, ts, es, hframe⟩ := claimedDb_frame s d.clock limit tokens d.db
    show Outlives d.db (claimedDb s d.clock limit tokens d.db)
    rw [hframe]
    exact outlives_of_eq rfl rfl rfl
  | ingested =>
    refine ⟨fun e he => Or.inl ⟨e, ?_, rfl, rfl⟩, fun p hp => Or.inl ⟨p, hp, rfl, rfl⟩,
      fun w hw => Or.inl ⟨w, hw, rfl, rfl⟩⟩
    show e ∈ (d.db.events.append _).rows
    rw [Serial.rows_append rfl]
    exact mem_append_left _ he
  | created =>
    exact ⟨fun e he => Or.inl ⟨e, he, rfl, rfl⟩, fun p hp => Or.inl ⟨p, hp, rfl, rfl⟩,
      fun w hw => Or.inl ⟨w, mem_insert_of_mem _ hw, rfl, rfl⟩⟩
  | edited _ _ _ _ mem edit =>
    cases edit with
    | updated | deactivated => exact outlives_endpoint rfl rfl rfl mem rfl rfl
  | rotated _ _ _ mem => exact outlives_endpoint rfl rfl rfl mem rfl rfl
  | projectDeactivated project mem =>
    refine ⟨fun e he => Or.inl ⟨e, he, rfl, rfl⟩, fun p hp => Or.inl ?_,
      fun w hw => Or.inl ⟨w, hw, rfl, rfl⟩⟩
    obtain ⟨p', hp', hkey, rfl | rfl⟩ := exists_put { project with isActive := false } hp
    · exact ⟨p', hp', hkey, rfl⟩
    · have hpp : p = project := d.db.projects.eq_of_key_eq hp mem hkey.symm
      subst hpp
      exact ⟨_, hp', hkey, rfl⟩
  | payloadsPurged => exact outlives_purge s d.clock d.db
  | cleaned _ _ _ cleanup => exact outlives_cleanup cleanup
  | _ => exact outlives_of_eq rfl rfl rfl

/-- A deletion goes on until the organization is gone. -/
theorem Effect.deleting_or (h : Effect P s d a d') (hd : d.tenants.deleting organizationId = true) :
    d'.tenants.deleting organizationId = true
      ∨ (Removed d.db d'.db organizationId ∧ d'.db.deliveries = d.db.deliveries) := by
  cases h with
  | deletionRequested => exact Or.inl (Tenants.requestDeletion_mono hd)
  | deletionCanceled _ _ _ canceled => exact Or.inl (Tenants.cancelDeletion_mono canceled hd)
  | cleaned operation r due cleanup =>
    have hstart : (d.tenants.start operation).deleting organizationId = true := by
      refine Tenants.deleting_put (Tenants.claimOperation_some due).1 ?_ ?_ ?_ hd
      · rfl
      · rfl
      · exact fun _ => rfl
    show Tenants.deleting (if r.2 = true then _ else _) organizationId = true ∨ _
    split
    next hgone =>
      by_cases hne : organizationId = operation.organizationId
      · subst hne
        refine Or.inr ?_
        show Removed d.db r.1 operation.organizationId ∧ r.1.deliveries = d.db.deliveries
        obtain ⟨hdb, hempty⟩ := cleanup.gone hgone
        rw [hdb]
        exact ⟨⟨hempty, fun e he => (mem_delete.mp he).2⟩, rfl⟩
      · exact Or.inl (Tenants.remove_mono hne hstart)
    · exact Or.inl hstart
  | _ => exact Or.inl hd

/-- A deletion goes on as long as the organization has deliveries. -/
theorem Effect.deleting (h : Effect P s d a d') (hd : d.tenants.deleting organizationId = true)
    (hleft : ∃ x ∈ d'.db.deliveries.rows, x.organizationId = organizationId) :
    d'.tenants.deleting organizationId = true := by
  rcases h.deleting_or hd with hstill | ⟨hremoved, hsame⟩
  · exact hstill
  · obtain ⟨x, hx, horg⟩ := hleft
    rw [hsame] at hx
    exact absurd horg (hremoved.empty x hx)

/-! ## §3. Deliveries belong to their organization. -/

/-- The event and the endpoint of a delivery belong to projects of its
organization. -/
structure Belongs (db : Db) : Prop where
  event : ∀ x ∈ db.deliveries.rows, ∃ e ∈ db.events.rows, e.id = x.eventId
    ∧ ∃ p ∈ db.projects.rows, p.id = e.projectId ∧ p.organizationId = x.organizationId
  endpoint : ∀ x ∈ db.deliveries.rows, ∃ w ∈ db.endpoints.rows, w.id = x.endpointId
    ∧ ∃ p ∈ db.projects.rows, p.id = w.projectId ∧ p.organizationId = x.organizationId

/-- The project that a delivery is found under is one of its organization. -/
theorem Belongs.organization (h : Belongs db) (hx : x ∈ db.deliveries.rows)
    (hp : p ∈ db.projects.rows) (howner : ofProject db p.id x = true) :
    p.organizationId = x.organizationId := by
  obtain ⟨e, he, hex, q, hq, hqe, horg⟩ := h.event x hx
  unfold ofProject at howner
  rw [Table.find?_eq_some.mpr ⟨he, hex⟩, Option.any_some, decide_eq_true_eq] at howner
  have hqp : q = p := db.projects.eq_of_key_eq hq hp (hqe.trans howner)
  rw [← hqp]
  exact horg

/-- The endpoint of a delivery is the organization's. -/
theorem Belongs.endpointOf (h : Belongs db)
    (hx : x ∈ db.deliveries.rows) : endpointOf db x.organizationId x.endpointId = true := by
  obtain ⟨w, hw, hwx, p, hp, hpw, horg⟩ := h.endpoint x hx
  refine any_eq_true.mpr ⟨w, hw, ?_⟩
  rw [Bool.and_eq_true, decide_eq_true_eq]
  refine ⟨any_eq_true.mpr ⟨p, hp, ?_⟩, hwx⟩
  rw [Bool.and_eq_true, decide_eq_true_eq, decide_eq_true_eq]
  exact ⟨horg, hpw⟩

theorem endpointOf_iff : endpointOf db organizationId endpointId = true
      ↔ ∃ w ∈ db.endpoints.rows, w.id = endpointId
        ∧ ∃ p ∈ db.projects.rows, p.id = w.projectId ∧ p.organizationId = organizationId := by
  unfold endpointOf projectOf
  simp only [any_eq_true, Bool.and_eq_true, decide_eq_true_eq]
  constructor
  · rintro ⟨w, hw, ⟨p, hp, horg, hid⟩, hwid⟩
    exact ⟨w, hw, hwid, p, hp, hid, horg⟩
  · rintro ⟨w, hw, hwid, p, hp, hid, horg⟩
    exact ⟨w, hw, ⟨p, hp, horg, hid⟩, hwid⟩

/-- An endpoint belongs to one organization. -/
theorem endpointOf_unique {a b endpointId : Nat} (ha : endpointOf db a endpointId = true)
    (hb : endpointOf db b endpointId = true) : a = b := by
  obtain ⟨w, hw, hwid, p, hp, hpw, rfl⟩ := endpointOf_iff.mp ha
  obtain ⟨v, hv, hvid, q, hq, hqv, rfl⟩ := endpointOf_iff.mp hb
  have hwv : w = v := db.endpoints.eq_of_key_eq hw hv (hwid.trans hvid.symm)
  subst hwv
  rw [db.projects.eq_of_key_eq hp hq (hpw.trans hqv.symm)]

/-- A row that is there after the step has its project there too. -/
theorem Outlives.project (h : Outlives db db') (hx : x ∈ db.deliveries.rows)
    (hp : p ∈ db.projects.rows) (horg : p.organizationId = x.organizationId) :
    ∃ p' ∈ db'.projects.rows, p'.id = p.id ∧ p'.organizationId = x.organizationId := by
  rcases h.projects p hp with ⟨p', hp', hid, hporg⟩ | hremoved
  · exact ⟨p', hp', hid, hporg.trans horg⟩
  · exact absurd horg.symm (hremoved.empty x hx)

/-- The owners of an old row outlive the step. -/
theorem Belongs.outlive (hb : Belongs db) (h : Outlives db db') (hx : x ∈ db.deliveries.rows) :
    (∃ e ∈ db'.events.rows, e.id = x.eventId
        ∧ ∃ p ∈ db'.projects.rows, p.id = e.projectId ∧ p.organizationId = x.organizationId)
      ∧ ∃ w ∈ db'.endpoints.rows, w.id = x.endpointId
        ∧ ∃ p ∈ db'.projects.rows, p.id = w.projectId ∧ p.organizationId = x.organizationId := by
  constructor
  · obtain ⟨e, he, hex, p, hp, hpe, horg⟩ := hb.event x hx
    obtain ⟨p', hp', hpid, hporg⟩ := h.project hx hp horg
    rcases h.events e he with ⟨e', he', heid, heproject⟩ | horphan
    · exact ⟨e', he', heid.trans hex, p', hp', hpid.trans (hpe.trans heproject.symm), hporg⟩
    · exact absurd hex.symm (horphan x hx)
  · obtain ⟨w, hw, hwx, p, hp, hpw, horg⟩ := hb.endpoint x hx
    obtain ⟨p', hp', hpid, hporg⟩ := h.project hx hp horg
    rcases h.endpoints w hw with ⟨w', hw', hwid, hwproject⟩ | ⟨q, hq, hqw, hremoved⟩
    · exact ⟨w', hw', hwid.trans hwx, p', hp', hpid.trans (hpw.trans hwproject.symm), hporg⟩
    · rw [db.projects.eq_of_key_eq hq hp (hqw.trans hpw.symm)] at hremoved
      exact absurd horg.symm (hremoved.empty x hx)

/-- **A step keeps the owners of every delivery.** -/
theorem Effect.belongs (h : Effect P s d a d') (hd : Belongs d.db) : Belongs d'.db := by
  have hrow : ∀ x' ∈ d'.db.deliveries.rows, (∃ e ∈ d'.db.events.rows, e.id = x'.eventId
        ∧ ∃ p ∈ d'.db.projects.rows, p.id = e.projectId ∧ p.organizationId = x'.organizationId)
      ∧ ∃ w ∈ d'.db.endpoints.rows, w.id = x'.endpointId
        ∧ ∃ p ∈ d'.db.projects.rows, p.id = w.projectId ∧ p.organizationId = x'.organizationId := by
    intro x' hx'
    cases h.row hx' with
    | worked _ _ mem work =>
      have hsame := work.same
      rw [hsame.eventId, hsame.organizationId, hsame.endpointId]
      exact hd.outlive h.outlives mem
    | ingested project w _ _ hproject hw owner _ event projects endpoints =>
      obtain ⟨e, he, hid, heproject⟩ := event
      rw [projects, endpoints]
      exact ⟨⟨e, he, hid, project, hproject, heproject.symm, rfl⟩,
        w, hw, rfl, project, hproject, owner.symm, rfl⟩
    | replayed _ _ _ _ _ mem source =>
      -- the copy has the event, the endpoint and the organization of its source
      have howners := hd.outlive h.outlives mem
      exact howners
  exact ⟨fun x hx => (hrow x hx).1, fun x hx => (hrow x hx).2⟩

end Effects

/-! ## §4. Every run. -/

section Runs

variable {d d' : Deployment}

theorem Deployment.Fresh.orderly (h : d.Fresh) : d.tenants.Orderly := by
  constructor
  all_goals
    rw [h.operations]
    exact fun o ho => absurd ho not_mem_nil

theorem Deployment.Fresh.belongs (h : d.Fresh) : Belongs d.db := by
  constructor
  all_goals
    rw [h.deliveries]
    exact fun x hx => absurd hx not_mem_nil

theorem orderly_run (hd : d.tenants.Orderly)
    (hrun : run (Deployment.stepAt P s) d xs = some d') : d'.tenants.Orderly :=
  run_inv (I := fun d : Deployment => d.tenants.Orderly)
    (fun _ _ _ hd hstep => (Deployment.stepAt_effect hstep).orderly hd) hd hrun

theorem belongs_run (hfresh : d.Fresh) (hrun : run (Deployment.stepAt P s) d xs = some d') :
    Belongs d'.db :=
  run_inv (I := fun d : Deployment => Belongs d.db)
    (fun _ _ _ hd hstep => (Deployment.stepAt_effect hstep).belongs hd) hfresh.belongs hrun

end Runs

end WebhookPlatform
