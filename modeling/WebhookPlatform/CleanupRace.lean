/-
  WebhookPlatform.CleanupRace
  **THE CLEANUP OF AN ORGANIZATION AMONG WORKERS**
  (`LifecycleService._cleanup_due_organization`, one SQL statement at a time).

  A pass claims a due operation, locks its organization, and then does the
  first of these that finds anything to do:

      cancel   — queued deliveries and leases that have run out, SKIP LOCKED
      wait     — while a plain read sees a live lease
      delete   — a batch of the organization's deliveries, SKIP LOCKED
      delete   — a batch of its orphaned events, SKIP LOCKED
      delete   — the organization itself, if both counts are zero

  Each of these is a statement with its own snapshot.  `claim_due`,
  `renew_lease`, `release_claim` and `_finalize` run between any two of them;
  their statements are those of `Transactions`, over the larger data.

    • §1  the data, the locks, the statements (`estate`),
    • §2  the side condition: between its statements a pass is not disturbed,
    • §3  what the workers' statements keep,
    • §4  what a pass knows, and the outline,
    • §5  what is deleted is finished; and the race in which it is not.
-/
import WebhookPlatform.Lifecycle
import WebhookPlatform.TransactionOutline

namespace WebhookPlatform

open Relational Transition RowLocks RowNumber List Option

/-! ## §1. The cleanup, statement by statement. -/

/-- The committed data, with the organizations and their operations. -/
structure Estate extends Shared where
  tenants : Tenants := {}

/-- What can be locked. -/
inductive EstateLock where
  | row (k : Lock)
  /-- `organizations`. -/
  | organization (id : Nat)
  /-- `organization_lifecycle_operations`. -/
  | operation (id : Nat)
  deriving Repr, DecidableEq

namespace EstateLock

def conflict : EstateLock → EstateLock → Bool
  | .row a, .row b => a.conflict b
  | a, b => decide (a = b)

theorem conflict_symm (a b : EstateLock) : a.conflict b = b.conflict a := by
  cases a <;> cases b <;> simp [conflict, Lock.conflict_symm, eq_comm]

/-- The lock of a worker's transaction. -/
def row? : EstateLock → Option Lock
  | .row k => some k
  | _ => none

end EstateLock

/-- A delivery's row lock. -/
abbrev deliveryLock (id : Nat) : EstateLock := .row (.delivery id)

/-- The workers' locks among `H`. -/
def rowLocks (H : List EstateLock) : List Lock := H.filterMap EstateLock.row?

theorem mem_rowLocks : k ∈ rowLocks H ↔ .row k ∈ H := by
  unfold rowLocks
  rw [mem_filterMap]
  constructor
  · rintro ⟨h, hh, hk⟩
    cases h with
    | row =>
      injection hk with hk
      rw [← hk]
      exact hh
    | organization | operation => exact absurd hk (by simp [EstateLock.row?])
  · exact fun h => ⟨.row k, h, rfl⟩

theorem rowLocks_append (H K : List EstateLock) : rowLocks (H ++ K) = rowLocks H ++ rowLocks K :=
  filterMap_append

theorem rowLocks_map (ks : List Lock) : rowLocks (ks.map .row) = ks := by
  unfold rowLocks
  rw [filterMap_map]
  exact filterMap_some

/-- The operations that `_claim_operation` selects from, in its order. -/
def Tenants.dueOperations (t : Tenants) (now : Time) : List OrganizationLifecycleOperation :=
  orderBy (fun o => toLex (o.scheduledAt, o.id)) (t.operations.rows.filter fun o =>
    o.status.unfinished && decide (o.scheduledAt ≤ now)
      && (t.organizations.find? o.organizationId).any fun x =>
        decide (x.lifecycleState = .deletionPending))

/-- A pass of the cleanup over the operation it has claimed; `now` is the
time of the transaction. -/
structure Pass where
  now : Time
  operation : OrganizationLifecycleOperation

/-- The organization of the pass. -/
def Pass.organizationId (c : Pass) : Nat := c.operation.organizationId

/-- The states of the transactions.  `seen` are the deliveries as the last
statement of the pass found them; the source keeps no such list, and no
statement looks at it. -/
inductive CleanupTxn (s : Settings) where
  /-- A worker's transaction. -/
  | worker (t : Txn s)
  | operationSelect (now : Time)
  | organizationSelect (c : Pass)
  | operationCancel (c : Pass)
  | cancelSelect (c : Pass)
  | cancelWrite (c : Pass) (deliveries : List Delivery)
  | liveCheck (c : Pass) (seen : List Delivery)
  | deleteSelect (c : Pass) (seen : List Delivery)
  | deleteReferences (c : Pass) (ids : List Nat)
  | deleteWrite (c : Pass) (ids : List Nat)
  | eventSelect (c : Pass)
  | eventWrite (c : Pass) (ids : List Nat)
  | deliveryCount (c : Pass)
  | eventCount (c : Pass) (deliveries : Nat)
  | organizationReferences (c : Pass)
  | organizationWrite (c : Pass)
  /-- The pass ends here, and its operation is under way. -/
  | running (c : Pass)
  /-- The pass ends without a write. -/
  | leave
  | returned

/-- The rows that `_cancel_inactive_deliveries` selects from, in its order. -/
def cancellableRows (c : Pass) (db : Db) : List Delivery :=
  orderBy Delivery.id (db.deliveries.rows.filter (cancellable c.now c.organizationId))

/-- The rows that `_delete_delivery_batch` selects from, in its order. -/
def organizationRows (c : Pass) (db : Db) : List Delivery :=
  orderBy Delivery.id (db.deliveries.rows.filter fun d =>
    decide (d.organizationId = c.organizationId))

/-- The rows that `_delete_orphan_event_batch` selects from, in its order. -/
def orphanRows (c : Pass) (db : Db) : List Event :=
  orderBy Event.id (db.events.rows.filter fun e =>
    ofOrganization db c.organizationId e
      && !db.deliveries.rows.any fun d => decide (d.eventId = e.id))

/-- The row refers to one of the deliveries. -/
def refersTo (ids : List Nat) (reference : Option Nat) : Bool :=
  reference.any fun id => decide (id ∈ ids)

/-- The rows that the foreign keys of a deleted delivery set to null. -/
def referenceLocks (ids : List Nat) (db : Db) : List EstateLock :=
  ((db.deliveries.rows.filter fun d => refersTo ids d.replayOfDeliveryId).map
      fun d => deliveryLock d.id)
    ++ (db.endpointStates.rows.filter fun e => refersTo ids e.halfOpenProbeDeliveryId).map
      fun e => .row (.endpointState e.endpointId)

/-- The state rows that go with the organization. -/
def cascadeLocks (c : Pass) (db : Db) : List EstateLock :=
  .row (.tenant c.organizationId)
    :: (db.endpointStates.rows.filter fun e => endpointOf db c.organizationId e.endpointId).map
      fun e => .row (.endpointState e.endpointId)

/-- A worker's statement, over the larger data. -/
def workerStmt {s : Settings} (st : Stmt Shared Lock (Txn s)) :
    Stmt Estate EstateLock (CleanupTxn s) :=
  st.embed Estate.toShared (fun d shared => { d with toShared := shared }) .row EstateLock.row?
    .worker

/-- `operation.status = "running"`. -/
def Estate.start (c : Pass) (d : Estate) : Estate :=
  { d with tenants := d.tenants.start c.operation }

/-- The next statement of each transaction. -/
def CleanupTxn.stmt (P : Primitives) (s : Settings) :
    CleanupTxn s → Option (Stmt Estate EstateLock (CleanupTxn s))
  | .worker t => (t.stmt P s).map workerStmt
  -- _claim_operation
  | .operationSelect now => some (.lockSkip (some 1)
      (fun d => (d.tenants.dueOperations now).map fun o => .operation o.id)
      fun d got =>
        match (d.tenants.dueOperations now).find? fun o =>
            decide (EstateLock.operation o.id ∈ got) with
        | none => .leave
        | some o => .organizationSelect ⟨now, o⟩)
  | .organizationSelect c => some (.lockSkip none
      (fun d => (d.tenants.organizations.find? c.organizationId).toList.map fun o =>
        .organization o.id)
      fun d got =>
        match (d.tenants.organizations.find? c.organizationId).filter fun o =>
            decide (EstateLock.organization o.id ∈ got) with
        | none => .leave
        | some o =>
          if o.lifecycleState = .deletionPending then .cancelSelect c else .operationCancel c)
  | .operationCancel c => some (.commit (fun d => { d with
      tenants.operations := d.tenants.operations.put
        { c.operation with status := .canceled, completedAt := some c.now } }) .returned)
  -- _cancel_inactive_deliveries
  | .cancelSelect c => some (.lockSkip (some s.lifecycleCleanupBatchSize)
      (fun d => (cancellableRows c d.db).map fun x => deliveryLock x.id)
      fun d got =>
        let deliveries := (cancellableRows c d.db).filter fun x =>
          decide (deliveryLock x.id ∈ got)
        if deliveries.isEmpty then .liveCheck c d.db.deliveries.rows
        else .cancelWrite c deliveries)
  | .cancelWrite c deliveries => some (.commit (fun d =>
    { d.start c with
      db.deliveries := d.db.deliveries.putAll (deliveries.map (cleanupRow c.now)) }) .returned)
  -- _has_live_delivery
  | .liveCheck c _ => some (.read fun d =>
    if hasLiveDelivery d.db c.now c.organizationId then .running c
    else .deleteSelect c d.db.deliveries.rows)
  -- _delete_delivery_batch
  | .deleteSelect c _ => some (.lockSkip (some s.lifecycleCleanupBatchSize)
      (fun d => (organizationRows c d.db).map fun x => deliveryLock x.id)
      fun d got =>
        let ids := ((organizationRows c d.db).filter fun x =>
          decide (deliveryLock x.id ∈ got)).map Delivery.id
        if ids.isEmpty then .eventSelect c else .deleteReferences c ids)
  | .deleteReferences c ids => some (.lock (fun d => referenceLocks ids d.db)
      fun _ => .deleteWrite c ids)
  | .deleteWrite c ids => some (.commit
      (fun d => { d.start c with db := deleteDeliveries ids d.db }) .returned)
  -- _delete_orphan_event_batch
  | .eventSelect c => some (.lockSkip (some s.lifecycleCleanupBatchSize)
      (fun d => (orphanRows c d.db).map fun e => .row (.event e.id))
      fun d got =>
        let ids := ((orphanRows c d.db).filter fun e =>
          decide (EstateLock.row (.event e.id) ∈ got)).map Event.id
        if ids.isEmpty then .deliveryCount c else .eventWrite c ids)
  | .eventWrite c ids => some (.commit (fun d =>
    { d.start c with db.events := d.db.events.delete fun e => decide (e.id ∈ ids) }) .returned)
  -- _delete_empty_organization
  | .deliveryCount c => some (.read fun d =>
    .eventCount c (d.db.deliveries.rows.countP fun x =>
      decide (x.organizationId = c.organizationId)))
  | .eventCount c deliveries => some (.read fun d =>
    if deliveries ≠ 0 ∨ d.db.events.rows.countP (ofOrganization d.db c.organizationId) ≠ 0 then
      .running c
    else .organizationReferences c)
  | .organizationReferences c => some (.lock (fun d => cascadeLocks c d.db)
      fun _ => .organizationWrite c)
  | .organizationWrite c => some (.commit (fun d =>
    { d with
      db := deleteOrganization c.organizationId d.db
      tenants := (d.tenants.start c.operation).remove c.organizationId }) .returned)
  | .running c => some (.commit (Estate.start c) .returned)
  | .leave => some (.commit id .returned)
  | .returned => none

/-- The calls: those of the workers, and a pass of the cleanup. -/
inductive EstateCall where
  | claim (limit : Nat) (tokens : List Uuid)
  | renew (c : ClaimedDelivery)
  | release (c : ClaimedDelivery)
  | finalize (c : ClaimedDelivery) (f : Finalization)
  | cleanup

/-- Where a call begins. -/
def EstateCall.begin (s : Settings) (d : Estate) : EstateCall → Option (CleanupTxn s)
  | .claim limit tokens => ((Call.claim limit tokens).begin s d.toShared).map .worker
  | .renew c => ((Call.renew c).begin s d.toShared).map .worker
  | .release c => ((Call.release c).begin s d.toShared).map .worker
  | .finalize c f => ((Call.finalize c f).begin s d.toShared).map .worker
  | .cleanup => some (.operationSelect d.clock)

/-- **THE CLEANUP AND THE WORKERS AS CONCURRENT TRANSACTIONS**; the environment
is the clock, which never goes back. -/
def estate (P : Primitives) (s : Settings) :
    Program Estate EstateLock (CleanupTxn s) EstateCall Time where
  start d c := (c.begin s d).map fun t => (d, t)
  stmt := CleanupTxn.stmt P s
  env d now := if d.clock ≤ now then some { d with clock := now } else none
  conflict := EstateLock.conflict

/-! ## §2. Undisturbed passes. -/

/-- **The side condition on a pass**: a select that cancels nothing has skipped
nothing that could be canceled; and a delivery that a later statement of the
pass meets is as the statement before found it, or finished. -/
def Undisturbed {s : Settings} (d : Estate) (l : CleanupTxn s) (got : List EstateLock) : Prop :=
  match l with
  | .cancelSelect c => got = [] →
      ∀ x ∈ d.db.deliveries.rows, cancellable c.now c.organizationId x = false
  | .liveCheck c seen => ∀ x ∈ d.db.deliveries.rows, x.organizationId = c.organizationId →
      x ∈ seen ∨ x.status.terminal = true
  | .deleteSelect _ seen => ∀ x ∈ d.db.deliveries.rows, deliveryLock x.id ∈ got →
      x ∈ seen ∨ x.status.terminal = true
  | _ => True

instance {l : CleanupTxn s} : Decidable (Undisturbed d l got) := by
  cases l <;> dsimp only [Undisturbed] <;> infer_instance

/-! ## §3. The workers. -/

/-- The transactions of the workers' calls. -/
def Txn.ofWorker {s : Settings} : Txn s → Prop
  | .claimGlobal _ | .claimLive _ _ | .claimScan _ _ _ | .claimRows _ _ _ _ | .claimTenants _ _
  | .claimEndpoints _ _ _ | .claimTenantCounts _ _ _ _ | .claimEndpointCounts _ _ _ _ _
  | .claimWrite _ _ _ | .claimNothing _ | .renewSelect _ _ | .renewWrite _ _ _
  | .releaseSelect _ _ | .releaseWrite _ _ _ | .finalizeSelect _ _ _ | .finalizeState _ _ _ _
  | .finalizeWrite _ _ _ _ _ | .rollback | .returned => True
  | _ => False

section Workers

variable {G : Shared → Prop} {l : Txn s}

/-- A worker's transaction stays one. -/
theorem Txn.ofWorker_leads (hl : l.ofWorker) (hst : l.stmt P s = some st) :
    st.Leads Txn.ofWorker := by
  cases l <;> try exact hl.elim
  case claimLive | claimScan =>
    cases hst
    intro d
    dsimp only
    split <;> trivial
  case claimRows =>
    cases hst
    intro d got
    dsimp only
    split <;> trivial
  case claimWrite k b r =>
    simp only [Txn.stmt] at hst
    split at hst <;> (injection hst with hst; subst hst; trivial)
  case renewSelect | releaseSelect | finalizeSelect | finalizeState =>
    cases hst
    intro d
    dsimp only
    split <;> trivial
  case returned => exact absurd hst (by simp [Txn.stmt])
  case renewWrite | releaseWrite | finalizeWrite | claimNothing | rollback =>
    cases hst
    trivial
  all_goals
    cases hst
    intro d
    trivial

/-- **What a worker knows** is about its claim and the rows it has locked. -/
theorem Txn.ofWorker_stable (hl : l.ofWorker) (h : l.ok P p G d H)
    (hissued : ∀ c ∈ d.issued, c ∈ d'.issued)
    (hrows : ∀ x, RowLocked d H x → RowLocked d' H x) : l.ok P p G d' H := by
  have hheld : ∀ c x, Held d H c x → Held d' H c x := fun c x hx =>
    ⟨hrows x hx.toRowLocked, hissued c hx.issued, hx.id⟩
  have hbatch : ∀ (k : ClaimCall) (b : Batch), b.Locked p G d H k → b.Locked p G d' H k :=
    fun k b hb => ⟨fun x hx => hrows x (hb.rows x hx), hb.due, hb.nodup, hb.seen⟩
  cases l <;> try exact hl.elim
  case claimRows => exact h
  case claimTenants => exact hbatch _ _ h
  case claimEndpoints | claimTenantCounts | claimEndpointCounts | claimWrite =>
    exact ⟨hbatch _ _ h.1, h.2⟩
  case renewSelect | releaseSelect | finalizeSelect => exact hissued _ h
  case renewWrite | releaseWrite | finalizeState | finalizeWrite => exact ⟨hheld _ _ h.1, h.2⟩
  all_goals trivial

/-- A new version of a delivery: it refers to the original its row has. -/
structure Revision (x y : Delivery) : Prop extends SameDelivery x y where
  replayOf : y.replayOfDeliveryId = x.replayOfDeliveryId

/-- **What a worker commits**: new versions of rows it has locked. -/
structure Revises (d : Shared) (H : List Lock) (ys : List Delivery) (d' : Shared) : Prop where
  issued : ∀ c ∈ d.issued, c ∈ d'.issued
  deliveries : d'.db.deliveries = d.db.deliveries.putAll ys
  versions : ∀ y ∈ ys, ∃ x, RowLocked d H x ∧ Revision x y

theorem revises_nothing (h : d'.db.deliveries = d.db.deliveries)
    (hissued : d'.issued = d.issued) : Revises d H [] d' := by
  refine ⟨?_, h, fun y hy => absurd hy not_mem_nil⟩
  rw [hissued]
  exact fun _ hc => hc

theorem revises_row (h : d'.db.deliveries = d.db.deliveries.put y) (hissued : d'.issued = d.issued)
    (hx : RowLocked d H x) (hy : Revision x y) : Revises d H [y] d' := by
  refine ⟨?_, h, fun z hz => ?_⟩
  · rw [hissued]
    exact fun _ hc => hc
  · rw [mem_singleton.mp hz]
    exact ⟨x, hx, hy⟩

theorem finalizeRow_revision (s : Settings) (finished : Time) (c : ClaimedDelivery)
    (f : Finalization) (x : Delivery) : Revision x (finalizeRow s finished c f x) := by
  refine ⟨finalizeRow_same s finished c f x, ?_⟩
  unfold finalizeRow outcomeRow
  split
  · rfl
  · split
    · split <;> rfl
    · rfl

theorem Txn.ofWorker_commit {next : Txn s} (hl : l.ofWorker) (hok : l.ok P p G d H)
    (hst : l.stmt P s = some (.commit write next)) : ∃ ys, Revises d H ys (write d) := by
  cases l <;> (try exact hl.elim) <;> simp only [Txn.stmt, selectForUpdate, selectState,
    Option.some.injEq, Stmt.commit.injEq, reduceCtorEq] at hst
  case claimWrite k b r =>
    split at hst
    · simp only [Option.some.injEq, Stmt.commit.injEq] at hst
      obtain ⟨rfl, rfl⟩ := hst
      exact ⟨[], revises_nothing rfl rfl⟩
    next claims hclaims =>
      simp only [Option.some.injEq, Stmt.commit.injEq] at hst
      obtain ⟨rfl, rfl⟩ := hst
      -- the rows claimed are candidates, which are locked
      refine ⟨claimedRows s k.now (claimPicks s k b r),
        fun c hc => mem_append_left _ hc, rfl, fun y hy => ?_⟩
      obtain ⟨x, hx, rfl⟩ := mem_map.mp hy
      exact ⟨x.1, hok.1.rows x.1 (hok.1.mem_of_pick hok.2.2 hx), ⟨rfl, rfl, rfl, rfl⟩, rfl⟩
  case claimNothing =>
    obtain ⟨rfl, rfl⟩ := hst
    exact ⟨[], revises_nothing rfl rfl⟩
  case renewWrite | releaseWrite =>
    obtain ⟨rfl, rfl⟩ := hst
    exact ⟨_, revises_row rfl rfl hok.1.toRowLocked ⟨⟨rfl, rfl, rfl, rfl⟩, rfl⟩⟩
  case finalizeWrite now c f x e =>
    obtain ⟨rfl, rfl⟩ := hst
    unfold Shared.finalized
    split
    · exact ⟨[], revises_nothing rfl rfl⟩
    · exact ⟨_, revises_row rfl rfl hok.1.toRowLocked (finalizeRow_revision s now c f x)⟩
  case rollback =>
    obtain ⟨rfl, rfl⟩ := hst
    exact ⟨[], revises_nothing rfl rfl⟩

end Workers

/-! ## §4. What a pass knows. -/

/-- **What every step respects**: claims stay issued, no delivery appears or
gets a new original, and one disappears only when it is finished. -/
structure EstateRely (d d' : Estate) : Prop where
  issued : ∀ c ∈ d.issued, c ∈ d'.issued
  origin : ∀ y ∈ d'.db.deliveries.rows, ∃ x ∈ d.db.deliveries.rows, y.id = x.id
    ∧ ∀ i, y.replayOfDeliveryId = some i → x.replayOfDeliveryId = some i
  gone : ∀ x ∈ d.db.deliveries.rows, x.status.terminal = true
    ∨ ∃ y ∈ d'.db.deliveries.rows, y.id = x.id

theorem EstateRely.of_eq (hissued : d'.issued = d.issued) (h : d'.db.deliveries = d.db.deliveries) :
    EstateRely d d' := by
  refine ⟨?_, ?_, ?_⟩
  · rw [hissued]
    exact fun _ hc => hc
  · rw [h]
    exact fun y hy => ⟨y, hy, rfl, fun _ hi => hi⟩
  · rw [h]
    exact fun x hx => Or.inr ⟨x, hx, rfl⟩

/-- A change respects a lock: a locked delivery stays as it is. -/
def EstateLock.keeps (k : EstateLock) (d d' : Estate) : Prop :=
  match k with
  | .row (.delivery i) =>
    ∀ x, d.db.deliveries.find? i = some x → d'.db.deliveries.find? i = some x
  | _ => True

theorem EstateLock.keeps_of_deliveries
    (h : ∀ i x, k = deliveryLock i → d.db.deliveries.find? i = some x →
      d'.db.deliveries.find? i = some x) :
    k.keeps d d' := by
  cases k with
  | row k =>
    cases k with
    | delivery i => exact fun x hx => h i x rfl hx
    | _ => trivial
  | organization | operation => trivial

/-- The deliveries to be deleted are locked and finished. -/
structure Condemned (d : Estate) (H : List EstateLock) (ids : List Nat) : Prop where
  locks : ∀ i ∈ ids, deliveryLock i ∈ H
  finished : ∀ x ∈ d.db.deliveries.rows, x.id ∈ ids → x.status.terminal = true

/-- The rows that refer to the deliveries are locked. -/
def ReferencesLocked (d : Estate) (H : List EstateLock) (ids : List Nat) : Prop :=
  ∀ x ∈ d.db.deliveries.rows, refersTo ids x.replayOfDeliveryId = true → deliveryLock x.id ∈ H

/-- **What a transaction that holds the locks `H` knows** at its next
statement. -/
def CleanupTxn.ok (P : Primitives) {s : Settings} (d : Estate) (H : List EstateLock) :
    CleanupTxn s → Prop
  | .worker t => t.ofWorker ∧ t.ok P {} (fun _ => True) d.toShared (rowLocks H)
  | .cancelWrite _ deliveries => ∀ x ∈ deliveries, RowLocked d.toShared (rowLocks H) x
  -- nothing was cancellable
  | .liveCheck c seen => ∀ x ∈ seen, x.organizationId = c.organizationId →
      x.status.terminal = true ∨ x.live c.now = true
  -- and nothing was live
  | .deleteSelect c seen => ∀ x ∈ seen, x.organizationId = c.organizationId →
      x.status.terminal = true
  | .deleteReferences _ ids => Condemned d H ids
  | .deleteWrite _ ids => Condemned d H ids ∧ ReferencesLocked d H ids
  | _ => True

section Knowledge

variable {H : List EstateLock} {l : CleanupTxn s}

theorem RowLocked.keeps (h : RowLocked d.toShared (rowLocks H) x) (hk : ∀ k ∈ H, k.keeps d d') :
    RowLocked d'.toShared (rowLocks H) x := by
  have hkeep : ∀ y, d.db.deliveries.find? x.id = some y → d'.db.deliveries.find? x.id = some y :=
    hk _ (mem_rowLocks.mp h.lock)
  exact ⟨h.lock, Table.mem_of_find? (hkeep x (Table.find?_key h.row))⟩

theorem Condemned.stable (h : Condemned d H ids) (hr : EstateRely d d')
    (hk : ∀ k ∈ H, k.keeps d d') : Condemned d' H ids := by
  refine ⟨h.locks, fun y hy hid => ?_⟩
  -- the row comes from a locked row, which is as it was
  obtain ⟨x, hx, heq, -⟩ := hr.origin y hy
  rw [heq] at hid
  have hkeep : ∀ z, d.db.deliveries.find? x.id = some z → d'.db.deliveries.find? x.id = some z :=
    hk _ (h.locks x.id hid)
  have hmem := Table.mem_of_find? (hkeep x (Table.find?_key hx))
  rw [d'.db.deliveries.eq_of_key_eq hy hmem heq]
  exact h.finished x hx hid

theorem ReferencesLocked.stable (h : ReferencesLocked d H ids)
    (hr : EstateRely d d') : ReferencesLocked d' H ids := by
  intro y hy href
  obtain ⟨x, hx, heq, hreplay⟩ := hr.origin y hy
  rw [heq]
  refine h x hx ?_
  obtain ⟨i, hi, hin⟩ := (any_eq_true _ _).mp href
  exact (any_eq_true _ _).mpr ⟨i, hreplay i hi, hin⟩

/-- **Knowledge is stable.** -/
theorem CleanupTxn.ok_stable (h : l.ok P d H) (hr : EstateRely d d')
    (hk : ∀ k ∈ H, k.keeps d d') : l.ok P d' H := by
  cases l with
  | worker => exact ⟨h.1, Txn.ofWorker_stable h.1 h.2 hr.issued fun x hx => hx.keeps hk⟩
  | cancelWrite => exact fun x hx => (h x hx).keeps hk
  | liveCheck | deleteSelect => exact h
  | deleteReferences => exact h.stable hr hk
  | deleteWrite => exact ⟨h.1.stable hr hk, h.2.stable hr⟩
  | _ => trivial

/-! Commits. -/

/-- A row that another transaction has locked is not among the committer's. -/
theorem ne_of_free (hfree : ∀ h ∈ H, h.conflict (deliveryLock i) = false)
    (hj : deliveryLock j ∈ H) : j ≠ i := by
  intro hji
  have hconflict := hfree _ hj
  simp [EstateLock.conflict, Lock.conflict, hji] at hconflict

theorem Revises.rely (h : Revises d.toShared (rowLocks H) ys d'.toShared) : EstateRely d d' := by
  refine ⟨h.issued, fun y hy => ?_, fun x hx => Or.inr ?_⟩
  · rw [h.deliveries, Serial.putAll_toTable] at hy
    rcases Table.mem_putAll hy with hy | ⟨hy, -⟩
    · obtain ⟨x, hx, hrev⟩ := h.versions y hy
      refine ⟨x, hx.row, hrev.id, fun i hi => ?_⟩
      rw [← hrev.replayOf]
      exact hi
    · exact ⟨y, hy, rfl, fun _ hi => hi⟩
  · have hkey : x.id ∈ d'.db.deliveries.rows.map Delivery.id := by
      rw [h.deliveries, Serial.putAll_toTable, Table.keys_putAll]
      exact mem_map_of_mem hx
    obtain ⟨y, hy, hid⟩ := mem_map.mp hkey
    exact ⟨y, hy, hid⟩

theorem Revises.keeps (h : Revises d.toShared (rowLocks H) ys d'.toShared)
    (hfree : ∀ h ∈ H, h.conflict k = false) : k.keeps d d' := by
  refine EstateLock.keeps_of_deliveries ?_
  rintro i x rfl hx
  rw [h.deliveries, Serial.putAll_toTable, Table.find?_putAll_ne]
  · exact hx
  · intro y hy
    obtain ⟨z, hz, hrev⟩ := h.versions y hy
    rw [hrev.id]
    exact ne_of_free hfree (mem_rowLocks.mp hz.lock)

theorem rely_deleteDeliveries (hissued : d'.issued = d.issued)
    (hdb : d'.db = deleteDeliveries ids d.db) (h : Condemned d H ids) : EstateRely d d' := by
  refine ⟨?_, fun y hy => ?_, fun x hx => ?_⟩
  · rw [hissued]
    exact fun _ hc => hc
  · rw [hdb] at hy
    obtain ⟨x, hx, -, rfl⟩ := mem_deleteDeliveries.mp hy
    exact ⟨x, hx, rfl, fun i hi => (filter_eq_some_iff.mp hi).1⟩
  · by_cases hin : x.id ∈ ids
    · exact Or.inl (h.finished x hx hin)
    · refine Or.inr ⟨unlink ids x, ?_, rfl⟩
      rw [hdb]
      exact mem_deleteDeliveries.mpr ⟨x, hx, hin, rfl⟩

/-- A row that refers to none of the deleted ones is left as it is. -/
theorem unlink_eq_self (h : refersTo ids x.replayOfDeliveryId = false) : unlink ids x = x := by
  unfold unlink
  cases hreplay : x.replayOfDeliveryId with
  | none =>
    rw [filter_none, ← hreplay]
  | some i =>
    have hout : i ∉ ids := by
      rw [hreplay] at h
      simpa [refersTo] using h
    rw [filter_some, if_pos (decide_eq_true hout), ← hreplay]

theorem keeps_deleteDeliveries (hdb : d'.db = deleteDeliveries ids d.db) (h : Condemned d H ids)
    (href : ReferencesLocked d H ids) (hfree : ∀ h ∈ H, h.conflict k = false) : k.keeps d d' := by
  refine EstateLock.keeps_of_deliveries ?_
  rintro i x rfl hx
  obtain ⟨hmem, hid⟩ := Table.find?_eq_some.mp hx
  subst hid
  have hout : x.id ∉ ids := fun hin => ne_of_free hfree (h.locks x.id hin) rfl
  have hfar : refersTo ids x.replayOfDeliveryId = false := by
    by_contra hnot
    exact ne_of_free hfree (href x hmem (by simpa using hnot)) rfl
  rw [hdb, Table.find?_eq_some]
  exact ⟨mem_deleteDeliveries.mpr ⟨x, hmem, hout, unlink_eq_self hfar⟩, rfl⟩

/-- **A commit** respects the locks of the others, and takes away finished
deliveries only. -/
theorem CleanupTxn.commit_ok {next : CleanupTxn s} (hok : l.ok P d H)
    (hst : l.stmt P s = some (.commit write next)) :
    next.ok P (write d) [] ∧ EstateRely d (write d)
      ∧ ∀ k : EstateLock, (∀ h ∈ H, h.conflict k = false) → k.keeps d (write d) := by
  have hrevised : ∀ {d' : Estate} {ys}, Revises d.toShared (rowLocks H) ys d'.toShared →
      EstateRely d d' ∧ ∀ k : EstateLock, (∀ h ∈ H, h.conflict k = false) → k.keeps d d' :=
    fun h => ⟨h.rely, fun k hfree => h.keeps hfree⟩
  cases l <;> simp only [CleanupTxn.stmt, Option.some.injEq, Stmt.commit.injEq,
    reduceCtorEq] at hst
  case worker t =>
    obtain ⟨st, hstmt, heq⟩ := map_eq_some_iff.mp hst
    cases st <;> simp only [workerStmt, Stmt.embed, Stmt.commit.injEq, reduceCtorEq] at heq
    obtain ⟨rfl, rfl⟩ := heq
    obtain ⟨ys, hys⟩ := Txn.ofWorker_commit hok.1 hok.2 hstmt
    have hnext := (Txn.commit_ok hok.2 hstmt Discipline.allow_default).2
    exact ⟨⟨Txn.ofWorker_leads hok.1 hstmt, hnext⟩, hrevised hys⟩
  case cancelWrite c deliveries =>
    obtain ⟨rfl, rfl⟩ := hst
    have hversions : ∀ y ∈ deliveries.map (cleanupRow c.now),
        ∃ x, RowLocked d.toShared (rowLocks H) x ∧ Revision x y := by
      intro y hy
      obtain ⟨x, hx, rfl⟩ := mem_map.mp hy
      exact ⟨x, hok x hx, ⟨rfl, rfl, rfl, rfl⟩, rfl⟩
    exact ⟨trivial, hrevised ⟨fun _ hc => hc, rfl, hversions⟩⟩
  case deleteWrite c ids =>
    obtain ⟨rfl, rfl⟩ := hst
    exact ⟨trivial, rely_deleteDeliveries rfl rfl hok.1,
      fun k hfree => keeps_deleteDeliveries rfl hok.1 hok.2 hfree⟩
  -- the other commits leave the deliveries alone
  all_goals
    obtain ⟨rfl, rfl⟩ := hst
    exact ⟨trivial, hrevised (revises_nothing rfl rfl)⟩

/-! The other statements. -/

/-- **A read** of the pass: with no live lease in sight, what is not disturbed
is finished. -/
theorem CleanupTxn.read_ok {next : Estate → CleanupTxn s} (hok : l.ok P d H)
    (hst : l.stmt P s = some (.read next)) (hallow : Undisturbed d l []) :
    (next d).ok P d H := by
  cases l <;> simp only [CleanupTxn.stmt, Option.some.injEq, Stmt.read.injEq, reduceCtorEq] at hst
  case worker t =>
    obtain ⟨st, hstmt, heq⟩ := map_eq_some_iff.mp hst
    cases st <;> simp only [workerStmt, Stmt.embed, Stmt.read.injEq, reduceCtorEq] at heq
    subst heq
    exact ⟨Txn.ofWorker_leads hok.1 hstmt _, Txn.read_ok trivial hok.2 hstmt⟩
  case liveCheck c seen =>
    subst hst
    dsimp only
    split
    · trivial
    next hlive =>
      intro x hx horg
      rcases hallow x hx horg with hseen | hterminal
      · rcases hok x hseen horg with hterminal | hnow
        · exact hterminal
        · refine absurd ?_ hlive
          exact any_eq_true.mpr ⟨x, hx, by simp [horg, hnow]⟩
      · exact hterminal
  case deliveryCount => subst hst; trivial
  case eventCount =>
    subst hst
    dsimp only
    split <;> trivial

theorem CleanupTxn.lock_ok {next : Estate → CleanupTxn s} (hok : l.ok P d H)
    (hst : l.stmt P s = some (.lock want next)) : (next d).ok P d (H ++ want d) := by
  cases l <;> simp only [CleanupTxn.stmt, Option.some.injEq, Stmt.lock.injEq, reduceCtorEq] at hst
  case worker t =>
    obtain ⟨st, hstmt, heq⟩ := map_eq_some_iff.mp hst
    cases st <;> simp only [workerStmt, Stmt.embed, Stmt.lock.injEq, reduceCtorEq] at heq
    obtain ⟨rfl, rfl⟩ := heq
    refine ⟨Txn.ofWorker_leads hok.1 hstmt _, ?_⟩
    rw [rowLocks_append, rowLocks_map]
    exact Txn.lock_ok trivial hok.2 hstmt Discipline.allow_default
  case deleteReferences c ids =>
    obtain ⟨rfl, rfl⟩ := hst
    refine ⟨⟨fun i hi => mem_append_left _ (hok.locks i hi), hok.finished⟩, ?_⟩
    intro x hx href
    refine mem_append_right _ (mem_append_left _ ?_)
    exact mem_map.mpr ⟨x, mem_filter.mpr ⟨hx, href⟩, rfl⟩
  case organizationReferences c =>
    obtain ⟨rfl, rfl⟩ := hst
    trivial

/-- **A select with `SKIP LOCKED`**: one that cancels nothing leaves, if it has
skipped nothing, what is finished or live; one that deletes has locked what it
is going to delete. -/
theorem CleanupTxn.skip_ok {next : Estate → List EstateLock → CleanupTxn s} (hok : l.ok P d H)
    (hst : l.stmt P s = some (.lockSkip limit want next)) (hsub : got.Sublist (want d))
    (hallow : Undisturbed d l got) : (next d got).ok P d (H ++ got) := by
  cases l <;> simp only [CleanupTxn.stmt, Option.some.injEq, Stmt.lockSkip.injEq,
    reduceCtorEq] at hst
  case worker t =>
    obtain ⟨st, hstmt, heq⟩ := Option.map_eq_some_iff.mp hst
    cases st <;> simp only [workerStmt, Stmt.embed, Stmt.lockSkip.injEq, reduceCtorEq] at heq
    obtain ⟨rfl, rfl, rfl⟩ := heq
    refine ⟨Txn.ofWorker_leads hok.1 hstmt _ _, ?_⟩
    rw [rowLocks_append]
    exact Txn.skip_ok trivial hok.2 hstmt Discipline.allow_default
  case operationSelect =>
    obtain ⟨rfl, rfl, rfl⟩ := hst
    dsimp only
    split <;> trivial
  case organizationSelect =>
    obtain ⟨rfl, rfl, rfl⟩ := hst
    dsimp only
    split
    · trivial
    · split <;> trivial
  case cancelSelect c =>
    obtain ⟨rfl, rfl, rfl⟩ := hst
    dsimp only
    split
    next hnone =>
      -- whatever was locked would have been canceled
      have hgot : got = [] := by
        rw [List.eq_nil_iff_forall_not_mem]
        intro k hk
        obtain ⟨x, hx, rfl⟩ := List.mem_map.mp (hsub.subset hk)
        rw [List.isEmpty_iff, List.filter_eq_nil_iff] at hnone
        exact hnone x hx (decide_eq_true hk)
      intro x hx horg
      have hcancel := hallow hgot x hx
      rw [← horg] at hcancel
      by_contra hnot
      rw [not_or, Bool.not_eq_true, Bool.not_eq_true] at hnot
      rw [terminal_of_settled hcancel hnot.2] at hnot
      exact absurd hnot.1 (by decide)
    intro x hx
    obtain ⟨hx, hgot⟩ := List.mem_filter.mp hx
    have hrow := (orderBy_perm _ _).mem_iff.mp hx
    refine ⟨mem_rowLocks.mpr (List.mem_append_right _ (of_decide_eq_true hgot)), ?_⟩
    exact (List.mem_filter.mp hrow).1
  case deleteSelect c seen =>
    obtain ⟨rfl, rfl, rfl⟩ := hst
    dsimp only
    split
    · trivial
    have hlocked : ∀ i ∈ ((organizationRows c d.db).filter fun x =>
        decide (deliveryLock x.id ∈ got)).map Delivery.id, deliveryLock i ∈ got := by
      intro i hi
      obtain ⟨x, hx, rfl⟩ := List.mem_map.mp hi
      exact of_decide_eq_true (List.mem_filter.mp hx).2
    refine ⟨fun i hi => List.mem_append_right _ (hlocked i hi), fun x hx hid => ?_⟩
    have horg : x.organizationId = c.organizationId := by
      obtain ⟨y, hy, hyid⟩ := List.mem_map.mp hid
      have hy := (orderBy_perm _ _).mem_iff.mp (List.mem_filter.mp hy).1
      obtain ⟨hmem, horg⟩ := List.mem_filter.mp hy
      rw [← d.db.deliveries.eq_of_key_eq hmem hx hyid]
      exact of_decide_eq_true horg
    rcases hallow x hx (hlocked x.id hid) with hseen | hterminal
    · exact hok x hseen horg
    · exact hterminal
  case eventSelect c =>
    obtain ⟨rfl, rfl, rfl⟩ := hst
    dsimp only
    split <;> trivial

/-- **A call** knows where it begins. -/
theorem EstateCall.begin_ok {c : EstateCall} (h : c.begin s d = some l) : l.ok P d [] := by
  have hworker : ∀ {k : Call}, (∀ t : Txn s, k.begin s d.toShared = some t → t.ofWorker) →
      (k.begin s d.toShared).map .worker = some l → l.ok P d [] := by
    intro k hk h
    obtain ⟨t, ht, rfl⟩ := map_eq_some_iff.mp h
    exact ⟨hk t ht, Call.begin_ok ht⟩
  cases c with
  | claim | renew | release | finalize =>
    refine hworker (fun t ht => ?_) h
    obtain ⟨-, ht⟩ := ite_none_right_eq_some.mp ht
    cases ht
    trivial
  | cleanup =>
    cases h
    trivial

end Knowledge

/-- **THE OUTLINE** of the cleanup and the workers. -/
def estateOutline (P : Primitives) (s : Settings) : Outline (estate P s) Undisturbed where
  glob _ := True
  ok d H l := l.ok P d H
  keeps := EstateLock.keeps
  rely := EstateRely
  conflict_symm := EstateLock.conflict_symm
  stable _ _ _ _ _ hok hr hk := CleanupTxn.ok_stable hok hr hk
  start_ok d c d' l _ h := by
    obtain ⟨t, ht, heq⟩ := map_eq_some_iff.mp h
    injection heq with hd hl
    subst hd hl
    exact ⟨trivial, EstateCall.begin_ok ht, EstateRely.of_eq rfl rfl,
      fun k => EstateLock.keeps_of_deliveries fun _ _ _ hx => hx⟩
  env_ok d now d' _ h := by
    obtain ⟨-, h⟩ := ite_none_right_eq_some.mp h
    cases h
    exact ⟨trivial, EstateRely.of_eq rfl rfl,
      fun k => EstateLock.keeps_of_deliveries fun _ _ _ hx => hx⟩
  read_ok _ _ _ _ _ hok hst hallow := CleanupTxn.read_ok hok hst hallow
  lock_ok _ _ _ _ _ _ hok hst _ := CleanupTxn.lock_ok hok hst
  skip_ok _ _ _ _ _ _ _ _ hok hst hsub hallow := CleanupTxn.skip_ok hok hst hsub hallow
  commit_ok _ _ _ _ _ _ hok hst _ := ⟨trivial, CleanupTxn.commit_ok hok hst⟩

/-! ## §5. What is deleted is finished. -/

/-- **What a step may take away**: deliveries that are finished. -/
def TakesFinished {s : Settings} (σ : Sys Estate EstateLock (CleanupTxn s))
    (_ : Move EstateCall Time) (σ' : Sys Estate EstateLock (CleanupTxn s)) : Prop :=
  ∀ x ∈ σ.db.db.deliveries.rows, (∀ y ∈ σ'.db.db.deliveries.rows, y.id ≠ x.id) →
    x.status.terminal = true

/-- **THE CLEANUP DELETES FINISHED DELIVERIES ONLY**, in every interleaving of
passes and workers in which no pass is disturbed between its statements. -/
theorem cleanup_takes_finished (P : Primitives) (s : Settings) (d : Estate)
    (ms : List (Move EstateCall Time))
    (hallow : Along (estate P s).step (Allowed (estate P s) Undisturbed) (Sys.initial d) ms) :
    Along (estate P s).step TakesFinished (Sys.initial d) ms := by
  refine (estateOutline P s).along ?_ trivial ms hallow
  intro σ m σ' hσ _ hstep hal x hx hgone
  have hrely : EstateRely σ.db σ'.db :=
    (estateOutline P s).rely_step (fun _ => EstateRely.of_eq rfl rfl) hσ hstep hal
  rcases hrely.gone x hx with hterminal | ⟨y, hy, hid⟩
  · exact hterminal
  · exact absurd hid (hgone y hy)

/-- The small deployment with its organization past the grace period of a
deletion that was requested at time zero. -/
def condemnedEstate : Estate where
  db := { smallDb with
    tenantStates := ⟨[tenantQuotaValues 1 .defaults 0], by decide⟩
    endpointStates := ⟨[endpointQuotaValues 1 .defaults 0], by decide⟩ }
  clock := 1000000
  tenants :=
    { organizations := ⟨[⟨1, .deletionPending, some 0, some 259200⟩], by decide⟩
      operations :=
        { rows := [⟨1, 1, .pending, 259200, 0, none⟩]
          nodup := by decide, next := 2, lt_next := by decide } }

/-- Two passes: the first cancels the queued delivery, the second deletes it. -/
def twoPasses : List (Move EstateCall Time) :=
  .begin 0 .cleanup :: List.replicate 4 (.exec 0)
    ++ .begin 1 .cleanup :: List.replicate 7 (.exec 1)

theorem cleanup_takes_finished_passes :
    (run (estate smallPrimitives {}).step (Sys.initial condemnedEstate) twoPasses).map
        (fun σ => σ.db.db.deliveries.rows.map Delivery.status) = some []
      ∧ Along (estate smallPrimitives {}).step TakesFinished (Sys.initial condemnedEstate)
          twoPasses := by
  refine ⟨by decide +kernel, cleanup_takes_finished smallPrimitives {} condemnedEstate _ ?_⟩
  decide +kernel

/-- A claim has locked the queued delivery; a pass of the cleanup skips it, and
sees no live lease; the claim commits; the pass goes on. -/
def claimedInBetween : List (Move EstateCall Time) :=
  .begin 0 (.claim 1 ["token-1"]) :: List.replicate 4 (.exec 0)
    ++ .begin 1 .cleanup :: List.replicate 4 (.exec 1)
    ++ List.replicate 5 (.exec 0) ++ List.replicate 2 (.exec 1)

/-- **A LEASED DELIVERY IS DELETED.**  Its lease runs for another minute, and
its attempt is in flight. -/
theorem leased_delivery_deleted :
    ∃ σ σ' : Sys Estate EstateLock (CleanupTxn {}),
      run (estate smallPrimitives {}).step (Sys.initial condemnedEstate) claimedInBetween = some σ
      ∧ (estate smallPrimitives {}).step σ (.exec 1) = some σ'
      ∧ (σ.db.db.deliveries.find? 1).map Delivery.status = some .processing
      ∧ (σ.db.db.deliveries.find? 1).bind Delivery.leaseExpiresAt = some (σ.db.clock + 60)
      ∧ σ.db.issued.map ClaimedDelivery.leaseToken = ["token-1"]
      ∧ σ'.db.db.deliveries.find? 1 = none := by
  decide +kernel

end WebhookPlatform
