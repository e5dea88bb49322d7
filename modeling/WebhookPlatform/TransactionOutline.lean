/-
  WebhookPlatform.TransactionOutline
  **WHAT A TRANSACTION KNOWS BETWEEN ITS STATEMENTS.**

  The proof outline of `platform`, once for all properties:

    • §1  side conditions on interleavings (`Discipline.allow`),
    • §2  what each row lock protects from the commits of others
          (`Discipline.keeps`) and what every commit respects (`Rely`),
    • §3  what a transaction knows at each of its statements (`Txn.ok`), and
          that it keeps knowing it,
    • §4  what a commit can do (`Commit`),
    • §5  the outline: for every invariant of the commits.

  A property of all interleavings is then an invariant of `Commit`, and a
  reading of `Txn.ok` at the commit.
-/
import WebhookPlatform.Transactions

namespace WebhookPlatform

open Relational Transition RowLocks List

/-! ## §1. Side conditions. -/

/-- Which side conditions a run is held to. -/
structure Discipline where
  /-- Every row that the row-locking select of a claim locks is still due. -/
  due : Bool := false
  /-- Every replay inserts its copies while the events can be replayed. -/
  unpurged : Bool := false
  /-- Every claim commits tokens that nobody has used. -/
  fresh : Bool := false

/-- The statement of `l`, executed over `d` and taking the locks `got`, meets
the side conditions. -/
def Discipline.allow (p : Discipline) {s : Settings} (d : Shared) (l : Txn s) (got : List Lock) :
    Prop :=
  match l with
  | .claimRows k _ _ ids => p.due = true →
      ∀ x ∈ ids.filterMap d.db.deliveries.find?, Lock.delivery x.id ∈ got → x.due k.now = true
  | .claimWrite k _ _ => p.fresh = true → k.tokens.Nodup ∧ ∀ t ∈ k.tokens, t ∉ d.drawn
  | .replayInsert q => p.unpurged = true →
      ∀ x ∈ q.sources, (d.db.events.find? x.eventId).any Event.replayable = true
  | _ => True

variable {s : Settings}

instance {p : Discipline} {l : Txn s} : Decidable (p.allow d l got) := by
  cases l <;> dsimp only [Discipline.allow] <;> infer_instance

theorem Discipline.allow_default : Discipline.allow {} d l got := by
  cases l with
  | claimRows | claimWrite | replayInsert => exact fun h => absurd h (by decide)
  | _ => trivial

/-- A run held to no side condition. -/
theorem Discipline.allowed_default : Allowed (platform P s) (Discipline.allow {}) σ m σ' :=
  fun _ _ _ _ _ _ => Discipline.allow_default

/-! ## §2. What the locks protect. -/

/-- Two versions of one event: what no operation changes. -/
structure SameEvent (a b : Event) : Prop where
  id : b.id = a.id
  projectId : b.projectId = a.projectId
  idempotencyKey : b.idempotencyKey = a.idempotencyKey
  eventType : b.eventType = a.eventType
  envelopeMode : b.envelopeMode = a.envelopeMode
  payloadHash : b.payloadHash = a.payloadHash

/-- **A change of the data respects the lock `k`**: the locked row stays as it
is; under the scheduler's lock no event and no replay operation is added; and
an event that is locked for update gets no nonterminal delivery. -/
def Discipline.keeps (p : Discipline) (k : Lock) (d d' : Shared) : Prop :=
  match k with
  | .scheduler => d'.db.events.next = d.db.events.next
      ∧ (∀ projectId key, existingEvent d.db projectId key = none →
        existingEvent d'.db projectId key = none)
      ∧ d'.db.replayOperations = d.db.replayOperations
  | .tenant o => d'.db.tenantStates.find? o = d.db.tenantStates.find? o
  | .delivery i => ∀ x, d.db.deliveries.find? i = some x → d'.db.deliveries.find? i = some x
  | .event i => ∀ e, d.db.events.find? i = some e → d'.db.events.find? i = some e
      ∧ (p.due = true → hasNonterminalDelivery d.db i = false →
        hasNonterminalDelivery d'.db i = false)
  | .eventShare i => ∀ e, d.db.events.find? i = some e → d'.db.events.find? i = some e
  | _ => True

/-- What every commit respects. -/
structure Rely (d d' : Shared) : Prop where
  issued : ∀ c ∈ d.issued, c ∈ d'.issued
  endpoints : d'.db.endpoints = d.db.endpoints
  events : ∀ e ∈ d.db.events.rows, ∃ e' ∈ d'.db.events.rows, SameEvent e e'
  settled : d.settled <+: d'.settled
  versions : d'.db.secretVersions = d.db.secretVersions
  operations : d.db.replayOperations <+: d'.db.replayOperations

theorem SameEvent.refl (e : Event) : SameEvent e e := ⟨rfl, rfl, rfl, rfl, rfl, rfl⟩

theorem Rely.of_eq (issued : d'.issued = d.issued) (endpoints : d'.db.endpoints = d.db.endpoints)
    (events : d'.db.events = d.db.events) (versions : d'.db.secretVersions = d.db.secretVersions)
    (operations : d.db.replayOperations <+: d'.db.replayOperations)
    (settled : d.settled <+: d'.settled) : Rely d d' := by
  refine ⟨?_, endpoints, ?_, settled, versions, operations⟩
  · rw [issued]
    exact fun c hc => hc
  · rw [events]
    exact fun e he => ⟨e, he, SameEvent.refl e⟩

theorem Rely.refl (d : Shared) : Rely d d := Rely.of_eq rfl rfl rfl rfl prefix_rfl prefix_rfl

/-- A change that leaves the database alone respects every lock. -/
theorem Discipline.keeps_of_db_eq (p : Discipline) (h : d'.db = d.db) (k : Lock) :
    p.keeps k d d' := by
  unfold Discipline.keeps
  rw [h]
  cases k with
  | scheduler => exact ⟨rfl, fun _ _ h => h, rfl⟩
  | tenant => rfl
  | delivery => exact fun _ h => h
  | event => exact fun _ h => ⟨h, fun _ h => h⟩
  | eventShare => exact fun _ h => h
  | endpointState | eventEntry | operationEntry => trivial

/-! ## §3. What a transaction knows. -/

/-- A delivery that the transaction has locked is as it was read. -/
structure RowLocked (d : Shared) (H : List Lock) (x : Delivery) : Prop where
  lock : Lock.delivery x.id ∈ H
  row : x ∈ d.db.deliveries.rows

/-- The row a worker's call on the claim `c` has locked. -/
structure Held (d : Shared) (H : List Lock) (c : ClaimedDelivery) (x : Delivery) : Prop
    extends RowLocked d H x where
  issued : c ∈ d.issued
  id : x.id = c.id

/-- The candidates of a claim are locked. -/
structure Batch.Locked (p : Discipline) (G : Shared → Prop) (d : Shared) (H : List Lock)
    (k : ClaimCall) (b : Batch) : Prop where
  rows : ∀ x ∈ b.candidates, RowLocked d H x
  due : p.due = true → ∀ x ∈ b.candidates, x.due k.now = true
  nodup : (b.candidates.map Delivery.id).Nodup
  /-- They were read from data with the invariant. -/
  seen : ∃ d₀, G d₀ ∧ d₀.db = b.seen ∧ ∀ x ∈ b.candidates, x ∈ d₀.db.deliveries.rows

/-- The state rows of the candidates' tenants are locked. -/
structure Batch.Tenants (H : List Lock) (b : Batch) (tenants : Nat → TenantQuotaState) : Prop where
  locks : ∀ o ∈ b.organizationIds, Lock.tenant o ∈ H
  key : ∀ o, (tenants o).organizationId = o

/-- An admission holds the scheduler and the tenant's row, and has read it. -/
structure Admitting (s : Settings) (d : Shared) (H : List Lock) (organizationId : Nat) (now : Time)
    (tenant : TenantQuotaState) : Prop where
  scheduler : Lock.scheduler ∈ H
  lock : Lock.tenant organizationId ∈ H
  tenant : tenant = tenantState s d.db now organizationId

/-- Under the scheduler's lock nobody has used the key. -/
def Unused {s : Settings} (d : Shared) (q : Ingest s) : Prop :=
  existingEvent d.db q.project.id q.call.idempotencyKey = none

/-- The ingest has been charged from the tenant's committed balance. -/
structure Charged {s : Settings} (d : Shared) (H : List Lock) (q : Ingest s) (a : Acceptance) :
    Prop where
  scheduler : Lock.scheduler ∈ H
  lock : Lock.tenant q.project.organizationId ∈ H
  unused : Unused d q
  endpoints : a.endpoints = fanout d.db q.project.id q.call.eventType
  charged : chargeEvent s (tenantState s d.db q.now q.project.organizationId) q.now
    a.endpoints.length = .ok a.tenant

/-- A call that returned normally returned the event that holds its key,
which has the call's content. -/
def Answered (P : Primitives) (s : Settings) (d : Shared) (projectId : Nat) (call : IngestCall)
    (r : Except AppError Event) : Prop :=
  ∀ e, r = .ok e → ∃ content, call.content s = .ok content
    ∧ ∃ e' ∈ d.db.events.rows, e'.id = e.id ∧ e'.projectId = projectId
      ∧ e'.idempotencyKey = call.idempotencyKey ∧ e'.sameContent P content = true

/-- The project has no operation under the key. -/
def BulkCall.Unused (d : Shared) (q : BulkCall) : Prop :=
  existingOperation d.db q.project.id q.idempotencyKey = none

/-- A lookup of the call has missed: there was no operation under its key. -/
def BulkCall.Missed (G : Shared → Prop) (q : BulkCall) : Prop := ∃ d, G d ∧ q.Unused d

/-- The sources of a bulk replay are locked: for each id of the request a dead
delivery of the project. -/
structure BulkCall.Sourced (d : Shared) (H : List Lock) (q : BulkCall) (sources : List Delivery) :
    Prop where
  unused : q.Unused d
  rows : ∀ x ∈ sources, RowLocked d H x
  dead : ∀ x ∈ sources, x.status = .dead
  project : ∀ x ∈ sources, ofProject d.db q.project.id x = true
  nodup : q.deliveryIds.Nodup
  complete : ∀ id ∈ q.deliveryIds, ∃ x ∈ sources, x.publicId = id

/-- The event of the source was seen with its payload. -/
def Seen (G : Shared → Prop) (x : Delivery) : Prop :=
  ∃ d, G d ∧ (d.db.events.find? x.eventId).any Event.replayable = true

/-- The source has passed `_ensure_replayable`. -/
structure BulkCall.Checked (G : Shared → Prop) (d : Shared) (q : BulkCall) (x : Delivery) :
    Prop where
  seen : Seen G x
  version : ensureVersion d.db q.now x = .ok ()

/-- A call that returned normally returned the operation that holds its key,
for its own list; the conflict is raised for another list; and any other
refusal comes before the first query or from a call that missed. -/
structure BulkCall.Answered (s : Settings) (G : Shared → Prop) (d : Shared) (q : BulkCall)
    (r : Except AppError ReplayOperation) : Prop where
  ok : ∀ o, r = .ok o → o ∈ d.db.replayOperations ∧ o.projectId = q.project.id
    ∧ o.idempotencyKey = q.idempotencyKey ∧ o.sourceDeliveryIds = q.deliveryIds
  conflict : r = .error replayConflict → ∃ o ∈ d.db.replayOperations, o.projectId = q.project.id
    ∧ o.idempotencyKey = q.idempotencyKey ∧ o.sourceDeliveryIds ≠ q.deliveryIds
  other : ∀ e, r = .error e → e ≠ replayConflict →
    e ≠ .integrityError ∧ (q.validated s = .error e ∨ q.Missed G)

/-- What a bulk replay knows of its plan. -/
structure ReplayPlan.Bulk (G : Shared → Prop) (d : Shared) (H : List Lock) (c : BulkCall)
    (q : ReplayPlan) : Prop where
  plan : q = bulkPlan c q.sources q.tenant
  sources : c.Sourced d H q.sources
  checked : ∀ x ∈ q.sources, c.Checked G d x

/-- The copies are copies of the sources; a bulk replay has checked them. -/
structure ReplayPlan.Planned (G : Shared → Prop) (d : Shared) (H : List Lock) (q : ReplayPlan) :
    Prop where
  copies : ∀ f ∈ q.copies, ∃ x ∈ q.sources, ∃ publicId, f = replayCopy x publicId q.now
  bulk : ∀ c, q.bulk = some c → q.Bulk G d H c

/-- The size is within `bulk_replay_max_deliveries`. -/
def ReplayPlan.Sized (s : Settings) (q : ReplayPlan) : Prop :=
  1 ≤ q.count ∧ q.count ≤ s.bulkReplayMaxDeliveries

/-- The replay has been charged from the tenant's committed balance. -/
structure ReplayPlan.Charged (s : Settings) (G : Shared → Prop) (d : Shared) (H : List Lock)
    (q : ReplayPlan) : Prop extends q.Planned G d H where
  sized : q.Sized s
  scheduler : Lock.scheduler ∈ H
  lock : Lock.tenant q.organizationId ∈ H
  charged : chargeReplays s (tenantState s d.db q.now q.organizationId) q.now q.count
    = .ok q.tenant

/-- The copies are inserted: the events are share-locked. -/
structure ReplayPlan.Inserted (s : Settings) (p : Discipline) (G : Shared → Prop) (d : Shared)
    (H : List Lock) (q : ReplayPlan) : Prop extends q.Charged s G d H where
  shares : ∀ x ∈ q.sources, Lock.eventShare x.eventId ∈ H
  unpurged : p.unpurged = true → ∀ x ∈ q.sources,
    ∃ e, d.db.events.find? x.eventId = some e ∧ e.replayable = true

/-- The events of a purge are locked, and as they were read. -/
structure EventsLocked (d : Shared) (H : List Lock) (events : List Event) : Prop where
  locks : ∀ e ∈ events, Lock.event e.id ∈ H
  rows : ∀ e ∈ events, d.db.events.find? e.id = some e

/-- **What a transaction that holds the locks `H` knows** at its next
statement, when the shared data always has the invariant `G`. -/
def Txn.ok (P : Primitives) {s : Settings} (p : Discipline) (G : Shared → Prop) (d : Shared)
    (H : List Lock) : Txn s → Prop
  | .claimRows _ _ _ ids => ids.Nodup
  | .claimTenants k b => b.Locked p G d H k
  | .claimEndpoints k b tenants => b.Locked p G d H k ∧ b.Tenants H tenants
  | .claimTenantCounts k b tenants _ => b.Locked p G d H k ∧ b.Tenants H tenants
  | .claimEndpointCounts k b tenants _ _ => b.Locked p G d H k ∧ b.Tenants H tenants
  | .claimWrite k b r => b.Locked p G d H k ∧ b.Tenants H r.tenantStates
      ∧ r.candidates = b.candidates
  | .renewSelect _ c => c ∈ d.issued
  | .renewWrite now c x => Held d H c x ∧ c.holds now x = true
  | .releaseSelect _ c => c ∈ d.issued
  | .releaseWrite _ c x => Held d H c x ∧ c.owns x = true
  | .finalizeSelect _ c _ => c ∈ d.issued
  | .finalizeState now c _ x => Held d H c x ∧ c.holds now x = true
  | .finalizeWrite now c _ x _ => Held d H c x ∧ c.holds now x = true
  | .cancelState _ _ x => RowLocked d H x ∧ x.status.queued = true
  | .cancelWrite _ _ x _ => RowLocked d H x ∧ x.status.queued = true
  | .ingestTenant _ => Lock.scheduler ∈ H
  | .ingestRecheck q tenant => Admitting s d H q.project.organizationId q.now tenant
  | .ingestEndpoints q tenant _ => Admitting s d H q.project.organizationId q.now tenant
      ∧ Unused d q
  | .ingestBacklog q a => Admitting s d H q.project.organizationId q.now a.tenant ∧ Unused d q
      ∧ a.endpoints = fanout d.db q.project.id q.call.eventType
  | .ingestOldest q a => Admitting s d H q.project.organizationId q.now a.tenant ∧ Unused d q
      ∧ a.endpoints = fanout d.db q.project.id q.call.eventType
  | .ingestRetained q a => Admitting s d H q.project.organizationId q.now a.tenant ∧ Unused d q
      ∧ a.endpoints = fanout d.db q.project.id q.call.eventType
  | .ingestFlush q a => Charged d H q a
  | .ingestWrite q a eventId => Charged d H q a ∧ eventId = d.db.events.next
  | .ingestReturn q r => Answered P s d q.project.id q.call r
  | .ingested projectId call r => Answered P s d projectId call r
  | .replayTenant _ _ => Lock.scheduler ∈ H
  | .bulkTenant _ => Lock.scheduler ∈ H
  | .bulkRecheck q tenant => Admitting s d H q.project.organizationId q.now tenant
  | .bulkSelect q tenant => Admitting s d H q.project.organizationId q.now tenant ∧ q.Unused d
  | .bulkEvent q tenant sources x rest =>
    Admitting s d H q.project.organizationId q.now tenant ∧ q.Sourced d H sources
    ∧ ∃ checked, sources = checked ++ x :: rest ∧ ∀ y ∈ checked, q.Checked G d y
  | .bulkVersion q tenant sources x rest =>
    Admitting s d H q.project.organizationId q.now tenant ∧ q.Sourced d H sources ∧ Seen G x
    ∧ ∃ checked, sources = checked ++ x :: rest ∧ ∀ y ∈ checked, q.Checked G d y
  | .bulkReturn q r => q.Answered s G d r
  | .bulkReplayed q r => q.Answered s G d r
  | .replayBacklog q => Admitting s d H q.organizationId q.now q.tenant ∧ q.Sized s
      ∧ q.Planned G d H
  | .replayOldest q => Admitting s d H q.organizationId q.now q.tenant ∧ q.Sized s
      ∧ q.Planned G d H
  | .replayInsert q => q.Charged s G d H
  | .replayRecord q => q.Inserted s p G d H
  | .replayWrite q => q.Inserted s p G d H
      ∧ existingOperation d.db q.operation.projectId q.operation.idempotencyKey = none
  | .purgeUnsafe _ events => EventsLocked d H events
  | .purgeWrite _ events => EventsLocked d H events
      ∧ (p.due = true → ∀ e ∈ events, hasNonterminalDelivery d.db e.id = false)
  | _ => True

/-! Knowledge lasts while more locks are taken and others commit. -/

/-- **What may have happened since**: locks were taken, and others committed
what the locks that were held let them. -/
structure Later (p : Discipline) (d : Shared) (H : List Lock) (d' : Shared) (H' : List Lock) :
    Prop where
  locks : H ⊆ H'
  rely : Rely d d'
  keeps : ∀ k ∈ H, p.keeps k d d'

theorem tenantState_congr {now : Time} (h : db'.tenantStates.find? o = db.tenantStates.find? o) :
    tenantState s db' now o = tenantState s db now o := by
  unfold tenantState
  rw [h]

theorem fanout_congr (h : db'.endpoints = db.endpoints) (projectId : Nat) (eventType : String) :
    fanout db' projectId eventType = fanout db projectId eventType := by
  unfold fanout
  rw [h]

theorem SameEvent.sameContent (h : SameEvent a b) (c : Content) :
    b.sameContent P c = a.sameContent P c := by
  unfold Event.sameContent
  rw [h.eventType, h.envelopeMode, h.payloadHash]

section Later

variable {G : Shared → Prop}

theorem Later.lock (K : List Lock) : Later p d H d (H ++ K) :=
  ⟨subset_append_left H K, Rely.refl d, fun k _ => p.keeps_of_db_eq rfl k⟩

theorem Batch.Tenants.mono {b : Batch} (h : b.Tenants H tenants) (hlocks : H ⊆ H') :
    b.Tenants H' tenants :=
  ⟨fun o ho => hlocks (h.locks o ho), h.key⟩

variable {q : BulkCall} {plan : ReplayPlan} (hl : Later p d H d' H')

include hl

theorem RowLocked.later (h : RowLocked d H x) : RowLocked d' H' x := by
  have hkeep : ∀ y, d.db.deliveries.find? x.id = some y →
      d'.db.deliveries.find? x.id = some y := hl.keeps _ h.lock
  exact ⟨hl.locks h.lock, Table.mem_of_find? (hkeep x (Table.find?_key h.row))⟩

theorem Held.later (h : Held d H c x) : Held d' H' c x :=
  ⟨h.toRowLocked.later hl, hl.rely.issued c h.issued, h.id⟩

theorem Batch.Locked.later {b : Batch} (h : b.Locked p G d H k) : b.Locked p G d' H' k :=
  ⟨fun x hx => (h.rows x hx).later hl, h.due, h.nodup, h.seen⟩

theorem Admitting.later {now : Time} {tenant : TenantQuotaState}
    (h : Admitting s d H organizationId now tenant) : Admitting s d' H' organizationId now tenant :=
  ⟨hl.locks h.scheduler, hl.locks h.lock,
    h.tenant.trans (tenantState_congr (hl.keeps _ h.lock)).symm⟩

theorem Unused.later {q : Ingest s} (h : Unused d q) (hlock : Lock.scheduler ∈ H) : Unused d' q :=
  (hl.keeps _ hlock).2.1 _ _ h

theorem Charged.later {q : Ingest s} (h : Charged d H q a) : Charged d' H' q a := by
  refine ⟨hl.locks h.scheduler, hl.locks h.lock, h.unused.later hl h.scheduler, ?_, ?_⟩
  · rw [fanout_congr hl.rely.endpoints]
    exact h.endpoints
  · rw [tenantState_congr (hl.keeps _ h.lock)]
    exact h.charged

theorem Answered.later (h : Answered P s d projectId call r) :
    Answered P s d' projectId call r := by
  intro e he
  obtain ⟨content, hcontent, e', he', hid, hproject, hkey, hsame⟩ := h e he
  obtain ⟨e'', he'', hver⟩ := hl.rely.events e' he'
  exact ⟨content, hcontent, e'', he'', hver.id.trans hid, hver.projectId.trans hproject,
    hver.idempotencyKey.trans hkey, (hver.sameContent content).trans hsame⟩

/-- Under the scheduler's lock a free key of the operations stays free. -/
theorem operation_later (hlock : Lock.scheduler ∈ H)
    (h : existingOperation d.db projectId key = none) :
    existingOperation d'.db projectId key = none := by
  unfold existingOperation at h ⊢
  rw [(hl.keeps _ hlock).2.2]
  exact h

theorem ofProject_later (h : ofProject d.db projectId x = true) :
    ofProject d'.db projectId x = true := by
  unfold ofProject at h ⊢
  obtain ⟨e, he, hproject⟩ := (Option.any_eq_true _ _).mp h
  obtain ⟨hmem, hid⟩ := Table.find?_eq_some.mp he
  obtain ⟨e', he', hver⟩ := hl.rely.events e hmem
  refine (Option.any_eq_true _ _).mpr ⟨e', Table.find?_eq_some.mpr ⟨he', hver.id.trans hid⟩, ?_⟩
  rw [hver.projectId]
  exact hproject

theorem BulkCall.Sourced.later (h : q.Sourced d H sources) (hlock : Lock.scheduler ∈ H) :
    q.Sourced d' H' sources :=
  ⟨operation_later hl hlock h.unused, fun x hx => (h.rows x hx).later hl, h.dead,
    fun x hx => ofProject_later hl (h.project x hx), h.nodup, h.complete⟩

theorem BulkCall.Checked.later (h : q.Checked G d x) : q.Checked G d' x := by
  refine ⟨h.seen, ?_⟩
  have hversion := h.version
  unfold ensureVersion at hversion ⊢
  rw [hl.rely.versions]
  exact hversion

theorem BulkCall.Answered.later (h : q.Answered s G d r) : q.Answered s G d' r := by
  refine ⟨fun o ho => ?_, fun hc => ?_, h.other⟩
  · obtain ⟨hmem, hfacts⟩ := h.ok o ho
    exact ⟨hl.rely.operations.subset hmem, hfacts⟩
  · obtain ⟨o, hmem, hfacts⟩ := h.conflict hc
    exact ⟨o, hl.rely.operations.subset hmem, hfacts⟩

theorem ReplayPlan.Planned.later (h : plan.Planned G d H) (hlock : Lock.scheduler ∈ H) :
    plan.Planned G d' H' :=
  ⟨h.copies, fun c hc => ⟨(h.bulk c hc).plan, (h.bulk c hc).sources.later hl hlock,
    fun x hx => ((h.bulk c hc).checked x hx).later hl⟩⟩

theorem ReplayPlan.Charged.later (h : plan.Charged s G d H) : plan.Charged s G d' H' := by
  refine ⟨h.toPlanned.later hl h.scheduler, h.sized, hl.locks h.scheduler, hl.locks h.lock, ?_⟩
  rw [tenantState_congr (hl.keeps _ h.lock)]
  exact h.charged

theorem ReplayPlan.Inserted.later (h : plan.Inserted s p G d H) : plan.Inserted s p G d' H' := by
  refine ⟨h.toCharged.later hl, fun x hx => hl.locks (h.shares x hx), fun hp x hx => ?_⟩
  obtain ⟨e, he, hok⟩ := h.unpurged hp x hx
  have hkeep : ∀ e, d.db.events.find? x.eventId = some e →
      d'.db.events.find? x.eventId = some e := hl.keeps _ (h.shares x hx)
  exact ⟨e, hkeep e he, hok⟩

theorem EventsLocked.later (h : EventsLocked d H events) : EventsLocked d' H' events :=
  ⟨fun e he => hl.locks (h.locks e he), fun e he => ((hl.keeps _ (h.locks e he)) e (h.rows e he)).1⟩

/-- **Knowledge lasts.** -/
theorem Txn.ok_later {l : Txn s} (h : l.ok P p G d H) : l.ok P p G d' H' := by
  cases l with
  | claimRows => exact h
  | claimTenants => exact h.later hl
  | claimEndpoints | claimTenantCounts | claimEndpointCounts =>
    exact ⟨h.1.later hl, h.2.mono hl.locks⟩
  | claimWrite => exact ⟨h.1.later hl, h.2.1.mono hl.locks, h.2.2⟩
  | renewSelect | releaseSelect | finalizeSelect => exact hl.rely.issued _ h
  | renewWrite | releaseWrite | finalizeState | finalizeWrite => exact ⟨h.1.later hl, h.2⟩
  | cancelState | cancelWrite => exact ⟨h.1.later hl, h.2⟩
  | ingestTenant | replayTenant | bulkTenant => exact hl.locks h
  | ingestRecheck | bulkRecheck => exact h.later hl
  | ingestEndpoints => exact ⟨h.1.later hl, h.2.later hl h.1.scheduler⟩
  | ingestBacklog | ingestOldest | ingestRetained =>
    refine ⟨h.1.later hl, h.2.1.later hl h.1.scheduler, ?_⟩
    rw [fanout_congr hl.rely.endpoints]
    exact h.2.2
  | ingestFlush => exact h.later hl
  | ingestWrite => exact ⟨h.1.later hl, h.2.trans (hl.keeps _ h.1.scheduler).1.symm⟩
  | ingestReturn | ingested | bulkReturn | bulkReplayed => exact h.later hl
  | bulkSelect | replayWrite => exact ⟨h.1.later hl, operation_later hl h.1.scheduler h.2⟩
  | bulkEvent =>
    obtain ⟨hadmitting, hsources, checked, heq, hchecked⟩ := h
    exact ⟨hadmitting.later hl, hsources.later hl hadmitting.scheduler, checked, heq,
      fun y hy => (hchecked y hy).later hl⟩
  | bulkVersion =>
    obtain ⟨hadmitting, hsources, hseen, checked, heq, hchecked⟩ := h
    exact ⟨hadmitting.later hl, hsources.later hl hadmitting.scheduler, hseen, checked, heq,
      fun y hy => (hchecked y hy).later hl⟩
  | replayBacklog | replayOldest => exact ⟨h.1.later hl, h.2.1, h.2.2.later hl h.1.scheduler⟩
  | replayInsert | replayRecord => exact h.later hl
  | purgeUnsafe => exact h.later hl
  | purgeWrite =>
    refine ⟨h.1.later hl, fun hp e he => ?_⟩
    exact ((hl.keeps _ (h.1.locks e he)) e (h.1.rows e he)).2 hp (h.2 hp e he)
  | claimGlobal | claimLive | claimScan | claimNothing | cancelSelect | ingestCheck | ingestGlobal
  | ingestRaced | ingestReread | replaySelect | replayEvent | replayVersion
  | replayGlobal | bulkCheck | bulkGlobal | purgeSelect | rollback | returned => trivial

end Later

/-! ## §4. What a commit changes. -/

/-- **What a commit can do** to the shared data, with what the transaction
knows of it. -/
inductive Commit (P : Primitives) (s : Settings) (p : Discipline) (d : Shared) : Shared → Prop where
  | idle : Commit P s p d d
  | ensured (now : Time) : Commit P s p d { d with db := ensureGlobalState now d.db }
  | claimed (k : ClaimCall) (b : Batch) (r : Reads) (claims : List ClaimedDelivery)
      (rows : ∀ x ∈ r.candidates, x ∈ d.db.deliveries.rows)
      (due : p.due = true → ∀ x ∈ r.candidates, x.due k.now = true)
      (nodup : (r.candidates.map Delivery.id).Nodup)
      (fresh : p.fresh = true → k.tokens.Nodup ∧ ∀ t ∈ k.tokens, t ∉ d.drawn)
      (built : claimAll b.seen (claimPicks s k b r) = .ok claims) :
      Commit P s p d (Shared.claimed s k b r claims d)
  | renewed (now : Time) (c : ClaimedDelivery) (x : Delivery) (row : x ∈ d.db.deliveries.rows)
      (issued : c ∈ d.issued) (id : x.id = c.id) (holds : c.holds now x = true) :
      Commit P s p d { d with db.deliveries := d.db.deliveries.put (renewRow s now x) }
  | released (now : Time) (c : ClaimedDelivery) (x : Delivery) (row : x ∈ d.db.deliveries.rows)
      (issued : c ∈ d.issued) (id : x.id = c.id) (owns : c.owns x = true) :
      Commit P s p d { d with
        db.deliveries := d.db.deliveries.put (releaseRow now x), settled := d.settled ++ [c] }
  | finalized (now : Time) (c : ClaimedDelivery) (f : Finalization) (x : Delivery)
      (e : EndpointQuotaState) (row : x ∈ d.db.deliveries.rows) (issued : c ∈ d.issued)
      (id : x.id = c.id) (holds : c.holds now x = true) :
      Commit P s p d (Shared.finalized s now c f x e d)
  | canceled (now : Time) (reason : Option String) (x : Delivery)
      (state : Option EndpointQuotaState) (row : x ∈ d.db.deliveries.rows)
      (queued : x.status.queued = true) :
      Commit P s p d { d with db := cancelWrite now reason x state d.db }
  | ingested (q : Ingest s) (a : Acceptance) (unused : Unused d q)
      (endpoints : a.endpoints = fanout d.db q.project.id q.call.eventType)
      (charged : chargeEvent s (tenantState s d.db q.now q.project.organizationId) q.now
        a.endpoints.length = .ok a.tenant) :
      Commit P s p d { d with
        db := acceptEvent P s q.now q.project q.call q.content a.envelopeBytes a.endpoints
          a.tenant d.db }
  | replayed (q : ReplayPlan)
      (copies : ∀ f ∈ q.copies, ∃ x ∈ q.sources, ∃ publicId, f = replayCopy x publicId q.now)
      (unpurged : p.unpurged = true → ∀ x ∈ q.sources,
        ∃ e, d.db.events.find? x.eventId = some e ∧ e.replayable = true)
      (unused : existingOperation d.db q.operation.projectId q.operation.idempotencyKey = none) :
      Commit P s p d { d with
        db := acceptReplays s q.now q.organizationId q.tenant q.copies q.operation d.db }
  | purged (now : Time) (events : List Event)
      (rows : ∀ e ∈ events, d.db.events.find? e.id = some e)
      (terminal : p.due = true → ∀ e ∈ events, hasNonterminalDelivery d.db e.id = false) :
      Commit P s p d { d with
        db.events := d.db.events.putAll (events.map (purgeRow now)) }

section Footprint

variable {p : Discipline} {G : Shared → Prop} {d d' : Shared}

/-- Transactions that hold `H` let the lock `k` be held by others. -/
def Free (H : List Lock) (k : Lock) : Prop := ∀ h ∈ H, h.conflict k = false

theorem Free.not_mem (hfree : Free H k) (hself : k.conflict k = true) : k ∉ H := by
  intro hmem
  have := hfree k hmem
  rw [hself] at this
  exact absurd this (by decide)

variable {x : Delivery} {c : ClaimedDelivery} {events : List Event}

theorem Free.delivery_ne (hfree : Free H (.delivery i)) (hx : Lock.delivery x.id ∈ H) :
    x.id ≠ i := by
  intro h
  rw [h] at hx
  exact hfree.not_mem (by simp [Lock.conflict]) hx

/-- **New versions of locked rows** respect the locks of others. -/
theorem keeps_putAll (ys : List Delivery)
    (deliveries : d'.db.deliveries = d.db.deliveries.putAll ys)
    (events : d'.db.events = d.db.events)
    (operations : d'.db.replayOperations = d.db.replayOperations)
    (versions : ∀ y ∈ ys, ∃ x, RowLocked d H x ∧ y.id = x.id ∧ y.eventId = x.eventId
      ∧ (p.due = true → y.status.terminal = false → x.status.terminal = false))
    (tenants : ∀ o, Free H (.tenant o) → d'.db.tenantStates.find? o = d.db.tenantStates.find? o)
    (k : Lock) (hfree : Free H k) : p.keeps k d d' := by
  cases k with
  | scheduler =>
    show d'.db.events.next = _ ∧ _
    unfold existingEvent
    rw [events]
    exact ⟨rfl, fun _ _ h => h, operations⟩
  | tenant o => exact tenants o hfree
  -- a row that somebody else has locked is not among the new versions
  | delivery =>
    intro x hx
    rw [deliveries, Serial.putAll_toTable, Table.find?_putAll_ne]
    · exact hx
    · intro y hy
      obtain ⟨x, hx, hid, -, -⟩ := versions y hy
      rw [hid]
      exact hfree.delivery_ne hx.lock
  | event =>
    intro e he
    rw [events]
    refine ⟨he, fun hp hnone => ?_⟩
    rw [hasNonterminalDelivery_false] at hnone ⊢
    intro y hy hyi
    rw [deliveries, Serial.putAll_toTable] at hy
    rcases Table.mem_putAll hy with hy | ⟨hy, -⟩
    · -- a version of a terminal row is terminal
      obtain ⟨x, hx, -, hev, hterm⟩ := versions y hy
      have hx := hnone x hx.row (hev.symm.trans hyi)
      by_contra hnot
      rw [hterm hp (by simpa using hnot)] at hx
      exact absurd hx (by decide)
    · exact hnone y hy hyi
  | eventShare =>
    intro e he
    rw [events]
    exact he
  | endpointState | eventEntry | operationEntry => trivial

/-- **New rows** respect the locks of others, when the locked events are not
theirs. -/
theorem keeps_append (deliveries : d'.db.deliveries.rows = d.db.deliveries.rows ++ new)
    (events : ∀ i e, d.db.events.find? i = some e → d'.db.events.find? i = some e)
    (scheduler : Free H .scheduler →
      d'.db.events = d.db.events ∧ d'.db.replayOperations = d.db.replayOperations)
    (others : ∀ i e, Free H (.event i) → d.db.events.find? i = some e → ∀ y ∈ new, y.eventId ≠ i)
    (tenants : ∀ o, Free H (.tenant o) → d'.db.tenantStates.find? o = d.db.tenantStates.find? o)
    (k : Lock) (hfree : Free H k) : p.keeps k d d' := by
  cases k with
  | scheduler =>
    show d'.db.events.next = _ ∧ _
    unfold existingEvent
    rw [(scheduler hfree).1]
    exact ⟨rfl, fun _ _ h => h, (scheduler hfree).2⟩
  | tenant o => exact tenants o hfree
  -- an insertion edits no row that is there
  | delivery =>
    intro x hx
    obtain ⟨hmem, hid⟩ := Table.find?_eq_some.mp hx
    rw [Table.find?_eq_some, deliveries]
    exact ⟨mem_append_left _ hmem, hid⟩
  -- a locked event gets no new delivery: `others`
  | event i =>
    intro e he
    refine ⟨events i e he, fun _ hnone => ?_⟩
    rw [hasNonterminalDelivery_false] at hnone ⊢
    intro y hy hyi
    rw [deliveries] at hy
    rcases mem_append.mp hy with hy | hy
    · exact hnone y hy hyi
    · exact absurd hyi (others i e hfree he y hy)
  | eventShare i => exact events i
  | endpointState | eventEntry | operationEntry => trivial

/-- A commit that is one of `Commit` and respects every lock that the
committer's own locks leave free. -/
structure Lawful (P : Primitives) (s : Settings) (p : Discipline) (d : Shared) (H : List Lock)
    (d' : Shared) : Prop where
  commit : Commit P s p d d'
  rely : Rely d d'
  keeps : ∀ k, Free H k → p.keeps k d d'

theorem lawful_idle : Lawful P s p d H d := ⟨.idle, Rely.refl d, fun k _ => p.keeps_of_db_eq rfl k⟩

/-- One locked row is replaced. -/
theorem keeps_put (deliveries : d'.db.deliveries = d.db.deliveries.put y)
    (events : d'.db.events = d.db.events)
    (operations : d'.db.replayOperations = d.db.replayOperations)
    (tenants : d'.db.tenantStates = d.db.tenantStates) (hx : RowLocked d H x)
    (same : SameDelivery x y) (live : x.status.terminal = false) (k : Lock) (hfree : Free H k) :
    p.keeps k d d' := by
  refine keeps_putAll [y] deliveries events operations ?_ (fun o _ => by rw [tenants]) k hfree
  intro z hz
  rw [mem_singleton.mp hz]
  exact ⟨x, hx, same.id, same.eventId, fun _ _ => live⟩

theorem ClaimedDelivery.nonterminal_of_owns (h : c.owns x = true) : x.status.terminal = false := by
  rw [(ClaimedDelivery.owns_iff.mp h).1]
  rfl

theorem lawful_renewed (h : Held d H c x) (holds : c.holds now x = true) :
    Lawful P s p d H { d with db.deliveries := d.db.deliveries.put (renewRow s now x) } :=
  ⟨.renewed now c x h.row h.issued h.id holds, Rely.of_eq rfl rfl rfl rfl prefix_rfl prefix_rfl,
    keeps_put rfl rfl rfl rfl h.toRowLocked ⟨rfl, rfl, rfl, rfl⟩
      (ClaimedDelivery.nonterminal_of_owns (ClaimedDelivery.owns_of_holds holds))⟩

theorem lawful_released (h : Held d H c x) (owns : c.owns x = true) : Lawful P s p d H { d with
      db.deliveries := d.db.deliveries.put (releaseRow now x), settled := d.settled ++ [c] } :=
  ⟨.released now c x h.row h.issued h.id owns,
    Rely.of_eq rfl rfl rfl rfl prefix_rfl (prefix_append _ _),
    keeps_put rfl rfl rfl rfl h.toRowLocked ⟨rfl, rfl, rfl, rfl⟩
      (ClaimedDelivery.nonterminal_of_owns owns)⟩

theorem lawful_finalized (h : Held d H c x) (holds : c.holds now x = true) :
    Lawful P s p d H (Shared.finalized s now c f x e d) := by
  have hcommit : Commit P s p d (Shared.finalized s now c f x e d) :=
    .finalized now c f x e h.row h.issued h.id holds
  unfold Shared.finalized at hcommit ⊢
  split
  next hrecorded =>
    rw [if_pos hrecorded] at hcommit
    exact ⟨hcommit, Rely.refl d, fun k _ => p.keeps_of_db_eq rfl k⟩
  next hrecorded =>
    rw [if_neg hrecorded] at hcommit
    exact ⟨hcommit, Rely.of_eq rfl rfl rfl rfl prefix_rfl (prefix_append _ _),
      keeps_put rfl rfl rfl rfl h.toRowLocked (finalizeRow_same s now c f x)
        (ClaimedDelivery.nonterminal_of_owns (ClaimedDelivery.owns_of_holds holds))⟩

theorem lawful_canceled (h : RowLocked d H x) (queued : x.status.queued = true) :
    Lawful P s p d H { d with db := cancelWrite now reason x state d.db } :=
  ⟨.canceled now reason x state h.row queued, Rely.of_eq rfl rfl rfl rfl prefix_rfl prefix_rfl,
    keeps_put rfl rfl rfl rfl h ⟨rfl, rfl, rfl, rfl⟩ (DeliveryStatus.nonterminal_of_queued queued)⟩

/-- A claim writes the deliveries and the state rows, and nothing else. -/
theorem Shared.claimed_frame (k : ClaimCall) (b : Batch) (r : Reads)
    (claims : List ClaimedDelivery) (d : Shared) :
    ∃ g ts es, (Shared.claimed s k b r claims d).db = { d.db with
          globalState := g, tenantStates := ts, endpointStates := es
          deliveries := d.db.deliveries.putAll (claimedRows s k.now (claimPicks s k b r)) } := by
  obtain ⟨g, ts, es, hframe⟩ := Reads.store_frame s k.now r (r.choose s k.now b.available) d.db
  refine ⟨g, ts, es, ?_⟩
  unfold Shared.claimed
  rw [hframe]

/-- What a claim picks is among its candidates, each of them once. -/
theorem mem_claimPicks (hnodup : (r.candidates.map Delivery.id).Nodup) {x : Delivery × Uuid}
    (hx : x ∈ claimPicks s k b r) : x.1 ∈ r.candidates :=
  (Reads.choose_choice s k.now b.available r hnodup).subset x.1 (of_mem_zip hx).1

theorem claimPicks_nodup (hnodup : (r.candidates.map Delivery.id).Nodup) :
    ((claimPicks s k b r).map fun x => x.1.id).Nodup := by
  have hfst : ((claimPicks s k b r).map Prod.fst).Sublist
      (r.choose s k.now b.available).selected := fst_zip_sublist _ _
  have hsub := hfst.map Delivery.id
  rw [map_map] at hsub
  exact (Reads.choose_choice s k.now b.available r hnodup).nodup.sublist hsub

theorem Batch.Locked.mem_of_pick
    (hb : b.Locked p G d H k) (hr : r.candidates = b.candidates) {x : Delivery × Uuid}
    (hx : x ∈ claimPicks s k b r) : x.1 ∈ b.candidates := by
  rw [← hr]
  refine mem_claimPicks ?_ hx
  rw [hr]
  exact hb.nodup

theorem lawful_claimed (hb : b.Locked p G d H k) (ht : b.Tenants H r.tenantStates)
    (hr : r.candidates = b.candidates)
    (hfresh : p.fresh = true → k.tokens.Nodup ∧ ∀ t ∈ k.tokens, t ∉ d.drawn)
    (built : claimAll b.seen (claimPicks s k b r) = .ok claims) :
    Lawful P s p d H (Shared.claimed s k b r claims d) := by
  have hnodup : (r.candidates.map Delivery.id).Nodup := by
    rw [hr]
    exact hb.nodup
  have horgs : r.organizationIds = b.organizationIds := by
    unfold Reads.organizationIds Batch.organizationIds
    rw [hr]
  obtain ⟨g, ts, es, hframe⟩ := Shared.claimed_frame (s := s) k b r claims d
  have hevents : (Shared.claimed s k b r claims d).db.events = d.db.events := by
    rw [hframe]
  have hoperations : (Shared.claimed s k b r claims d).db.replayOperations
      = d.db.replayOperations := by
    rw [hframe]
  refine ⟨.claimed k b r claims ?_ ?_ hnodup hfresh built, ⟨?_, ?_, ?_, prefix_rfl, ?_, ?_⟩, ?_⟩
  · intro x hx
    rw [hr] at hx
    exact (hb.rows x hx).row
  · rw [hr]
    exact hb.due
  · exact fun c hc => mem_append_left _ hc
  · rw [hframe]
  · rw [hevents]
    exact fun e he => ⟨e, he, SameEvent.refl e⟩
  · rw [hframe]
  · rw [hoperations]
  · refine keeps_putAll (claimedRows s k.now (claimPicks s k b r)) rfl hevents hoperations ?_ ?_
    · intro y hy
      obtain ⟨x, hx, rfl⟩ := mem_map.mp hy
      have hmem : x.1 ∈ b.candidates := hb.mem_of_pick hr hx
      exact ⟨x.1, hb.rows x.1 hmem, rfl, rfl, fun hp _ =>
        Delivery.nonterminal_of_due (hb.due hp x.1 hmem)⟩
    · intro o hfree
      show (r.store s k.now (r.choose s k.now b.available) d.db).tenantStates.find? o = _
      rw [Reads.find?_store_tenant (Reads.choose_tenantKey ht.key), if_neg]
      intro ho
      rw [horgs] at ho
      exact hfree.not_mem (by simp [Lock.conflict]) (ht.locks o ho)

section Copies

variable {q : ReplayPlan}
  (copies : ∀ f ∈ q.copies, ∃ x ∈ q.sources, ∃ publicId, f = replayCopy x publicId q.now)

include copies

/-- The rows that a replay adds are copies of its sources. -/
theorem mem_copies (hy : y ∈ Serial.built n q.copies) :
    ∃ x ∈ q.sources, ∃ publicId m, y = replayCopy x publicId q.now m := by
  obtain ⟨f, hf, m, rfl⟩ := Serial.mem_built hy
  obtain ⟨x, hx, publicId, rfl⟩ := copies f hf
  exact ⟨x, hx, publicId, m, rfl⟩

theorem acceptReplays_deliveries (db : Db) :
    (acceptReplays s q.now q.organizationId q.tenant q.copies q.operation db).deliveries.rows
      = db.deliveries.rows ++ Serial.built db.deliveries.next q.copies := by
  refine Serial.rows_appendAll ?_ _
  intro f hf n
  obtain ⟨x, -, publicId, rfl⟩ := copies f hf
  rfl

end Copies

theorem ReplayPlan.Charged.key {q : ReplayPlan} (h : q.Charged s G d H) :
    q.tenant.organizationId = q.organizationId :=
  (chargeReplays_ok h.charged).1.trans (tenantState_organizationId _ _ _)

theorem lawful_replayed {q : ReplayPlan} (h : q.Inserted s p G d H)
    (hunused : existingOperation d.db q.operation.projectId q.operation.idempotencyKey = none) :
    Lawful P s p d H { d with
      db := acceptReplays s q.now q.organizationId q.tenant q.copies q.operation d.db } := by
  refine ⟨.replayed q h.copies h.unpurged hunused,
    Rely.of_eq rfl rfl rfl rfl (prefix_append _ _) prefix_rfl, ?_⟩
  refine keeps_append (acceptReplays_deliveries h.copies d.db) (fun _ _ he => he) ?_ ?_ ?_
  · exact fun hfree => absurd h.scheduler (hfree.not_mem (by simp [Lock.conflict]))
  · -- the copies' events are share-locked, so no other transaction has them for update
    intro i e hfree _ y hy hyi
    obtain ⟨x, hx, publicId, n, rfl⟩ := mem_copies h.copies hy
    have hconflict := hfree _ (h.shares x hx)
    have heq : x.eventId = i := hyi
    simp [Lock.conflict, heq] at hconflict
  · intro o hfree
    refine find?_charged h.toCharged.key fun ho => ?_
    have hlock := h.lock
    rw [ho] at hlock
    exact hfree.not_mem (by simp [Lock.conflict]) hlock

/-- The events after an ingest are those before it and the new one. -/
theorem acceptEvent_events (q : Ingest s) (a : Acceptance) (db : Db) :
    (acceptEvent P s q.now q.project q.call q.content a.envelopeBytes a.endpoints a.tenant
      db).events.rows
      = db.events.rows
        ++ [newEvent P q.project q.call q.content a.envelopeBytes q.now db.events.next] :=
  Serial.rows_append rfl

theorem acceptEvent_deliveries (q : Ingest s) (a : Acceptance) (db : Db) :
    (acceptEvent P s q.now q.project q.call q.content a.envelopeBytes a.endpoints a.tenant
      db).deliveries.rows
      = db.deliveries.rows ++ Serial.built db.deliveries.next
        (newDeliveries q.project.organizationId db.events.next q.call a.endpoints q.now) := by
  refine Serial.rows_appendAll ?_ _
  intro f hf n
  obtain ⟨x, -, rfl⟩ := mem_map.mp hf
  rfl

/-- An event that was there stays, under its id. -/
theorem acceptEvent_find? (q : Ingest s) (a : Acceptance) (he : db.events.find? i = some e) :
    (acceptEvent P s q.now q.project q.call q.content a.envelopeBytes a.endpoints a.tenant
      db).events.find? i = some e := by
  obtain ⟨hmem, hid⟩ := Table.find?_eq_some.mp he
  rw [Table.find?_eq_some, acceptEvent_events]
  exact ⟨mem_append_left _ hmem, hid⟩

/-- The rows that an ingest adds, one for an endpoint. -/
theorem mem_newDeliveries
    (hy : y ∈ Serial.built n (newDeliveries organizationId eventId call endpoints now)) :
    ∃ w publicId m, y = newDelivery organizationId eventId publicId w now m := by
  obtain ⟨f, hf, m, rfl⟩ := Serial.mem_built hy
  obtain ⟨w, -, rfl⟩ := mem_map.mp hf
  exact ⟨w.1, call.deliveryPublicId w.2, m, rfl⟩

theorem lawful_ingested {q : Ingest s} (h : Charged d H q a) : Lawful P s p d H { d with
      db := acceptEvent P s q.now q.project q.call q.content a.envelopeBytes a.endpoints
        a.tenant d.db } := by
  refine ⟨.ingested q a h.unused h.endpoints h.charged,
    ⟨fun c hc => hc, rfl, ?_, prefix_rfl, rfl, prefix_rfl⟩, ?_⟩
  · intro e he
    refine ⟨e, ?_, SameEvent.refl e⟩
    rw [acceptEvent_events]
    exact mem_append_left _ he
  · refine keeps_append (acceptEvent_deliveries q a d.db) ?_ ?_ ?_ ?_
    · exact fun i e he => acceptEvent_find? q a he
    · exact fun hfree => absurd h.scheduler (hfree.not_mem (by simp [Lock.conflict]))
    · -- the new deliveries belong to the new event
      intro i e _ he y hy hyi
      obtain ⟨hmem, hid⟩ := Table.find?_eq_some.mp he
      have hlt := d.db.events.lt_next e hmem
      obtain ⟨w, publicId, n, rfl⟩ := mem_newDeliveries hy
      have hnext : d.db.events.next = i := hyi
      omega
    · intro o hfree
      refine find?_charged ?_ fun ho => ?_
      · exact (chargeEvent_ok h.charged).1.trans (tenantState_organizationId _ _ _)
      · have hlock := h.lock
        rw [ho] at hlock
        exact hfree.not_mem (by simp [Lock.conflict]) hlock

theorem existingEvent_none : existingEvent db projectId key = none
      ↔ ∀ e ∈ db.events.rows, e.projectId = projectId → e.idempotencyKey ≠ key := by
  unfold existingEvent
  rw [List.find?_eq_none]
  simp

/-- After a purge an event is as it was, or purged. -/
theorem mem_purged_cases (h : ∀ e ∈ events, d.db.events.find? e.id = some e)
    (he' : e' ∈ (d.db.events.putAll (events.map (purgeRow now))).rows) :
    e' ∈ d.db.events.rows ∨ ∃ e ∈ d.db.events.rows, e' = purgeRow now e := by
  rw [Serial.putAll_toTable] at he'
  rcases Table.mem_putAll he' with he' | ⟨he', -⟩
  · obtain ⟨e, he, rfl⟩ := mem_map.mp he'
    exact Or.inr ⟨e, Table.mem_of_find? (h e he), rfl⟩
  · exact Or.inl he'

/-- A purged event is a version of the event. -/
theorem mem_purged (h : ∀ e ∈ events, d.db.events.find? e.id = some e)
    (he' : e' ∈ (d.db.events.putAll (events.map (purgeRow now))).rows) :
    ∃ e ∈ d.db.events.rows, SameEvent e e' := by
  rcases mem_purged_cases h he' with he' | ⟨e, he, rfl⟩
  · exact ⟨e', he', SameEvent.refl e'⟩
  · exact ⟨e, he, rfl, rfl, rfl, rfl, rfl, rfl⟩

theorem lawful_purged (h : EventsLocked d H events)
    (terminal : p.due = true → ∀ e ∈ events, hasNonterminalDelivery d.db e.id = false) :
    Lawful P s p d H { d with
      db.events := d.db.events.putAll (events.map (purgeRow now)) } := by
  refine ⟨.purged now events h.rows terminal,
    ⟨fun c hc => hc, rfl, ?_, prefix_rfl, rfl, prefix_rfl⟩, ?_⟩
  · intro e he
    have hid : e.id ∈ (d.db.events.putAll (events.map (purgeRow now))).rows.map Event.id := by
      rw [Serial.putAll_toTable, Table.keys_putAll]
      exact mem_map_of_mem he
    obtain ⟨e', he', hee'⟩ := mem_map.mp hid
    obtain ⟨e₀, he₀, hver⟩ := mem_purged h.rows he'
    have heq : e₀ = e := d.db.events.eq_of_key_eq he₀ he (hver.id.symm.trans hee')
    subst heq
    exact ⟨e', he', hver⟩
  · intro k hfree
    -- an event outside the batch is found as before
    have hfound : ∀ i, (∀ e ∈ events, e.id ≠ i) →
        (d.db.events.putAll (events.map (purgeRow now))).find? i = d.db.events.find? i := by
      intro i hne
      rw [Serial.putAll_toTable]
      apply Table.find?_putAll_ne
      intro b hb
      obtain ⟨e, he, rfl⟩ := mem_map.mp hb
      exact hne e he
    cases k with
    | scheduler =>
      refine ⟨Serial.putAll_next _ _, fun projectId key hnone => ?_, rfl⟩
      rw [existingEvent_none] at hnone ⊢
      intro e' he' hproject hkey
      obtain ⟨e, he, hver⟩ := mem_purged h.rows he'
      exact hnone e he (hver.projectId.symm.trans hproject) (hver.idempotencyKey.symm.trans hkey)
    | tenant => rfl
    | delivery => exact fun x hx => hx
    | event i =>
      intro e he
      refine ⟨?_, fun _ hnone => hnone⟩
      refine (hfound i fun x hx hxi => ?_).trans he
      have hconflict := hfree _ (h.locks x hx)
      simp [Lock.conflict, hxi] at hconflict
    | eventShare i =>
      intro e he
      refine (hfound i fun x hx hxi => ?_).trans he
      have hconflict := hfree _ (h.locks x hx)
      simp [Lock.conflict, hxi] at hconflict
    | endpointState | eventEntry | operationEntry => trivial

end Footprint

/-! ## §5. The outline. -/

section Obligations

variable {G : Shared → Prop} {d : Shared} {l : Txn s}

theorem answered_error (projectId : Nat) (call : IngestCall) (e : AppError) :
    Answered P s d projectId call (.error e) :=
  fun _ h => absurd h (by simp)

/-- An answer from the event that holds the key. -/
theorem answered_reuse {q : Ingest s}
    (h : existingEvent d.db q.project.id q.call.idempotencyKey = some e) :
    Answered P s d q.project.id q.call (reuseEvent P e q.content) := by
  intro e' he'
  obtain ⟨rfl, hsame⟩ := reuseEvent_ok he'
  have hfound := List.find?_some h
  simp only [Bool.and_eq_true, decide_eq_true_eq] at hfound
  exact ⟨q.content, q.valid, e', mem_of_find?_eq_some h, rfl, hfound.1, hfound.2, hsame⟩

variable {q : BulkCall} {next : Txn s}

theorem ok_ingestLookup {q : Ingest s}
    (hnext : Unused d q → next.ok P p G d H) : (ingestLookup P q next d).ok P p G d H := by
  unfold ingestLookup
  split
  next e he => exact answered_reuse he
  next hnone => exact hnext hnone

theorem answered_answer (q : Ingest s) :
    Answered P s d q.project.id q.call (ingestAnswer P q d) := by
  unfold ingestAnswer
  split
  next e he => exact answered_reuse he
  · exact answered_error _ _ _

/-- An answer from the operation that holds the key. -/
theorem answered_reuseOperation
    (h : existingOperation d.db q.project.id q.idempotencyKey = some o) :
    q.Answered s G d (reuseOperation o q.deliveryIds) := by
  have hfound := List.find?_some h
  simp only [Bool.and_eq_true, decide_eq_true_eq] at hfound
  have hmem : o ∈ d.db.replayOperations := mem_of_find?_eq_some h
  unfold reuseOperation
  split
  next hsame =>
    refine ⟨fun o' ho' => ?_, fun hc => absurd hc (by simp), fun e he => absurd he (by simp)⟩
    cases ho'
    exact ⟨hmem, hfound.1, hfound.2, hsame⟩
  next hother =>
    refine ⟨fun o' ho' => absurd ho' (by simp), fun _ => ⟨o, hmem, hfound.1, hfound.2, hother⟩, ?_⟩
    intro e he hne
    injection he with he
    exact absurd he.symm hne

/-- A refusal that is not about the key. -/
def AppError.Unkeyed (e : AppError) : Prop := e ≠ replayConflict ∧ e ≠ .integrityError

theorem ensureVersion_unkeyed {now : Time} (h : ensureVersion db now x = .error e) : e.Unkeyed := by
  unfold ensureVersion at h
  split at h
  · cases h
    exact ⟨by decide, by decide⟩
  split at h
  · cases h
    exact ⟨by decide, by decide⟩
  · cases h

theorem quotaExceeded_unkeyed (quota : String) (wait : Nat) :
    (AppError.quotaExceeded quota wait).Unkeyed :=
  ⟨by simp [replayConflict], by simp⟩

theorem chargeReplays_unkeyed {now : Time} (h : chargeReplays s state now n = .error e) :
    e.Unkeyed := by
  unfold chargeReplays at h
  split at h
  · cases h
    exact quotaExceeded_unkeyed _ _
  · cases h
    exact quotaExceeded_unkeyed _ _
  · cases h

theorem validated_unkeyed (h : q.validated s = .error e) :
    e.Unkeyed := by
  unfold BulkCall.validated at h
  split at h
  · cases h
    exact ⟨by decide, by decide⟩
  split at h
  · cases h
    exact ⟨by decide, by decide⟩
  · cases h

/-- A refusal before the first query, or of a call that missed. -/
theorem answered_refused (he : e.Unkeyed)
    (hwhy : q.validated s = .error e ∨ q.Missed G) : q.Answered s G d (.error e) := by
  refine ⟨fun o ho => absurd ho (by simp), fun hc => ?_, fun e' he' _ => ?_⟩
  · injection hc with hc
    exact absurd hc he.1
  · cases he'
    exact ⟨he.2, hwhy⟩

theorem ok_bulkLookup (hnext : q.Unused d → next.ok P p G d H) :
    (bulkLookup q next d).ok P p G d H := by
  unfold bulkLookup
  split
  next o ho => exact answered_reuseOperation ho
  next hnone => exact hnext hnone

/-- A plan that is refused answers its bulk call, which has missed. -/
theorem ok_refuse {q : ReplayPlan} (hG : G d) (h : q.Planned G d H)
    (he : e.Unkeyed) : (q.refuse e : Txn s).ok P p G d H := by
  unfold ReplayPlan.refuse
  split
  · trivial
  next c hc => exact answered_refused he (Or.inr ⟨d, hG, (h.bulk c hc).sources.unused⟩)

theorem ok_admitPlan {q : ReplayPlan} (hG : G d)
    (hadmitting : Admitting s d H q.organizationId q.now q.tenant) (h : q.Planned G d H) :
    (admitPlan s q).ok P p G d H := by
  unfold admitPlan
  split
  · exact ok_refuse hG h (quotaExceeded_unkeyed _ _)
  next hsize =>
    rw [not_or, not_lt, not_lt] at hsize
    exact ⟨hadmitting, hsize, h⟩

theorem ok_bulkNext (hG : G d) (hadmitting : Admitting s d H q.project.organizationId q.now tenant)
    (hsources : q.Sourced d H sources) (rest : List Delivery) (heq : sources = checked ++ rest)
    (hchecked : ∀ y ∈ checked, q.Checked G d y) :
    (bulkNext s q tenant sources rest).ok P p G d H := by
  cases rest with
  | nil =>
    rw [append_nil] at heq
    subst heq
    refine ok_admitPlan hG hadmitting ⟨fun f hf => mem_replayCopies hf, fun c hc => ?_⟩
    cases hc
    exact ⟨rfl, hsources, hchecked⟩
  | cons => exact ⟨hadmitting, hsources, checked, heq, hchecked⟩

/-- **A read** adds what it saw. -/
theorem Txn.read_ok {next : Shared → Txn s} (hG : G d) (hok : l.ok P p G d H)
    (hst : l.stmt P s = some (.read next)) : (next d).ok P p G d H := by
  cases l <;> simp only [Txn.stmt, selectForUpdate, selectState, Option.some.injEq,
    Stmt.read.injEq, reduceCtorEq] at hst
  all_goals try subst hst
  -- claim_due: the scan gives distinct ids, the two counts are only remembered
  case claimLive k g =>
    dsimp only
    split <;> trivial
  case claimScan k g available =>
    dsimp only
    split
    · trivial
    · exact scanned_nodup _ _ _ _
  case claimTenantCounts => exact hok
  case claimEndpointCounts => exact ⟨hok.1, hok.2, rfl⟩
  case claimWrite => split at hst <;> simp at hst
  -- ingest_event: under the scheduler's lock an unused key stays unused, and
  -- the endpoints and the tenant's row stay as they were read
  case ingestCheck q => exact ok_ingestLookup fun _ => trivial
  case ingestRecheck q tenant =>
    refine ok_ingestLookup fun hunused => ?_
    split
    · exact answered_error _ _ _
    · exact ⟨hok, hunused⟩
  case ingestEndpoints q tenant bytes =>
    dsimp only
    split
    · exact answered_error _ _ _
    · exact ⟨hok.1, hok.2, rfl⟩
  case ingestBacklog q a =>
    dsimp only
    split
    · exact answered_error _ _ _
    · exact hok
  case ingestOldest q a =>
    dsimp only
    split
    · exact answered_error _ _ _
    · exact hok
  case ingestRetained q a =>
    dsimp only
    split
    · exact answered_error _ _ _
    split
    · exact answered_error _ _ _
    next tenant hcharge =>
      refine ⟨hok.1.scheduler, hok.1.lock, hok.2.1, hok.2.2, ?_⟩
      rw [← hok.1.tenant]
      exact hcharge
  case ingestReread q => exact answered_answer q
  -- both replays: the events are read without a lock
  case replayEvent q x =>
    dsimp only
    split <;> trivial
  case replayVersion q x =>
    dsimp only
    split <;> trivial
  case bulkCheck q => exact ok_bulkLookup fun _ => trivial
  case bulkRecheck q tenant => exact ok_bulkLookup fun hunused => ⟨hok, hunused⟩
  case bulkEvent q tenant sources x rest =>
    obtain ⟨hadmitting, hsources, hchecked⟩ := hok
    dsimp only
    split
    next hseen => exact ⟨hadmitting, hsources, ⟨d, hG, hseen⟩, hchecked⟩
    · exact answered_refused ⟨by decide, by decide⟩ (Or.inr ⟨d, hG, hsources.unused⟩)
  case bulkVersion q tenant sources x rest =>
    obtain ⟨hadmitting, hsources, hseen, checked, heq, hchecked⟩ := hok
    dsimp only
    split
    next e he =>
      exact answered_refused (ensureVersion_unkeyed he) (Or.inr ⟨d, hG, hsources.unused⟩)
    next u hversion =>
      -- the source just looked at joins the others
      refine ok_bulkNext hG hadmitting hsources rest (heq.trans (append_cons _ _ _)) ?_
      intro y hy
      rcases mem_append.mp hy with hy | hy
      · exact hchecked y hy
      · rw [mem_singleton.mp hy]
        exact ⟨hseen, hversion⟩
  case replayBacklog q =>
    dsimp only
    split
    · exact ok_refuse hG hok.2.2 ⟨by decide, by decide⟩
    · exact hok
  case replayOldest q =>
    dsimp only
    split
    · exact ok_refuse hG hok.2.2 ⟨by decide, by decide⟩
    split
    next e he => exact ok_refuse hG hok.2.2 (chargeReplays_unkeyed he)
    next tenant hcharge =>
      obtain ⟨hadmitting, hsize, hplan⟩ := hok
      refine ⟨⟨hplan.copies, fun c hc => ?_⟩, hsize, hadmitting.scheduler, hadmitting.lock, ?_⟩
      · obtain ⟨hbulk, hsources, hchecked⟩ := hplan.bulk c hc
        rw [hbulk] at hsources hchecked ⊢
        exact ⟨rfl, hsources, hchecked⟩
      · rw [← hadmitting.tenant]
        exact hcharge
  -- the purge: the events left have no nonterminal delivery
  case purgeUnsafe now events =>
    refine ⟨⟨fun e he => hok.locks e (mem_filter.mp he).1,
      fun e he => hok.rows e (mem_filter.mp he).1⟩, fun _ e he => ?_⟩
    have hsafe := (mem_filter.mp he).2
    rw [Bool.not_eq_true'] at hsafe
    exact hsafe

/-- **The row of a worker's `SELECT … FOR UPDATE`** is locked, meets the guard,
and is the row of the claim. -/
theorem held_select {guard : Delivery → Bool} (hissued : c ∈ d.issued)
    (hrow : guardedRow d.db c.id guard = some x) :
    Held d (H ++ [Lock.delivery x.id]) c x ∧ guard x = true := by
  obtain ⟨hmem, hid, hguard⟩ := guardedRow_some hrow
  exact ⟨⟨⟨mem_append_right H mem_cons_self, hmem⟩, hissued, hid⟩, hguard⟩

/-- **A lock** adds the locked rows. -/
theorem Txn.lock_ok {want : Shared → List Lock} {next : Shared → Txn s} (hG : G d)
    (hok : l.ok P p G d H) (hst : l.stmt P s = some (.lock want next))
    (hallow : p.allow d l (want d)) : (next d).ok P p G d (H ++ want d) := by
  have hmore : ∀ K, Later p d H d (H ++ K) := Later.lock
  cases l <;> simp only [Txn.stmt, selectForUpdate, selectState, Option.some.injEq,
    Stmt.lock.injEq, reduceCtorEq] at hst
  all_goals try obtain ⟨rfl, rfl⟩ := hst
  -- claim_due: the state rows of the tenants and endpoints
  case claimGlobal => trivial
  case claimTenants k b =>
    exact ⟨hok.later (hmore _), fun o ho => mem_append_right _ (mem_map_of_mem ho),
      tenantState_organizationId d.db k.now⟩
  case claimEndpoints k b tenants =>
    exact ⟨hok.1.later (hmore _), hok.2.mono (subset_append_left _ _)⟩
  case claimWrite => split at hst <;> simp at hst
  -- the workers' calls: the guard is part of the select, so it holds of the locked row
  case renewSelect now c =>
    dsimp only
    cases hrow : guardedRow d.db c.id (c.holds now) with
    | none => trivial
    | some => exact held_select hok hrow
  case releaseSelect now c =>
    dsimp only
    cases hrow : guardedRow d.db c.id c.owns with
    | none => trivial
    | some => exact held_select hok hrow
  case finalizeSelect now c f =>
    dsimp only
    cases hrow : guardedRow d.db c.id (c.holds now) with
    | none => trivial
    | some => exact held_select hok hrow
  case finalizeState now c f x =>
    dsimp only
    cases d.db.endpointStates.find? x.endpointId with
    | none => trivial
    | some => exact ⟨hok.1.later (hmore _), hok.2⟩
  -- cancel_delivery: the status is looked at once the row is locked
  case cancelSelect now projectId deliveryId reason =>
    dsimp only
    cases hrow : projectDelivery d.db projectId deliveryId with
    | none => trivial
    | some =>
      dsimp only
      split
      next hqueued =>
        refine ⟨⟨mem_append_right _ mem_cons_self, ?_⟩, hqueued⟩
        exact mem_of_find?_eq_some hrow
      · trivial
  case cancelState now reason x =>
    exact ⟨hok.1.later (hmore _), hok.2⟩
  -- ingest_event: the scheduler's row, the tenant's row, then the entry of the key
  case ingestGlobal q =>
    exact mem_append_right H mem_cons_self
  case ingestTenant q =>
    exact ⟨mem_append_left _ hok, mem_append_right _ mem_cons_self, rfl⟩
  case ingestFlush q a =>
    dsimp only
    split
    · trivial
    · exact ⟨hok.later (hmore _), rfl⟩
  -- both replays: the share lock on the event comes with the insertion only
  case replaySelect q =>
    dsimp only
    cases projectDelivery d.db q.project.id q.deliveryId <;> trivial
  case replayGlobal q x =>
    exact mem_append_right H mem_cons_self
  case replayTenant q x =>
    refine ok_admitPlan hG ⟨mem_append_left _ hok, mem_append_right _ mem_cons_self,
      rfl⟩ ⟨fun f hf => ?_, fun c hc => absurd hc (by simp [singlePlan])⟩
    exact ⟨x, mem_cons_self, _, mem_singleton.mp hf⟩
  case bulkGlobal q =>
    exact mem_append_right H mem_cons_self
  case bulkTenant q =>
    exact ⟨mem_append_left _ hok, mem_append_right _ mem_cons_self, rfl⟩
  case bulkSelect q tenant =>
    obtain ⟨hadmitting, hunused⟩ := hok
    dsimp only
    split
    · exact answered_refused ⟨by decide, by decide⟩ (Or.inr ⟨d, hG, hunused⟩)
    next hcount =>
      obtain ⟨hnodup, hcomplete⟩ := replaySources_complete (not_not.mp hcount)
      refine ok_bulkNext hG (hadmitting.later (hmore _)) ?_ _ (nil_append _).symm
        (fun y hy => absurd hy not_mem_nil)
      -- what the select returns is locked, and as its where clause says
      refine ⟨hunused, fun x hx => ?_, fun x hx => ?_, fun x hx => ?_, hnodup, hcomplete⟩
      · exact ⟨mem_append_right _ (mem_map_of_mem hx), (mem_filter.mp hx).1⟩
      · have hx := (mem_filter.mp hx).2
        rw [Bool.and_eq_true] at hx
        exact of_decide_eq_true hx.2
      · have hx := (mem_filter.mp hx).2
        rw [Bool.and_eq_true, Bool.and_eq_true] at hx
        exact hx.1.1
  case replayInsert q =>
    refine ⟨hok.later (hmore _), fun x hx => ?_, fun hp x hx => ?_⟩
    · exact mem_append_right _ (mem_map_of_mem hx)
    · exact (Option.any_eq_true _ _).mp (hallow hp x hx)
  case replayRecord q =>
    dsimp only
    split
    next hsome =>
      -- a bulk replay holds the scheduler since it missed: nobody has taken its key
      unfold ReplayPlan.refuse
      split
      · trivial
      next c hc =>
        obtain ⟨hplan, hsources, -⟩ := hok.bulk c hc
        have hnone : existingOperation d.db q.operation.projectId q.operation.idempotencyKey
            = none := by
          rw [hplan]
          exact hsources.unused
        rw [hnone] at hsome
        cases hsome
    next hnone => exact ⟨hok.later (hmore _), Option.not_isSome_iff_eq_none.mp hnone⟩

/-- **A select with `SKIP LOCKED`** adds the rows it could lock. -/
theorem Txn.skip_ok {next : Shared → List Lock → Txn s} (hG : G d) (hok : l.ok P p G d H)
    (hst : l.stmt P s = some (.lockSkip limit want next)) (hallow : p.allow d l got) :
    (next d got).ok P p G d (H ++ got) := by
  cases l <;> simp only [Txn.stmt, selectForUpdate, selectState, Option.some.injEq,
    Stmt.lockSkip.injEq, reduceCtorEq] at hst
  case claimRows k g available ids =>
    obtain ⟨rfl, rfl, rfl⟩ := hst
    dsimp only
    split
    · trivial
    -- the ids were scanned earlier: of each row only the id is asked for again
    have hkeys := (Table.keys_filterMap_find? d.db.deliveries.toTable ids)
    have hrow : ∀ x ∈ ids.filterMap d.db.deliveries.find?, x ∈ d.db.deliveries.rows := by
      intro x hx
      obtain ⟨i, -, hfind⟩ := mem_filterMap.mp hx
      exact Table.mem_of_find? hfind
    refine ⟨fun x hx => ?_, fun hp x hx => ?_, ?_, d, hG, rfl, fun x hx => ?_⟩
    · obtain ⟨hx, hgot⟩ := mem_filter.mp hx
      exact ⟨mem_append_right H (by simpa using hgot), hrow x hx⟩
    · obtain ⟨hx, hgot⟩ := mem_filter.mp hx
      exact hallow hp x hx (by simpa using hgot)
    · exact hok.sublist ((filter_sublist.map Delivery.id).trans hkeys)
    · exact hrow x (mem_filter.mp hx).1
  case claimWrite => split at hst <;> simp at hst
  case purgeSelect now =>
    obtain ⟨rfl, rfl, rfl⟩ := hst
    dsimp only
    split
    · trivial
    -- what was ordered and limited are rows of the table
    refine ⟨fun e he => ?_, fun e he => ?_⟩
    · have hgot := (mem_filter.mp he).2
      exact mem_append_right H (by simpa using hgot)
    · have hrow := (RowNumber.orderBy_perm _ _).mem_iff.mp (mem_filter.mp he).1
      exact Table.find?_key (mem_filter.mp hrow).1

theorem content_eventType {call : IngestCall} (h : call.content s = .ok content) :
    content.eventType = call.eventType := by
  unfold IngestCall.content at h
  split at h
  · cases h
  split at h
  · cases h
  split at h
  · cases h
  split at h
  · cases h
  injection h with h
  rw [← h]

/-- The event that an ingest inserts answers its call. -/
theorem answered_new (q : Ingest s) (a : Acceptance) : Answered P s { d with
        db := acceptEvent P s q.now q.project q.call q.content a.envelopeBytes a.endpoints a.tenant
          d.db } q.project.id q.call
      (.ok (newEvent P q.project q.call q.content a.envelopeBytes q.now d.db.events.next)) := by
  intro e he
  cases he
  refine ⟨q.content, q.valid, _, ?_, rfl, rfl, rfl, ?_⟩
  · rw [acceptEvent_events]
    exact mem_append_right _ mem_cons_self
  · have htype := content_eventType q.valid
    simp [Event.sameContent, newEvent, htype]

/-- The operation that a bulk replay inserts answers its call. -/
theorem answered_inserted (h : bulkOperation q.project q.deliveryIds q.idempotencyKey q.draws q.now
      ∈ d'.db.replayOperations) :
    q.Answered s G d'
      (.ok (bulkOperation q.project q.deliveryIds q.idempotencyKey q.draws q.now)) := by
  refine ⟨fun o ho => ?_, fun hc => absurd hc (by simp), fun e he => absurd he (by simp)⟩
  cases ho
  exact ⟨h, rfl, rfl, rfl⟩

/-- **A commit** is one of `Commit`, and respects the locks of the others. -/
theorem Txn.commit_ok (hok : l.ok P p G d H) (hst : l.stmt P s = some (.commit write next))
    (hallow : p.allow d l []) : Lawful P s p d H (write d) ∧ next.ok P p G (write d) [] := by
  cases l <;> simp only [Txn.stmt, selectForUpdate, selectState, Option.some.injEq,
    Stmt.commit.injEq, reduceCtorEq] at hst
  all_goals try obtain ⟨rfl, rfl⟩ := hst
  case claimWrite k b r =>
    split at hst
    · simp only [Option.some.injEq, Stmt.commit.injEq] at hst
      obtain ⟨rfl, rfl⟩ := hst
      exact ⟨lawful_idle, trivial⟩
    -- the batch is built: the rows are the candidates still locked
    next claims hclaims =>
      simp only [Option.some.injEq, Stmt.commit.injEq] at hst
      obtain ⟨rfl, rfl⟩ := hst
      exact ⟨lawful_claimed hok.1 hok.2.1 hok.2.2 hallow hclaims, trivial⟩
  case claimNothing k => exact ⟨⟨.ensured k.now, Rely.of_eq rfl rfl rfl rfl prefix_rfl prefix_rfl,
    keeps_putAll [] rfl rfl rfl (fun y hy => absurd hy (by simp)) fun _ _ => rfl⟩, trivial⟩
  case renewWrite => exact ⟨lawful_renewed hok.1 hok.2, trivial⟩
  case releaseWrite => exact ⟨lawful_released hok.1 hok.2, trivial⟩
  case finalizeWrite => exact ⟨lawful_finalized hok.1 hok.2, trivial⟩
  case cancelWrite => exact ⟨lawful_canceled hok.1 hok.2, trivial⟩
  case ingestWrite q a eventId =>
    refine ⟨lawful_ingested hok.1, ?_⟩
    rw [hok.2]
    exact answered_new q a
  case ingestRaced => exact ⟨lawful_idle, trivial⟩
  case ingestReturn => exact ⟨lawful_idle, hok⟩
  case bulkReturn => exact ⟨lawful_idle, hok⟩
  case replayWrite q =>
    refine ⟨lawful_replayed hok.1 hok.2, ?_⟩
    unfold ReplayPlan.done
    split
    · trivial
    next c hc =>
      have hplan := (hok.1.bulk c hc).plan
      rw [hplan]
      exact answered_inserted (mem_append_right _ mem_cons_self)
  case purgeWrite => exact ⟨lawful_purged hok.1 hok.2, trivial⟩
  case rollback => exact ⟨lawful_idle, trivial⟩

/-- **A call** knows where it begins. -/
theorem Call.begin_ok {c : Call} (h : c.begin s d = some l) : l.ok P p G d [] := by
  cases c with
  | claim =>
    simp only [Call.begin] at h
    split at h
    · injection h with h; subst h; trivial
    · cases h
  | renew c | release c | finalize c f =>
    simp only [Call.begin] at h
    split at h
    next hissued => injection h with h; subst h; exact hissued
    · cases h
  | cancel | replay =>
    obtain ⟨project, -, rfl⟩ := Option.map_eq_some_iff.mp h
    trivial
  | ingest =>
    obtain ⟨project, -, rfl⟩ := Option.map_eq_some_iff.mp h
    split
    · exact answered_error _ _ _
    · trivial
  | replayMany =>
    obtain ⟨project, -, rfl⟩ := Option.map_eq_some_iff.mp h
    dsimp only
    split
    next e he => exact answered_refused (validated_unkeyed he) (Or.inl he)
    · trivial
  | purge => injection h with h; subst h; trivial

end Obligations

/-- **THE OUTLINE OF THE PLATFORM**, for any invariant of the shared data that
every commit and the clock keep. -/
def outline (P : Primitives) (s : Settings) (p : Discipline) (G : Shared → Prop)
    (commit : ∀ d d', G d → Commit P s p d d' → G d')
    (tick : ∀ d now, G d → d.clock ≤ now → G { d with clock := now }) :
    Outline (platform P s) p.allow where
  glob := G
  ok d H l := l.ok P p G d H
  keeps := p.keeps
  rely := Rely
  conflict_symm := Lock.conflict_symm
  stable _ _ _ _ _ hok hr hk := Txn.ok_later ⟨fun _ h => h, hr, hk⟩ hok
  start_ok d c d' l hG h := by
    obtain ⟨t, ht, heq⟩ := Option.map_eq_some_iff.mp h
    injection heq with hd hl
    subst hd hl
    exact ⟨hG, Call.begin_ok ht, Rely.of_eq rfl rfl rfl rfl prefix_rfl prefix_rfl,
      fun k => p.keeps_of_db_eq rfl k⟩
  env_ok d now d' hG h := by
    -- the clock moves forward or not at all
    have h : (if d.clock ≤ now then some { d with clock := now } else none) = some d' := h
    split at h
    next hle =>
      cases h
      exact ⟨tick d now hG hle, Rely.of_eq rfl rfl rfl rfl prefix_rfl prefix_rfl,
        fun k => p.keeps_of_db_eq rfl k⟩
    · cases h
  read_ok _ _ _ _ hG hok hst _ := Txn.read_ok hG hok hst
  lock_ok _ _ _ _ _ hG hok hst hallow := Txn.lock_ok hG hok hst hallow
  skip_ok _ _ _ _ _ _ _ hG hok hst _ hallow := Txn.skip_ok hG hok hst hallow
  commit_ok d H l write next hG hok hst hallow := by
    obtain ⟨hlawful, hnext⟩ := Txn.commit_ok hok hst hallow
    exact ⟨commit d _ hG hlawful.commit, hnext, hlawful.rely, hlawful.keeps⟩

end WebhookPlatform
