/-
  WebhookPlatform.ReplayRace
  **IDEMPOTENT BULK REPLAY, UNDER EVERY INTERLEAVING OF STATEMENTS.**

  `replay_deliveries` looks its key up twice, without a lock and under the
  scheduler's; then it locks its sources, checks each of them, and charges
  the tenant for all of them.  Whatever runs in between
  (`bulk_replay_guarded`):

    • a key has at most one operation, for ever,
    • every call that returns normally returns it, for its own list,
    • a call that begins once the operation is there answers with it, or
      with the conflict when its list is another one,
    • a check that fails is the answer, and nothing is written,
    • the one commit that inserts the operation inserts one copy for each
      source, in the order of the request, and charges for all of them.

  `bulk_replay_departs` shows where the words end: the size of the list is
  checked before the key, and a purge that commits after the call has looked
  at the event is not noticed.
-/
import WebhookPlatform.PurgeRace

namespace WebhookPlatform

open Relational Transition RowLocks List

/-! ## §1. One operation per key. -/

/-- `uq_replay_operations_project_key`. -/
def UniqueOperations (db : Db) : Prop :=
  db.replayOperations.Pairwise fun o o' =>
    ¬ (o.projectId = o'.projectId ∧ o.idempotencyKey = o'.idempotencyKey)

variable {q : BulkCall} {l : Txn s}

theorem UniqueOperations.eq (h : UniqueOperations db) (ho : o ∈ db.replayOperations)
    (ho' : o' ∈ db.replayOperations) (hproject : o.projectId = o'.projectId)
    (hkey : o.idempotencyKey = o'.idempotencyKey) : o = o' := by
  have hsymm : Std.Symm fun o o' : ReplayOperation =>
      ¬ (o.projectId = o'.projectId ∧ o.idempotencyKey = o'.idempotencyKey) :=
    ⟨fun a b hab hba => hab ⟨hba.1.symm, hba.2.symm⟩⟩
  by_contra hne
  exact List.Pairwise.forall h ho ho' hne ⟨hproject, hkey⟩

theorem existingOperation_none : existingOperation db projectId key = none
      ↔ ∀ o ∈ db.replayOperations, ¬ (o.projectId = projectId ∧ o.idempotencyKey = key) := by
  unfold existingOperation
  rw [List.find?_eq_none]
  simp

/-- What a commit does to the operations. -/
theorem Commit.operations (h : Commit P s p d d') : d'.db.replayOperations = d.db.replayOperations
      ∨ ∃ o, existingOperation d.db o.projectId o.idempotencyKey = none
        ∧ d'.db.replayOperations = d.db.replayOperations ++ [o] := by
  cases h with
  | claimed k b r claims =>
    obtain ⟨g, ts, es, hframe⟩ := Shared.claimed_frame (s := s) k b r claims d
    rw [hframe]
    exact Or.inl rfl
  | finalized =>
    unfold Shared.finalized
    split <;> exact Or.inl rfl
  | replayed q _ _ unused => exact Or.inr ⟨q.operation, unused, rfl⟩
  | _ => exact Or.inl rfl

/-! ## §2. What lasts. -/

theorem purgeRow_not_replayable (now : Time) (e : Event) : (purgeRow now e).replayable = false := by
  unfold Event.replayable
  have hpayload : (purgeRow now e).hasPayload = false := rfl
  rw [hpayload, Bool.false_and, Bool.false_and]

/-- **A purged event stays purged.** -/
theorem Commit.purged_stays (h : Commit P s p d d') (he : e ∈ d.db.events.rows)
    (hpurged : e.replayable = false) :
    ∃ e' ∈ d'.db.events.rows, e'.id = e.id ∧ e'.replayable = false := by
  cases h with
  | claimed k b r claims =>
    obtain ⟨g, ts, es, hframe⟩ := Shared.claimed_frame (s := s) k b r claims d
    rw [hframe]
    exact ⟨e, he, rfl, hpurged⟩
  | finalized =>
    unfold Shared.finalized
    split <;> exact ⟨e, he, rfl, hpurged⟩
  | ingested =>
    refine ⟨e, ?_, rfl, hpurged⟩
    rw [acceptEvent_events]
    exact mem_append_left _ he
  | purged now events =>
    obtain ⟨e', he', hid, rfl | hnew⟩ := Table.exists_putAll (events.map (purgeRow now)) he
    · refine ⟨e', ?_, hid, hpurged⟩
      rw [Serial.putAll_toTable]
      exact he'
    · obtain ⟨x, -, rfl⟩ := mem_map.mp hnew
      refine ⟨_, ?_, hid, purgeRow_not_replayable now x⟩
      rw [Serial.putAll_toTable]
      exact he'
  | _ => exact ⟨e, he, rfl, hpurged⟩

/-- What was there at the beginning: the operations, and the purged events. -/
structure Since (d₀ d : Shared) : Prop where
  operations : d₀.db.replayOperations <+: d.db.replayOperations
  purged : ∀ e ∈ d₀.db.events.rows, e.replayable = false →
    ∃ e' ∈ d.db.events.rows, e'.id = e.id ∧ e'.replayable = false

/-- The invariant of the runs that begin with `d₀`. -/
structure Replays (d₀ d : Shared) : Prop where
  unique : UniqueOperations d.db
  since : Since d₀ d

theorem replays_commit (h : Replays d₀ d) (hc : Commit P s p d d') : Replays d₀ d' := by
  refine ⟨?_, ?_, fun e he hpurged => ?_⟩
  · rcases hc.operations with hsame | ⟨o, hnone, hrows⟩
    · unfold UniqueOperations
      rw [hsame]
      exact h.unique
    · unfold UniqueOperations
      rw [hrows, pairwise_append]
      refine ⟨h.unique, pairwise_singleton _ _, fun a ha b hb => ?_⟩
      rw [mem_singleton.mp hb]
      exact existingOperation_none.mp hnone a ha
  · rcases hc.operations with hsame | ⟨o, -, hrows⟩
    · rw [hsame]
      exact h.since.operations
    · rw [hrows]
      exact h.since.operations.trans (prefix_append _ _)
  · obtain ⟨e₁, he₁, hid₁, hpurged₁⟩ := h.since.purged e he hpurged
    obtain ⟨e₂, he₂, hid₂, hpurged₂⟩ := hc.purged_stays he₁ hpurged₁
    exact ⟨e₂, he₂, hid₂.trans hid₁, hpurged₂⟩

theorem Replays.initial (h : UniqueOperations d₀.db) : Replays d₀ d₀ :=
  ⟨h, prefix_rfl, fun e he hpurged => ⟨e, he, rfl, hpurged⟩⟩

/-- An event that was seen with its payload was not purged at the beginning. -/
theorem unpurged_of_seen (h : Seen (Replays d₀) x) :
    ∀ e ∈ d₀.db.events.rows, e.id = x.eventId → e.replayable = true := by
  obtain ⟨d, hd, hseen⟩ := h
  obtain ⟨e', he', hreplayable⟩ := (Option.any_eq_true _ _).mp hseen
  obtain ⟨hmem', hid'⟩ := Table.find?_eq_some.mp he'
  intro e he hid
  by_contra hnot
  obtain ⟨e₁, he₁, hid₁, hpurged⟩ := hd.since.purged e he (Bool.eq_false_iff.mpr hnot)
  have heq : e₁ = e' := d.db.events.eq_of_key_eq he₁ hmem' (hid₁.trans (hid.trans hid'.symm))
  rw [heq, hreplayable] at hpurged
  exact absurd hpurged (by decide)

/-! ## §3. The copies. -/

/-- `y` is a replay of `x`: pending, without attempts, linked to it, and with
its event, its endpoint and every snapshot of it. -/
structure CopyOf (x y : Delivery) : Prop where
  status : y.status = .pending
  attemptCount : y.attemptCount = 0
  link : y.replayOfDeliveryId = some x.id
  organizationId : y.organizationId = x.organizationId
  eventId : y.eventId = x.eventId
  endpointId : y.endpointId = x.endpointId
  endpointPublicId : y.endpointPublicIdSnapshot = x.endpointPublicIdSnapshot
  endpointUrl : y.endpointUrlSnapshot = x.endpointUrlSnapshot
  endpointActive : y.endpointActiveSnapshot = x.endpointActiveSnapshot
  signingSecretVersion : y.signingSecretVersionSnapshot = x.signingSecretVersionSnapshot
  signatureScheme : y.signatureSchemeSnapshot = x.signatureSchemeSnapshot

theorem replayCopy_copyOf (x : Delivery) (publicId : Uuid) (now : Time) (id : Nat) :
    CopyOf x (replayCopy x publicId now id) := by
  constructor <;> rfl

theorem sourceOf_complete {id : Uuid} (h : ∃ x ∈ sources, x.publicId = id) :
    ∃ x ∈ sources, x.publicId = id ∧ sourceOf sources id = some x := by
  obtain ⟨y, hy, hid⟩ := h
  have hsome : (sourceOf sources id).isSome = true := by
    unfold sourceOf
    rw [List.find?_isSome]
    exact ⟨y, mem_reverse.mpr hy, decide_eq_true hid⟩
  obtain ⟨x, hx⟩ := Option.isSome_iff_exists.mp hsome
  have hfound := List.find?_some hx
  rw [decide_eq_true_eq] at hfound
  exact ⟨x, mem_reverse.mp (mem_of_find?_eq_some hx), hfound, hx⟩

/-- **The copies come in the order of the request**, one for each id, under
the public ids that were drawn for them. -/
theorem built_copies (draws : ReplayDraws) (now : Time)
    (h : ∀ id ∈ ids, ∃ x ∈ sources, x.publicId = id) (k n : Nat) :
    List.Forall₂ (fun id y => ∃ x ∈ sources, x.publicId = id ∧ CopyOf x y) ids
        (Serial.built n ((ids.zipIdx k).filterMap fun z =>
          (sourceOf sources z.1).map fun original =>
            replayCopy original (draws.replayPublicId z.2) now))
      ∧ (Serial.built n ((ids.zipIdx k).filterMap fun z =>
          (sourceOf sources z.1).map fun original =>
            replayCopy original (draws.replayPublicId z.2) now)).map Delivery.publicId
        = (List.range' k ids.length).map draws.replayPublicId := by
  induction ids generalizing k n with
  | nil => exact ⟨List.Forall₂.nil, rfl⟩
  | cons id _ ih =>
    obtain ⟨x, hx, hid, hsource⟩ := sourceOf_complete (h id mem_cons_self)
    obtain ⟨hrest, hids⟩ := ih (fun i hi => h i (mem_cons_of_mem id hi)) (k + 1) (n + 1)
    rw [zipIdx_cons, filterMap_cons]
    dsimp only
    rw [hsource]
    refine ⟨List.Forall₂.cons ⟨x, hx, hid, replayCopy_copyOf x _ now n⟩ hrest, ?_⟩
    rw [length_cons, List.range'_succ, map_cons, ← hids]
    rfl

/-! ## §4. The accepting commit. -/

/-- A source that may be replayed: a dead delivery of the project whose
signing version is not retired, and whose event was not purged when the run
began. -/
structure BulkCall.Source (d₀ : Shared) (q : BulkCall) (d : Shared) (id : Uuid) (x : Delivery) :
    Prop where
  row : x ∈ d.db.deliveries.rows
  publicId : x.publicId = id
  project : ofProject d.db q.project.id x = true
  dead : x.status = .dead
  version : ensureVersion d.db q.now x = .ok ()
  unpurged : ∀ e ∈ d₀.db.events.rows, e.id = x.eventId → e.replayable = true

/-- The record of the call. -/
def BulkCall.operation (q : BulkCall) : ReplayOperation :=
  bulkOperation q.project q.deliveryIds q.idempotencyKey q.draws q.now

/-- **What the commit of a bulk replay changes**: one operation under the
unused key, one copy for each source in the order of the request, a replay
token and a delivery token for each from the tenant's committed balance, and
nothing else. -/
structure Replayed (s : Settings) (d₀ : Shared) (q : BulkCall) (d d' : Shared) : Prop where
  unused : q.Unused d
  size : 1 ≤ q.deliveryIds.length ∧ q.deliveryIds.length ≤ s.bulkReplayMaxDeliveries
  distinct : q.deliveryIds.Nodup
  operation : d'.db.replayOperations = d.db.replayOperations ++ [q.operation]
  deliveries : ∃ new, d'.db.deliveries.rows = d.db.deliveries.rows ++ new
    ∧ List.Forall₂ (fun id y => ∃ x, q.Source d₀ d id x ∧ CopyOf x y) q.deliveryIds new
    ∧ new.map Delivery.publicId = q.operation.createdDeliveryIds
  charged : ∃ tenant, d'.db.tenantStates.find? q.project.organizationId = some tenant
    ∧ chargeReplays s (tenantState s d.db q.now q.project.organizationId) q.now
        q.deliveryIds.length = .ok tenant
    ∧ tenant.replayTokens
      = TokenBucket.refill s.tenantReplayRatePerSecond s.tenantReplayBurst q.now
          (bucket (tenantState s d.db q.now q.project.organizationId).replayTokens
            (tenantState s d.db q.now q.project.organizationId).replayRefilledAt)
        - q.deliveryIds.length
    ∧ tenant.deliveryTokens
      = TokenBucket.refill s.tenantDeliveryRatePerSecond s.tenantDeliveryBurst q.now
          (bucket (tenantState s d.db q.now q.project.organizationId).deliveryTokens
            (tenantState s d.db q.now q.project.organizationId).deliveryRefilledAt)
        - q.deliveryIds.length
  tenants : ∀ o, o ≠ q.project.organizationId →
    d'.db.tenantStates.find? o = d.db.tenantStates.find? o
  /-- Beside these, only the scheduler's row may have been created. -/
  frame : { d' with
    db.replayOperations := d.db.replayOperations, db.deliveries := d.db.deliveries
    db.tenantStates := d.db.tenantStates, db.globalState := d.db.globalState } = d

theorem replayed_write {a : ReplayPlan} (h : a.Inserted s p (Replays d₀) d H)
    (hq : a.bulk = some q) :
    Replayed s d₀ q d { d with
      db := acceptReplays s a.now a.organizationId a.tenant a.copies a.operation d.db } := by
  obtain ⟨hplan, hsources, hchecked⟩ := h.bulk q hq
  have hsized := h.sized
  have hcharged := h.charged
  have hkey := h.toCharged.key
  have hrows := acceptReplays_deliveries (s := s) h.copies d.db
  rw [hplan] at hsized hcharged hkey hrows ⊢
  obtain ⟨-, -, hreplay, hdelivery⟩ := chargeReplays_ok hcharged
  obtain ⟨hcopies, hids⟩ := built_copies q.draws q.now hsources.complete 0 d.db.deliveries.next
  refine ⟨hsources.unused, hsized, hsources.nodup, rfl, ⟨_, hrows, ?_, ?_⟩,
    ⟨a.tenant, find?_charged_self hkey, hcharged, hreplay, hdelivery⟩,
    fun o ho => find?_charged hkey (Ne.symm ho), rfl⟩
  · -- the sources are locked since they were selected
    refine hcopies.imp fun id y hy => ?_
    obtain ⟨x, hx, hid, hcopy⟩ := hy
    exact ⟨x, ⟨(hsources.rows x hx).row, hid, hsources.project x hx, hsources.dead x hx,
      (hchecked x hx).version, unpurged_of_seen (hchecked x hx).seen⟩, hcopy⟩
  · rw [← range_eq_range'] at hids
    exact hids

/-! ## §5. Failing checks. -/

/-- **What the next statement of a bulk replay can find wrong.** -/
inductive Txn.Fault {s : Settings} (db : Db) : Txn s → Prop where
  /-- A requested id without a dead delivery of the project. -/
  | missing (q : BulkCall) (tenant : TenantQuotaState) (id : Uuid) (requested : id ∈ q.deliveryIds)
      (none : ∀ x ∈ db.deliveries.rows, ofProject db q.project.id x = true → x.publicId = id →
        x.status ≠ .dead) : Fault db (.bulkSelect q tenant)
  | purged (q : BulkCall) (tenant : TenantQuotaState) (sources : List Delivery) (x : Delivery)
      (rest : List Delivery)
      (gone : ∀ e, db.events.find? x.eventId = some e → e.replayable = false) :
      Fault db (.bulkEvent q tenant sources x rest)
  /-- The signing version is not there, or is retired. -/
  | retired (q : BulkCall) (tenant : TenantQuotaState) (sources : List Delivery) (x : Delivery)
      (rest : List Delivery)
      (ended : ∀ v ∈ db.secretVersions, v.endpointId = x.endpointId →
        v.version = x.signingSecretVersionSnapshot → ∃ t, v.retireAt = some t ∧ t ≤ q.now) :
      Fault db (.bulkVersion q tenant sources x rest)
  | full (a : ReplayPlan) (backlog : s.globalMaxBacklog < backlog db + a.count) :
      Fault db (.replayBacklog a)
  | late (a : ReplayPlan) (oldest : tooOld s a.now db = true) : Fault db (.replayOldest a)
  /-- The bucket of the replays, or that of the deliveries, cannot pay. -/
  | short (a : ReplayPlan)
      (balance : (replayBalance s a.tenant a.count a.now).retryAfter ≠ none
        ∨ (deliveryBalance s a.tenant a.count a.now).retryAfter ≠ none) :
      Fault db (.replayOldest a)

/-- The call of `replay_deliveries` that a statement belongs to. -/
def Txn.bulk {s : Settings} : Txn s → Option BulkCall
  | .bulkCheck q | .bulkGlobal q | .bulkTenant q | .bulkRecheck q _ | .bulkSelect q _
  | .bulkEvent q _ _ _ _ | .bulkVersion q _ _ _ _ | .bulkReturn q _ => some q
  | .replayBacklog a | .replayOldest a | .replayInsert a | .replayRecord a
  | .replayWrite a => a.bulk
  | _ => none

/-- The answer that is about to be given. -/
def Txn.refusal {s : Settings} : Txn s → Option AppError
  | .bulkReturn _ (.error e) => some e
  | _ => none

theorem refuse_bulk {a : ReplayPlan} (hq : a.bulk = some q)
    (e : AppError) : (a.refuse e : Txn s).refusal.isSome = true := by
  unfold ReplayPlan.refuse
  rw [hq]
  rfl

/-- Fewer sources than ids when an id has none. -/
theorem sources_of_missing {id : Uuid} (hid : id ∈ q.deliveryIds)
    (hnone : ∀ x ∈ db.deliveries.rows, ofProject db q.project.id x = true → x.publicId = id →
      x.status ≠ .dead) :
    ((replaySources db q.project.id q.deliveryIds).map Delivery.publicId).dedup.length
      ≠ q.deliveryIds.length := by
  intro hcount
  obtain ⟨x, hx, rfl⟩ := (replaySources_complete hcount).2 id hid
  obtain ⟨hrow, hwhere⟩ := mem_filter.mp hx
  rw [Bool.and_eq_true, Bool.and_eq_true] at hwhere
  exact hnone x hrow hwhere.1.1 rfl (of_decide_eq_true hwhere.2)

theorem ensureVersion_retired {now : Time}
    (h : ∀ v ∈ db.secretVersions, v.endpointId = x.endpointId →
      v.version = x.signingSecretVersionSnapshot → ∃ t, v.retireAt = some t ∧ t ≤ now) :
    ∃ e, ensureVersion db now x = .error e := by
  unfold ensureVersion
  split
  · exact ⟨_, rfl⟩
  next v hv =>
    have hfound := List.find?_some hv
    rw [Bool.and_eq_true, decide_eq_true_eq, decide_eq_true_eq] at hfound
    obtain ⟨t, ht, hle⟩ := h v (mem_of_find?_eq_some hv) hfound.1 hfound.2
    have hretired : v.retireAt.any (fun t => decide (t ≤ now)) = true := by
      rw [ht]
      exact decide_eq_true hle
    rw [if_pos hretired]
    exact ⟨_, rfl⟩

theorem chargeReplays_short {now : Time} (h : (replayBalance s state n now).retryAfter ≠ none
      ∨ (deliveryBalance s state n now).retryAfter ≠ none) :
    ∃ e, chargeReplays s state now n = .error e := by
  unfold chargeReplays
  split
  · exact ⟨_, rfl⟩
  · exact ⟨_, rfl⟩
  next hreplay hdelivery =>
    rcases h with h | h
    · exact absurd hreplay h
    · exact absurd hdelivery h

/-- **A check that fails is the answer of the call.** -/
theorem fault_stmt (hq : l.bulk = some q) (h : l.Fault d.db) :
    (∃ next, l.stmt P s = some (.read next) ∧ (next d).refusal.isSome = true)
      ∨ ∃ want next, l.stmt P s = some (.lock want next) ∧ (next d).refusal.isSome = true := by
  cases h with
  | missing _ _ _ hid hnone =>
    refine Or.inr ⟨_, _, rfl, ?_⟩
    dsimp only
    rw [if_pos (sources_of_missing hid hnone)]
    rfl
  | purged _ _ _ x _ hgone =>
    have hnot : ¬ (d.db.events.find? x.eventId).any Event.replayable = true := by
      intro hany
      obtain ⟨e, he, hreplayable⟩ := (Option.any_eq_true _ _).mp hany
      rw [hgone e he] at hreplayable
      exact absurd hreplayable (by decide)
    refine Or.inl ⟨_, rfl, ?_⟩
    rw [if_neg hnot]
    rfl
  | retired _ _ _ _ _ hended =>
    obtain ⟨e, he⟩ := ensureVersion_retired hended
    refine Or.inl ⟨_, rfl, ?_⟩
    rw [he]
    rfl
  | full _ hbacklog | late _ hbacklog =>
    refine Or.inl ⟨_, rfl, ?_⟩
    rw [if_pos hbacklog]
    exact refuse_bulk hq _
  | short a hbalance =>
    -- the age is looked at first
    by_cases holdest : tooOld s a.now d.db = true
    · refine Or.inl ⟨_, rfl, ?_⟩
      rw [if_pos holdest]
      exact refuse_bulk hq _
    · obtain ⟨e, he⟩ := chargeReplays_short hbalance
      refine Or.inl ⟨_, rfl, ?_⟩
      rw [if_neg holdest, he]
      exact refuse_bulk hq e

/-! ## §6. All interleavings. -/

/-- The bulk replay that looks its key up with the next statement. -/
def Txn.bulkLooksUp {s : Settings} : Txn s → Option BulkCall
  | .bulkCheck q | .bulkRecheck q _ => some q
  | _ => none

/-- **What every step of a run from `d₀` respects.** -/
structure BulkGuarded {s : Settings} (d₀ : Shared) (σ : Platform s) (m : Move Call Time)
    (σ' : Platform s) : Prop where
  /-- A key has at most one operation, and keeps it. -/
  unique : UniqueOperations σ'.db.db
  kept : σ.db.db.replayOperations <+: σ'.db.db.replayOperations
  /-- A normal return is the operation of the key, for the list of the call;
  a conflict is another list; and the unique constraint refuses no call. -/
  answered : ∀ i q r, σ'.locals i = some (.bulkReplayed q r) →
    q.Answered s (Replays d₀) σ'.db r
  /-- All normal returns under a key are one operation. -/
  agree : ∀ i j q q' o o', σ'.locals i = some (.bulkReplayed q (.ok o)) →
    σ'.locals j = some (.bulkReplayed q' (.ok o')) → q.project.id = q'.project.id →
      q.idempotencyKey = q'.idempotencyKey → o = o' ∧ q.deliveryIds = q'.deliveryIds
  /-- A lookup that finds the operation answers with it, or with the conflict. -/
  lookup : ∀ i l q o, m = .exec i → σ.locals i = some l → l.bulkLooksUp = some q →
    existingOperation σ.db.db q.project.id q.idempotencyKey = some o →
      σ'.locals i = some (.bulkReturn q (reuseOperation o q.deliveryIds))
  /-- Once the operation is there, so does every call of admissible size. -/
  settled : ∀ i q r o, σ'.locals i = some (.bulkReplayed q r) → q.validated s = .ok () →
    o ∈ d₀.db.replayOperations → o.projectId = q.project.id →
      o.idempotencyKey = q.idempotencyKey → r = reuseOperation o q.deliveryIds
  /-- A check that fails is the answer. -/
  refused : ∀ i l q, m = .exec i → σ.locals i = some l → l.bulk = some q → l.Fault σ.db.db →
    ((σ'.locals i).bind Txn.refusal).isSome = true
  /-- A statement changes nothing, or is the accepting commit. -/
  effect : ∀ i l q, m = .exec i → σ.locals i = some l → l.bulk = some q →
    σ'.db = σ.db
      ∨ Replayed s d₀ q σ.db σ'.db ∧ σ'.locals i = some (.bulkReplayed q (.ok q.operation))

theorem lookup_stmt (hq : l.bulkLooksUp = some q)
    (hfound : existingOperation d.db q.project.id q.idempotencyKey = some o) :
    ∃ next, l.stmt P s = some (.read next)
      ∧ next d = .bulkReturn q (reuseOperation o q.deliveryIds) := by
  cases l <;> simp only [Txn.bulkLooksUp, Option.some.injEq, reduceCtorEq] at hq
  case bulkCheck | bulkRecheck =>
    subst hq
    refine ⟨_, rfl, ?_⟩
    unfold bulkLookup
    rw [hfound]

theorem effect_bulk (hok : l.ok P p (Replays d₀) d H) (hq : l.bulk = some q)
    (hst : l.stmt P s = some st) :
    st.write d = d ∨ Replayed s d₀ q d (st.write d)
      ∧ ∃ write, st = .commit write (.bulkReplayed q (.ok q.operation)) := by
  cases l <;> simp only [Txn.bulk, Option.some.injEq, reduceCtorEq] at hq
  case replayWrite a =>
    cases hst
    have hoperation : a.operation = q.operation := by
      rw [(hok.1.bulk q hq).plan]
      rfl
    have hdone : (a.done : Txn s) = .bulkReplayed q (.ok q.operation) := by
      unfold ReplayPlan.done
      rw [hq, hoperation]
    rw [hdone]
    exact Or.inr ⟨replayed_write hok.1 hq, _, rfl⟩
  all_goals
    cases hst
    exact Or.inl rfl

/-- The answers of calls that begin once the operation is there. -/
theorem settled_answer (hd : Replays d₀ d) (hr : q.Answered s (Replays d₀) d r)
    (hvalid : q.validated s = .ok ()) (ho : o ∈ d₀.db.replayOperations)
    (hproject : o.projectId = q.project.id) (hkey : o.idempotencyKey = q.idempotencyKey) :
    r = reuseOperation o q.deliveryIds := by
  have hmem : o ∈ d.db.replayOperations := hd.since.operations.subset ho
  cases r with
  | ok o' =>
    obtain ⟨hmem', hproject', hkey', hids⟩ := hr.ok o' rfl
    have heq : o' = o := hd.unique.eq hmem' hmem (hproject'.trans hproject.symm)
      (hkey'.trans hkey.symm)
    subst heq
    exact (if_pos hids).symm
  | error e =>
    by_cases he : e = replayConflict
    · subst he
      obtain ⟨o', hmem', hproject', hkey', hids⟩ := hr.conflict rfl
      have heq : o' = o := hd.unique.eq hmem' hmem (hproject'.trans hproject.symm)
        (hkey'.trans hkey.symm)
      subst heq
      exact (if_neg hids).symm
    · -- the call would have to have missed the operation
      rcases (hr.other e rfl he).2 with hinvalid | ⟨d₁, hd₁, hunused⟩
      · rw [hvalid] at hinvalid
        cases hinvalid
      · have hmem₁ : o ∈ d₁.db.replayOperations := hd₁.since.operations.subset ho
        exact absurd ⟨hproject, hkey⟩ (existingOperation_none.mp hunused o hmem₁)

/-- **BULK REPLAY IS IDEMPOTENT AND ALL-OR-NOTHING** in every interleaving of any
calls. -/
theorem bulk_replay_guarded (P : Primitives) (s : Settings) (d : Shared)
    (hd : UniqueOperations d.db) (ms : List (Move Call Time)) :
    Along (platform P s).step (BulkGuarded d) (Sys.initial d) ms := by
  let O := outline P s {} (Replays d) (fun _ _ h hc => replays_commit h hc)
    (fun _ _ h _ => ⟨h.unique, h.since.operations, h.since.purged⟩)
  refine O.along ?_ (Replays.initial hd) ms
    (along_of_forall (fun _ _ _ _ => Discipline.allowed_default) _)
  intro σ m σ' hσ hσ' hstep hallow
  have hrely : Rely σ.db σ'.db := O.rely_step Rely.refl hσ hstep hallow
  have hanswered : ∀ i q r, σ'.locals i = some (.bulkReplayed q r) →
      q.Answered s (Replays d) σ'.db r := fun i q r hl => hσ'.ok i _ hl
  refine ⟨hσ'.glob.unique, hrely.operations, hanswered, ?_, ?_, ?_, ?_, ?_⟩
  · intro i j q q' o o' hl hl' hproject hkey
    obtain ⟨hmem, hp, hk, hids⟩ := (hanswered i q _ hl).ok o rfl
    obtain ⟨hmem', hp', hk', hids'⟩ := (hanswered j q' _ hl').ok o' rfl
    have heq : o = o' := hσ'.glob.unique.eq hmem hmem' (hp.trans (hproject.trans hp'.symm))
      (hk.trans (hkey.trans hk'.symm))
    refine ⟨heq, ?_⟩
    rw [← hids, ← hids', heq]
  · intro i l q o hm hl hq hfound
    subst hm
    obtain ⟨next, hst, hnext⟩ := lookup_stmt (P := P) hq hfound
    rw [(platform P s).locals_of_read hl hst hstep, hnext]
  · intro i q r o hl hvalid ho hproject hkey
    exact settled_answer hσ'.glob (hanswered i q r hl) hvalid ho hproject hkey
  · intro i l q hm hl hq hfault
    subst hm
    obtain ⟨next, hst, hrefusal⟩ | ⟨want, next, hst, hrefusal⟩ := fault_stmt (P := P) hq hfault
    · rw [(platform P s).locals_of_read hl hst hstep]
      exact hrefusal
    · rw [(platform P s).locals_of_lock hl hst hstep]
      exact hrefusal
  · intro i l q hm hl hq
    subst hm
    obtain ⟨st, hst, hexec⟩ := (platform P s).step_exec hl hstep
    rw [(platform P s).execStmt_db hexec]
    rcases effect_bulk (hσ.ok i l hl) hq hst with hsame | ⟨hreplayed, write, hcommit⟩
    · exact Or.inl hsame
    · refine Or.inr ⟨hreplayed, ?_⟩
      subst hcommit
      injection hexec with hexec
      rw [← hexec]
      exact Sys.at_self σ i _

/-- A bulk replay under one key of the small deployment's project. -/
def bulkReplay (deliveryIds : List Uuid) : Call :=
  .replayMany 1 deliveryIds "bulk-key-1" ⟨fun _ => "delivery-2", "operation-1", "replay-key-1"⟩

/-- The answer of a bulk replay that has ended. -/
def Txn.bulkAnswer {s : Settings} : Txn s → Option (Except AppError ReplayOperation)
  | .bulkReplayed _ r => some r
  | _ => none

/-- The exception of a bulk replay that raised one. -/
def bulkRefusal : Except AppError ReplayOperation → Option AppError
  | .error e => some e
  | .ok _ => none

/-- Both calls miss the operation in their first lookup. -/
def racingReplays : List (Move Call Time) :=
  [.begin 0 (bulkReplay ["delivery-1"]), .begin 1 (bulkReplay ["delivery-1"]), .exec 0, .exec 1]
    ++ List.replicate 11 (.exec 0) ++ List.replicate 4 (.exec 1)

theorem bulk_replay_guarded_small :
    (run (platform smallPrimitives Settings.defaults).step (Sys.initial agedShared)
        racingReplays).map (fun σ =>
          ([0, 1].map fun i => (((σ.locals i).bind Txn.bulkAnswer).bind Except.toOption).map
              ReplayOperation.publicId,
            σ.db.db.deliveries.rows.map Delivery.status))
        = some ([some "operation-1", some "operation-1"], [.dead, .pending])
      ∧ Along (platform smallPrimitives Settings.defaults).step (BulkGuarded agedShared)
          (Sys.initial agedShared) racingReplays :=
  ⟨by decide +kernel,
    bulk_replay_guarded smallPrimitives Settings.defaults agedShared List.Pairwise.nil _⟩

/-- More ids than the settings allow, and no two the same. -/
def oversizedList : List Uuid := (List.range 101).map fun i => "delivery-" ++ toString i

/-- The operation is committed; then its key is used for the oversized list. -/
def oversizedAfter : List (Move Call Time) :=
  .begin 0 (bulkReplay ["delivery-1"]) :: List.replicate 12 (.exec 0)
    ++ [.begin 1 (bulkReplay oversizedList)]

/-- The replay has seen its event; the purge commits; the replay goes on. -/
def purgedAfterCheck : List (Move Call Time) :=
  .begin 0 (bulkReplay ["delivery-1"]) :: List.replicate 6 (.exec 0)
    ++ .begin 1 .purge :: List.replicate 3 (.exec 1) ++ List.replicate 6 (.exec 0)

/-- **WHERE THE WORDS END.**  A call with another list under the key of a
committed operation raises `ValidationError` when the list is too long; and
a replay whose source is purged before it commits is committed all the same. -/
theorem bulk_replay_departs :
    (∃ σ : Platform Settings.defaults,
        run (platform smallPrimitives Settings.defaults).step (Sys.initial agedShared)
          oversizedAfter = some σ
        ∧ (existingOperation σ.db.db 1 "bulk-key-1").map ReplayOperation.sourceDeliveryIds
          = some ["delivery-1"]
        ∧ oversizedList ≠ ["delivery-1"]
        ∧ ((σ.locals 1).bind Txn.bulkAnswer).bind bulkRefusal
          = some (.validation "Replay batch size exceeds configured limit"))
      ∧ ∃ σ : Platform Settings.defaults,
        run (platform smallPrimitives Settings.defaults).step (Sys.initial agedShared)
          purgedAfterCheck = some σ
        ∧ (((σ.locals 0).bind Txn.bulkAnswer).bind Except.toOption).map
            ReplayOperation.sourceDeliveryIds = some ["delivery-1"]
        ∧ σ.db.db.deliveries.rows.map Delivery.status = [.dead, .pending]
        ∧ (σ.db.db.events.find? 1).map Event.replayable = some false := by
  constructor <;> decide +kernel

end WebhookPlatform
