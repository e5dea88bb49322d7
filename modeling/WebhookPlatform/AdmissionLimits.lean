/-
  WebhookPlatform.AdmissionLimits
  **THE LIMITS OF ADMISSION HOLD IN EVERY REACHABLE STATE**
  (`app/admission.py`, `update_endpoint`, the refill of `_finalize`).

  Four kinds of limit, each checked by one transaction and changed by many:

      global_max_backlog            — unfinished deliveries,
      tenant_retained_bytes         — canonical envelopes of a tenant,
      tenant_endpoints_per_project  — active endpoints of a project,
      …_burst                       — the five token balances,

  over any interleaving of atomic transactions, each at an arbitrary moment
  (a clock may run backwards).  For each limit: what one step can do to the
  quantity, then the run (`admission_limits`).
-/
import WebhookPlatform.Circuit
import WebhookPlatform.Snapshots

namespace WebhookPlatform

open Relational Transition List Table

/-! ## §1. The backlog. -/

section Backlog

/-- A step that adds no row adds nothing to the backlog. -/
theorem backlog_le_of_next (h : Effect P s d a d')
    (hnext : d'.db.deliveries.next = d.db.deliveries.next) : backlog d'.db ≤ backlog d.db := by
  refine countP_le_of_keys fun x' hx' hopen => ?_
  have hlt := d'.db.deliveries.lt_next x' hx'
  rw [hnext] at hlt
  obtain ⟨x, hx, hwork⟩ := (h.row hx').old hlt
  refine ⟨x, hx, hwork.same.id.symm, ?_⟩
  -- a finished row would have stayed finished
  cases hterminal : x.status.terminal with
  | false => rfl
  | true =>
    rw [hwork.terminal hterminal] at hopen
    exact absurd hopen (by decide)

theorem backlog_appendAll {rows : List (Nat → Delivery)} (hids : ∀ f ∈ rows, ∀ n, (f n).id = n) :
    (db.deliveries.appendAll rows).rows.countP (fun x => !x.status.terminal)
      ≤ backlog db + rows.length := by
  rw [Serial.rows_appendAll hids, countP_append]
  have hbuilt := countP_le_length (p := fun x : Delivery => !x.status.terminal)
    (l := Serial.built db.deliveries.next rows)
  rw [Serial.length_built] at hbuilt
  exact Nat.add_le_add_left hbuilt _

theorem Effect.backlog (h : Effect P s d a d') (hd : backlog d.db ≤ s.globalMaxBacklog) :
    WebhookPlatform.backlog d'.db ≤ s.globalMaxBacklog := by
  have hkept : d'.db.deliveries.next = d.db.deliveries.next →
      WebhookPlatform.backlog d'.db ≤ s.globalMaxBacklog :=
    fun hnext => (backlog_le_of_next h hnext).trans hd
  cases h with
  | ingested _ _ _ _ _ _ _ admitted =>
    have hroom := (admitEventLocked_ok admitted).1
    refine (backlog_appendAll ?_).trans (le_trans ?_ hroom)
    · intro f hf n
      obtain ⟨y, -, rfl⟩ := mem_map.mp hf
      rfl
    · rw [newDeliveries, length_map, length_zipIdx]
      exact le_refl _
  | replayed _ _ _ _ _ _ _ _ source admitted =>
    obtain ⟨count, hle, hadmitting⟩ := admitted
    have hroom := (admitReplaysLocked_ok hadmitting).1
    refine (backlog_appendAll ?_).trans ((Nat.add_le_add_left hle _).trans hroom)
    intro f hf n
    obtain ⟨original, -, -, -, -, publicId, rfl⟩ := source f hf
    rfl
  | claimed limit tokens =>
    refine hkept ?_
    show (claimedDb s d.clock limit tokens d.db).deliveries.next = _
    rw [claimedDb_deliveries, Serial.putAll_next]
  | cleaned _ _ _ cleanup =>
    refine hkept ?_
    cases cleanup with
    | canceled => exact Serial.putAll_next d.db.deliveries _
    | _ => rfl
  | _ => exact hkept rfl

end Backlog

/-! ## §2. Retained bytes. -/

/-- What an event weighs for the organization. -/
def retainedWeight (db : Db) (organizationId : Nat) (e : Event) : Nat :=
  if (db.projects.find? e.projectId).any (fun p => decide (p.organizationId = organizationId)) then
    (e.canonicalEnvelope.map List.length).getD 0
  else 0

theorem retainedBytes_eq_sum (db : Db) (organizationId : Nat) : retainedBytes db organizationId
      = (db.events.rows.map (retainedWeight db organizationId)).sum := by
  unfold retainedBytes
  induction db.events.rows with
  | nil => rfl
  | cons _ _ ih =>
    rw [map_cons, sum_cons, filter_cons]
    unfold retainedWeight
    split
    · rw [map_cons, sum_cons, ih]
      rfl
    rw [Nat.zero_add, ih]
    rfl

section Retained

/-- A project keeps its organization. -/
theorem Effect.project (h : Effect P s d a d') (hp : p' ∈ d'.db.projects.rows) :
    ∃ p ∈ d.db.projects.rows, p.id = p'.id ∧ p.organizationId = p'.organizationId := by
  have hkept : p' ∈ d.db.projects.rows →
      ∃ p ∈ d.db.projects.rows, p.id = p'.id ∧ p.organizationId = p'.organizationId :=
    fun hold => ⟨p', hold, rfl, rfl⟩
  cases h with
  | claimed limit tokens =>
    replace hp : p' ∈ (claimedDb s d.clock limit tokens d.db).projects.rows := hp
    obtain ⟨g, ts, es, hframe⟩ := claimedDb_frame s d.clock limit tokens d.db
    rw [hframe] at hp
    exact hkept hp
  | projectDeactivated project mem =>
    rcases mem_of_mem_put hp with rfl | hold
    · exact ⟨project, mem, rfl, rfl⟩
    · exact hkept hold
  | cleaned _ _ _ cleanup =>
    cases cleanup with
    | removed => exact hkept (mem_delete.mp hp).1
    | _ => exact hkept hp
  | _ => exact hkept hp

/-- An old event weighs no more than before. -/
theorem retainedWeight_le (h : Effect P s d a d') (hsame : EventKept e e') :
    retainedWeight d'.db organizationId e' ≤ retainedWeight d.db organizationId e := by
  unfold retainedWeight
  split
  next howned =>
    obtain ⟨p', hp', horg⟩ := (Option.any_eq_true _ _).mp howned
    obtain ⟨p, hp, hid, hsameOrg⟩ := h.project (mem_of_find? hp')
    have hfind : d.db.projects.find? e.projectId = some p := by
      rw [← hsame.projectId, ← key_of_find? hp', ← hid]
      exact Table.find?_key hp
    rw [hfind, Option.any_some, hsameOrg, if_pos horg]
    rcases hsame.canonicalEnvelope with hkept | hpurged
    · rw [hkept]
    · rw [hpurged]
      exact Nat.zero_le _
  · exact Nat.zero_le _

/-- A step that adds no event adds no byte. -/
theorem retainedBytes_le_of_next (h : Effect P s d a d')
    (hnext : d'.db.events.next = d.db.events.next) (organizationId : Nat) :
    retainedBytes d'.db organizationId ≤ retainedBytes d.db organizationId := by
  rw [retainedBytes_eq_sum, retainedBytes_eq_sum]
  refine sum_le_of_keys fun e' he' _ => ?_
  rcases h.event he' with ⟨e, he, hsame⟩ | hnew
  · exact ⟨e, he, hsame.id.symm, retainedWeight_le h hsame⟩
  · have hlt := d'.db.events.lt_next e' he'
    rw [hnext, hnew] at hlt
    exact absurd hlt (lt_irrefl _)

/-- A new event weighs its bytes for its own organization, and nothing for
the others. -/
theorem retainedWeight_newEvent (mem : project ∈ db.projects.rows) (organizationId : Nat)
    (call : IngestCall) (content : Content) (bytes : Bytes) (now : Time) (id : Nat) :
    retainedWeight db organizationId (newEvent P project call content bytes now id)
      = if project.organizationId = organizationId then bytes.length else 0 := by
  have hfind : db.projects.find? project.id = some project := Table.find?_key mem
  show (if (db.projects.find? project.id).any _ then bytes.length else 0) = _
  rw [hfind, Option.any_some]
  simp only [decide_eq_true_eq]

theorem Effect.retained (h : Effect P s d a d')
    (hd : retainedBytes d.db organizationId ≤ s.tenantRetainedBytes) :
    retainedBytes d'.db organizationId ≤ s.tenantRetainedBytes := by
  have hkept : d'.db.events.next = d.db.events.next →
      retainedBytes d'.db organizationId ≤ s.tenantRetainedBytes :=
    fun hnext => (retainedBytes_le_of_next h hnext organizationId).trans hd
  cases h with
  | claimed limit tokens =>
    refine hkept ?_
    show (claimedDb s d.clock limit tokens d.db).events.next = _
    obtain ⟨g, ts, es, hframe⟩ := claimedDb_frame s d.clock limit tokens d.db
    rw [hframe]
  | ingested project call content bytes _ mem _ admitted =>
    have hroom := (admitEventLocked_ok admitted).2.1
    rw [retainedBytes_eq_sum]
    show ((d.db.events.append (newEvent P project call content bytes d.clock)).rows.map
      (retainedWeight d.db organizationId)).sum ≤ _
    rw [Serial.rows_append rfl, map_append, sum_append, map_singleton,
      sum_singleton, ← retainedBytes_eq_sum, retainedWeight_newEvent mem]
    split
    next hown => exact hown ▸ hroom
    · exact hd
  | payloadsPurged => exact hkept (Serial.putAll_next d.db.events _)
  | cleaned _ _ _ cleanup =>
    refine hkept ?_
    cases cleanup <;> rfl
  | _ => exact hkept rfl

end Retained

/-! ## §3. Active endpoints. -/

section Endpoints

/-- No endpoint has become active. -/
theorem activeEndpoints_le
    (h : ∀ w' ∈ db'.endpoints.rows, w'.isActive = true → ∃ w ∈ db.endpoints.rows,
      w.id = w'.id ∧ w.projectId = w'.projectId ∧ w.isActive = true)
    (projectId : Nat) :
    activeEndpoints db' projectId none ≤ activeEndpoints db projectId none := by
  refine countP_le_of_keys fun w' hw' hcounted => ?_
  simp only [Bool.and_eq_true, decide_eq_true_eq] at hcounted
  obtain ⟨w, hw, hid, hproject, hactive⟩ := h w' hw' hcounted.1.2
  refine ⟨w, hw, hid, ?_⟩
  simp only [Bool.and_eq_true, decide_eq_true_eq]
  exact ⟨⟨hproject.trans hcounted.1.1, hactive⟩, by simp⟩

/-- An inactive endpoint does not count, so leaving it out changes nothing. -/
theorem activeEndpoints_le_exclude (hw : w ∈ db.endpoints.rows) (hoff : w.isActive = false)
    (projectId : Nat) :
    activeEndpoints db projectId none ≤ activeEndpoints db projectId (some w.id) := by
  refine countP_mono_left fun x hx hcounted => ?_
  simp only [Bool.and_eq_true, decide_eq_true_eq] at hcounted ⊢
  refine ⟨hcounted.1, fun hid => ?_⟩
  obtain rfl := db.endpoints.eq_of_key_eq hw hx (Option.some.inj hid)
  rw [hoff] at hcounted
  exact absurd hcounted.1.2 Bool.false_ne_true

/-- One edited row: the project was below its limit if the row became
active. -/
theorem activeEndpoints_edited {now : Time} (hw : w ∈ db.endpoints.rows)
    (edit : EndpointEdit s now db w w')
    (hd : activeEndpoints db projectId none ≤ s.tenantEndpointsPerProject) :
    activeEndpoints { db with endpoints := db.endpoints.put w' } projectId none
      ≤ s.tenantEndpointsPerProject := by
  -- unless an inactive row of this project becomes active, nothing is added
  have hkept : w'.id = w.id → w'.projectId = w.projectId →
      (w'.isActive = true → w.isActive = true) →
      activeEndpoints { db with endpoints := db.endpoints.put w' } projectId none
        ≤ s.tenantEndpointsPerProject := by
    intro hid hproject hactive
    refine (activeEndpoints_le (fun x' hx' hon => ?_) projectId).trans hd
    rcases mem_of_mem_put hx' with rfl | hold
    · exact ⟨w, hw, hid.symm, hproject.symm, hactive hon⟩
    · exact ⟨x', hold, rfl, rfl, hon⟩
  cases edit with
  | deactivated => exact hkept rfl rfl fun h => absurd h Bool.false_ne_true
  | updated u limit =>
    cases hoff : w.isActive with
    | true => exact hkept rfl rfl fun _ => hoff
    | false =>
      cases hon : (u.apply now w).isActive with
      | false =>
        refine hkept rfl rfl fun h => ?_
        rw [hon] at h
        exact absurd h Bool.false_ne_true
      | true =>
        have hput := countP_put_le (fun x : WebhookEndpoint =>
          decide (x.projectId = projectId) && x.isActive
            && decide ((none : Option Nat) ≠ some x.id)) db.endpoints (u.apply now w)
        refine hput.trans ?_
        split
        next hcounted =>
          -- the row counts now, so it is one of this project
          simp only [Bool.and_eq_true, decide_eq_true_eq] at hcounted
          have hproject : w.projectId = projectId := hcounted.1.1
          have hroom := limit hoff hon
          rw [hproject] at hroom
          exact (Nat.add_le_add_right (activeEndpoints_le_exclude hw hoff projectId) 1).trans hroom
        · exact hd

theorem Effect.activeEndpoints (h : Effect P s d a d')
    (hd : activeEndpoints d.db projectId none ≤ s.tenantEndpointsPerProject) :
    WebhookPlatform.activeEndpoints d'.db projectId none ≤ s.tenantEndpointsPerProject := by
  cases h with
  | claimed limit tokens =>
    obtain ⟨g, ts, es, hframe⟩ := claimedDb_frame s d.clock limit tokens d.db
    show WebhookPlatform.activeEndpoints (claimedDb s d.clock limit tokens d.db) _ _ ≤ _
    rw [hframe]
    exact hd
  | created project r _ limit =>
    have hinsert := countP_insert_le (fun x : WebhookEndpoint =>
      decide (x.projectId = projectId) && x.isActive
        && decide ((none : Option Nat) ≠ some x.id)) d.db.endpoints
      (newEndpoint project.id r d.clock d.endpointIds)
    refine hinsert.trans ?_
    split
    next hcounted =>
      simp only [Bool.and_eq_true, decide_eq_true_eq] at hcounted
      have hproject : project.id = projectId := hcounted.1.1
      rw [hproject] at limit
      exact limit
    · exact hd
  | edited _ _ _ _ mem edit => exact activeEndpoints_edited mem edit hd
  | rotated _ _ w mem =>
    refine (activeEndpoints_le (fun x' hx' hon => ?_) projectId).trans hd
    rcases mem_of_mem_put hx' with rfl | hold
    · exact ⟨w, mem, rfl, rfl, hon⟩
    · exact ⟨x', hold, rfl, rfl, hon⟩
  | cleaned _ _ _ cleanup =>
    cases cleanup with
    | removed =>
      refine (activeEndpoints_le (fun x' hx' hon => ?_) projectId).trans hd
      exact ⟨x', (mem_delete.mp hx').1, rfl, rfl, hon⟩
    | _ => exact hd
  | _ => exact hd

end Endpoints

/-! ## §4. Balances. -/

/-- A balance of a bucket of this size. -/
def Balance (burst : Nat) (tokens : ℚ) : Prop := 0 ≤ tokens ∧ tokens ≤ burst

/-- The three balances of a tenant. -/
structure TenantQuotaState.Within (s : Settings) (t : TenantQuotaState) : Prop where
  event : Balance s.tenantEventBurst t.eventTokens
  delivery : Balance s.tenantDeliveryBurst t.deliveryTokens
  replay : Balance s.tenantReplayBurst t.replayTokens

/-- The two balances of an endpoint. -/
structure EndpointQuotaState.Within (s : Settings) (e : EndpointQuotaState) : Prop where
  delivery : Balance s.endpointRateBurst e.deliveryTokens
  retry : Balance s.endpointRetryBurst e.retryTokens

theorem balance_full (burst : Nat) : Balance burst (burst : ℚ) := ⟨Nat.cast_nonneg burst, le_refl _⟩

/-- **Whatever is drawn, at whatever moment, leaves a balance.** -/
theorem consumeTokens_balance {tokens : ℚ} {refilledAt : Time} {rate : ℚ} (hrate : 0 < rate)
    (h : Balance capacity tokens) (cost : Nat) (now : Time) (retryCap : Nat) :
    Balance capacity (consumeTokens tokens refilledAt rate capacity cost now retryCap).tokens := by
  have hlevel := congrArg TokenBucket.Bucket.level
    (consumeTokens_refines_draw tokens refilledAt rate capacity cost now retryCap)
  have htokens : (consumeTokens tokens refilledAt rate capacity cost now retryCap).tokens
      = (TokenBucket.draw rate capacity (bucket tokens refilledAt) ⟨cost, now⟩).level := hlevel
  rw [htokens]
  exact ⟨TokenBucket.draw_level_nonneg hrate.le (Nat.cast_nonneg _) h.1,
    TokenBucket.draw_level_le (Nat.cast_nonneg _)⟩

section Tenants

theorem tenantQuotaValues_within (s : Settings) (organizationId : Nat) (now : Time) :
    (tenantQuotaValues organizationId s now).Within s :=
  ⟨balance_full _, balance_full _, balance_full _⟩

theorem chargeEvent_within (hs : s.Accepted) (hstate : state.Within s)
    (h : chargeEvent s state now n = .ok tenant) : tenant.Within s := by
  unfold chargeEvent at h
  split at h
  · cases h
  · cases h
  cases h
  exact ⟨consumeTokens_balance hs.eventRate hstate.event _ _ _,
    consumeTokens_balance hs.deliveryRate hstate.delivery _ _ _, hstate.replay⟩

theorem chargeReplays_within (hs : s.Accepted) (hstate : state.Within s)
    (h : chargeReplays s state now n = .ok tenant) : tenant.Within s := by
  unfold chargeReplays at h
  split at h
  · cases h
  · cases h
  cases h
  exact ⟨hstate.event, consumeTokens_balance hs.deliveryRate hstate.delivery _ _ _,
    consumeTokens_balance hs.replayRate hstate.replay _ _ _⟩

/-- The row that an admission or a selection reads. -/
theorem tenantState_within (hdb : ∀ t ∈ db.tenantStates.rows, t.Within s) (now : Time)
    (organizationId : Nat) : (tenantState s db now organizationId).Within s := by
  unfold tenantState
  cases hfind : db.tenantStates.find? organizationId with
  | none => exact tenantQuotaValues_within s organizationId now
  | some t => exact hdb t (mem_of_find? hfind)

/-- A row that is created when it is missing. -/
theorem ensured_within (hdb : ∀ t ∈ db.tenantStates.rows, t.Within s) (now : Time)
    (organizationId : Nat) :
    ∀ t ∈ (ensureTenantState s now db organizationId).tenantStates.rows, t.Within s := by
  intro t ht
  rcases mem_insert ht with rfl | hold
  · exact tenantQuotaValues_within s organizationId now
  · exact hdb t hold

end Tenants

section Rows

theorem endpointQuotaValues_within (s : Settings) (endpointId : Nat) (now : Time) :
    (endpointQuotaValues endpointId s now).Within s :=
  ⟨balance_full _, balance_full _⟩

theorem refillEndpoint_within (hs : s.Accepted) (he : e.Within s) (now : Time) :
    (refillEndpoint s now e).Within s :=
  ⟨consumeTokens_balance hs.endpointRate he.delivery _ _ _,
    consumeTokens_balance hs.retryRate he.retry _ _ _⟩

/-- A success gives back retry tokens, up to the burst. -/
theorem finalizeEndpoint_within (he : e.Within s) (finished : Time) (r : AttemptResult)
    (deliveryId : Nat) : (finalizeEndpoint s finished r deliveryId e).Within s := by
  have hrefill : Balance s.endpointRetryBurst
      (min (s.endpointRetryBurst : ℚ) (e.retryTokens + (s.endpointRetrySuccessRefill : ℚ))) :=
    ⟨le_min (Nat.cast_nonneg _) (add_nonneg he.retry.1 (Nat.cast_nonneg _)), min_le_left _ _⟩
  unfold finalizeEndpoint
  dsimp only
  split
  · exact ⟨he.delivery, hrefill⟩
  · split
    · split <;> exact ⟨he.delivery, he.retry⟩
    · split
      · exact ⟨he.delivery, he.retry⟩
      · split <;> exact ⟨he.delivery, he.retry⟩

theorem EndpointOperation.apply_within (he : e.Within s) (now : Time)
    (operation : EndpointOperation) : (operation.apply s now e).Within s := by
  cases operation with
  | pause | resume => exact ⟨he.delivery, he.retry⟩
  | recover => exact ⟨he.delivery, balance_full _⟩

end Rows

/-! ## §5. Balances over a selection. -/

/-- The balances that a selection keeps in memory, and those it will
store. -/
structure Pick.Within (s : Settings) (p : Pick) : Prop where
  balances : ∀ ep, Balance s.endpointRateBurst (p.endpointBalances ep)
  retryBalances : ∀ ep, Balance s.endpointRetryBurst (p.endpointRetryBalances ep)
  endpoints : ∀ ep, (p.endpointStates ep).Within s
  tenants : ∀ o, (p.tenantStates o).Within s

section Selections

/-- A token is spent only where there is one. -/
theorem Balance.spend {tokens : ℚ} (h : Balance burst tokens) (hone : 1 ≤ tokens) :
    Balance burst (tokens - 1) := by
  obtain ⟨-, hle⟩ := h
  constructor
  · linarith
  · linarith

theorem Pick.within_take {p : Pick} (hp : p.Within s) (hroom : p.hasRoom s ep x = true) :
    (p.take now org ep x rest).Within s := by
  unfold Pick.hasRoom at hroom
  simp only [Bool.and_eq_true, Bool.or_eq_true, decide_eq_true_eq] at hroom
  obtain ⟨⟨-, hbalance⟩, hretry⟩ := hroom
  have hspent := (hp.balances ep).spend hbalance
  -- a retry has a retry token to spend
  have hretrySpent : 0 < x.attemptCount →
      Balance s.endpointRetryBurst (p.endpointRetryBalances ep - 1) := by
    intro hattempts
    rcases hretry with hfirst | hone
    · omega
    · exact (hp.retryBalances ep).spend hone
  have htaken : (p.takenEndpoint ep x).Within s := by
    refine ⟨hspent, ?_⟩
    show Balance _ (if 0 < x.attemptCount then p.endpointRetryBalances ep - 1
      else (p.endpointStates ep).retryTokens)
    split
    next hattempts => exact hretrySpent hattempts
    · exact (hp.endpoints ep).retry
  constructor
  · exact (Function.forall_update_iff _ fun _ => Balance _).mpr ⟨hspent, fun i _ => hp.balances i⟩
  · show ∀ i, Balance _ ((if 0 < x.attemptCount then Function.update p.endpointRetryBalances ep
      (p.endpointRetryBalances ep - 1) else p.endpointRetryBalances) i)
    split
    next hattempts =>
      exact (Function.forall_update_iff _ fun _ => Balance _).mpr
        ⟨hretrySpent hattempts, fun i _ => hp.retryBalances i⟩
    · exact hp.retryBalances
  · exact (Function.forall_update_iff _ fun _ => EndpointQuotaState.Within s).mpr
      ⟨htaken, fun i _ => hp.endpoints i⟩
  · exact (Function.forall_update_iff _ fun _ => TenantQuotaState.Within s).mpr
      ⟨⟨(hp.tenants org).event, (hp.tenants org).delivery, (hp.tenants org).replay⟩,
        fun i _ => hp.tenants i⟩

theorem Pick.within_move (hp : p.Within s) (h : Pick.Move s now available p q) : q.Within s := by
  cases h with
  | rotate => exact ⟨hp.balances, hp.retryBalances, hp.endpoints, hp.tenants⟩
  | wake ep e gate =>
    have he : e.Within s := by
      rcases EndpointQuotaState.gate_cases gate with ⟨rfl, -⟩ | ⟨-, rfl⟩
      · exact hp.endpoints ep
      · exact ⟨(hp.endpoints ep).delivery, (hp.endpoints ep).retry⟩
    exact ⟨hp.balances, hp.retryBalances,
      (Function.forall_update_iff _ fun _ => EndpointQuotaState.Within s).mpr
        ⟨he, fun i _ => hp.endpoints i⟩, hp.tenants⟩
  | take _ _ _ _ _ _ _ room => exact Pick.within_take hp room

theorem Reads.choose_within (hs : s.Accepted) {r : Reads}
    (hendpoints : ∀ ep, (r.endpointStates ep).Within s)
    (htenants : ∀ o, (r.tenantStates o).Within s) : (r.choose s now available).Within s := by
  have hstart : (r.start s now).Within s :=
    ⟨fun ep => (refillEndpoint_within hs (hendpoints ep) now).delivery,
      fun ep => (refillEndpoint_within hs (hendpoints ep) now).retry,
      fun ep => refillEndpoint_within hs (hendpoints ep) now, htenants⟩
  exact (Pick.selectLoop_moves r.organizationOrder available (r.start s now)).inv
    (I := fun p => p.Within s) (fun p q hp hm => Pick.within_move hp hm) hstart

/-- **A selection leaves balances.** -/
theorem selectFairDeliveries_within (hs : s.Accepted) (requested : Nat) {db : Db}
    (htenants : ∀ t ∈ db.tenantStates.rows, t.Within s)
    (hendpoints : ∀ e ∈ db.endpointStates.rows, e.Within s) :
    (∀ t ∈ (selectFairDeliveries s now requested db).1.tenantStates.rows, t.Within s)
      ∧ ∀ e ∈ (selectFairDeliveries s now requested db).1.endpointStates.rows, e.Within s := by
  unfold selectFairDeliveries
  dsimp only
  split
  · exact ⟨htenants, hendpoints⟩
  generalize availableSlots s now requested (ensureGlobalState now db) = available
  have hwithin : ((readsOf s now available (ensureGlobalState now db)).choose s now
      available).Within s :=
    Reads.choose_within hs
      (endpointState_forall hendpoints fun id => endpointQuotaValues_within s id now)
      (tenantState_within htenants now)
  have hdb : (ensureGlobalState now db).tenantStates = db.tenantStates
      ∧ (ensureGlobalState now db).endpointStates = db.endpointStates := ⟨rfl, rfl⟩
  -- a locked row is as the choice leaves it, any other as it was
  constructor
  · intro t ht
    have hfind := Table.find?_key ht
    rw [Reads.find?_store_tenant (Reads.choose_tenantKey fun o =>
      tenantState_organizationId _ _ o), hdb.1] at hfind
    split at hfind
    · rw [← Option.some.inj hfind]
      exact hwithin.tenants _
    · exact htenants t (mem_of_find? hfind)
  · intro e he
    have hfind := Table.find?_key he
    rw [Reads.find?_store_endpoint (Reads.choose_endpointKey fun ep =>
      endpointState_endpointId _ _ _ ep), hdb.2] at hfind
    split at hfind
    · rw [← Option.some.inj hfind]
      exact hwithin.endpoints _
    · exact hendpoints e (mem_of_find? hfind)

end Selections

/-! ## §6. Balances over a step. -/

section Steps

variable {d d' : Deployment}

/-- The balances of a deployment. -/
structure Deployment.Balanced (s : Settings) (d : Deployment) : Prop where
  tenants : ∀ t ∈ d.db.tenantStates.rows, t.Within s
  endpoints : ∀ e ∈ d.db.endpointStates.rows, e.Within s

/-- An admission stores the charged row. -/
theorem charged_within {now : Time} (hdb : ∀ t ∈ db.tenantStates.rows, t.Within s)
    (htenant : tenant.Within s) :
    ∀ t ∈ ((ensureAdmissionState s now organizationId db).tenantStates.put tenant).rows,
      t.Within s := by
  intro t ht
  rcases mem_of_mem_put ht with rfl | hold
  · exact htenant
  · have hensured := ensured_within hdb now organizationId
    exact hensured t hold

theorem StateOrigin.within (h : StateOrigin s d a e') (hs : s.Accepted) (hd : d.Balanced s) :
    e'.Within s := by
  cases h with
  | kept _ _ mem => exact hd.endpoints e' mem
  | created _ id => exact endpointQuotaValues_within s id d.clock
  | selected limit _ _ mem =>
    exact (selectFairDeliveries_within hs limit hd.tenants hd.endpoints).2 e' mem
  | finalized _ f x e mem =>
    exact finalizeEndpoint_within (hd.endpoints e mem) d.clock f.result x.id
  | canceled _ id e mem =>
    unfold cancelEndpoint
    split
    · exact ⟨(hd.endpoints e mem).delivery, (hd.endpoints e mem).retry⟩
    · exact (hd.endpoints e mem)
  | operated _ _ operation e mem => exact operation.apply_within (hd.endpoints e mem) d.clock
  | unprobed _ _ e mem => exact ⟨(hd.endpoints e mem).delivery, (hd.endpoints e mem).retry⟩

theorem Effect.balanced (h : Effect P s d a d') (hs : s.Accepted) (hd : d.Balanced s) :
    d'.Balanced s := by
  refine ⟨?_, fun e' he' => (h.state he').within hs hd⟩
  cases h with
  | claimed limit =>
    exact (selectFairDeliveries_within hs limit hd.tenants hd.endpoints).1
  | ingested _ _ _ _ _ _ _ admitted =>
    exact charged_within hd.tenants (chargeEvent_within hs
      (tenantState_within hd.tenants d.clock _) (admitEventLocked_ok admitted).2.2)
  | replayed _ _ _ _ _ _ _ _ _ admitted =>
    obtain ⟨count, -, hadmitting⟩ := admitted
    exact charged_within hd.tenants (chargeReplays_within hs
      (tenantState_within hd.tenants d.clock _) (admitReplaysLocked_ok hadmitting).2)
  | created project => exact ensured_within hd.tenants d.clock project.organizationId
  | edited _ _ _ _ _ _ ensured =>
    rcases ensured with rfl | ⟨org, rfl⟩
    · exact hd.tenants
    · exact ensured_within hd.tenants d.clock org
  | cleaned _ _ _ cleanup =>
    cases cleanup with
    | removed => exact fun t ht => hd.tenants t (mem_delete.mp ht).1
    | _ => exact hd.tenants
  | _ => exact hd.tenants

/-- The admission that the action asks for is refused. -/
def Deployment.Refuses (P : Primitives) (s : Settings) (d : Deployment) : Action → Prop
  | .op (.ingest projectId call) => ∃ p e, d.authorized projectId = some p
      ∧ ingestEvent P s d.clock p call d.db = .error e
  | .op (.replay projectId deliveryId draws) => ∃ p e, d.authorized projectId = some p
      ∧ replayDelivery s d.clock p deliveryId draws d.db = .error e
  | .op (.replayMany projectId deliveryIds key draws) => ∃ p e, d.authorized projectId = some p
      ∧ replayDeliveries s d.clock p deliveryIds key draws d.db = .error e
  | .createEndpoint projectId r => ∃ p e, d.authorized projectId = some p
      ∧ createEndpoint s d.clock p r d.endpointIds d.db = .error e
  | .updateEndpoint projectId endpointPublicId u => ∃ p e, d.authorized projectId = some p
      ∧ updateEndpoint s d.clock p endpointPublicId u d.db = .error e
  | _ => False

theorem Deployment.onProject_refused (hp : d.authorized projectId = some p) (he : f p = .error e)
    (h : d.onProject projectId f = some d') : d' = d := by
  unfold Deployment.onProject at h
  rw [hp, Option.map_some, he] at h
  exact (Option.some.inj h).symm

theorem Deployment.op_refused (hp : d.authorized projectId = some p) (he : f p = .error e)
    (ho : d.toWorld.step P s o = d.toWorld.onProject projectId f)
    (h : d.step P s (.op o) = some d') : d' = d := by
  unfold Deployment.step at h
  obtain ⟨-, h⟩ := Option.ite_none_right_eq_some.mp h
  obtain ⟨w, hw, rfl⟩ := Option.map_eq_some_iff.mp h
  rw [ho] at hw
  unfold World.onProject at hw
  rw [(authorized_some hp).1, Option.map_some, he] at hw
  rw [← Option.some.inj hw]
  rfl

/-- **A refused admission is rolled back.** -/
theorem Deployment.refused (hstep : d.step P s a = some d') (h : d.Refuses P s a) : d' = d := by
  cases a with
  | op o =>
    cases o with
    | ingest _ call =>
      obtain ⟨p, e, hp, he⟩ := h
      have hmap : (ingestEvent P s d.clock p call d.db).map Prod.fst = .error e := by
        rw [he]
        rfl
      exact op_refused hp hmap rfl hstep
    | replay | replayMany =>
      obtain ⟨p, e, hp, he⟩ := h
      exact op_refused hp he rfl hstep
    | _ => exact h.elim
  | createEndpoint =>
    obtain ⟨p, e, hp, he⟩ := h
    obtain ⟨q, hq, hd'⟩ := Option.map_eq_some_iff.mp hstep
    obtain rfl := Option.some.inj (hp.symm.trans hq)
    rw [he] at hd'
    exact hd'.symm
  | updateEndpoint =>
    obtain ⟨p, e, hp, he⟩ := h
    exact onProject_refused hp he hstep
  | _ => exact h.elim

end Steps

/-! ## §7. Runs. -/

/-- All limits of admission. -/
structure Deployment.Limited (s : Settings) (d : Deployment) : Prop where
  backlog : backlog d.db ≤ s.globalMaxBacklog
  retained : ∀ organizationId, retainedBytes d.db organizationId ≤ s.tenantRetainedBytes
  endpoints : ∀ projectId, activeEndpoints d.db projectId none ≤ s.tenantEndpointsPerProject
  balanced : d.Balanced s

theorem Deployment.Fresh.limited {d : Deployment} (h : d.Fresh) : d.Limited s := by
  refine ⟨?_, fun organizationId => ?_, fun projectId => ?_, fun t ht => ?_, fun e he => ?_⟩
  · unfold WebhookPlatform.backlog
    rw [h.deliveries]
    exact Nat.zero_le _
  · unfold retainedBytes
    rw [h.events]
    exact Nat.zero_le _
  · unfold activeEndpoints
    rw [h.endpoints]
    exact Nat.zero_le _
  · rw [h.tenantStates] at ht
    cases ht
  · rw [h.endpointStates] at he
    cases he

/-- **THE LIMITS OF ADMISSION.**  With settings that the validator accepts,
in every state that a run of atomic transactions reaches, each at an
arbitrary moment: the unfinished deliveries, the bytes of each tenant and
the active endpoints of each project are within their limits, and the five
balances within their buckets; and an admission that is refused changes
nothing. -/
theorem admission_limits (P : Primitives) (s : Settings) (d d' : Deployment)
    (xs : List (Time × Action)) (haccepted : s.accepted = true) (hfresh : d.Fresh)
    (hrun : run (Deployment.stepAt P s) d xs = some d') :
    backlog d'.db ≤ s.globalMaxBacklog
      ∧ (∀ organizationId, retainedBytes d'.db organizationId ≤ s.tenantRetainedBytes)
      ∧ (∀ projectId, activeEndpoints d'.db projectId none ≤ s.tenantEndpointsPerProject)
      ∧ (∀ t ∈ d'.db.tenantStates.rows, Balance s.tenantEventBurst t.eventTokens
        ∧ Balance s.tenantDeliveryBurst t.deliveryTokens
        ∧ Balance s.tenantReplayBurst t.replayTokens)
      ∧ (∀ e ∈ d'.db.endpointStates.rows, Balance s.endpointRateBurst e.deliveryTokens
        ∧ Balance s.endpointRetryBurst e.retryTokens)
      ∧ ∀ now a d'', d'.stepAt P s (now, a) = some d'' →
        ({ d' with clock := now } : Deployment).Refuses P s a → d''.db = d'.db := by
  have hs := Settings.accepted_spec haccepted
  have hd' : d'.Limited s := by
    refine run_inv (I := Deployment.Limited s) ?_ hfresh.limited hrun
    intro u x u' hu hstep
    have heffect := Deployment.stepAt_effect hstep
    exact ⟨heffect.backlog hu.backlog, fun org => heffect.retained (hu.retained org),
      fun projectId => heffect.activeEndpoints (hu.endpoints projectId),
      heffect.balanced hs ⟨hu.balanced.tenants, hu.balanced.endpoints⟩⟩
  refine ⟨hd'.backlog, hd'.retained, hd'.endpoints, fun t ht => ?_, fun e he => ?_, ?_⟩
  · have ht := hd'.balanced.tenants t ht
    exact ⟨ht.event, ht.delivery, ht.replay⟩
  · have he := hd'.balanced.endpoints e he
    exact ⟨he.delivery, he.retry⟩
  · intro now a d'' hstep hrefused
    rw [Deployment.refused hstep hrefused]

/-- An event is accepted and attempted once; its second attempt has spent a
retry token. -/
theorem admission_limits_retry :
    ∃ d', freshRun Settings.defaults
        [(0, registerEndpoint), (0, .op (.ingest 1 firstEvent)), (0, .op (.claim 1 ["token-1"])),
          (1, .op (.finalize (firstClaim "token-1" 1) unavailable)),
          (0, .op (.claim 1 ["token-2"])), (2, .op (.claim 1 ["token-3"]))] = some d'
      ∧ d'.db.endpointStates.rows.map EndpointQuotaState.retryTokens = [9]
      ∧ backlog d'.db ≤ 100000
      ∧ ∀ e ∈ d'.db.endpointStates.rows, Balance 10 e.retryTokens := by
  obtain ⟨d', hrun, htokens⟩ : ∃ d', freshRun Settings.defaults
        [(0, registerEndpoint), (0, .op (.ingest 1 firstEvent)), (0, .op (.claim 1 ["token-1"])),
          (1, .op (.finalize (firstClaim "token-1" 1) unavailable)),
          (0, .op (.claim 1 ["token-2"])), (2, .op (.claim 1 ["token-3"]))] = some d'
      ∧ d'.db.endpointStates.rows.map EndpointQuotaState.retryTokens = [9] := by
    decide +kernel
  obtain ⟨hbacklog, -, -, -, hendpoints, -⟩ := admission_limits smallPrimitives Settings.defaults
    freshDeployment d' _ Settings.defaults_accepted freshDeployment_fresh hrun
  exact ⟨d', hrun, htokens, hbacklog, fun e he => (hendpoints e he).2⟩

/-! ## §8. What an idle tenant is admitted. -/

/-- Full buckets, nothing waiting, and nothing retained by the tenant of an
event. -/
structure Idle (s : Settings) (db : Db) (state : TenantQuotaState) (c : AdmissionCall) : Prop where
  backlog : backlog db = 0
  retained : ∀ org n size, c = .event org n size → retainedBytes db org = 0
  events : state.eventTokens = s.tenantEventBurst
  deliveries : state.deliveryTokens = s.tenantDeliveryBurst
  replays : state.replayTokens = s.tenantReplayBurst

/-- The call is within the global backlog, the retained bytes and the bursts. -/
def AdmissionCall.fits (s : Settings) : AdmissionCall → Bool
  | event _ n size => decide (n ≤ s.globalMaxBacklog ∧ size ≤ s.tenantRetainedBytes)
  | replays n => decide (n ≤ s.globalMaxBacklog ∧ n ≤ s.tenantReplayBurst
      ∧ n ≤ s.tenantDeliveryBurst)

section Bucket

variable {tokens rate : ℚ} {refilledAt now : Time} {capacity cost retryCap : Nat}

theorem full_grants (hrate : 0 < rate) (hfull : tokens = capacity) (hcost : cost ≤ capacity) :
    (consumeTokens tokens refilledAt rate capacity cost now retryCap).retryAfter = none := by
  rw [consumeTokens_granted_iff, hfull]
  exact (Nat.cast_le.mpr hcost).trans
    (TokenBucket.level_le_refill (b := bucket capacity refilledAt) hrate.le le_rfl)

theorem cost_le_capacity
    (h : (consumeTokens tokens refilledAt rate capacity cost now retryCap).retryAfter = none) :
    cost ≤ capacity :=
  Nat.cast_le.mp (((consumeTokens_granted_iff _ _ _ _ _ _ _).mp h).trans (min_le_left _ _))

end Bucket

theorem saturation_idle {s : Settings} (h : backlog db = 0) (hn : n ≤ s.globalMaxBacklog) :
    checkSaturation s db now n = .ok () := by
  have hnone : db.deliveries.rows.filter (Delivery.due now) = [] := by
    refine filter_eq_nil_iff.mpr fun x hx hdue => ?_
    have hopen := countP_eq_zero.mp h x hx
    rw [Delivery.nonterminal_of_due hdue] at hopen
    exact hopen rfl
  unfold checkSaturation oldestDue
  rw [if_neg (by omega), hnone]
  rfl

/-- In EVERY state only what fits is admitted. -/
theorem fits_of_admitted {c : AdmissionCall} (h : c.answer s db state now = .ok t) :
    c.fits s = true := by
  cases c with
  | event org n size =>
    obtain ⟨hbacklog, hbytes, -⟩ := admitEventLocked_ok h
    exact decide_eq_true ⟨by omega, by omega⟩
  | replays n =>
    obtain ⟨hbacklog, h⟩ := admitReplaysLocked_ok h
    unfold chargeReplays at h
    split at h
    · cases h
    · cases h
    next hreplay hdelivery =>
      exact decide_eq_true ⟨by omega, cost_le_capacity hreplay, cost_le_capacity hdelivery⟩

theorem idle_admitted {s : Settings} (haccepted : s.accepted = true) (hsized : c.sized s = true)
    (hidle : Idle s db state c) (hfits : c.fits s = true) :
    ∃ t, c.answer s db state now = .ok t := by
  have hrates := Settings.accepted_spec haccepted
  obtain ⟨-, hfanout, hburst⟩ := Settings.ordered_of_accepted haccepted
  have hdeliveries : ∀ n ≤ s.tenantDeliveryBurst,
      (deliveryBalance s state n now).retryAfter = none := fun n =>
    full_grants hrates.deliveryRate hidle.deliveries
  cases c with
  | event org n size =>
    have hn := of_decide_eq_true hsized
    obtain ⟨hbacklog, hbytes⟩ := of_decide_eq_true hfits
    have hevents : (eventBalance s state now).retryAfter = none :=
      full_grants hrates.eventRate hidle.events hburst
    show ∃ t, admitEventLocked s db state now org n size = .ok t
    unfold admitEventLocked chargeEvent
    rw [if_neg (by omega), saturation_idle hidle.backlog hbacklog, hidle.retained org n size rfl,
      hevents, hdeliveries n (hn.trans hfanout)]
    exact ⟨_, if_neg (by omega)⟩
  | replays n =>
    have hn := of_decide_eq_true hsized
    obtain ⟨hbacklog, hreplay, hdelivery⟩ := of_decide_eq_true hfits
    have hreplays : (replayBalance s state n now).retryAfter = none :=
      full_grants hrates.replayRate hidle.replays hreplay
    show ∃ t, admitReplaysLocked s db state now n = .ok t
    unfold admitReplaysLocked chargeReplays
    rw [if_neg (by omega), saturation_idle hidle.backlog hbacklog, hreplays,
      hdeliveries n hdelivery]
    exact ⟨_, rfl⟩

/-- **WHICH PERMITTED REQUESTS AN IDLE TENANT IS ADMITTED**: those that fit;
the others are refused in EVERY state. -/
theorem permitted_admitted_iff (s : Settings) (haccepted : s.accepted = true) (c : AdmissionCall)
    (hsized : c.sized s = true) (db : Db) (state : TenantQuotaState) (now : Time) :
    (Idle s db state c → c.fits s = true → ∃ t, c.answer s db state now = .ok t)
      ∧ (c.fits s = false → ∀ t, c.answer s db state now ≠ .ok t) := by
  refine ⟨idle_admitted haccepted hsized, fun hfits t h => ?_⟩
  rw [fits_of_admitted h] at hfits
  cases hfits

theorem permitted_admitted_iff_defaults :
    ∃ t, (AdmissionCall.replays 20).answer .defaults {} (tenantQuotaValues 1 .defaults 0) 0
      = .ok t :=
  (permitted_admitted_iff .defaults Settings.defaults_accepted (.replays 20) (by decide) {}
    (tenantQuotaValues 1 .defaults 0) 0).1 ⟨rfl, by simp, rfl, rfl, rfl⟩ (by decide)

/-- **A PERMITTED BATCH OF 21 REPLAYS IS REFUSED**, with the default settings. -/
theorem default_batch_refused :
    Idle .defaults {} (tenantQuotaValues 1 .defaults 0) (.replays 21)
      ∧ (AdmissionCall.replays 21).sized .defaults = true
      ∧ (AdmissionCall.replays 21).answer .defaults {} (tenantQuotaValues 1 .defaults 0) 0
        = .error (.quotaExceeded "replay_rate" 1) :=
  ⟨⟨rfl, by simp, rfl, rfl, rfl⟩, by decide +kernel⟩

end WebhookPlatform
