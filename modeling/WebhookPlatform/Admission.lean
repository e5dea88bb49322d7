/-
  WebhookPlatform.Admission
  **REPLICA-SHARED ADMISSION CONTROL** (`app/admission.py`).

    • `consumeTokens`       — the one bucket operation behind every quota,
    • `ensure…State`        — the state rows, created on first use,
    • `checkSaturation`     — the deployment-wide refusals,
    • `admitEventLocked`, `admitReplaysLocked` — a tenant's admission, under
      the global and the tenant row lock.

  Three results.  `consumeTokens` refines the abstract bucket draw, so the
  rate bound of `Lib.TokenBucket` applies to it as long as transactions get
  the row lock IN THE ORDER THEY STARTED (`granted_le_of_lock_order`); a
  transaction that started earlier sets the stored moment back, and the same
  seconds are then refilled twice (`refill_counted_twice`).  The seconds in
  a refusal are exact (`retry_after_exact`).  And the
  oldest-due refusal looks at every due delivery, also at those no worker
  may take: `oldest_due_refusal_iff` says exactly when that is harmless.
-/
import WebhookPlatform.Lib.Exceptions
import WebhookPlatform.Lib.TokenBucket
import WebhookPlatform.Models

namespace WebhookPlatform

open Relational Exceptions

/-! ## §1. Token balances. -/

/-- `TokenBalance`. -/
structure TokenBalance where
  tokens : ℚ
  refilledAt : Time
  retryAfter : Option Nat
  deriving Repr, DecidableEq

/-- `consume_tokens`. -/
def consumeTokens (tokens : ℚ) (refilledAt : Time) (rate : ℚ) (capacity cost : Nat)
    (now : Time) (retryCap : Nat) : TokenBalance :=
  let elapsed := max 0 (now - refilledAt)
  let available := min (capacity : ℚ) (tokens + elapsed * rate)
  if (cost : ℚ) ≤ available then
    ⟨available - cost, now, none⟩
  else
    let wait := ⌈((cost : ℚ) - available) / rate⌉.toNat
    ⟨available, now, some (min retryCap (max 1 wait))⟩

/-- The bucket a stored balance stands for. -/
abbrev bucket (tokens : ℚ) (refilledAt : Time) : TokenBucket.Bucket ℚ := ⟨tokens, refilledAt⟩

/-- **Refinement**: what `consumeTokens` stores is what the abstract draw
leaves. -/
theorem consumeTokens_refines_draw (tokens : ℚ) (refilledAt : Time) (rate : ℚ)
    (capacity cost : Nat) (now : Time) (retryCap : Nat) :
    bucket (consumeTokens tokens refilledAt rate capacity cost now retryCap).tokens
        (consumeTokens tokens refilledAt rate capacity cost now retryCap).refilledAt
      = TokenBucket.draw rate capacity (bucket tokens refilledAt) ⟨cost, now⟩ := by
  dsimp only [consumeTokens, TokenBucket.draw, TokenBucket.refill, bucket]
  by_cases h : (cost : ℚ) ≤ min (capacity : ℚ) (tokens + max 0 (now - refilledAt) * rate)
  · simp only [if_pos h]
    exact congrArg (bucket · now) (if_pos h).symm
  · simp only [if_neg h]
    exact congrArg (bucket · now) (if_neg h).symm

/-- The cost is granted exactly when the refilled level covers it. -/
theorem consumeTokens_granted_iff (tokens : ℚ) (refilledAt : Time) (rate : ℚ)
    (capacity cost : Nat) (now : Time) (retryCap : Nat) :
    (consumeTokens tokens refilledAt rate capacity cost now retryCap).retryAfter = none
      ↔ (cost : ℚ) ≤ TokenBucket.refill rate capacity now (bucket tokens refilledAt) := by
  unfold consumeTokens TokenBucket.refill
  dsimp only
  split
  next h => exact ⟨fun _ => h, fun _ => rfl⟩
  next h => exact ⟨fun hn => absurd hn (by simp), fun hc => absurd hc h⟩

/-- A granted cost is taken from the refilled level. -/
theorem consumeTokens_paid {tokens : ℚ} {refilledAt : Time} {rate : ℚ}
    (h : (consumeTokens tokens refilledAt rate capacity cost now retryCap).retryAfter = none) :
    (consumeTokens tokens refilledAt rate capacity cost now retryCap).tokens
      = TokenBucket.refill rate capacity now (bucket tokens refilledAt) - cost := by
  have hcovered := (consumeTokens_granted_iff _ _ _ _ _ _ _).mp h
  unfold consumeTokens
  exact congrArg TokenBalance.tokens (if_pos hcovered)

/-! ## §2. Rate conformance of a shared bucket. -/

/-- The settings of one bucket (`Field(gt=0)` in `app/config.py`). -/
structure BucketLimits where
  rate : ℚ
  capacity : Nat
  retryCap : Nat
  rate_pos : 0 < rate

/-- A stored `(tokens, refilled_at)` pair.  No path stores a negative
balance, and the value cannot be built with one. -/
structure StoredBalance where
  tokens : ℚ
  refilledAt : Time
  tokens_nonneg : 0 ≤ tokens

/-- One call: the cost, and the start time of the calling transaction. -/
structure TokenCall where
  cost : Nat
  now : Time

variable (l : BucketLimits)

/-- The call's answer over the stored balance. -/
def BucketLimits.consume (b : StoredBalance) (c : TokenCall) : TokenBalance :=
  consumeTokens b.tokens b.refilledAt l.rate l.capacity c.cost c.now l.retryCap

/-- The stored pair as an abstract bucket. -/
abbrev StoredBalance.toBucket (b : StoredBalance) : TokenBucket.Bucket ℚ :=
  bucket b.tokens b.refilledAt

/-- The call as an abstract draw. -/
abbrev TokenCall.toDraw (c : TokenCall) : TokenBucket.Draw ℚ := ⟨c.cost, c.now⟩

theorem BucketLimits.consume_toBucket (b : StoredBalance) (c : TokenCall) :
    bucket (l.consume b c).tokens (l.consume b c).refilledAt
      = TokenBucket.draw l.rate l.capacity b.toBucket c.toDraw :=
  consumeTokens_refines_draw _ _ _ _ _ _ _

/-- What the call leaves in the row. -/
def BucketLimits.store (b : StoredBalance) (c : TokenCall) : StoredBalance where
  tokens := (l.consume b c).tokens
  refilledAt := (l.consume b c).refilledAt
  tokens_nonneg := by
    have h := congrArg TokenBucket.Bucket.level (l.consume_toBucket b c)
    have hlevel : 0 ≤ (TokenBucket.draw l.rate l.capacity b.toBucket c.toDraw).level :=
      TokenBucket.draw_level_nonneg l.rate_pos.le (Nat.cast_nonneg _) b.tokens_nonneg
    rw [← h] at hlevel
    exact hlevel

/-- The cost a call is granted. -/
def BucketLimits.granted (b : StoredBalance) (c : TokenCall) : Nat :=
  if (l.consume b c).retryAfter = none then c.cost else 0

/-- The total cost granted to a sequence of calls threaded through the row. -/
def BucketLimits.totalGranted (l : BucketLimits) : StoredBalance → List TokenCall → Nat
  | _, [] => 0
  | b, c :: cs => l.granted b c + l.totalGranted (l.store b c) cs

theorem BucketLimits.granted_eq_paid (b : StoredBalance) (c : TokenCall) :
    (l.granted b c : ℚ) = TokenBucket.paid l.rate l.capacity b.toBucket c.toDraw := by
  unfold BucketLimits.granted BucketLimits.consume TokenBucket.paid
  simp only [consumeTokens_granted_iff]
  split
  · rfl
  · exact Nat.cast_zero

theorem BucketLimits.totalGranted_eq_totalPaid (cs : List TokenCall) (b : StoredBalance) :
    (l.totalGranted b cs : ℚ)
      = TokenBucket.totalPaid l.rate l.capacity b.toBucket (cs.map TokenCall.toDraw) := by
  induction cs generalizing b with
  | nil => exact Nat.cast_zero
  | cons c cs ih =>
    have hnext : (l.store b c).toBucket
        = TokenBucket.draw l.rate l.capacity b.toBucket c.toDraw := l.consume_toBucket b c
    show ((l.granted b c + l.totalGranted (l.store b c) cs : Nat) : ℚ) = _
    rw [Nat.cast_add, l.granted_eq_paid, ih, hnext]
    rfl

/-- **RATE CONFORMANCE IN LOCK ORDER.**  If no transaction gets the row with
a start time before the stored `refilled_at`, the calls are granted at most
the initial tokens plus the rate over the time up to the latest start. -/
theorem granted_le_of_lock_order (b : StoredBalance) (cs : List TokenCall) (latest : Time)
    (horder : (b.refilledAt :: cs.map TokenCall.now).IsChain (· ≤ ·))
    (hlatest : (cs.map TokenCall.now).max? = some latest) :
    (l.totalGranted b cs : ℚ) ≤ b.tokens + l.rate * (latest - b.refilledAt) := by
  have hbound : ∀ c ∈ cs, c.now ≤ latest := by
    intro c hc
    exact (List.max?_eq_some_iff.mp hlatest).2 _ (List.mem_map_of_mem hc)
  have hstart : b.refilledAt ≤ latest := by
    cases cs with
    | nil => cases hlatest
    | cons c =>
      exact (List.isChain_cons_cons.mp horder).1.trans (hbound c List.mem_cons_self)
  rw [l.totalGranted_eq_totalPaid]
  refine TokenBucket.paid_le_worth l.rate_pos.le (Nat.cast_nonneg _) _ b.toBucket
    b.tokens_nonneg hstart ?_ ?_
  · intro d hd
    obtain ⟨c, hc, rfl⟩ := List.mem_map.mp hd
    exact hbound c hc
  · show (b.refilledAt :: (cs.map TokenCall.toDraw).map TokenBucket.Draw.now).IsChain (· ≤ ·)
    rw [List.map_map]
    exact horder

/-- The tenant replay bucket of the default settings. -/
def replayLimits : BucketLimits := ⟨10, 20, 60, by norm_num⟩

/-- A replay bucket that is empty at time zero. -/
def emptyBalance : StoredBalance := ⟨0, 0, le_refl 0⟩

/-- Two replays that start at second two, in lock order. -/
theorem granted_le_of_lock_order_replay :
    (replayLimits.totalGranted emptyBalance [⟨19, 2⟩, ⟨1, 2⟩] : ℚ) ≤ 0 + 10 * (2 - 0) :=
  granted_le_of_lock_order replayLimits emptyBalance [⟨19, 2⟩, ⟨1, 2⟩] 2
    (by decide +kernel) (by decide +kernel)

/-- **The same two seconds are refilled twice.**  Between two replays that
start at second two, one that started at second zero gets the row lock
late: it sets `refilled_at` back, and the third call refills what the first
has already spent.  Forty deliveries are granted where the bound is twenty. -/
theorem refill_counted_twice :
    replayLimits.totalGranted emptyBalance [⟨19, 2⟩, ⟨1, 0⟩, ⟨20, 2⟩] = 40
      ∧ ([⟨19, 2⟩, ⟨1, 0⟩, ⟨20, 2⟩].map TokenCall.now).max? = some 2
      ∧ ¬ ((40 : ℚ) ≤ emptyBalance.tokens
          + replayLimits.rate * (2 - emptyBalance.refilledAt)) := by
  decide +kernel

/-! ### The hint of a refusal. -/

section Hint

open TokenBucket

/-- The level that the call meets. -/
def BucketLimits.level (b : StoredBalance) (now : Time) : ℚ :=
  refill l.rate l.capacity now b.toBucket

theorem BucketLimits.consume_eq (b : StoredBalance) (c : TokenCall) : l.consume b c
    = if (c.cost : ℚ) ≤ l.level b c.now then ⟨l.level b c.now - c.cost, c.now, none⟩
      else ⟨l.level b c.now, c.now,
        some (min l.retryCap (max 1 ⌈((c.cost : ℚ) - l.level b c.now) / l.rate⌉.toNat))⟩ := rfl

/-- A call that takes nothing leaves every later level as it is. -/
theorem BucketLimits.level_store (h : c.cost = 0 ∨ (l.consume b c).retryAfter ≠ none)
    (hnow : b.refilledAt ≤ c.now) (hlater : c.now ≤ later) :
    l.level (l.store b c) later = l.level b later := by
  have hstored : (l.store b c).toBucket = ⟨l.level b c.now, c.now⟩ := by
    unfold BucketLimits.store StoredBalance.toBucket
    dsimp only
    rw [l.consume_eq] at h ⊢
    split
    next hcovered =>
      rw [if_pos hcovered] at h
      rw [h.resolve_right (fun hn => hn rfl), Nat.cast_zero, sub_zero]
    · rfl
  unfold BucketLimits.level
  rw [hstored]
  exact refill_refill l.rate_pos.le hnow hlater

/-- Any refreshes of an idle period leave the later level as it is. -/
theorem BucketLimits.level_refreshed {times : List Time}
    (hchain : (b.refilledAt :: (times ++ [later])).IsChain (· ≤ ·)) :
    l.level (times.foldl (fun b t => l.store b ⟨0, t⟩) b) later = l.level b later := by
  induction times generalizing b with
  | nil => rfl
  | cons t times ih =>
    obtain ⟨hnow, hrest⟩ := List.isChain_cons_cons.mp hchain
    have hlater : t ≤ later :=
      (List.pairwise_cons.mp (List.isChain_iff_pairwise.mp hrest)).1 later (by simp)
    have hsince : (l.store b ⟨0, t⟩).refilledAt = t :=
      congrArg Bucket.since (l.consume_toBucket b ⟨0, t⟩)
    rw [← hsince] at hrest
    rw [List.foldl_cons, ih hrest]
    exact l.level_store (Or.inl rfl) hnow hlater

/-- The hint is the number of seconds after which the level covers the cost. -/
theorem BucketLimits.hint_iff (hw : w < l.retryCap) (h : (l.consume b c).retryAfter = some w)
    (k : Nat) : (c.cost : ℚ) ≤ l.level b c.now + k * l.rate ↔ w ≤ k := by
  rw [l.consume_eq] at h
  generalize l.level b c.now = available at h ⊢
  split at h
  · cases h
  next hshort =>
    injection h with h
    have hpos : 0 < ⌈((c.cost : ℚ) - available) / l.rate⌉ :=
      Int.ceil_pos.mpr (div_pos (sub_pos.mpr (not_le.mp hshort)) l.rate_pos)
    -- neither the cap nor the floor of one second has changed the wait
    have hwait : w = ⌈((c.cost : ℚ) - available) / l.rate⌉.toNat := by omega
    rw [hwait, Int.toNat_le, Int.ceil_le, div_le_iff₀ l.rate_pos, Int.cast_natCast,
      sub_le_iff_le_add, add_comm]

/-- After `k` seconds without a call. -/
theorem BucketLimits.level_after (b : StoredBalance) (hnow : b.refilledAt ≤ now) (k : Nat) :
    l.level b (now + k) = min (l.capacity : ℚ) (l.level b now + k * l.rate) := by
  have hlater : now ≤ now + (k : ℚ) := le_add_of_nonneg_right (Nat.cast_nonneg k)
  unfold BucketLimits.level
  rw [← refill_refill (b := b.toBucket) l.rate_pos.le hnow hlater]
  nth_rewrite 1 [refill]
  rw [add_sub_cancel_left, max_eq_right (Nat.cast_nonneg k)]

/-- **THE HINT IS EXACT.**  A call that is refused with a hint `w` below the
cap is granted `w` seconds later and at no whole second before, whether or not
the refused call's balance was stored; a granted call leaves a balance within
the capacity; and refreshes in between change no answer. -/
theorem retry_after_exact (b : StoredBalance) (c : TokenCall) (hfits : c.cost ≤ l.capacity)
    (hnow : b.refilledAt ≤ c.now) :
    (∀ w < l.retryCap, (l.consume b c).retryAfter = some w → ∀ b' ∈ [b, l.store b c], ∀ k ≤ w,
        ((l.consume b' ⟨c.cost, c.now + k⟩).retryAfter = none ↔ k = w))
      ∧ ((l.consume b c).retryAfter = none →
        0 ≤ (l.consume b c).tokens ∧ (l.consume b c).tokens ≤ l.capacity)
      ∧ ∀ (times : List Time) (c' : TokenCall),
        (b.refilledAt :: (times ++ [c'.now])).IsChain (· ≤ ·) →
        l.consume (times.foldl (fun b t => l.store b ⟨0, t⟩) b) c' = l.consume b c' := by
  refine ⟨?_, fun _ => ⟨(l.store b c).tokens_nonneg, ?_⟩, ?_⟩
  · intro w hw hrefused b' hb' k hk
    have hlevel : l.level b' (c.now + k) = l.level b (c.now + k) := by
      rcases List.mem_pair.mp hb' with rfl | rfl
      · rfl
      · have hlater : c.now ≤ c.now + k := le_add_of_nonneg_right (Nat.cast_nonneg k)
        exact l.level_store (Or.inr (by simp [hrefused])) hnow hlater
    have hcovers : (c.cost : ℚ) ≤ l.capacity := Nat.cast_le.mpr hfits
    show (consumeTokens _ _ _ _ _ _ _).retryAfter = none ↔ _
    rw [consumeTokens_granted_iff]
    show (c.cost : ℚ) ≤ l.level b' (c.now + k) ↔ _
    rw [hlevel, l.level_after b hnow, le_min_iff, l.hint_iff hw hrefused, and_iff_right hcovers]
    omega
  · have hdraw := congrArg Bucket.level (l.consume_toBucket b c)
    exact hdraw.trans_le (draw_level_le (Nat.cast_nonneg c.cost))
  · intro times c' hchain
    rw [l.consume_eq, l.consume_eq, l.level_refreshed hchain]

/-- An empty replay bucket asks to wait two seconds for twenty. -/
theorem retry_after_exact_replay : (replayLimits.consume emptyBalance ⟨20, 0⟩).retryAfter = some 2
      ∧ (replayLimits.consume emptyBalance ⟨20, 2⟩).retryAfter = none := by
  have hrefused : (replayLimits.consume emptyBalance ⟨20, 0⟩).retryAfter = some 2 := by
    decide +kernel
  have hexact := (retry_after_exact replayLimits emptyBalance ⟨20, 0⟩ (by decide)
    (by decide +kernel)).1 2 (by decide) hrefused emptyBalance List.mem_cons_self 2 le_rfl
  exact ⟨hrefused, by simpa using hexact.mpr rfl⟩

end Hint

/-! ## §3. State rows. -/

/-- `tenant_quota_values`. -/
def tenantQuotaValues (organizationId : Nat) (s : Settings) (now : Time) : TenantQuotaState where
  organizationId := organizationId
  eventTokens := s.tenantEventBurst
  eventRefilledAt := now
  deliveryTokens := s.tenantDeliveryBurst
  deliveryRefilledAt := now
  replayTokens := s.tenantReplayBurst
  replayRefilledAt := now
  endpointCursorId := none
  updatedAt := now

/-- `endpoint_quota_values`. -/
def endpointQuotaValues (endpointId : Nat) (s : Settings) (now : Time) : EndpointQuotaState where
  endpointId := endpointId
  deliveryTokens := s.endpointRateBurst
  refilledAt := now
  retryTokens := s.endpointRetryBurst
  retryRefilledAt := now
  circuitState := .closed
  consecutiveFailures := 0
  circuitOpenUntil := none
  halfOpenProbeDeliveryId := none
  pausedAt := none
  pauseReason := none
  updatedAt := now

/-- `ensure_global_state`. -/
def ensureGlobalState (now : Time) (db : Db) : Db :=
  { db with globalState := db.globalState.or (some ⟨none, now, now⟩) }

/-- `ensure_tenant_state`. -/
def ensureTenantState (s : Settings) (now : Time) (db : Db) (organizationId : Nat) : Db :=
  { db with tenantStates := db.tenantStates.insert (tenantQuotaValues organizationId s now) }

/-- `ensure_endpoint_state`. -/
def ensureEndpointState (s : Settings) (now : Time) (db : Db) (endpointId : Nat) : Db :=
  { db with endpointStates := db.endpointStates.insert (endpointQuotaValues endpointId s now) }

/-! ## §4. Saturation and admission. -/

/-- The count behind `global_backlog`. -/
def backlog (db : Db) : Nat :=
  db.deliveries.rows.countP fun d => !d.status.terminal

/-- `due_at`: since when the delivery has been due. -/
def Delivery.dueAt (now : Time) (d : Delivery) : Option Time :=
  if d.status.queued && decide (d.nextAttemptAt ≤ now) then some d.nextAttemptAt
  else if decide (d.status = .processing) && d.leaseExpiresAt.any fun t => decide (t ≤ now) then
    d.leaseExpiresAt
  else none

/-- `oldest_due`. -/
def oldestDue (db : Db) (now : Time) : Option Time :=
  ((db.deliveries.rows.filter (Delivery.due now)).filterMap (Delivery.dueAt now)).min?

/-- `check_saturation`. -/
def checkSaturation (s : Settings) (db : Db) (now : Time) (additionalDeliveries : Nat) :
    Except AppError Unit :=
  if s.globalMaxBacklog < backlog db + additionalDeliveries then
    .error (.saturation "global_backlog")
  else
    match oldestDue db now with
    | none => .ok ()
    | some oldest =>
      if s.globalOldestDueAdmissionSeconds ≤ now - oldest then
        .error (.saturation "oldest_due_age")
      else .ok ()

/-- `_event_balance`. -/
def eventBalance (s : Settings) (state : TenantQuotaState) (now : Time) : TokenBalance :=
  consumeTokens state.eventTokens state.eventRefilledAt s.tenantEventRatePerSecond
    s.tenantEventBurst 1 now s.quotaRetryAfterMaxSeconds

/-- `_delivery_balance`. -/
def deliveryBalance (s : Settings) (state : TenantQuotaState) (count : Nat) (now : Time) :
    TokenBalance :=
  consumeTokens state.deliveryTokens state.deliveryRefilledAt s.tenantDeliveryRatePerSecond
    s.tenantDeliveryBurst count now s.quotaRetryAfterMaxSeconds

/-- The `replay_balance` of `admit_replays_locked`. -/
def replayBalance (s : Settings) (state : TenantQuotaState) (count : Nat) (now : Time) :
    TokenBalance :=
  consumeTokens state.replayTokens state.replayRefilledAt s.tenantReplayRatePerSecond
    s.tenantReplayBurst count now s.quotaRetryAfterMaxSeconds

/-- The envelope bytes an organization retains; purged envelopes (`NULL`)
do not count. -/
def retainedBytes (db : Db) (organizationId : Nat) : Nat :=
  ((db.events.rows.filter fun e =>
      (db.projects.find? e.projectId).any fun p => decide (p.organizationId = organizationId)).map
    fun e => (e.canonicalEnvelope.map List.length).getD 0).sum

/-- The end of `admit_event_locked`: one event token and a delivery token for
each delivery are taken together, or none. -/
def chargeEvent (s : Settings) (state : TenantQuotaState) (now : Time) (deliveryCount : Nat) :
    Except AppError TenantQuotaState :=
  match (eventBalance s state now).retryAfter,
      (deliveryBalance s state deliveryCount now).retryAfter with
  | some wait, _ => .error (.quotaExceeded "event_rate" wait)
  | none, some wait => .error (.quotaExceeded "delivery_rate" wait)
  | none, none =>
    .ok { state with
      eventTokens := (eventBalance s state now).tokens
      eventRefilledAt := (eventBalance s state now).refilledAt
      deliveryTokens := (deliveryBalance s state deliveryCount now).tokens
      deliveryRefilledAt := (deliveryBalance s state deliveryCount now).refilledAt
      updatedAt := now }

/-- **What an admitted event costs**: one event token and a delivery token for
each delivery, from the refilled levels. -/
theorem chargeEvent_ok (h : chargeEvent s state now n = .ok tenant) :
    tenant.organizationId = state.organizationId ∧ tenant.endpointCursorId = state.endpointCursorId
      ∧ tenant.eventTokens = TokenBucket.refill s.tenantEventRatePerSecond s.tenantEventBurst now
          (bucket state.eventTokens state.eventRefilledAt) - 1
      ∧ tenant.deliveryTokens = TokenBucket.refill s.tenantDeliveryRatePerSecond
          s.tenantDeliveryBurst now (bucket state.deliveryTokens state.deliveryRefilledAt) - n := by
  unfold chargeEvent at h
  split at h
  · cases h
  · cases h
  next hevent hdelivery =>
    cases h
    refine ⟨rfl, rfl, ?_, consumeTokens_paid hdelivery⟩
    have hpaid := consumeTokens_paid hevent
    rw [Nat.cast_one] at hpaid
    exact hpaid

/-- `admit_event_locked`: the tenant state to store, or the refusal. -/
def admitEventLocked (s : Settings) (db : Db) (state : TenantQuotaState) (now : Time)
    (organizationId deliveryCount envelopeSize : Nat) : Except AppError TenantQuotaState :=
  if s.tenantFanoutPerEvent < deliveryCount then
    .error (.quotaExceeded "fanout_per_event" s.quotaRetryAfterMaxSeconds)
  else do
    checkSaturation s db now deliveryCount
    if s.tenantRetainedBytes < retainedBytes db organizationId + envelopeSize then
      .error (.quotaExceeded "retained_bytes" s.quotaRetryAfterMaxSeconds)
    else chargeEvent s state now deliveryCount

/-- The end of `admit_replays_locked`. -/
def chargeReplays (s : Settings) (state : TenantQuotaState) (now : Time) (count : Nat) :
    Except AppError TenantQuotaState :=
  match (replayBalance s state count now).retryAfter,
      (deliveryBalance s state count now).retryAfter with
  | some wait, _ => .error (.quotaExceeded "replay_rate" wait)
  | none, some wait => .error (.quotaExceeded "delivery_rate" wait)
  | none, none =>
    .ok { state with
      replayTokens := (replayBalance s state count now).tokens
      replayRefilledAt := (replayBalance s state count now).refilledAt
      deliveryTokens := (deliveryBalance s state count now).tokens
      deliveryRefilledAt := (deliveryBalance s state count now).refilledAt
      updatedAt := now }

/-- **What admitted replays cost**: a replay token and a delivery token each. -/
theorem chargeReplays_ok (h : chargeReplays s state now n = .ok tenant) :
    tenant.organizationId = state.organizationId ∧ tenant.endpointCursorId = state.endpointCursorId
      ∧ tenant.replayTokens = TokenBucket.refill s.tenantReplayRatePerSecond s.tenantReplayBurst now
          (bucket state.replayTokens state.replayRefilledAt) - n
      ∧ tenant.deliveryTokens = TokenBucket.refill s.tenantDeliveryRatePerSecond
          s.tenantDeliveryBurst now (bucket state.deliveryTokens state.deliveryRefilledAt) - n := by
  unfold chargeReplays at h
  split at h
  · cases h
  · cases h
  next hreplay hdelivery =>
    cases h
    exact ⟨rfl, rfl, consumeTokens_paid hreplay, consumeTokens_paid hdelivery⟩

/-- `admit_replays_locked`. -/
def admitReplaysLocked (s : Settings) (db : Db) (state : TenantQuotaState) (now : Time)
    (count : Nat) : Except AppError TenantQuotaState :=
  if count < 1 ∨ s.bulkReplayMaxDeliveries < count then
    .error (.quotaExceeded "bulk_replay_size" s.quotaRetryAfterMaxSeconds)
  else do
    checkSaturation s db now count
    chargeReplays s state now count

theorem checkSaturation_ok (h : checkSaturation s db now n = .ok u) :
    backlog db + n ≤ s.globalMaxBacklog := by
  unfold checkSaturation at h
  split at h
  · cases h
  next hroom => exact not_lt.mp hroom

theorem admitEventLocked_ok
    (h : admitEventLocked s db state now organizationId count size = .ok tenant) :
    backlog db + count ≤ s.globalMaxBacklog
      ∧ retainedBytes db organizationId + size ≤ s.tenantRetainedBytes
      ∧ chargeEvent s state now count = .ok tenant := by
  unfold admitEventLocked at h
  split at h
  · cases h
  obtain ⟨_, hsaturation, h⟩ := bind_eq_ok.mp h
  split at h
  · cases h
  next hbytes => exact ⟨checkSaturation_ok hsaturation, not_lt.mp hbytes, h⟩

theorem admitReplaysLocked_ok (h : admitReplaysLocked s db state now count = .ok tenant) :
    backlog db + count ≤ s.globalMaxBacklog ∧ chargeReplays s state now count = .ok tenant := by
  unfold admitReplaysLocked at h
  split at h
  · cases h
  obtain ⟨_, hsaturation, h⟩ := bind_eq_ok.mp h
  exact ⟨checkSaturation_ok hsaturation, h⟩

/-! ## §5. The oldest-due refusal. -/

/-- The endpoint's state as the scheduler meets it: a missing row is created
with the default values. -/
def endpointState (s : Settings) (db : Db) (now : Time) (endpointId : Nat) : EndpointQuotaState :=
  (db.endpointStates.find? endpointId).getD (endpointQuotaValues endpointId s now)

/-- What holds of every row, and of a new one, holds of the state that is
read. -/
theorem endpointState_forall {I : EndpointQuotaState → Prop}
    (hrows : ∀ e ∈ db.endpointStates.rows, I e) (hnew : ∀ id, I (endpointQuotaValues id s now))
    (endpointId : Nat) : I (endpointState s db now endpointId) := by
  unfold endpointState
  cases hfind : db.endpointStates.find? endpointId with
  | none => exact hnew endpointId
  | some e => exact hrows e (Table.mem_of_find? hfind)

/-- The pause and the circuit let the delivery `deliveryId` through. -/
def EndpointQuotaState.passes (e : EndpointQuotaState) (now : Time) (deliveryId : Nat) : Bool :=
  e.pausedAt.isNone &&
    match e.circuitState with
    | .closed => true
    | .opened => e.circuitOpenUntil.any fun t => decide (t ≤ now)
    | .halfOpen => e.halfOpenProbeDeliveryId.all fun probe => decide (probe = deliveryId)

/-- A due delivery that its endpoint lets through. -/
def Delivery.runnable (s : Settings) (db : Db) (now : Time) (d : Delivery) : Bool :=
  d.due now && (endpointState s db now d.endpointId).passes now d.id

/-- The delivery has been due for at least the admission threshold. -/
def Delivery.overdue (s : Settings) (now : Time) (d : Delivery) : Bool :=
  (d.dueAt now).any fun t => decide (s.globalOldestDueAdmissionSeconds ≤ now - t)

theorem Delivery.due_of_dueAt {t : Time} {d : Delivery} (h : d.dueAt now = some t) :
    d.due now = true := by
  unfold Delivery.dueAt at h
  unfold Delivery.due
  split at h
  next hq => rw [hq, Bool.true_or]
  split at h
  next hp => rw [hp, Bool.or_true]
  · cases h

/-- The oldest due delivery is over the threshold exactly when one is. -/
theorem oldestDue_over_iff (s : Settings) (db : Db) (now : Time) :
    (∃ oldest, oldestDue db now = some oldest ∧ s.globalOldestDueAdmissionSeconds ≤ now - oldest)
      ↔ ∃ d ∈ db.deliveries.rows, d.overdue s now = true := by
  have hmem : ∀ t, t ∈ (db.deliveries.rows.filter (Delivery.due now)).filterMap
      (Delivery.dueAt now) ↔ ∃ d ∈ db.deliveries.rows, d.dueAt now = some t := by
    intro t
    rw [List.mem_filterMap]
    constructor
    · rintro ⟨d, hd, ht⟩
      exact ⟨d, (List.mem_filter.mp hd).1, ht⟩
    · rintro ⟨d, hd, ht⟩
      exact ⟨d, List.mem_filter.mpr ⟨hd, Delivery.due_of_dueAt ht⟩, ht⟩
  unfold oldestDue
  constructor
  · rintro ⟨oldest, hmin, hage⟩
    obtain ⟨d, hd, ht⟩ := (hmem oldest).mp (List.min?_mem hmin)
    exact ⟨d, hd, by simp [Delivery.overdue, ht, hage]⟩
  · rintro ⟨d, hd, hover⟩
    obtain ⟨t, ht, hage⟩ : ∃ t, d.dueAt now = some t
        ∧ s.globalOldestDueAdmissionSeconds ≤ now - t := by
      simpa [Delivery.overdue, Option.any_eq_true] using hover
    have htm := (hmem t).mpr ⟨d, hd, ht⟩
    obtain ⟨oldest, hmin⟩ := Option.isSome_iff_exists.mp (List.isSome_min?_of_mem htm)
    -- the minimum is at least as old as this delivery
    have hle : oldest ≤ t := (List.min?_eq_some_iff.mp hmin).2 t htm
    exact ⟨oldest, hmin, hage.trans (sub_le_sub_left hle now)⟩

theorem checkSaturation_oldest_iff (s : Settings) (db : Db) (now : Time) (n : Nat) :
    checkSaturation s db now n = .error (.saturation "oldest_due_age")
      ↔ backlog db + n ≤ s.globalMaxBacklog ∧ ∃ d ∈ db.deliveries.rows, d.overdue s now = true := by
  rw [← oldestDue_over_iff]
  unfold checkSaturation
  split
  next hb =>
    constructor
    · intro h
      exact absurd h (by decide)
    · rintro ⟨hle, -⟩
      omega
  next hb =>
    have hle : backlog db + n ≤ s.globalMaxBacklog := Nat.le_of_not_lt hb
    cases oldestDue db now with
    | none => simp
    | some => simp [hle]

/-- The two admissions, with their own arguments. -/
inductive AdmissionCall where
  | event (organizationId deliveryCount envelopeSize : Nat)
  | replays (count : Nat)
  deriving Repr, DecidableEq

namespace AdmissionCall

/-- The call over the locked tenant state. -/
def answer (s : Settings) (db : Db) (state : TenantQuotaState) (now : Time) :
    AdmissionCall → Except AppError TenantQuotaState
  | event org count size => admitEventLocked s db state now org count size
  | replays count => admitReplaysLocked s db state now count

/-- The deliveries the call would add. -/
def deliveries : AdmissionCall → Nat
  | event _ count _ => count
  | replays count => count

/-- The size check in front of the saturation check. -/
def sized (s : Settings) : AdmissionCall → Bool
  | event _ count _ => decide (count ≤ s.tenantFanoutPerEvent)
  | replays count => decide (1 ≤ count ∧ count ≤ s.bulkReplayMaxDeliveries)

end AdmissionCall

/-- Nothing behind the saturation check raises a saturation error. -/
theorem bind_saturation_iff {α : Type} {f : Unit → Except AppError α}
    (hf : ∀ u, f u ≠ .error (.saturation reason)) :
    (x >>= f) = .error (.saturation reason) ↔ x = .error (.saturation reason) := by
  cases x with
  | error e =>
    show Except.error e = _ ↔ Except.error e = _
    simp
  | ok u =>
    constructor
    · intro h
      exact absurd h (hf u)
    · intro h
      cases h

theorem answer_oldest_iff (s : Settings) (db : Db) (state : TenantQuotaState) (now : Time)
    (c : AdmissionCall) :
    c.answer s db state now = .error (.saturation "oldest_due_age")
      ↔ c.sized s = true ∧ backlog db + c.deliveries ≤ s.globalMaxBacklog
        ∧ ∃ d ∈ db.deliveries.rows, d.overdue s now = true := by
  rw [← checkSaturation_oldest_iff]
  cases c with
  | event org count size =>
    show admitEventLocked s db state now org count size = _ ↔ _
    unfold admitEventLocked
    split
    next h => simp [AdmissionCall.sized, h]
    next h =>
      rw [bind_saturation_iff]
      · simp [AdmissionCall.sized, AdmissionCall.deliveries, Nat.le_of_not_lt h]
      · intro _
        split
        · simp
        · unfold chargeEvent
          split <;> simp
  | replays count =>
    show admitReplaysLocked s db state now count = _ ↔ _
    unfold admitReplaysLocked
    split
    next h =>
      have hsized : AdmissionCall.sized s (.replays count) = false := by
        simp only [AdmissionCall.sized, decide_eq_false_iff_not]
        omega
      simp [hsized]
    next h =>
      have hsized : AdmissionCall.sized s (.replays count) = true := by
        simp only [AdmissionCall.sized, decide_eq_true_eq]
        omega
      rw [bind_saturation_iff]
      · simp [hsized, AdmissionCall.deliveries]
      · intro _
        unfold chargeReplays
        split <;> simp

/-- **WHEN AN OLDEST-DUE REFUSAL IS JUSTIFIED.**  An admission is refused for
the oldest due age only when some RUNNABLE delivery is over the threshold,
exactly if: whenever the call gets as far as the age check and a delivery
that its endpoint holds back is over the threshold, a runnable one is too. -/
theorem oldest_due_refusal_iff (s : Settings) (db : Db) (state : TenantQuotaState) (now : Time)
    (c : AdmissionCall) :
    (c.answer s db state now = .error (.saturation "oldest_due_age") →
        ∃ d ∈ db.deliveries.rows, d.runnable s db now = true ∧ d.overdue s now = true)
      ↔ (c.sized s = true → backlog db + c.deliveries ≤ s.globalMaxBacklog →
          (∃ d ∈ db.deliveries.rows, d.runnable s db now = false ∧ d.overdue s now = true) →
          ∃ d ∈ db.deliveries.rows, d.runnable s db now = true ∧ d.overdue s now = true) := by
  rw [answer_oldest_iff]
  constructor
  · rintro h hsized hbacklog ⟨d, hd, -, hover⟩
    exact h ⟨hsized, hbacklog, d, hd, hover⟩
  · rintro h ⟨hsized, hbacklog, d, hd, hover⟩
    cases hrun : d.runnable s db now with
    | true => exact ⟨d, hd, hrun, hover⟩
    | false => exact h hsized hbacklog ⟨d, hd, hrun, hover⟩

/-- Tenant 1's only endpoint was paused at time zero, with one delivery
queued. -/
def pausedQueue : Db where
  endpointStates :=
    ⟨[{ endpointQuotaValues 7 Settings.defaults 0 with pausedAt := some 0 }], by decide⟩
  deliveries :=
    { rows :=
        [{ id := 1, publicId := "d-1", organizationId := 1, eventId := 1, endpointId := 7,
           endpointPublicIdSnapshot := "e-7", endpointUrlSnapshot := "https://one.example/hook",
           endpointActiveSnapshot := true, signingSecretVersionSnapshot := 1,
           status := .pending, nextAttemptAt := 0, createdAt := 0, updatedAt := 0 }]
      nodup := by decide
      next := 2
      lt_next := by decide }

/-- **One tenant's pause refuses another tenant's events.**  Five minutes
after the pause the event of tenant 2, with full buckets, is refused because
of the only delivery in the system, which is tenant 1's and which no worker
may take. -/
theorem paused_queue_refuses_other_tenant :
    (AdmissionCall.event 2 1 10).answer {} pausedQueue (tenantQuotaValues 2 {} 300) 300
        = .error (.saturation "oldest_due_age")
      ∧ ∀ d ∈ pausedQueue.deliveries.rows,
          d.organizationId = 1 ∧ d.runnable {} pausedQueue 300 = false := by
  constructor
  · exact (answer_oldest_iff _ _ _ _ _).mpr (by decide +kernel)
  · decide +kernel

end WebhookPlatform
