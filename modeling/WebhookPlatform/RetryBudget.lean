/-
  WebhookPlatform.RetryBudget
  **THE RETRY STORM BOUND.**

  An endpoint's retry balance is a token bucket that four transactions write.
  `Rebudget` says once what a step does to it:

      claim       refills it and takes one token for each retry it selects
      success     adds `endpoint_retry_success_refill` to what is STORED,
                  and stores the moment: what the rate has added is lost
      recovery    fills it
      creation    fills it, removal of the organization drops it

  The bound is the accounting rule of `Lib.Runs` with the potential

      retries issued so far + level now + rate · (t₁ − now)

  which a claim and the passing of time do not raise, a success raises by its
  refill and a recovery by the burst (`Rebudget.account`).

  The state row of an endpoint is never made up again: every endpoint has its
  row from its creation to its removal (`Housed`), so a claim that would
  create a FULL bucket for a missing row finds no such endpoint.

  What a success loses is made exact in §8: it can LOWER the balance
  (`success_replenishes_iff`, `success_lowers_balance`).
-/
import WebhookPlatform.SelectionContract
import WebhookPlatform.SecretRetirement

namespace WebhookPlatform

open Relational Transition TokenBucket List Option

/-! ## §1. The balance and its events. -/

/-- The stored retry balance of the endpoint. -/
def EndpointQuotaState.retryBucket (e : EndpointQuotaState) : Bucket ℚ :=
  bucket e.retryTokens e.retryRefilledAt

/-- The claim is for the endpoint, on a delivery with a previous attempt. -/
def ClaimedDelivery.retries (ep : Nat) (c : ClaimedDelivery) : Bool :=
  decide (c.endpointId = ep) && decide (1 < c.attemptNumber)

namespace Deployment

/-- The stored retry balance of the endpoint, if it has a state row. -/
def retryBucket (d : Deployment) (ep : Nat) : Option (Bucket ℚ) :=
  (d.db.endpointStates.find? ep).map EndpointQuotaState.retryBucket

/-- The retry balance as a claim finds it now. -/
def retryLevel (s : Settings) (d : Deployment) (ep : Nat) : ℚ :=
  refill s.endpointRetryRatePerSecond s.endpointRetryBurst d.clock
    (endpointState s d.db d.clock ep).retryBucket

/-- The claims issued so far for the endpoint on deliveries with a previous
attempt. -/
def retryClaims (d : Deployment) (ep : Nat) : Nat :=
  d.issued.countP (ClaimedDelivery.retries ep)

/-- The action finalizes a delivery of the endpoint as a success. -/
def successes (s : Settings) (ep : Nat) (d : Deployment) : Action → Nat
  | .op (.finalize c f) =>
    if f.result.succeeded = true
        ∧ (guardedRow d.db c.id (c.holds d.clock)).any
          (fun x => decide (x.endpointId = ep)) = true
        ∧ ((finalize s d.clock c f d.db).map Prod.snd).toOption = some true then 1
    else 0
  | _ => 0

/-- The action recovers the endpoint's circuit by hand. -/
def recoveries (s : Settings) (ep : Nat) (d : Deployment) : Action → Nat
  | .op (.operate projectId endpointPublicId .recover) =>
    if (d.authorized projectId).any (fun p =>
        (operateEndpoint s d.clock p endpointPublicId .recover d.db).isOk) = true
      ∧ (d.db.endpoints.rows.find? fun w =>
        decide (w.projectId = projectId) && decide (w.publicId = endpointPublicId)).any
          (fun w => decide (w.id = ep)) = true then 1
    else 0
  | _ => 0

end Deployment

/-! ## §2. Every endpoint has its state row. -/

/-- The state rows of a deployment: each endpoint has one, and ids are given
once. -/
structure Deployment.Housed (d : Deployment) : Prop where
  states : ∀ w ∈ d.db.endpoints.rows, (d.retryBucket w.id).isSome = true
  stateIds : ∀ ep, (d.retryBucket ep).isSome = true → ep < d.endpointIds

theorem Deployment.retryBucket_of_find {d : Deployment}
    (h : d.db.endpointStates.find? ep = some e) : d.retryBucket ep = some e.retryBucket :=
  congrArg (Option.map _) h

section Rows

variable {t : Table EndpointQuotaState EndpointQuotaState.endpointId}

/-- Writing a row changes what is found under its key only. -/
theorem find?_map_put {β : Type} (g : EndpointQuotaState → β) (he : t.find? e.endpointId = some e)
    (hkey : e'.endpointId = e.endpointId) (ep : Nat) :
    ((t.put e').find? ep).map g
      = if ep = e.endpointId then some (g e') else (t.find? ep).map g := by
  by_cases hep : ep = e.endpointId
  · rw [if_pos hep, hep, Table.find?_put_self he hkey]
    rfl
  · rw [if_neg hep, Table.find?_put_ne fun h => hep (h.symm.trans hkey)]

/-- Updating all rows changes each of them. -/
theorem find?_mapRows (hf : ∀ e, (f e).endpointId = e.endpointId) (ep : Nat) :
    (t.mapRows f hf).find? ep = (t.find? ep).map f := by
  cases hrow : t.find? ep with
  | none =>
    rw [Table.find?_eq_none] at hrow
    apply Table.find?_eq_none.mpr
    intro e he
    obtain ⟨old, hold, rfl⟩ := (Table.mem_mapRows hf).mp he
    rw [hf]
    exact hrow old hold
  | some e =>
    obtain ⟨he, hkey⟩ := Table.find?_eq_some.mp hrow
    exact Table.find?_eq_some.mpr ⟨(Table.mem_mapRows hf).mpr ⟨e, he, rfl⟩, (hf e).trans hkey⟩

end Rows

/-! ## §3. What a claim does. -/

section Claims

/-- The refilled balance of a row. -/
theorem refillEndpoint_retryBucket (s : Settings) (now : Time) (e : EndpointQuotaState) :
    (refillEndpoint s now e).retryTokens
      = refill s.endpointRetryRatePerSecond s.endpointRetryBurst now e.retryBucket
        - paid s.endpointRetryRatePerSecond s.endpointRetryBurst e.retryBucket ⟨(0 : ℕ), now⟩ := by
  have hlevel := congrArg Bucket.level (consumeTokens_refines_draw e.retryTokens e.retryRefilledAt
    s.endpointRetryRatePerSecond s.endpointRetryBurst 0 now s.quotaRetryAfterMaxSeconds)
  rw [draw_level] at hlevel
  exact hlevel

theorem paid_zero (rate cap : ℚ) (b : Bucket ℚ) (now : Time) :
    paid rate cap b ⟨((0 : ℕ) : ℚ), now⟩ = 0 := by
  unfold paid
  split
  · exact Nat.cast_zero
  · rfl

/-- **The state row of an endpoint after a selection**: untouched if none of
its deliveries was a candidate, and else with the refilled retry balance
minus the retries selected. -/
theorem selected_retryBucket (now : Time) (limit : Nat) (hs : s.Accepted)
    (hdb : ∀ e ∈ db.endpointStates.rows, e.Within s) (ep : Nat) :
    ((selectFairDeliveries s now limit db).1.endpointStates.find? ep = db.endpointStates.find? ep
        ∧ Pick.retriesOf ep (selectFairDeliveries s now limit db).2 = 0)
      ∨ ((∃ x ∈ db.deliveries.rows, x.endpointId = ep)
        ∧ ∃ e, (selectFairDeliveries s now limit db).1.endpointStates.find? ep = some e
          ∧ e.retryBucket = ⟨refill s.endpointRetryRatePerSecond s.endpointRetryBurst now
              (endpointState s db now ep).retryBucket
              - Pick.retriesOf ep (selectFairDeliveries s now limit db).2, now⟩) := by
  unfold selectFairDeliveries
  dsimp only
  split
  · exact Or.inl ⟨rfl, rfl⟩
  generalize havailable : availableSlots s now limit (ensureGlobalState now db) = available
  have hids := readsOf_nodup s now available (ensureGlobalState now db)
  have hrows : ∀ x ∈ (readsOf s now available (ensureGlobalState now db)).candidates,
      x ∈ db.deliveries.rows := fun x hx => (candidates_due hx).1
  have hstates : ∀ ep, (readsOf s now available (ensureGlobalState now db)).endpointStates ep
      = endpointState s db now ep := fun _ => rfl
  revert hids hrows hstates
  generalize readsOf s now available (ensureGlobalState now db) = r
  intro hids hrows hstates
  have hwithin : ∀ ep, (r.endpointStates ep).Within s := by
    intro ep
    rw [hstates]
    exact endpointState_forall hdb (fun id => endpointQuotaValues_within s id now) ep
  have hbalances : r.NonnegativeBalances := fun ep =>
    ⟨(hwithin ep).delivery.1, (hwithin ep).retry.1⟩
  obtain ⟨hgrouped, -, -, hspent⟩ := Reads.choose_spec now available hids hs hbalances
  have hkeys : ∀ ep, (r.endpointStates ep).endpointId = ep := by
    intro ep
    rw [hstates]
    exact endpointState_endpointId s db now ep
  rw [Reads.find?_store_endpoint (Reads.choose_endpointKey hkeys)]
  by_cases hep : ep ∈ r.endpointIds
  · rw [if_pos hep]
    obtain ⟨x, hx, hxep⟩ := Reads.mem_endpointIds.mp hep
    refine Or.inr ⟨⟨x, hrows x hx, hxep⟩, _, rfl, ?_⟩
    have hlevel : ((r.choose s now available).endpointStates ep).retryTokens
        = refill s.endpointRetryRatePerSecond s.endpointRetryBurst now
            (endpointState s db now ep).retryBucket
          - Pick.retriesOf ep (r.choose s now available).selected := by
      rw [hspent.retryStored, hspent.retryBalance]
      show (refillEndpoint s now (r.endpointStates ep)).retryTokens - _ = _
      rw [refillEndpoint_retryBucket, paid_zero, sub_zero, hstates]
    have hmoment : ((r.choose s now available).endpointStates ep).retryRefilledAt = now := by
      rw [hspent.moment]
      show (consumeTokens _ _ _ _ 0 now _).refilledAt = now
      unfold consumeTokens
      dsimp only
      split
      · rfl
      · rfl
    exact congrArg₂ Bucket.mk hlevel hmoment
  · rw [if_neg hep]
    refine Or.inl ⟨rfl, ?_⟩
    apply countP_eq_zero.mpr
    intro x hx hcount
    rw [Bool.and_eq_true, decide_eq_true_eq] at hcount
    exact hep (Reads.mem_endpointIds.mpr ⟨x, hgrouped.chosen x hx, hcount.1⟩)

/-- The balance that the next selection at the same moment finds. -/
theorem selected_retryLevel (now : Time) (limit : Nat) (hs : s.Accepted)
    (hdb : ∀ e ∈ db.endpointStates.rows, e.Within s) (ep : Nat) :
    refill s.endpointRetryRatePerSecond s.endpointRetryBurst now
        (endpointState s (selectFairDeliveries s now limit db).1 now ep).retryBucket
      = refill s.endpointRetryRatePerSecond s.endpointRetryBurst now
          (endpointState s db now ep).retryBucket
        - Pick.retriesOf ep (selectFairDeliveries s now limit db).2 := by
  rcases selected_retryBucket now limit hs hdb ep with ⟨hsame, hnone⟩ | ⟨-, e, hfind, hbucket⟩
  · rw [hnone, Nat.cast_zero, sub_zero]
    unfold endpointState
    rw [hsame]
  · have hread : endpointState s (selectFairDeliveries s now limit db).1 now ep = e := by
      unfold endpointState
      rw [hfind]
      rfl
    rw [hread, hbucket]
    apply refill_self
    have hcap : refill s.endpointRetryRatePerSecond (s.endpointRetryBurst : ℚ) now
        (endpointState s db now ep).retryBucket ≤ s.endpointRetryBurst := min_le_left _ _
    have hretries : (0 : ℚ) ≤ Pick.retriesOf ep (selectFairDeliveries s now limit db).2 :=
      Nat.cast_nonneg _
    linarith

/-- The claims that were built are those of the retries that were selected. -/
theorem built_retries (hlength : tokens.length = limit)
    (hbuilt : BuiltFrom db (claimedPicks s now limit tokens db) claims) (ep : Nat) :
    claims.countP (ClaimedDelivery.retries ep)
      = Pick.retriesOf ep (selectFairDeliveries s now limit db).2 := by
  have hpicks : ∀ (picks : List (Delivery × Uuid)) (claims : List ClaimedDelivery),
      BuiltFrom db picks claims →
      claims.countP (ClaimedDelivery.retries ep) = Pick.retriesOf ep (picks.map Prod.fst) := by
    intro picks claims h
    induction h with
    | nil => rfl
    | @cons x _ _ _ hx _ ih =>
      obtain ⟨event, envelope, -, -, rfl⟩ := claimedDelivery_spec hx
      unfold Pick.retriesOf at ih ⊢
      rw [map_cons, countP_cons, countP_cons, ih]
      have hsame : decide (1 < x.1.attemptCount + 1) = decide (0 < x.1.attemptCount) :=
        decide_eq_decide.mpr (by omega)
      unfold ClaimedDelivery.retries
      rw [hsame]
  rw [hpicks _ _ hbuilt]
  -- there is a token for every delivery that was selected
  have hcovered : (selectFairDeliveries s now limit db).2.length ≤ tokens.length := by
    rw [hlength]
    exact (selectFairDeliveries_choice s now limit db).requested
  unfold claimedPicks
  rw [map_fst_zip hcovered]

end Claims

/-! ## §4. What a step does to the balance. -/

/-- **What a step does to the retry balance of an endpoint**, next to the
retries that it claims, the successes and the recoveries. -/
inductive Rebudget (s : Settings) (ep : Nat) (d : Deployment) (a : Action) (d' : Deployment) :
    Prop where
  /-- The balance is left alone; time may pass. -/
  | kept (balance : d'.retryBucket ep = d.retryBucket ep)
      (known : ep < d'.endpointIds ↔ ep < d.endpointIds)
      (claims : d'.retryClaims ep = d.retryClaims ep) (later : d.clock ≤ d'.clock)
  /-- A claim refills it and pays for its retries. -/
  | claimed (b : Bucket ℚ) (retries : Nat) (before : d.retryBucket ep = some b)
      (after : d'.retryBucket ep = some ⟨refill s.endpointRetryRatePerSecond s.endpointRetryBurst
        d.clock b - retries, d.clock⟩)
      (claims : d'.retryClaims ep = d.retryClaims ep + retries) (clock : d'.clock = d.clock)
  /-- A success adds to the stored level. -/
  | succeeded (b : Bucket ℚ) (before : d.retryBucket ep = some b)
      (after : d'.retryBucket ep = some ⟨min (s.endpointRetryBurst : ℚ)
        (b.level + (s.endpointRetrySuccessRefill : ℚ)), d.clock⟩)
      (counted : d.successes s ep a = 1) (claims : d'.retryClaims ep = d.retryClaims ep)
      (clock : d'.clock = d.clock)
  /-- A recovery fills it. -/
  | recovered (b : Bucket ℚ) (before : d.retryBucket ep = some b)
      (after : d'.retryBucket ep = some ⟨(s.endpointRetryBurst : ℚ), d.clock⟩)
      (counted : d.recoveries s ep a = 1) (claims : d'.retryClaims ep = d.retryClaims ep)
      (clock : d'.clock = d.clock)
  /-- The endpoint is created with a full one. -/
  | created (before : d.retryBucket ep = none) (unknown : ¬ ep < d.endpointIds)
      (known : ep < d'.endpointIds)
      (after : d'.retryBucket ep = some ⟨(s.endpointRetryBurst : ℚ), d.clock⟩)
      (claims : d'.retryClaims ep = d.retryClaims ep) (clock : d'.clock = d.clock)
  /-- The endpoint goes with its organization. -/
  | removed (b : Bucket ℚ) (before : d.retryBucket ep = some b) (after : d'.retryBucket ep = none)
      (gone : ∀ w ∈ d'.db.endpoints.rows, w.id ≠ ep) (known : ep < d'.endpointIds)
      (claims : d'.retryClaims ep = d.retryClaims ep) (clock : d'.clock = d.clock)

section Steps

variable {d d' : Deployment}

/-- A step that leaves the rows of endpoint states alone. -/
theorem rebudget_same (ep : Nat) (states : d'.db.endpointStates = d.db.endpointStates)
    (ids : d'.endpointIds = d.endpointIds) (issued : d'.issued = d.issued)
    (clock : d.clock ≤ d'.clock) : Rebudget s ep d a d' := by
  refine Rebudget.kept ?_ (by rw [ids]) ?_ clock
  · unfold Deployment.retryBucket
    rw [states]
  · unfold Deployment.retryClaims
    rw [issued]

/-- A step that leaves what is found of the endpoint's state alone. -/
theorem rebudget_found (found : d'.db.endpointStates.find? ep = d.db.endpointStates.find? ep)
    (ids : ep < d'.endpointIds ↔ ep < d.endpointIds) (issued : d'.issued = d.issued)
    (clock : d'.clock = d.clock) : Rebudget s ep d a d' := by
  refine Rebudget.kept (congrArg (Option.map _) found) ids ?_ clock.symm.le
  unfold Deployment.retryClaims
  rw [issued]

/-- A step that writes one row of endpoint states and keeps its balance. -/
theorem rebudget_put (ep : Nat) (he : d.db.endpointStates.find? e.endpointId = some e)
    (hkey : e'.endpointId = e.endpointId) (hbalance : e'.retryBucket = e.retryBucket)
    (states : d'.db.endpointStates = d.db.endpointStates.put e')
    (ids : d'.endpointIds = d.endpointIds) (issued : d'.issued = d.issued)
    (clock : d'.clock = d.clock) : Rebudget s ep d a d' := by
  refine Rebudget.kept ?_ (by rw [ids]) ?_ clock.symm.le
  · unfold Deployment.retryBucket
    rw [states, find?_map_put EndpointQuotaState.retryBucket he hkey]
    by_cases hep : ep = e.endpointId
    · rw [if_pos hep, hep, he, hbalance]
      rfl
    · rw [if_neg hep]
  · unfold Deployment.retryClaims
    rw [issued]

/-- A step that unlinks deleted probes. -/
theorem rebudget_unprobe (ep : Nat) (deleted : List Nat) (states : d'.db.endpointStates
      = d.db.endpointStates.mapRows (unprobe deleted) (unprobe_endpointId deleted))
    (ids : d'.endpointIds = d.endpointIds) (issued : d'.issued = d.issued)
    (clock : d'.clock = d.clock) : Rebudget s ep d a d' := by
  refine Rebudget.kept ?_ (by rw [ids]) ?_ clock.symm.le
  · unfold Deployment.retryBucket
    rw [states, find?_mapRows, Option.map_map]
    rfl
  · unfold Deployment.retryClaims
    rw [issued]

theorem cancelEndpoint_retryBucket (now : Time) (id : Nat) (e : EndpointQuotaState) :
    (cancelEndpoint now id e).retryBucket = e.retryBucket
      ∧ (cancelEndpoint now id e).endpointId = e.endpointId := by
  unfold cancelEndpoint
  split <;> exact ⟨rfl, rfl⟩

/-- The balance after a finalization: more after a success, and else as it
was. -/
theorem finalizeEndpoint_retryBucket (s : Settings) (finished : Time) (r : AttemptResult) (id : Nat)
    (e : EndpointQuotaState) :
    (finalizeEndpoint s finished r id e).endpointId = e.endpointId
      ∧ (finalizeEndpoint s finished r id e).retryBucket = if r.succeeded = true then
            ⟨min (s.endpointRetryBurst : ℚ)
              (e.retryTokens + (s.endpointRetrySuccessRefill : ℚ)), finished⟩
          else e.retryBucket := by
  unfold finalizeEndpoint
  dsimp only
  by_cases hok : r.succeeded = true
  · rw [if_pos hok, if_pos hok]
    exact ⟨rfl, rfl⟩
  · rw [if_neg hok, if_neg hok]
    repeat' split
    all_goals exact ⟨rfl, rfl⟩

/-- The finalization that goes through. -/
theorem rebudget_finalized (ep : Nat) (hrow : guardedRow d.db c.id (c.holds d.clock) = some x)
    (hstate : d.db.endpointStates.find? x.endpointId = some e)
    (hresult : finalize s d.clock c f d.db = .ok (finalizeWrite s d.clock c f x e d.db, true)) :
    Rebudget s ep d (.op (.finalize c f))
      { d with db := finalizeWrite s d.clock c f x e d.db } := by
  have hkey : e.endpointId = x.endpointId := Table.key_of_find? hstate
  rw [← hkey] at hstate
  obtain ⟨hsame, hbalance⟩ := finalizeEndpoint_retryBucket s d.clock f.result x.id e
  by_cases hsuccess : f.result.succeeded = true ∧ ep = e.endpointId
  · -- a success of this endpoint
    obtain ⟨hsucceeded, rfl⟩ := hsuccess
    rw [if_pos hsucceeded] at hbalance
    refine Rebudget.succeeded e.retryBucket (Deployment.retryBucket_of_find hstate) ?_ ?_ rfl rfl
    · have hfind := Table.find?_put_self hstate hsame
      exact (Deployment.retryBucket_of_find hfind).trans (congrArg some hbalance)
    · show (if _ ∧ _ ∧ _ then 1 else 0) = 1
      rw [if_pos]
      refine ⟨hsucceeded, ?_, ?_⟩
      · rw [hrow]
        exact decide_eq_true hkey.symm
      · rw [hresult]
        rfl
  · by_cases hep : ep = e.endpointId
    · -- a failure of this endpoint leaves its balance
      have hfailed : ¬ f.result.succeeded = true := fun hok => hsuccess ⟨hok, hep⟩
      rw [if_neg hfailed] at hbalance
      exact rebudget_put ep hstate hsame hbalance rfl rfl rfl rfl
    · -- another endpoint's row
      exact rebudget_found (Table.find?_put_ne fun h => hep (h.symm.trans hsame)) Iff.rfl rfl rfl

/-- An operation of the world is permitted. -/
theorem Deployment.step_op (h : d.step P s (.op o) = some d') :
    d.permits o = true ∧ ∃ w, d.toWorld.step P s o = some w ∧ { d with toWorld := w } = d' := by
  obtain ⟨hpermits, h⟩ := ite_none_right_eq_some.mp h
  exact ⟨hpermits, map_eq_some_iff.mp h⟩

theorem apply_endpointId (now : Time) (e : EndpointQuotaState) (operation : EndpointOperation) :
    (operation.apply s now e).endpointId = e.endpointId := by
  cases operation <;> rfl

/-- **An operator's request** is refused, or writes the row of the endpoint
that it names. -/
theorem rebudget_operate (ep : Nat)
    (h : d.step P s (.op (.operate projectId publicId operation)) = some d') :
    Rebudget s ep d (.op (.operate projectId publicId operation)) d' := by
  obtain ⟨hpermits, w, hw, rfl⟩ := Deployment.step_op h
  obtain ⟨p, hp⟩ := isSome_iff_exists.mp hpermits
  obtain ⟨hfind, -, hid, -⟩ := Deployment.authorized_some hp
  obtain ⟨q, hq, rfl⟩ := map_eq_some_iff.mp hw
  obtain rfl := Option.some.inj (hfind.symm.trans hq)
  dsimp only
  cases hrow : d.db.endpoints.rows.find? fun w =>
      decide (w.projectId = p.id) && decide (w.publicId = publicId) with
  | none =>
    have hresult : operateEndpoint s d.clock p publicId operation d.db
        = .error (.notFound "Webhook endpoint" publicId) := by
      unfold operateEndpoint
      rw [hrow]
    rw [hresult]
    exact rebudget_same ep rfl rfl rfl (le_refl _)
  | some x =>
    cases hstate : d.db.endpointStates.find? x.id with
    | none =>
      have hresult : operateEndpoint s d.clock p publicId operation d.db
          = .error (.runtimeError "Endpoint runtime state is unavailable") := by
        unfold operateEndpoint
        rw [hrow]
        dsimp only
        rw [hstate]
      rw [hresult]
      exact rebudget_same ep rfl rfl rfl (le_refl _)
    | some e =>
      have hresult : operateEndpoint s d.clock p publicId operation d.db = .ok
          { d.db with endpointStates :=
            d.db.endpointStates.put (operation.apply s d.clock e) } := by
        unfold operateEndpoint
        rw [hrow]
        dsimp only
        rw [hstate]
      have hkey : e.endpointId = x.id := Table.key_of_find? hstate
      rw [← hkey] at hstate
      rw [hresult]
      cases operation with
      | pause reason =>
        have hkept := apply_endpointId (s := s) d.clock e (.pause reason)
        exact rebudget_put ep hstate hkept rfl rfl rfl rfl rfl
      | resume =>
        have hkept := apply_endpointId (s := s) d.clock e .resume
        exact rebudget_put ep hstate hkept rfl rfl rfl rfl rfl
      | recover =>
        have hkept := apply_endpointId (s := s) d.clock e .recover
        by_cases hep : ep = e.endpointId
        · subst hep
          refine Rebudget.recovered e.retryBucket (Deployment.retryBucket_of_find hstate) ?_ ?_
            rfl rfl
          · exact congrArg (Option.map _) (Table.find?_put_self hstate hkept)
          · show (if _ ∧ _ then 1 else 0) = 1
            rw [if_pos]
            refine ⟨?_, ?_⟩
            · rw [hp, any_some, hresult]
              rfl
            · rw [← hid, hrow]
              exact decide_eq_true hkey.symm
        · exact rebudget_found (Table.find?_put_ne fun h => hep (h.symm.trans hkept)) Iff.rfl
            rfl rfl

/-- **A claim** pays for the retries that it hands out. -/
theorem rebudget_claim (ep : Nat) (hs : s.Accepted) (hbalanced : d.Balanced s) (hhoused : d.Housed)
    (hbelongs : Belongs d.db) (hlength : tokens.length = limit)
    (hbuilt : BuiltFrom d.db (claimedPicks s d.clock limit tokens d.db) claims) :
    Rebudget s ep d (.op (.claim limit tokens))
      { d with
        db := claimedDb s d.clock limit tokens d.db
        issued := d.issued ++ claims
        drawn := d.drawn ++ tokens } := by
  have hclaims : (d.issued ++ claims).countP (ClaimedDelivery.retries ep)
        = d.retryClaims ep + Pick.retriesOf ep (selectFairDeliveries s d.clock limit d.db).2 := by
    rw [countP_append, built_retries hlength hbuilt]
    rfl
  rcases selected_retryBucket d.clock limit hs hbalanced.endpoints ep with
    ⟨hsame, hnone⟩ | ⟨⟨x, hx, hxep⟩, e, hfind, hbucket⟩
  · refine Rebudget.kept ?_ Iff.rfl ?_ (le_refl _)
    · exact congrArg (Option.map _) hsame
    · rw [hnone] at hclaims
      exact hclaims
  · -- the delivery's endpoint exists, and has its row
    obtain ⟨w, hw, hwx, -⟩ := hbelongs.endpoint x hx
    obtain ⟨b, hb⟩ := isSome_iff_exists.mp (hhoused.states w hw)
    obtain ⟨old, hold, -⟩ := map_eq_some_iff.mp hb
    rw [hwx, hxep] at hold
    have hread : endpointState s d.db d.clock ep = old := by
      unfold endpointState
      rw [hold]
      rfl
    rw [hread] at hbucket
    refine Rebudget.claimed old.retryBucket _ (Deployment.retryBucket_of_find hold) ?_ hclaims rfl
    exact (Deployment.retryBucket_of_find hfind).trans (congrArg some hbucket)

/-- **A new endpoint** starts with a full balance. -/
theorem rebudget_created (ep : Nat) (hhoused : d.Housed) {db : Db} (states : db.endpointStates
      = d.db.endpointStates.insert (endpointQuotaValues d.endpointIds s d.clock)) :
    Rebudget s ep d a { d with db := db, endpointIds := d.endpointIds + 1 } := by
  have hnew : (endpointQuotaValues d.endpointIds s d.clock).endpointId = d.endpointIds := rfl
  by_cases hep : ep = d.endpointIds
  · subst hep
    have hfresh : d.db.endpointStates.find? d.endpointIds = none := by
      cases hrow : d.db.endpointStates.find? d.endpointIds with
      | none => rfl
      | some =>
        refine absurd (hhoused.stateIds d.endpointIds ?_) (lt_irrefl _)
        rw [Deployment.retryBucket_of_find hrow]
        rfl
    refine Rebudget.created ?_ (lt_irrefl _) (Nat.lt_succ_self _) ?_ rfl rfl
    · exact congrArg (Option.map _) hfresh
    · show (db.endpointStates.find? d.endpointIds).map _ = _
      rw [states, Table.find?_insert, hfresh, if_pos hnew]
      rfl
  · refine rebudget_found ?_ ?_ rfl rfl
    · show db.endpointStates.find? ep = _
      rw [states, Table.find?_insert_ne fun h => hep (h.symm.trans hnew)]
    · show ep < d.endpointIds + 1 ↔ ep < d.endpointIds
      omega

/-- **The removal of an organization** drops the rows of its endpoints. -/
theorem rebudget_removed (ep : Nat) (hhoused : d.Housed) {organizationId : Nat} :
    Rebudget s ep d a { d with db := deleteOrganization organizationId d.db, tenants := t } := by
  cases hrow : d.db.endpointStates.find? ep with
  | none =>
    refine rebudget_found ?_ Iff.rfl rfl rfl
    rw [hrow]
    rw [Table.find?_eq_none] at hrow
    exact Table.find?_eq_none.mpr fun e he => hrow e (Table.mem_delete.mp he).1
  | some e =>
    have hbefore := Deployment.retryBucket_of_find hrow
    cases hof : endpointOf d.db organizationId ep with
    | true =>
      refine Rebudget.removed e.retryBucket hbefore ?_ ?_ ?_ rfl rfl
      · apply congrArg (Option.map _) (Table.find?_eq_none.mpr _)
        intro x hx hid
        have hkept := (Table.mem_delete.mp hx).2
        rw [hid, hof] at hkept
        exact Bool.noConfusion hkept
      · -- the endpoint itself is one of the organization's
        intro w hw hid
        obtain ⟨hw, hother⟩ := Table.mem_delete.mp hw
        obtain ⟨x, hx, hxof⟩ := any_eq_true.mp hof
        rw [Bool.and_eq_true, decide_eq_true_eq] at hxof
        obtain rfl := d.db.endpoints.eq_of_key_eq hx hw (hxof.2.trans hid.symm)
        rw [hother] at hxof
        exact Bool.false_ne_true hxof.1
      · apply hhoused.stateIds ep
        rw [hbefore]
        rfl
    | false =>
      refine rebudget_found (Table.find?_delete ?_) Iff.rfl rfl rfl
      intro x hx hid
      rw [hid]
      exact hof

/-- **What every step does to the balance.** -/
theorem step_rebudget (ep : Nat) (hs : s.Accepted) (hbalanced : d.Balanced s)
    (hhoused : d.Housed) (hbelongs : Belongs d.db) (h : d.step P s a = some d') :
    Rebudget s ep d a d' := by
  -- the two actions that are counted are looked at in the step itself
  by_cases hfinalize : ∃ c f, a = .op (.finalize c f)
  · obtain ⟨c, f, rfl⟩ := hfinalize
    obtain ⟨-, w, hw, rfl⟩ := Deployment.step_op h
    obtain ⟨-, rfl⟩ := World.of_guard hw
    cases hresult : finalize s d.clock c f d.db with
    | error => exact rebudget_same ep rfl rfl rfl (le_refl _)
    | ok =>
      obtain rfl | ⟨x, e, hrow, hstate, rfl⟩ := finalize_ok hresult
      · exact rebudget_same ep rfl rfl rfl (le_refl _)
      · exact rebudget_finalized ep hrow hstate hresult
  by_cases hoperate : ∃ projectId publicId operation,
      a = .op (.operate projectId publicId operation)
  · obtain ⟨projectId, publicId, operation, rfl⟩ := hoperate
    exact rebudget_operate ep h
  cases Deployment.step_effect h with
  | ticked _ later => exact rebudget_same ep rfl rfl rfl later
  | claimed _ _ _ _ length _ built =>
    exact rebudget_claim ep hs hbalanced hhoused hbelongs length built
  | finalized c f => exact absurd ⟨c, f, rfl⟩ hfinalize
  | operated projectId publicId operation =>
    exact absurd ⟨projectId, publicId, operation, rfl⟩ hoperate
  | canceled _ _ _ x =>
    cases hstate : d.db.endpointStates.find? x.endpointId with
    | none => exact rebudget_same ep rfl rfl rfl (le_refl _)
    | some e =>
      obtain ⟨hbalance, hkey⟩ := cancelEndpoint_retryBucket d.clock x.id e
      rw [← Table.key_of_find? hstate] at hstate
      exact rebudget_put ep hstate hkey hbalance rfl rfl rfl rfl
  | created => exact rebudget_created ep hhoused rfl
  | retired => exact rebudget_unprobe ep _ rfl rfl rfl rfl
  | cleaned _ _ _ cleanup =>
    cases cleanup with
    | deliveriesDeleted => exact rebudget_unprobe ep _ rfl rfl rfl rfl
    | removed => exact rebudget_removed ep hhoused
    | _ => exact rebudget_same ep rfl rfl rfl (le_refl _)
  | _ => exact rebudget_same ep rfl rfl rfl (le_refl _)

/-! ## §5. The account of a step. -/

namespace Deployment

/-- The tokens that the endpoint has now; none once it is gone, all before it
exists. -/
def retryTokensNow (s : Settings) (d : Deployment) (ep : Nat) : ℚ :=
  (d.retryBucket ep).elim (if ep < d.endpointIds then 0 else s.endpointRetryBurst)
    (refill s.endpointRetryRatePerSecond s.endpointRetryBurst d.clock)

/-- The retries issued so far, and those that can still be paid for until
`T`. -/
def retryPotential (s : Settings) (T : Time) (ep : Nat) (d : Deployment) : ℚ :=
  d.retryClaims ep + d.retryTokensNow s ep + s.endpointRetryRatePerSecond * (T - d.clock)

theorem retryTokensNow_of_bucket (h : d.retryBucket ep = some b) :
    d.retryTokensNow s ep = refill s.endpointRetryRatePerSecond s.endpointRetryBurst d.clock b := by
  unfold retryTokensNow
  rw [h]
  rfl

/-- The stored level is a balance. -/
theorem Balanced.bucket (h : d.Balanced s) (hb : d.retryBucket ep = some b) :
    Balance s.endpointRetryBurst b.level := by
  obtain ⟨e, he, rfl⟩ := map_eq_some_iff.mp hb
  exact (h.endpoints e (Table.mem_of_find? he)).retry

end Deployment

/-- **THE ACCOUNT OF A STEP**: a success earns its refill, a recovery the
burst, and nothing else raises the potential. -/
theorem Rebudget.account {T : Time} (hs : s.Accepted) (hbalanced : d.Balanced s)
    (h : Rebudget s ep d a d') :
    d'.retryPotential s T ep ≤ d.retryPotential s T ep
      + ((s.endpointRetrySuccessRefill : ℚ) * (d.successes s ep a : ℕ)
        + (s.endpointRetryBurst : ℚ) * (d.recoveries s ep a : ℕ)) := by
  have hrate := hs.retryRate.le
  have hburst : (0 : ℚ) ≤ s.endpointRetryBurst := Nat.cast_nonneg _
  -- what a step earns is never negative
  have hsuccess : (0 : ℚ) ≤ (s.endpointRetrySuccessRefill : ℚ) * (d.successes s ep a : ℕ) := by
    positivity
  have hrecovery : (0 : ℚ) ≤ (s.endpointRetryBurst : ℚ) * (d.recoveries s ep a : ℕ) := by
    positivity
  unfold Deployment.retryPotential
  cases h with
  | kept balance known claims later =>
    have htokens : d'.retryTokensNow s ep
        ≤ d.retryTokensNow s ep + s.endpointRetryRatePerSecond * (d'.clock - d.clock) := by
      unfold Deployment.retryTokensNow
      rw [balance]
      cases d.retryBucket ep with
      | none =>
        simp only [elim_none, known]
        have := mul_nonneg hrate (sub_nonneg.mpr later)
        linarith
      | some => exact refill_later hrate later
    rw [claims]
    linarith
  | claimed b retries before after claims clock =>
    have hlevel : d'.retryTokensNow s ep = d.retryTokensNow s ep - retries := by
      rw [Deployment.retryTokensNow_of_bucket after, Deployment.retryTokensNow_of_bucket before,
        clock]
      apply refill_self
      have hcap : refill s.endpointRetryRatePerSecond (s.endpointRetryBurst : ℚ) d.clock b
          ≤ s.endpointRetryBurst := min_le_left _ _
      have hretries : (0 : ℚ) ≤ retries := Nat.cast_nonneg _
      linarith
    rw [hlevel, claims, clock]
    push_cast
    linarith
  | succeeded b before after counted claims clock =>
    -- the stored level is no more than the level now
    have hstored : b.level ≤ d.retryTokensNow s ep := by
      rw [Deployment.retryTokensNow_of_bucket before]
      exact level_le_refill hrate (hbalanced.bucket before).2
    have hlevel : d'.retryTokensNow s ep ≤ b.level + (s.endpointRetrySuccessRefill : ℚ) := by
      rw [Deployment.retryTokensNow_of_bucket after, clock, refill_self (min_le_left _ _)]
      exact min_le_right _ _
    rw [claims, clock, counted, Nat.cast_one, mul_one]
    linarith
  | recovered _ before after counted claims clock =>
    have hstored : 0 ≤ d.retryTokensNow s ep := by
      rw [Deployment.retryTokensNow_of_bucket before]
      exact refill_nonneg hrate hburst (hbalanced.bucket before).1
    have hlevel : d'.retryTokensNow s ep = s.endpointRetryBurst := by
      rw [Deployment.retryTokensNow_of_bucket after, clock]
      exact refill_self (le_refl _)
    rw [claims, clock, hlevel, counted, Nat.cast_one, mul_one]
    linarith
  | created before unknown _ after claims clock =>
    have hbefore : d.retryTokensNow s ep = s.endpointRetryBurst := by
      unfold Deployment.retryTokensNow
      rw [before]
      exact if_neg unknown
    have hlevel : d'.retryTokensNow s ep = s.endpointRetryBurst := by
      rw [Deployment.retryTokensNow_of_bucket after, clock]
      exact refill_self (le_refl _)
    rw [claims, clock, hlevel, hbefore]
    linarith
  | removed _ before after _ known claims clock =>
    have hstored : 0 ≤ d.retryTokensNow s ep := by
      rw [Deployment.retryTokensNow_of_bucket before]
      exact refill_nonneg hrate hburst (hbalanced.bucket before).1
    have hlevel : d'.retryTokensNow s ep = 0 := by
      unfold Deployment.retryTokensNow
      rw [after]
      exact if_pos known
    rw [claims, clock, hlevel]
    linarith

/-! ## §6. The rows of the endpoints, over a step. -/

/-- **Every endpoint keeps its state row.** -/
theorem step_housed (h : Effect P s d a d') (hbudget : ∀ ep, Rebudget s ep d a d')
    (hsecrets : d.Secrets) (hhoused : d.Housed) : d'.Housed := by
  have hlater := h.later.2
  constructor
  · intro w' hw'
    have hknown : w'.id < d'.endpointIds := (h.secrets hsecrets).endpointIds w' hw'
    -- an endpoint that was there had its row
    have hold : w'.id < d.endpointIds → (d.retryBucket w'.id).isSome = true := by
      intro hid
      rcases h.endpoint hw' with ⟨w, hw, hsame, -⟩ | hnew
      · rw [hsame]
        exact hhoused.states w hw
      · omega
    cases hbudget w'.id with
    | kept balance known =>
      rw [balance]
      exact hold (known.mp hknown)
    | claimed _ _ _ after | succeeded _ _ after | recovered _ _ after | created _ _ _ after =>
      rw [after]
      rfl
    | removed _ _ _ gone => exact absurd rfl (gone w' hw')
  · intro ep hsome
    have hbefore : (d.retryBucket ep).isSome = true → ep < d'.endpointIds := fun hep =>
      lt_of_lt_of_le (hhoused.stateIds ep hep) hlater
    cases hbudget ep with
    | kept balance =>
      rw [balance] at hsome
      exact hbefore hsome
    | claimed _ _ before | succeeded _ before | recovered _ before =>
      exact hbefore (by rw [before]; rfl)
    | created _ _ known => exact known
    | removed _ _ _ _ known => exact known

end Steps

/-! ## §7. Runs. -/

/-- What the account rests on. -/
structure Deployment.Solvent (s : Settings) (d : Deployment) : Prop where
  balanced : d.Balanced s
  belongs : Belongs d.db
  secrets : d.Secrets
  housed : d.Housed

section Runs

variable {d d' : Deployment}

theorem Deployment.Fresh.solvent (h : d.Fresh) : d.Solvent s := by
  refine ⟨h.limited.balanced, h.belongs, (h.timely (s := s)).secrets, ?_, ?_⟩
  · intro w hw
    rw [h.endpoints] at hw
    cases hw
  · intro ep hsome
    have hrow : d.db.endpointStates.find? ep = none := by
      apply Table.find?_eq_none.mpr
      intro e he
      rw [h.endpointStates] at he
      cases he
    rw [Deployment.retryBucket, hrow] at hsome
    cases hsome

theorem step_solvent (hs : s.Accepted) (hd : d.Solvent s) (h : d.step P s a = some d') :
    d'.Solvent s := by
  have heffect := Deployment.step_effect h
  have hbudget : ∀ ep, Rebudget s ep d a d' := fun ep =>
    step_rebudget ep hs hd.balanced hd.housed hd.belongs h
  exact ⟨heffect.balanced hs hd.balanced, heffect.belongs hd.belongs, heffect.secrets hd.secrets,
    step_housed heffect hbudget hd.secrets hd.housed⟩

/-- The tokens of an endpoint never exceed the burst. -/
theorem retryTokensNow_le (ep : Nat) : d.retryTokensNow s ep ≤ s.endpointRetryBurst := by
  unfold Deployment.retryTokensNow
  cases d.retryBucket ep with
  | none =>
    show (if ep < d.endpointIds then (0 : ℚ) else s.endpointRetryBurst) ≤ _
    split
    · exact Nat.cast_nonneg _
    · exact le_refl _
  | some => exact min_le_left _ _

theorem retryTokensNow_nonneg (hs : s.Accepted) (hd : d.Balanced s) (ep : Nat) :
    0 ≤ d.retryTokensNow s ep := by
  cases hb : d.retryBucket ep with
  | none =>
    unfold Deployment.retryTokensNow
    rw [hb]
    show (0 : ℚ) ≤ if ep < d.endpointIds then (0 : ℚ) else s.endpointRetryBurst
    split
    · exact le_refl _
    · exact Nat.cast_nonneg _
  | some =>
    rw [Deployment.retryTokensNow_of_bucket hb]
    exact refill_nonneg hs.retryRate.le (Nat.cast_nonneg _) (hd.bucket hb).1

/-- A run from `d`: what it claims is what it had, what the time has brought
and what it earned. -/
theorem run_account (hs : s.Accepted) (ep : Nat) (hd : d.Solvent s)
    (h : run (Deployment.step P s) d actions = some d') :
    (d'.retryClaims ep : ℚ) ≤ d.retryClaims ep + s.endpointRetryBurst
      + s.endpointRetryRatePerSecond * (d'.clock - d.clock)
      + (s.endpointRetrySuccessRefill : ℚ)
        * (tally (Deployment.step P s) (Deployment.successes s ep) d actions : ℕ)
      + (s.endpointRetryBurst : ℚ)
        * (tally (Deployment.step P s) (Deployment.recoveries s ep) d actions : ℕ) := by
  have hstep : ∀ (u : Deployment) (a : Action) (v : Deployment), u.Solvent s →
      u.step P s a = some v →
      v.Solvent s ∧ v.retryPotential s d'.clock ep ≤ u.retryPotential s d'.clock ep
        + ((s.endpointRetrySuccessRefill : ℚ) * (u.successes s ep a : ℕ)
          + (s.endpointRetryBurst : ℚ) * (u.recoveries s ep a : ℕ)) := by
    intro u a v hu huv
    have hbudget := step_rebudget ep hs hu.balanced hu.housed hu.belongs huv
    exact ⟨step_solvent hs hu huv, hbudget.account hs hu.balanced⟩
  have hpotential := potential_le hstep actions d d' hd h
  -- the two kinds of earnings, each with its weight
  have hweighted : ∀ (weight : ℚ) (count : Deployment → Action → ℕ),
      tally (Deployment.step P s) (fun u a => weight * (count u a : ℕ)) d actions
        = weight * (tally (Deployment.step P s) count d actions : ℕ) := fun weight count =>
    tally_map ((AddMonoidHom.mulLeft weight).comp (Nat.castAddMonoidHom ℚ)) count actions d
  rw [tally_add, hweighted, hweighted] at hpotential
  unfold Deployment.retryPotential at hpotential
  have hend := retryTokensNow_nonneg hs (run_inv (fun u a v hu huv => step_solvent hs hu huv)
    hd h).balanced ep
  have hbegin := retryTokensNow_le (s := s) (d := d) ep
  rw [sub_self, mul_zero, add_zero] at hpotential
  linarith

/-- The claims that a run has added. -/
theorem retryClaims_drop (ep : Nat) (h : run (Deployment.step P s) d actions = some d') :
    d'.retryClaims ep = d.retryClaims ep + (d'.issued.drop d.issued.length).countP
        (ClaimedDelivery.retries ep) := by
  obtain ⟨new, hnew⟩ : d.issued <+: d'.issued := by
    refine run_inv (I := fun u => d.issued <+: u.issued) ?_ (prefix_refl _) h
    intro u a v hu huv
    obtain ⟨more, hmore, -⟩ := (Deployment.step_effect huv).issued
    rw [hmore]
    exact hu.trans (prefix_append _ _)
  unfold Deployment.retryClaims
  rw [← hnew, drop_left, countP_append]

/-- **A claim takes from the balance exactly its retries**, and nothing for a
first attempt. -/
theorem claim_retryLevel (hs : s.Accepted) (hd : d.Balanced s) (ep : Nat)
    (h : d.step P s (.op (.claim limit tokens)) = some d') :
    d'.retryLevel s ep = d.retryLevel s ep - ((d'.issued.drop d.issued.length).countP
        (ClaimedDelivery.retries ep) : ℕ) := by
  obtain ⟨-, w, hw, rfl⟩ := Deployment.step_op h
  obtain ⟨⟨hlength, -, -⟩, rfl⟩ := World.of_guard hw
  -- a refused claim, or one of nothing
  have hidle : d.retryLevel s ep = d.retryLevel s ep - (((d.issued ++ []).drop
      d.issued.length).countP (ClaimedDelivery.retries ep) : ℕ) := by
    rw [drop_left]
    exact (sub_zero _).symm
  unfold World.claim claimDue
  by_cases hzero : limit = 0
  · rw [if_pos hzero]
    exact hidle
  · rw [if_neg hzero]
    dsimp only
    cases hall : claimAll d.db ((selectFairDeliveries s d.clock limit d.db).2.zip tokens) with
    | error =>
      rw [append_nil] at hidle
      exact hidle
    | ok claims =>
      have hbuilt : BuiltFrom d.db (claimedPicks s d.clock limit tokens d.db) claims :=
        claimAll_built _ hall
      dsimp only
      rw [drop_left, built_retries hlength hbuilt]
      exact selected_retryLevel d.clock limit hs hd.endpoints ep

end Runs

/-- **THE RETRY STORM BOUND.**  With settings that the validator accepts, in
every run on a clock that does not go back: between two times the claims of
an endpoint's retries are at most the burst, what the rate gives in between,
the refill for each successful finalization and the burst for each manual
recovery; and a claim lowers the retry balance by its retries only. -/
theorem retry_storm_bound (P : Primitives) (s : Settings) (d₀ d d' : Deployment)
    (before between : List Action) (haccepted : s.accepted = true) (hfresh : d₀.Fresh)
    (hbefore : run (Deployment.step P s) d₀ before = some d)
    (hbetween : run (Deployment.step P s) d between = some d') (ep : Nat) (t₀ t₁ : Time)
    (hstart : t₀ ≤ d.clock) (hend : d'.clock ≤ t₁) :
    ((d'.issued.drop d.issued.length).countP (ClaimedDelivery.retries ep) : ℚ)
        ≤ s.endpointRetryBurst + s.endpointRetryRatePerSecond * (t₁ - t₀)
          + (s.endpointRetrySuccessRefill : ℚ)
            * (tally (Deployment.step P s) (Deployment.successes s ep) d between : ℕ)
          + (s.endpointRetryBurst : ℚ)
            * (tally (Deployment.step P s) (Deployment.recoveries s ep) d between : ℕ)
      ∧ ∀ limit tokens d'', d'.step P s (.op (.claim limit tokens)) = some d'' →
        d''.retryLevel s ep = d'.retryLevel s ep
          - ((d''.issued.drop d'.issued.length).countP (ClaimedDelivery.retries ep) : ℕ) := by
  have hs := Settings.accepted_spec haccepted
  have hsolvent : d.Solvent s :=
    run_inv (fun u a v hu huv => step_solvent hs hu huv) hfresh.solvent hbefore
  have hlater : d'.Solvent s :=
    run_inv (fun u a v hu huv => step_solvent hs hu huv) hsolvent hbetween
  constructor
  · have hbound := run_account hs ep hsolvent hbetween
    rw [retryClaims_drop ep hbetween] at hbound
    push_cast at hbound
    -- the run lies within the two times
    have htime : s.endpointRetryRatePerSecond * (d'.clock - d.clock)
        ≤ s.endpointRetryRatePerSecond * (t₁ - t₀) :=
      mul_le_mul_of_nonneg_left (by linarith) hs.retryRate.le
    linarith
  · intro limit tokens d'' hstep
    exact claim_retryLevel hs hlater.balanced ep hstep

/-- One event, attempted three times and recovered by hand in between. -/
def stormRun : List Action :=
  [.op (.claim 1 ["token-1"]), .op (.finalize (firstClaim "token-1" 1) unavailable),
    .op (.tick 1), .op (.claim 1 ["token-2"]),
    .op (.finalize (firstClaim "token-2" 2) unavailable),
    .op (.operate 1 "endpoint-1" .recover), .op (.claim 1 ["token-3"])]

/-- Two retries are claimed, on one token and one recovery. -/
theorem retry_storm_bound_recovered :
    ∃ d d', run (Deployment.step smallPrimitives oneRetry) freshDeployment
        [registerEndpoint, .op (.ingest 1 firstEvent)] = some d
      ∧ run (Deployment.step smallPrimitives oneRetry) d stormRun = some d'
      ∧ d'.retryClaims 1 = 2
      ∧ ((d'.issued.drop d.issued.length).countP (ClaimedDelivery.retries 1) : ℚ)
        ≤ oneRetry.endpointRetryBurst + oneRetry.endpointRetryRatePerSecond * (1 - 0)
          + (oneRetry.endpointRetrySuccessRefill : ℚ)
            * (tally (Deployment.step smallPrimitives oneRetry)
              (Deployment.successes oneRetry 1) d stormRun : ℕ)
          + (oneRetry.endpointRetryBurst : ℚ)
            * (tally (Deployment.step smallPrimitives oneRetry)
              (Deployment.recoveries oneRetry 1) d stormRun : ℕ) := by
  have hruns : ∃ d ∈ run (Deployment.step smallPrimitives oneRetry) freshDeployment
      [registerEndpoint, .op (.ingest 1 firstEvent)], 0 ≤ d.clock
        ∧ ∃ d' ∈ run (Deployment.step smallPrimitives oneRetry) d stormRun,
          d'.clock ≤ 1 ∧ d'.retryClaims 1 = 2 := by
    decide +kernel
  obtain ⟨d, hd, hclock, d', hd', hclock', hretries⟩ := hruns
  have haccepted : oneRetry.accepted = true := by decide +kernel
  have hbound := retry_storm_bound smallPrimitives oneRetry freshDeployment d d' _ _ haccepted
    freshDeployment_fresh hd hd' 1 0 1 hclock hclock'
  exact ⟨d, d', hd, hd', hretries, hbound.1⟩

/-! ## §8. What a success does to the balance. -/

/-- The effective retry balance: what `consume_tokens` reports for cost 0. -/
def EndpointQuotaState.effectiveRetryTokens (s : Settings) (now : Time)
    (e : EndpointQuotaState) : ℚ :=
  (consumeTokens e.retryTokens e.retryRefilledAt s.endpointRetryRatePerSecond
    s.endpointRetryBurst 0 now s.quotaRetryAfterMaxSeconds).tokens

theorem EndpointQuotaState.effectiveRetryTokens_eq (s : Settings) (now : Time)
    (e : EndpointQuotaState) : e.effectiveRetryTokens s now = min (s.endpointRetryBurst : ℚ)
          (e.retryTokens + max 0 (now - e.retryRefilledAt) * s.endpointRetryRatePerSecond) := by
  unfold EndpointQuotaState.effectiveRetryTokens consumeTokens
  dsimp only
  split
  · rw [Nat.cast_zero, sub_zero]
  · rfl

/-- **WHEN A SUCCESS REPLENISHES THE RETRY BUDGET.**  Whatever the database,
the effective balance after a successful finalization is that before it plus
the refill, up to the burst, EXACTLY WHEN no time has passed since the stored
moment or the stored balance and the refill reach the burst; and the balance
is lowered exactly when it is short of the burst and the refill is less than
what the rate has added since. -/
theorem success_replenishes_iff (s : Settings) (haccepted : s.accepted = true) (finished : Time)
    (c : ClaimedDelivery) (f : Finalization) (db db' : Db) (hsucceeded : f.result.succeeded = true)
    (hfinal : finalize s finished c f db = .ok (db', true)) :
    ∃ d e e', db.deliveries.find? c.id = some d ∧ db.endpointStates.find? d.endpointId = some e
      ∧ db'.endpointStates.find? d.endpointId = some e'
      ∧ (e'.effectiveRetryTokens s finished = min (s.endpointRetryBurst : ℚ)
            (e.effectiveRetryTokens s finished + s.endpointRetrySuccessRefill)
          ↔ finished ≤ e.retryRefilledAt
            ∨ (s.endpointRetryBurst : ℚ) ≤ e.retryTokens + s.endpointRetrySuccessRefill)
      ∧ (e'.effectiveRetryTokens s finished < e.effectiveRetryTokens s finished
          ↔ e.retryTokens + s.endpointRetrySuccessRefill < s.endpointRetryBurst
            ∧ (s.endpointRetrySuccessRefill : ℚ)
              < (finished - e.retryRefilledAt) * s.endpointRetryRatePerSecond) := by
  have hrate := (Settings.accepted_spec haccepted).retryRate
  obtain hnone | ⟨d, e, hrow, hstate, hwrite⟩ := finalize_ok hfinal
  · cases hnone
  obtain ⟨rfl, -⟩ := Prod.mk.inj hwrite
  have hkey : e.endpointId = d.endpointId := Table.key_of_find? hstate
  obtain ⟨hsame, hbalance⟩ := finalizeEndpoint_retryBucket s finished f.result d.id e
  rw [if_pos hsucceeded] at hbalance
  refine ⟨d, e, _, (filter_eq_some_iff.mp hrow).1, hstate,
    Table.find?_put_self hstate (hsame.trans hkey), ?_⟩
  -- the moment stored is the moment of the success
  have hafter : (finalizeEndpoint s finished f.result d.id e).effectiveRetryTokens s finished
      = min (s.endpointRetryBurst : ℚ) (e.retryTokens + s.endpointRetrySuccessRefill) := by
    rw [EndpointQuotaState.effectiveRetryTokens_eq]
    show refill s.endpointRetryRatePerSecond (s.endpointRetryBurst : ℚ) finished
      (finalizeEndpoint s finished f.result d.id e).retryBucket = _
    rw [hbalance]
    exact refill_self (min_le_left _ _)
  have hrefill : (0 : ℚ) ≤ s.endpointRetrySuccessRefill := Nat.cast_nonneg _
  have hgain : 0 ≤ max 0 (finished - e.retryRefilledAt) * s.endpointRetryRatePerSecond :=
    mul_nonneg (le_max_left _ _) hrate.le
  rw [hafter, EndpointQuotaState.effectiveRetryTokens_eq]
  constructor
  · rw [topUp_eq_iff hgain hrefill, mul_eq_zero, or_iff_left hrate.ne', max_eq_left_iff,
      sub_nonpos]
  · rw [min_lt_min_right_iff, add_lt_add_iff_left, max_mul_of_nonneg _ _ hrate.le, zero_mul,
      lt_max_iff, or_iff_right hrefill.not_gt, and_comm]

/-- A receiver that accepts. -/
def received : Finalization :=
  ⟨0, ⟨true, false, some 200, none, none, none⟩, Jitter.zero⟩

/-- The delivery's second retry is claimed at time 1: two of the ten tokens
are spent. -/
def secondRetry : List Action :=
  [registerEndpoint, .op (.ingest 1 firstEvent), .op (.claim 1 ["token-1"]),
    .op (.finalize (firstClaim "token-1" 1) unavailable), .op (.tick 1),
    .op (.claim 1 ["token-2"]), .op (.finalize (firstClaim "token-2" 2) unavailable),
    .op (.claim 1 ["token-3"])]

/-- A finalization at the end of a run, from its evaluation. -/
theorem exists_finalized (P : Primitives) (s : Settings) (d₀ : Deployment) (actions : List Action)
    (c : ClaimedDelivery) (f : Finalization) (C : Deployment → Db → Bool)
    (h : (run (Deployment.step P s) d₀ actions).any (fun d =>
      (finalize s d.clock c f d.db).toOption.any fun r => r.2 && C d r.1) = true) :
    ∃ d db', run (Deployment.step P s) d₀ actions = some d
      ∧ finalize s d.clock c f d.db = .ok (db', true) ∧ C d db' = true := by
  obtain ⟨d, hrun, h⟩ := (any_eq_true _ _).mp h
  cases hfinal : finalize s d.clock c f d.db with
  | error => simp [hfinal, Except.toOption] at h
  | ok r =>
    obtain ⟨db', written⟩ := r
    simp only [hfinal, Except.toOption, any_some, Bool.and_eq_true] at h
    obtain ⟨rfl, hfacts⟩ := h
    exact ⟨d, db', hrun, hfinal, hfacts⟩

/-- A success in the moment of its claim adds its refill. -/
theorem success_replenishes_iff_at_once :
    ∃ d db', run (Deployment.step smallPrimitives .defaults) freshDeployment secondRetry = some d
      ∧ finalize .defaults d.clock (firstClaim "token-3" 3) received d.db = .ok (db', true)
      ∧ ∃ x e e', d.db.deliveries.find? 1 = some x ∧ d.db.endpointStates.find? x.endpointId = some e
        ∧ db'.endpointStates.find? x.endpointId = some e'
        ∧ e'.effectiveRetryTokens .defaults d.clock
          = min (Settings.defaults.endpointRetryBurst : ℚ)
            (e.effectiveRetryTokens .defaults d.clock
              + Settings.defaults.endpointRetrySuccessRefill) := by
  obtain ⟨d, db', hrun, hfinal, hnow⟩ := exists_finalized smallPrimitives .defaults
    freshDeployment secondRetry (firstClaim "token-3" 3) received
    (fun d _ => (d.db.deliveries.find? 1).any fun x =>
      (d.db.endpointStates.find? x.endpointId).any fun e => decide (d.clock ≤ e.retryRefilledAt))
    (by decide +kernel)
  obtain ⟨x, e, e', hx, he, he', hiff, -⟩ := success_replenishes_iff .defaults (by decide +kernel)
    d.clock _ received d.db db' rfl hfinal
  have hx' : d.db.deliveries.find? 1 = some x := hx
  simp only [hx', any_some, he, decide_eq_true_eq] at hnow
  exact ⟨d, db', hrun, hfinal, x, e, e', hx, he, he', hiff.mpr (Or.inl hnow)⟩

/-- **A SUCCESS THAT LOWERS THE BALANCE.**  Eight tokens are stored at time 1;
at time 21 the rate has filled the bucket, and the success stores nine. -/
theorem success_lowers_balance :
    ∃ d db', run (Deployment.step smallPrimitives .defaults) freshDeployment
        (secondRetry ++ [.op (.tick 21)]) = some d
      ∧ finalize .defaults d.clock (firstClaim "token-3" 3) received d.db = .ok (db', true)
      ∧ (d.db.endpointStates.find? 1).map (·.effectiveRetryTokens .defaults d.clock) = some 10
      ∧ (db'.endpointStates.find? 1).map (·.effectiveRetryTokens .defaults d.clock) = some 9 := by
  obtain ⟨d, db', hrun, hfinal, hfacts⟩ := exists_finalized smallPrimitives .defaults
    freshDeployment (secondRetry ++ [.op (.tick 21)]) (firstClaim "token-3" 3) received
    (fun d db' => decide (
      (d.db.endpointStates.find? 1).map (·.effectiveRetryTokens .defaults d.clock) = some 10
      ∧ (db'.endpointStates.find? 1).map (·.effectiveRetryTokens .defaults d.clock) = some 9))
    (by decide +kernel)
  exact ⟨d, db', hrun, hfinal, of_decide_eq_true hfacts⟩

end WebhookPlatform
