/-
  WebhookPlatform.Evidence
  **WHAT CLOSES A CIRCUIT** (`_finalize` of `app/services/delivery_service.py`
  after `_perform_attempt`, `recover_endpoint_circuit`).

  A circuit closes, or forgets its failures, by a manual recovery or by the
  finalization of an attempt.  `_finalize` looks at three things only:

      succeeded                           — closes
      retryable                           — counts a failure
      error = "max_delivery_age"          — leaves a circuit that is not probed

  and takes whatever is left for an answer of the receiver.  That is one for
  an ordinary HTTP status; it is none for a denial of the egress proxy, an
  unsafe URL, an error in the headers or the signature, or an endpoint that
  was inactive at acceptance.  `Evident` names the attempts after which a
  closed circuit does rest on a status.
-/
import WebhookPlatform.Attempt
import WebhookPlatform.Circuit

namespace WebhookPlatform

open Relational Transition Exceptions Classes

/-! ## §1. Attempts that close a circuit. -/

/-- The circuit closes, or its failures are reset. -/
def Resets (e e' : EndpointQuotaState) : Prop :=
  (e.circuitState ≠ .closed ∧ e'.circuitState = .closed)
    ∨ (e.consecutiveFailures ≠ 0 ∧ e'.consecutiveFailures = 0)

instance : Decidable (Resets e e') := inferInstanceAs (Decidable (_ ∨ _))

/-- The receiver answered with a status that is 2xx or asks for no retry. -/
def AttemptResult.Answered (r : AttemptResult) : Prop :=
  ∃ code, r.statusCode = some code
    ∧ (isSuccessStatus code = true ∨ isRetryableStatus code = false)

/-- The results after which `_finalize` closes the circuit. -/
def AttemptResult.Closing (r : AttemptResult) : Prop :=
  r.succeeded = true ∨ (r.retryable = false ∧ r.error ≠ some "max_delivery_age")

theorem not_resets_of_same (hcircuit : e'.circuitState = e.circuitState)
    (hfailures : e'.consecutiveFailures = e.consecutiveFailures) : ¬ Resets e e' := by
  rintro (⟨hnot, hclosed⟩ | ⟨hnot, hzero⟩)
  · exact hnot (hcircuit ▸ hclosed)
  · exact hnot (hfailures ▸ hzero)

theorem not_resets_of_opened (hcircuit : e'.circuitState = .opened)
    (hfailures : e.consecutiveFailures ≤ e'.consecutiveFailures) : ¬ Resets e e' := by
  rintro (⟨-, hclosed⟩ | ⟨hnot, hzero⟩)
  · rw [hcircuit] at hclosed
    exact absurd hclosed (by decide)
  · omega

/-- Only a closing result resets. -/
theorem closing_of_resets {finished : Time}
    (h : Resets e (finalizeEndpoint s finished r deliveryId e)) : r.Closing := by
  unfold finalizeEndpoint at h
  dsimp only at h
  split at h
  next hsucceeded => exact Or.inl hsucceeded
  split at h
  next =>
    -- a failure is counted, and the circuit opened or left alone
    split at h
    · exact absurd h (not_resets_of_opened rfl (Nat.le_succ _))
    rcases h with ⟨hnot, hclosed⟩ | ⟨-, hzero⟩
    · exact absurd hclosed hnot
    · exact absurd hzero (Nat.succ_ne_zero _)
  next hretryable =>
    split at h
    · exact absurd h (not_resets_of_opened rfl (le_refl _))
    next hprobe =>
      split at h
      next hor =>
        -- a probe that is too old was caught above
        refine Or.inr ⟨Bool.eq_false_iff.mpr hretryable, fun herror => ?_⟩
        rcases hor with hisprobe | hne
        · exact hprobe ⟨hisprobe, herror⟩
        · exact hne herror
      · exact absurd h (not_resets_of_same rfl rfl)

/-! ## §2. Attempts whose closing rests on a status. -/

/-- Whatever a clause swallows without asking for a retry comes after a
status that asks for none. -/
def Exchange.Evident (s : Settings) : Exchange → Prop
  | .raised e => e.handled = true → e.transient = true
  | .responded r =>
    ∀ e, r.failure s = some e → e.handled = true → e.transient = false →
      isRetryableStatus r.statusCode = false

/-- The delivery is too old to be attempted; or its endpoint was active at
acceptance and the exchange is evident. -/
def EvidentAttempt (s : Settings) (now : Time) (c : ClaimedDelivery) (x : Exchange) : Prop :=
  now - c.createdAt < s.webhookMaxDeliveryAgeSeconds →
    c.endpointActive = true ∧ x.Evident s

/-- A 2xx status closes, whatever comes after it. -/
theorem answered_of_succeeded (h : (attemptResult l retryable error).succeeded = true) :
    (attemptResult l retryable error).Answered := by
  obtain ⟨code, hcode, hsuccess⟩ := (Option.any_eq_true _ _).mp h
  exact ⟨code, hcode, Or.inl hsuccess⟩

/-- The `try` statement after an evident exchange. -/
theorem tryExchange_answered (hevident : x.Evident s) (h : tryExchange A s x = .ok r)
    (hclosing : r.Closing) : r.Answered := by
  unfold tryExchange at h
  rcases hx : exchanged A s x with ⟨l, failure⟩
  rw [hx] at h
  cases failure with
  | none =>
    cases h
    rcases hclosing with hsucceeded | ⟨hretryable, -⟩
    · exact answered_of_succeeded hsucceeded
    -- nothing was raised, so there is a status
    · cases x with
      | raised => exact absurd hx (by simp [exchanged_raised])
      | responded response =>
        have hstatus := (exchanged_responded A s response).1
        rw [hx] at hstatus
        have hflag : l.statusCode.any isRetryableStatus = false := hretryable
        rw [hstatus] at hflag
        exact ⟨response.statusCode, hstatus, Or.inr hflag⟩
  | some e =>
    dsimp only at h
    cases hhandle : handleException e with
    | none =>
      rw [hhandle] at h
      cases h
    | some verdict =>
      obtain ⟨retryable, error⟩ := verdict
      rw [hhandle] at h
      cases h
      have hhandled : e.handled = true := handled_of_handleException hhandle
      have hflag : retryable = e.transient := retryable_of_handleException hhandle
      rcases hclosing with hsucceeded | ⟨hretryable, -⟩
      · exact answered_of_succeeded hsucceeded
      · have htransient : e.transient = false := hflag ▸ hretryable
        cases x with
        | raised =>
          rw [exchanged_raised] at hx
          obtain ⟨-, he⟩ := Prod.mk.inj hx
          cases he
          rw [hevident hhandled] at htransient
          exact absurd htransient (by decide)
        | responded response =>
          obtain ⟨hstatus, hfailure⟩ := exchanged_responded A s response
          rw [hx] at hstatus hfailure
          exact ⟨response.statusCode, hstatus,
            Or.inr (hevident e hfailure.symm hhandled htransient)⟩

/-- **A closing result of an evident attempt rests on a status.** -/
theorem performAttempt_answered {now : Time} (hevident : EvidentAttempt s now c x)
    (h : performAttempt A s now c x = .ok r) (hclosing : r.Closing) : r.Answered := by
  unfold performAttempt at h
  split at h
  next =>
    -- too old: neither a success nor another error
    cases h
    rcases hclosing with hsucceeded | ⟨-, herror⟩
    · exact absurd hsucceeded (by simp [attemptResult])
    · exact absurd rfl herror
  next hage =>
    obtain ⟨hactive, hexchange⟩ := hevident (not_le.mp hage)
    rw [hactive, if_neg (by simp)] at h
    exact tryExchange_answered hexchange h hclosing

/-! ## §3. Runs. -/

/-- A finalization is that of an evident attempt. -/
def Action.Evident (s : Settings) : Action → Prop
  | .op (.finalize c f) =>
    ∃ A now x, performAttempt A s now c x = .ok f.result ∧ EvidentAttempt s now c x
  | _ => True

/-- A circuit that closes, or whose failures are reset, in this step does so
by a manual recovery or by the finalization of an attempt that was
answered. -/
def ClosesOnEvidence (d : Deployment) (x : Time × Action) (d' : Deployment) : Prop :=
  ∀ e ∈ d.db.endpointStates.rows, ∀ e' ∈ d'.db.endpointStates.rows,
    e'.endpointId = e.endpointId → Resets e e' →
      (∃ projectId endpointPublicId, x.2 = .op (.operate projectId endpointPublicId .recover))
      ∨ ∃ c f, x.2 = .op (.finalize c f) ∧ f.result.Answered

section Steps

theorem Scheduled.not_resets (h : Scheduled e e') : ¬ Resets e e' := by
  rcases h.circuit with ⟨hcircuit, -⟩ | ⟨-, hhalf, -⟩
  · exact not_resets_of_same hcircuit h.failures
  · rintro (⟨-, hclosed⟩ | ⟨hnot, hzero⟩)
    · rw [hhalf] at hclosed
      exact absurd hclosed (by decide)
    · exact hnot (h.failures ▸ hzero)

theorem cancelEndpoint_not_resets (now : Time) (id : Nat) (e : EndpointQuotaState) :
    ¬ Resets e (cancelEndpoint now id e) := by
  unfold cancelEndpoint
  split
  · exact not_resets_of_opened rfl (le_refl _)
  · exact not_resets_of_same rfl rfl

/-- The actions that can reset a state row. -/
theorem StateOrigin.resets (h : StateOrigin s d a e') (he : e ∈ d.db.endpointStates.rows)
    (hid : e'.endpointId = e.endpointId) (hresets : Resets e e') :
    (∃ projectId endpointPublicId, a = .op (.operate projectId endpointPublicId .recover))
      ∨ ∃ c f, a = .op (.finalize c f) ∧ f.result.Closing := by
  have hrow : ∀ old ∈ d.db.endpointStates.rows, old.endpointId = e.endpointId → old = e :=
    fun old hold hkey => d.db.endpointStates.eq_of_key_eq hold he hkey
  cases h with
  | kept _ _ mem | unprobed _ _ e' mem =>
    obtain rfl := hrow e' mem hid
    exact absurd hresets (not_resets_of_same rfl rfl)
  | created _ _ absent => exact absurd (List.mem_map.mpr ⟨e, he, hid.symm⟩) absent
  | selected limit _ _ mem =>
    have hscheduled := (selectFairDeliveries_states s d.clock limit d.db e' mem).scheduled
    rw [hid, endpointState_of_mem he] at hscheduled
    exact absurd hresets hscheduled.not_resets
  | finalized c f x old mem =>
    obtain rfl := hrow old mem ((finalizeEndpoint_probe s d.clock f.result x.id old).1 ▸ hid)
    exact Or.inr ⟨c, f, rfl, closing_of_resets hresets⟩
  | canceled _ id old mem =>
    obtain rfl := hrow old mem ((cancelEndpoint_probe d.clock id old).1 ▸ hid)
    exact absurd hresets (cancelEndpoint_not_resets d.clock id old)
  | operated projectId endpointPublicId operation old mem =>
    obtain rfl := hrow old mem ((operation.apply_probe s d.clock old).1 ▸ hid)
    cases operation with
    | pause | resume => exact absurd hresets (not_resets_of_same rfl rfl)
    | recover => exact Or.inl ⟨projectId, endpointPublicId, rfl⟩

end Steps

/-- **CIRCUITS CLOSE ON EVIDENCE.**  In every run, from any deployment and
at any moments, whose finalizations are those of evident attempts: whenever
a circuit closes or its failures are reset, the step is a manual recovery or
the finalization of an attempt that received a status, 2xx or one that asks
for no retry. -/
theorem circuit_closes_on_evidence (P : Primitives) (s : Settings) (d : Deployment)
    (xs : List (Time × Action)) (hattempts : ∀ x ∈ xs, x.2.Evident s) :
    Along (Deployment.stepAt P s) ClosesOnEvidence d xs := by
  have hallowed : Along (Deployment.stepAt P s) (fun _ x _ => x.2.Evident s) d xs :=
    along_of_forall (fun x hx _ _ => hattempts x hx) d
  refine along_of_inv (I := fun _ => True) ?_ xs d trivial hallowed
  intro u x u' _ hstep hevident
  refine ⟨trivial, fun e he e' he' hid hresets => ?_⟩
  have horigin := (Deployment.stepAt_effect hstep).state he'
  rcases horigin.resets he hid hresets with hrecover | ⟨c, f, hx, hclosing⟩
  · exact Or.inl hrecover
  · rw [hx] at hevident
    obtain ⟨A, now, exchange, hattempt, hexchange⟩ := hevident
    exact Or.inr ⟨c, f, hx, performAttempt_answered hexchange hattempt hclosing⟩

/-- The receiver is down. -/
def downAttempt : Finalization :=
  ⟨0, ⟨false, true, some 503, some "retryable_http_status", some "", none⟩, Jitter.zero⟩

/-- The receiver knows no such resource. -/
def notFoundAttempt : Finalization :=
  ⟨61, ⟨false, false, some 404, some "http_status", some "", none⟩, Jitter.zero⟩

/-- The egress proxy refuses the connection. -/
def deniedAttempt : Finalization :=
  ⟨61, ⟨false, false, none, some "egress_proxy_denied", none, none⟩, Jitter.zero⟩

/-- The circuit is open and then probed. -/
def probedRun : List (Time × Action) :=
  [(0, registerEndpoint), (0, .op (.ingest 1 firstEvent)), (0, .op (.claim 1 ["token-1"])),
    (1, .op (.finalize (firstClaim "token-1" 1) downAttempt)), (61, .op (.claim 1 ["token-2"]))]

/-- A status, and nothing raised after it. -/
theorem evident_of_status (now : Time) (code : Nat) (hactive : c.endpointActive = true)
    (h : performAttempt plainPrimitives s now c (.responded { statusCode := code })
      = .ok f.result) : (Action.op (.finalize c f)).Evident s := by
  refine ⟨plainPrimitives, now, _, h, fun _ => ⟨hactive, fun e he => ?_⟩⟩
  exact absurd he (by simp [Response.failure, Drained])

/-- A receiver that was down and then answers 404 closes its circuit. -/
theorem circuit_closes_on_evidence_not_found :
    (freshRun oneFailure (probedRun
        ++ [(62, .op (.finalize (firstClaim "token-2" 2) notFoundAttempt))])).any
      (fun d => decide (d.db.endpointStates.rows.map EndpointQuotaState.circuitState = [.closed]))
      = true
    ∧ Along (Deployment.stepAt smallPrimitives oneFailure) ClosesOnEvidence freshDeployment
      (probedRun ++ [(62, .op (.finalize (firstClaim "token-2" 2) notFoundAttempt))]) := by
  refine ⟨by decide +kernel, circuit_closes_on_evidence smallPrimitives oneFailure freshDeployment
    _ fun x hx => ?_⟩
  simp only [probedRun, List.cons_append, List.nil_append, List.mem_cons, List.not_mem_nil,
    or_false] at hx
  rcases hx with rfl | rfl | rfl | rfl | rfl | rfl
  · trivial
  · trivial
  · trivial
  · refine evident_of_status 0 503 rfl ?_
    unfold performAttempt
    rw [if_neg (by decide +kernel), if_neg (by decide)]
    rfl
  · trivial
  · refine evident_of_status 61 404 rfl ?_
    unfold performAttempt
    rw [if_neg (by decide +kernel), if_neg (by decide)]
    rfl

/-- **A DENIAL OF THE PROXY CLOSES THE CIRCUIT.**  The receiver is down, its
circuit open and then probed; the egress proxy refuses the probe, so nothing
has reached the receiver, and the circuit is closed with no failure left. -/
theorem circuit_closed_by_denial :
    (performAttempt plainPrimitives oneFailure 61 (firstClaim "token-2" 2)
        (.raised { cls := proxyError })).toOption = some deniedAttempt.result
    ∧ deniedAttempt.result.statusCode = none
    ∧ ∃ d d', freshRun oneFailure probedRun = some d
      ∧ d.stepAt smallPrimitives oneFailure
          (62, .op (.finalize (firstClaim "token-2" 2) deniedAttempt)) = some d'
      ∧ d.db.endpointStates.rows.map EndpointQuotaState.circuitState = [.halfOpen]
      ∧ d'.db.endpointStates.rows.map EndpointQuotaState.circuitState = [.closed]
      ∧ ¬ ClosesOnEvidence d (62, .op (.finalize (firstClaim "token-2" 2) deniedAttempt)) d' := by
  refine ⟨by decide +kernel, rfl, ?_⟩
  obtain ⟨d, d', hd, hd', hbefore, hafter, e, he, e', he', hid, hresets⟩ :
      ∃ d d', freshRun oneFailure probedRun = some d
        ∧ d.stepAt smallPrimitives oneFailure
            (62, .op (.finalize (firstClaim "token-2" 2) deniedAttempt)) = some d'
        ∧ d.db.endpointStates.rows.map EndpointQuotaState.circuitState = [.halfOpen]
        ∧ d'.db.endpointStates.rows.map EndpointQuotaState.circuitState = [.closed]
        ∧ ∃ e ∈ d.db.endpointStates.rows, ∃ e' ∈ d'.db.endpointStates.rows,
          e'.endpointId = e.endpointId ∧ Resets e e' := by
    decide +kernel
  refine ⟨d, d', hd, hd', hbefore, hafter, fun hevidence => ?_⟩
  rcases hevidence e he e' he' hid hresets with ⟨_, _, hop⟩ | ⟨c, f, hop, code, hcode, -⟩
  · injection hop with hop
    exact Op.noConfusion hop
  · injection hop with hop
    injection hop with hc hf
    subst hf
    exact absurd hcode (by simp [deniedAttempt])

end WebhookPlatform
