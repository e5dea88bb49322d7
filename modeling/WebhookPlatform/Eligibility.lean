/-
  WebhookPlatform.Eligibility
  **WHO IS SERVED AT A TURN.**

  `ready` says of a tenant's endpoint what `tryEndpoint` tests: its queue has
  a head that the pause, the circuit, the probe, the concurrency and the two
  balances let through.  Two facts carry everything that is said about the
  order of service:

    • a turn serves the FIRST READY endpoint of the tenant's deque, or it
      finds none ready and leaves the deque as it was (`Turn`,
      `scanEndpoints_turn`),
    • readiness is never gained while the loop runs (`ready_moves`): every
      move only uses up slots, balances and queues.
-/
import WebhookPlatform.SchedulingInvariants

namespace WebhookPlatform

open Relational List Function

/-! ## §1. The gate and the probe in one test. -/

namespace EndpointQuotaState

variable {e e' : EndpointQuotaState}

/-- The gate lets the delivery through: the endpoint is not paused, and its
circuit is closed, over, or half open for this delivery. -/
theorem gate_any (now : Time) (e : EndpointQuotaState) (id : Nat) :
    (e.gate now).any (fun e' => e'.probeAdmits id) = e.passes now id := by
  unfold gate passes
  cases hpaused : e.pausedAt with
  | some => rfl
  | none =>
    cases hstate : e.circuitState with
    | closed | halfOpen => simp [probeAdmits, hstate]
    | opened => cases he : e.circuitOpenUntil.any fun t => decide (t ≤ now) <;> simp [probeAdmits]

/-- Behind the gate the same deliveries pass. -/
theorem passes_gate (h : e.gate now = some e') (id : Nat) : e'.passes now id = e.passes now id := by
  rw [← gate_any, ← gate_any, gate_idem h, h]

end EndpointQuotaState

namespace Pick

variable (s : Settings) (now : Time)

/-! ## §2. Readiness. -/

/-- The head of the tenant's queue at the endpoint would be taken. -/
def ready (p : Pick) (organizationId endpointId : Nat) : Bool :=
  match p.grouped organizationId endpointId with
  | [] => false
  | d :: _ => (p.endpointStates endpointId).passes now d.id && p.hasRoom s endpointId d

/-- The tenant is below its cap and one of its endpoints is ready. -/
def Eligible (p : Pick) (organizationId : Nat) : Prop :=
  p.tenantCounts organizationId < s.tenantInFlightDeliveries
    ∧ ∃ ep ∈ p.endpointOrder organizationId, p.ready s now organizationId ep = true

instance (p : Pick) (organizationId : Nat) : Decidable (p.Eligible s now organizationId) :=
  inferInstanceAs (Decidable (_ ∧ _))

variable {s now}

variable {p q : Pick}

theorem ready_iff : p.ready s now org ep = true ↔ ∃ d, (p.grouped org ep).head? = some d
      ∧ (p.endpointStates ep).passes now d.id = true ∧ p.hasRoom s ep d = true := by
  unfold ready
  cases p.grouped org ep with
  | nil => simp
  | cons => simp

/-- **A try succeeds exactly when the endpoint is ready.** -/
theorem tryEndpoint_snd (s : Settings) (now : Time) (p : Pick) (org ep : Nat) :
    (tryEndpoint s now org ep p).2 = p.ready s now org ep := by
  unfold tryEndpoint ready
  cases p.grouped org ep with
  | nil => rfl
  | cons d =>
    dsimp only
    rw [← EndpointQuotaState.gate_any]
    cases (p.endpointStates ep).gate now with
    | none => rfl
    | some e =>
      have hroom : (p.setEndpoint ep e).hasRoom s ep d = p.hasRoom s ep d := rfl
      dsimp only [Option.any_some]
      rw [hroom]
      by_cases hguard : (e.probeAdmits d.id && p.hasRoom s ep d) = true
      · rw [if_pos hguard, hguard]
      · rw [if_neg hguard, Bool.eq_false_iff.mpr hguard]

/-- A failed try leaves everything, or wakes the endpoint's circuit. -/
theorem tryEndpoint_failed (h : p.ready s now org ep = false) : (tryEndpoint s now org ep p).1 = p
      ∨ ∃ e, (p.endpointStates ep).gate now = some e
        ∧ (tryEndpoint s now org ep p).1 = p.setEndpoint ep e := by
  rw [← tryEndpoint_snd] at h
  unfold tryEndpoint at h ⊢
  split
  · exact Or.inl rfl
  next d rest hqueue =>
    split
    · exact Or.inl rfl
    next e hgate =>
      split
      next hguard => simp [hqueue, hgate, hguard] at h
      · exact Or.inr ⟨e, hgate, rfl⟩

/-- A successful try takes the head of the queue. -/
theorem tryEndpoint_taken (h : p.ready s now org ep = true) :
    ∃ d rest e, p.grouped org ep = d :: rest ∧ (p.endpointStates ep).gate now = some e
      ∧ (tryEndpoint s now org ep p).1 = (p.setEndpoint ep e).take now org ep d rest := by
  rw [← tryEndpoint_snd] at h
  unfold tryEndpoint at h ⊢
  split
  next hqueue => simp [hqueue] at h
  next d rest hqueue =>
    split
    next hgate => simp [hqueue, hgate] at h
    next e hgate =>
      split
      · exact ⟨d, rest, e, hqueue, hgate, rfl⟩
      next hguard => simp [hqueue, hgate, hguard] at h

/-! ## §3. What readiness depends on. -/

/-- Waking an endpoint's circuit is not seen by any readiness test. -/
theorem ready_setEndpoint (hgate : (p.endpointStates ep).gate now = some e) (org' ep' : Nat) :
    (p.setEndpoint ep e).ready s now org' ep' = p.ready s now org' ep' := by
  have hpasses : ∀ id, ((p.setEndpoint ep e).endpointStates ep').passes now id
      = (p.endpointStates ep').passes now id := by
    intro id
    by_cases hep : ep' = ep
    · subst hep
      rw [setEndpoint_self]
      exact EndpointQuotaState.passes_gate hgate id
    · show (Function.update p.endpointStates ep e ep').passes now id = _
      rw [update_of_ne hep]
  unfold ready
  simp only [hpasses]
  rfl

/-- The tenants' rotation is not seen by any readiness test. -/
theorem ready_rotate (p : Pick) (org : Nat) (order : List Nat) (org' ep' : Nat) :
    (p.rotate org order).ready s now org' ep' = p.ready s now org' ep' := rfl

/-- After a delivery was taken its endpoint lets nothing through that it did
not let through before. -/
theorem passes_takenEndpoint {id : Nat} (hd : (p.endpointStates ep).passes now d.id = true)
    (h : (p.takenEndpoint ep d).passes now id = true) :
    (p.endpointStates ep).passes now id = true := by
  by_cases hhalf : (p.endpointStates ep).circuitState = .halfOpen
  · -- the probe is now the delivery taken
    have hstate : (p.takenEndpoint ep d).circuitState = .halfOpen := hhalf
    have hprobe : (p.takenEndpoint ep d).halfOpenProbeDeliveryId = some d.id := if_pos hhalf
    unfold EndpointQuotaState.passes at h
    rw [hstate, hprobe] at h
    simp only [Bool.and_eq_true, Option.all_some, decide_eq_true_eq] at h
    rw [← h.2]
    exact hd
  · have hprobe : (p.takenEndpoint ep d).halfOpenProbeDeliveryId
        = (p.endpointStates ep).halfOpenProbeDeliveryId := if_neg hhalf
    unfold EndpointQuotaState.passes at h ⊢
    rw [hprobe] at h
    exact h

/-- Taking a delivery leaves no endpoint more room than it had. -/
theorem hasRoom_take (h : (p.take now org ep d rest).hasRoom s ep' x = true) :
    p.hasRoom s ep' x = true := by
  have hcount : p.endpointCounts ep' ≤ (p.take now org ep d rest).endpointCounts ep' := by
    show p.endpointCounts ep' ≤ Function.update p.endpointCounts ep (p.endpointCounts ep + 1) ep'
    by_cases hep : ep' = ep
    · subst hep
      rw [update_self]
      omega
    · rw [update_of_ne hep]
  have hdrop : ∀ (f : Nat → ℚ), Function.update f ep (f ep - 1) ep' ≤ f ep' := by
    intro f
    by_cases hep : ep' = ep
    · subst hep
      rw [update_self]
      linarith
    · rw [update_of_ne hep]
  have hbalance : (p.take now org ep d rest).endpointBalances ep' ≤ p.endpointBalances ep' :=
    hdrop p.endpointBalances
  have hretry : (p.take now org ep d rest).endpointRetryBalances ep'
      ≤ p.endpointRetryBalances ep' := by
    show (if 0 < d.attemptCount then _ else _ : Nat → ℚ) ep' ≤ _
    split
    · exact hdrop p.endpointRetryBalances
    · exact le_refl _
  unfold hasRoom at h ⊢
  simp only [Bool.and_eq_true, Bool.or_eq_true, decide_eq_true_eq] at h ⊢
  refine ⟨⟨by omega, le_trans h.1.2 hbalance⟩, h.2.imp id fun hr => le_trans hr hretry⟩

/-- **Readiness is never gained**: what is ready after a move was ready
before it. -/
theorem ready_move (h : Move s now available p q)
    (hr : q.ready s now org ep = true) : p.ready s now org ep = true := by
  cases h with
  | rotate => exact hr
  | wake _ _ hgate =>
    rw [ready_setEndpoint hgate] at hr
    exact hr
  | take org' ep' d rest queue hgate probe room =>
    have hd : (p.endpointStates ep').passes now d.id = true := by
      rw [← EndpointQuotaState.gate_any, hgate]
      exact probe
    by_cases hself : org = org' ∧ ep = ep'
    · -- the endpoint that was served had to be ready
      obtain ⟨rfl, rfl⟩ := hself
      exact ready_iff.mpr ⟨d, by rw [queue]; rfl, hd, room⟩
    · obtain ⟨x, hhead, hpasses, hroom⟩ := ready_iff.mp hr
      rw [grouped_take, if_neg hself] at hhead
      refine ready_iff.mpr ⟨x, hhead, ?_, hasRoom_take hroom⟩
      by_cases hep : ep = ep'
      · subst hep
        have hstate : (p.take now org' ep d rest).endpointStates ep = p.takenEndpoint ep d :=
          update_self _ _ _
        rw [hstate] at hpasses
        exact passes_takenEndpoint hd hpasses
      · have hstate : (p.take now org' ep' d rest).endpointStates ep = p.endpointStates ep :=
          update_of_ne hep _ _
        rw [hstate] at hpasses
        exact hpasses

theorem ready_moves (h : Moves s now available p q)
    (hr : q.ready s now org ep = true) : p.ready s now org ep = true := by
  induction h with
  | refl => exact hr
  | tail _ hm ih => exact ih (ready_move hm hr)

/-- A tenant that is eligible later is eligible now. -/
theorem eligible_move (h : Move s now available p q)
    (he : q.Eligible s now org) : p.Eligible s now org := by
  obtain ⟨hcap, ep, hep, hr⟩ := he
  have hready := ready_move h hr
  cases h with
  | rotate org' order hperm =>
    refine ⟨hcap, ep, ?_, hready⟩
    by_cases horg : org = org'
    · subst horg
      have hmem : ep ∈ Function.update p.endpointOrder org order org := hep
      rw [update_self] at hmem
      exact hperm.mem_iff.mp hmem
    · have hmem : ep ∈ Function.update p.endpointOrder org' order org := hep
      rw [update_of_ne horg] at hmem
      exact hmem
  | wake => exact ⟨hcap, ep, hep, hready⟩
  | take org' =>
    refine ⟨lt_of_le_of_lt ?_ hcap, ep, hep, hready⟩
    show p.tenantCounts org ≤ Function.update p.tenantCounts org' (p.tenantCounts org' + 1) org
    by_cases horg : org = org'
    · subst horg
      rw [update_self]
      omega
    · rw [update_of_ne horg]

theorem eligible_moves (h : Moves s now available p q)
    (he : q.Eligible s now org) : p.Eligible s now org := by
  induction h with
  | refl => exact he
  | tail _ hm ih => exact ih (eligible_move hm he)

/-! ## §4. A tenant's turn. -/

/-- **What a tenant's turn does.**  The first ready endpoint of the deque is
served and goes to its back; or none is ready, and nothing that counts has
changed. -/
inductive Turn (s : Settings) (now : Time) (org : Nat) (p : Pick) : Pick × Bool → Prop where
  | served (skipped rest : List Nat) (ep : Nat) (d : Delivery) (q : Pick)
      (order : p.endpointOrder org = skipped ++ ep :: rest)
      (passed : ∀ x ∈ skipped, p.ready s now org x = false)
      (ready : p.ready s now org ep = true) (head : (p.grouped org ep).head? = some d)
      (selected : q.selected = p.selected ++ [d])
      (deque : q.endpointOrder org = rest ++ (skipped ++ [ep]))
      (endpointCursor : (q.tenantStates org).endpointCursorId = some ep)
      (tenantCursor : q.globalState.tenantCursorOrganizationId = some org)
      (others : ∀ o, o ≠ org →
        q.endpointOrder o = p.endpointOrder o ∧ q.tenantStates o = p.tenantStates o) :
      Turn s now org p (q, true)
  | idle (q : Pick) (passed : ∀ x ∈ p.endpointOrder org, p.ready s now org x = false)
      (selected : q.selected = p.selected) (deque : q.endpointOrder = p.endpointOrder)
      (tenants : q.tenantStates = p.tenantStates) (globalState : q.globalState = p.globalState)
      (counts : q.tenantCounts = p.tenantCounts)
      (ready : ∀ org' ep', q.ready s now org' ep' = p.ready s now org' ep') :
      Turn s now org p (q, false)

/-- The state after some endpoints of the deque were tried in vain: they are
at its back, and their circuits may have been woken. -/
structure Skipped (s : Settings) (now : Time) (org : Nat) (p q : Pick) (skipped rest : List Nat) :
    Prop where
  order : p.endpointOrder org = skipped ++ rest
  passed : ∀ x ∈ skipped, p.ready s now org x = false
  grouped : q.grouped = p.grouped
  selected : q.selected = p.selected
  deque : q.endpointOrder = Function.update p.endpointOrder org (rest ++ skipped)
  tenants : q.tenantStates = p.tenantStates
  globalState : q.globalState = p.globalState
  counts : q.tenantCounts = p.tenantCounts
  ready : ∀ org' ep', q.ready s now org' ep' = p.ready s now org' ep'

theorem Skipped.start (s : Settings) (now : Time) (org : Nat) (p : Pick) :
    Skipped s now org p p [] (p.endpointOrder org) := by
  refine ⟨rfl, by simp, rfl, rfl, ?_, rfl, rfl, rfl, fun _ _ => rfl⟩
  rw [append_nil, update_eq_self]

theorem Skipped.head (h : Skipped s now org p q skipped (ep :: rest)) :
    q.endpointOrder org = ep :: (rest ++ skipped) := by
  rw [h.deque, update_self]
  rfl

/-- One more endpoint is tried in vain. -/
theorem Skipped.next (h : Skipped s now org p q skipped (ep :: rest))
    (hr : q.ready s now org ep = false) :
    Skipped s now org p (tryEndpoint s now org ep (q.rotate org ((rest ++ skipped) ++ [ep]))).1
      (skipped ++ [ep]) rest := by
  have hrot : (q.rotate org ((rest ++ skipped) ++ [ep])).endpointOrder
      = Function.update p.endpointOrder org (rest ++ (skipped ++ [ep])) := by
    show Function.update q.endpointOrder org _ = _
    rw [h.deque, update_idem, append_assoc]
  have hturned : Skipped s now org p (q.rotate org ((rest ++ skipped) ++ [ep]))
      (skipped ++ [ep]) rest := by
    refine ⟨?_, ?_, h.grouped, h.selected, hrot, h.tenants, h.globalState, h.counts, h.ready⟩
    · rw [h.order, append_assoc]
      rfl
    · intro x hx
      rcases mem_append.mp hx with hx | hx
      · exact h.passed x hx
      · rw [mem_singleton.mp hx, ← h.ready]
        exact hr
  rcases tryEndpoint_failed (p := q.rotate org ((rest ++ skipped) ++ [ep])) hr with
    hsame | ⟨e, hgate, hwoken⟩
  · rw [hsame]
    exact hturned
  · rw [hwoken]
    refine ⟨hturned.order, hturned.passed, hturned.grouped, hturned.selected, hturned.deque,
      hturned.tenants, hturned.globalState, hturned.counts, fun org' ep' => ?_⟩
    rw [ready_setEndpoint hgate]
    exact hturned.ready org' ep'

/-- The rest of the turn, after some endpoints were tried in vain. -/
theorem scanEndpoints_skipped (rest : List Nat) :
    ∀ {q : Pick} {skipped : List Nat}, Skipped s now org p q skipped rest →
      Turn s now org p (scanEndpoints s now org rest.length q) := by
  induction rest with
  | nil =>
    intro q skipped h
    refine Turn.idle q ?_ h.selected ?_ h.tenants h.globalState h.counts h.ready
    · rw [h.order, append_nil]
      exact h.passed
    · -- every endpoint has been to the back once
      have horder := h.order
      rw [append_nil] at horder
      rw [h.deque, nil_append, ← horder, update_eq_self]
  | cons ep rest ih =>
    intro q skipped h
    have hsnd := tryEndpoint_snd s now (q.rotate org ((rest ++ skipped) ++ [ep])) org ep
    rw [length_cons, scanEndpoints_cons h.head, hsnd, ready_rotate]
    by_cases hr : q.ready s now org ep = true
    · rw [if_pos hr]
      obtain ⟨d, tail, e, hqueue, hgate, htaken⟩ :=
        tryEndpoint_taken (p := q.rotate org ((rest ++ skipped) ++ [ep])) hr
      have hpair : tryEndpoint s now org ep (q.rotate org ((rest ++ skipped) ++ [ep]))
          = (((q.rotate org ((rest ++ skipped) ++ [ep])).setEndpoint ep e).take now org ep d
              tail, true) := Prod.ext htaken (hsnd.trans hr)
      have hqueue : q.grouped org ep = d :: tail := hqueue
      rw [hpair]
      refine Turn.served skipped rest ep d _ h.order h.passed ?_ ?_ ?_ ?_ ?_ rfl ?_
      · rw [← h.ready]
        exact hr
      · rw [← h.grouped, hqueue]
        rfl
      · show q.selected ++ [d] = _
        rw [h.selected]
      · show Function.update q.endpointOrder org _ org = _
        rw [update_self, append_assoc]
      · show (Function.update q.tenantStates org _ org).endpointCursorId = some ep
        rw [update_self]
      · intro o ho
        constructor
        · show Function.update q.endpointOrder org _ o = p.endpointOrder o
          rw [update_of_ne ho, h.deque, update_of_ne ho]
        · show Function.update q.tenantStates org _ o = p.tenantStates o
          rw [update_of_ne ho, h.tenants]
    · rw [if_neg hr]
      exact ih (h.next (Bool.eq_false_iff.mpr hr))

/-- **Every turn** is one of the two. -/
theorem scanEndpoints_turn (s : Settings) (now : Time) (org : Nat) (p : Pick) :
    Turn s now org p (scanEndpoints s now org (p.endpointOrder org).length p) :=
  scanEndpoints_skipped (p.endpointOrder org) (Skipped.start s now org p)

theorem turn_true_iff (h : Turn s now org p r) :
    r.2 = true ↔ ∃ ep ∈ p.endpointOrder org, p.ready s now org ep = true := by
  cases h with
  | served _ _ ep _ _ order _ ready =>
    refine ⟨fun _ => ⟨ep, ?_, ready⟩, fun _ => rfl⟩
    rw [order]
    exact mem_append_right _ mem_cons_self
  | idle _ passed =>
    refine ⟨fun h => absurd h (by simp), fun ⟨ep, hep, hr⟩ => ?_⟩
    rw [passed ep hep] at hr
    cases hr

/-- An eligible tenant is served when its turn comes. -/
theorem Eligible.served (h : p.Eligible s now org) :
    (scanEndpoints s now org (p.endpointOrder org).length p).2 = true :=
  (turn_true_iff (scanEndpoints_turn s now org p)).mpr h.2

/-! ## §5. A round without progress. -/

/-- Eligibility reads the count, the deque and the readiness. -/
theorem eligible_congr (counts : q.tenantCounts = p.tenantCounts)
    (deque : q.endpointOrder = p.endpointOrder)
    (ready : ∀ org ep, q.ready s now org ep = p.ready s now org ep) (org : Nat) :
    q.Eligible s now org ↔ p.Eligible s now org := by
  unfold Eligible
  rw [counts, deque]
  simp only [ready]

/-- **A round that makes no progress** has met no eligible tenant. -/
theorem pass_idle (orgs : List Nat) :
    ∀ p : Pick, p.selected.length < available → (pass s now available orgs p).2 = false →
      ∀ org ∈ orgs, ¬ p.Eligible s now org := by
  induction orgs with
  | nil => exact fun p _ _ org horg => absurd horg (by simp)
  | cons o _ ih =>
    intro p hslots hidle org horg helig
    unfold pass at hidle
    rw [if_neg (not_le.mpr hslots)] at hidle
    by_cases hcap : s.tenantInFlightDeliveries ≤ p.tenantCounts o
    · -- over its cap: passed by, and not eligible
      rw [if_pos hcap] at hidle
      rcases mem_cons.mp horg with rfl | horg
      · exact absurd helig.1 (not_lt.mpr hcap)
      · exact ih p hslots hidle org horg helig
    · rw [if_neg hcap] at hidle
      obtain ⟨hturn, hothers⟩ := Bool.or_eq_false_iff.mp hidle
      rcases mem_cons.mp horg with rfl | horg
      · rw [helig.served] at hturn
        cases hturn
      · -- the turn before it was idle, so nothing has changed for the tenant
        have ht := scanEndpoints_turn s now o p
        generalize scanEndpoints s now o (p.endpointOrder o).length p = r at ht hturn hothers
        cases ht with
        | served => cases hturn
        | idle q _ hsel hdeque _ _ hcounts hready =>
          exact ih q (by rw [hsel]; exact hslots) hothers org horg
            ((eligible_congr hcounts hdeque hready org).mpr helig)

/-- Where nobody is eligible a round selects nothing and makes no progress. -/
theorem pass_none_eligible (orgs : List Nat) : ∀ p : Pick, (∀ org, ¬ p.Eligible s now org) →
      (pass s now available orgs p).1.selected = p.selected
        ∧ (pass s now available orgs p).2 = false := by
  induction orgs with
  | nil => exact fun p _ => ⟨rfl, rfl⟩
  | cons o _ ih =>
    intro p hnone
    unfold pass
    split
    · exact ⟨rfl, rfl⟩
    split
    · exact ih p hnone
    next hcap =>
      have ht := scanEndpoints_turn s now o p
      dsimp only
      generalize scanEndpoints s now o (p.endpointOrder o).length p = r at ht
      cases ht with
      | served _ _ ep _ _ order _ ready =>
        refine absurd ⟨not_le.mp hcap, ep, ?_, ready⟩ (hnone o)
        rw [order]
        exact mem_append_right _ mem_cons_self
      | idle q _ hsel hdeque _ _ hcounts hready =>
        obtain ⟨hrest, hidle⟩ := ih q fun org he =>
          hnone org ((eligible_congr hcounts hdeque hready org).mp he)
        exact ⟨hrest.trans hsel, hidle⟩

/-- **The loop selects something exactly when somebody is eligible.** -/
theorem selectLoop_selected_iff (now : Time) (fuel : Nat) (orgs : List Nat)
    (hempty : p.selected = []) (havailable : 0 < available)
    (horgs : ∀ org, p.endpointOrder org ≠ [] → org ∈ orgs) :
    (selectLoop s now available orgs (fuel + 1) p).selected ≠ [] ↔ ∃ org, p.Eligible s now org := by
  have hslots : p.selected.length < available := by
    rw [hempty]
    exact havailable
  have hloop : selectLoop s now available orgs (fuel + 1) p
      = if (pass s now available orgs p).2 then
          selectLoop s now available orgs fuel (pass s now available orgs p).1
        else (pass s now available orgs p).1 := if_neg (not_le.mpr hslots)
  rw [hloop]
  by_cases hprogress : (pass s now available orgs p).2 = true
  · rw [if_pos hprogress]
    have hgrown : p.selected.length < (pass s now available orgs p).1.selected.length :=
      (pass_spec orgs p).2.2 hprogress
    refine iff_of_true ?_ ?_
    · -- what the first round selected is never given back
      obtain ⟨d, hd⟩ := exists_mem_of_length_pos (Nat.zero_lt_of_lt hgrown)
      exact ne_nil_of_mem ((selectLoop_moves orgs fuel _).selected_subset d hd)
    · by_contra hnone
      have hidle : (pass s now available orgs p).2 = false :=
        (pass_none_eligible orgs p (not_exists.mp hnone)).2
      rw [hidle] at hprogress
      cases hprogress
  · rw [if_neg hprogress]
    have hidle := pass_idle orgs p hslots (Bool.eq_false_iff.mpr hprogress)
    have hnone : ∀ org, ¬ p.Eligible s now org := by
      intro org helig
      obtain ⟨ep, hep, -⟩ := helig.2
      exact hidle org (horgs org (ne_nil_of_mem hep)) helig
    refine iff_of_false ?_ (not_exists.mpr hnone)
    rw [(pass_none_eligible orgs p hnone).1]
    exact not_not.mpr hempty

end Pick

end WebhookPlatform
