/-
  WebhookPlatform.Circuit
  **THE REPRESENTATION OF A CIRCUIT.**

  Four columns of an endpoint's state row stand for its circuit:
  `circuit_state`, `consecutive_failures`, `circuit_open_until` and
  `half_open_probe_delivery_id`.  They are written field by field by the
  scheduler, by finalization, by cancellation and by the operator, and always
  agree (`circuit_sound`): a moment to reopen exactly when open, a probe only
  when half open and then an unfinished delivery of the endpoint, fewer
  failures than the threshold when closed.

    • `SelectedState` — what one selection does to a state row, next to the
      deliveries it selects,
    • `StateOrigin`, `Effect.state` — where each state row comes from,
    • `EndpointQuotaState.Sound`, `Deployment.Probes` — the two halves of the
      invariant: within the row, and between the row and the deliveries.
-/
import WebhookPlatform.Ownership
import WebhookPlatform.Tenancy

namespace WebhookPlatform

open Relational Transition List Table

/-! ## §1. What a selection does to a state row. -/

/-- The row `e` may look like `e'` after a selection. -/
structure Scheduled (e e' : EndpointQuotaState) : Prop where
  endpointId : e'.endpointId = e.endpointId
  failures : e'.consecutiveFailures = e.consecutiveFailures
  circuit : (e'.circuitState = e.circuitState ∧ e'.circuitOpenUntil = e.circuitOpenUntil)
    ∨ (e.circuitState = .opened ∧ e'.circuitState = .halfOpen ∧ e'.circuitOpenUntil = none)
  probe : e'.circuitState = .halfOpen ∨ e'.halfOpenProbeDeliveryId = e.halfOpenProbeDeliveryId

variable {e : EndpointQuotaState} {p : Pick} {r : Reads}

/-- The gate leaves the row, or half opens an open circuit. -/
theorem EndpointQuotaState.gate_cases (h : e.gate now = some e') :
    (e' = e ∧ e.circuitState ≠ .opened) ∨ (e.circuitState = .opened ∧ e' = { e with
      circuitState := .halfOpen, circuitOpenUntil := none, halfOpenProbeDeliveryId := none }) := by
  unfold EndpointQuotaState.gate at h
  split at h
  · cases h
  split at h
  next hopened =>
    split at h
    · injection h with h
      exact Or.inr ⟨hopened, h.symm⟩
    · cases h
  next hopened =>
    injection h with h
    exact Or.inl ⟨h.symm, hopened⟩

/-- An endpoint that gives a delivery is not open. -/
theorem EndpointQuotaState.not_opened_of_gate
    (h : e.gate now = some e) : e.circuitState ≠ .opened := by
  rcases EndpointQuotaState.gate_cases h with ⟨-, hne⟩ | ⟨hopened, heq⟩
  · exact hne
  · have hhalf := congrArg EndpointQuotaState.circuitState heq
    rw [hopened] at hhalf
    cases hhalf

theorem Scheduled.gate (h : Scheduled e e₁) (hgate : e₁.gate now = some e₂) : Scheduled e e₂ := by
  rcases EndpointQuotaState.gate_cases hgate with ⟨rfl, -⟩ | ⟨hopened, rfl⟩
  · exact h
  · refine ⟨h.endpointId, h.failures, Or.inr ⟨?_, rfl, rfl⟩, Or.inl rfl⟩
    rcases h.circuit with ⟨hsame, -⟩ | ⟨hbefore, -⟩
    · exact hsame.symm.trans hopened
    · exact hbefore

theorem Scheduled.taken (d : Delivery)
    (h : Scheduled e (p.endpointStates ep)) : Scheduled e (p.takenEndpoint ep d) := by
  refine ⟨h.endpointId, h.failures, h.circuit, ?_⟩
  by_cases hhalf : (p.endpointStates ep).circuitState = .halfOpen
  · exact Or.inl hhalf
  · refine Or.inr ?_
    show (if (p.endpointStates ep).circuitState = .halfOpen then some d.id
      else (p.endpointStates ep).halfOpenProbeDeliveryId) = _
    rw [if_neg hhalf]
    exact h.probe.resolve_left hhalf

/-- The state rows of a choice, next to what it has selected. -/
structure Pick.Probing (r : Reads) (p : Pick) : Prop where
  scheduled : ∀ ep, Scheduled (r.endpointStates ep) (p.endpointStates ep)
  closed : ∀ x ∈ p.selected, (p.endpointStates x.endpointId).circuitState ≠ .opened
  taken : ∀ x ∈ p.selected, (p.endpointStates x.endpointId).circuitState = .halfOpen →
    (p.endpointStates x.endpointId).halfOpenProbeDeliveryId = some x.id
  named : ∀ ep id, (p.endpointStates ep).halfOpenProbeDeliveryId = some id →
    (r.endpointStates ep).halfOpenProbeDeliveryId = some id
      ∨ ∃ x ∈ p.selected, x.endpointId = ep ∧ x.id = id
  held : ∀ ep id, (r.endpointStates ep).circuitState = .halfOpen →
    (r.endpointStates ep).halfOpenProbeDeliveryId = some id →
    (p.endpointStates ep).halfOpenProbeDeliveryId = some id

theorem Pick.probing_wake (hp : p.Probing r) (hgate : (p.endpointStates ep).gate now = some e) :
    (p.setEndpoint ep e).Probing r := by
  have hstate : ∀ ep', ep' ≠ ep → (p.setEndpoint ep e).endpointStates ep' = p.endpointStates ep' :=
    fun ep' hne => Function.update_of_ne hne _ _
  rcases EndpointQuotaState.gate_cases hgate with ⟨rfl, -⟩ | ⟨hopened, rfl⟩
  · -- nothing changes
    have hsame : p.setEndpoint ep (p.endpointStates ep) = p := by
      unfold Pick.setEndpoint
      rw [Function.update_eq_self]
    rw [hsame]
    exact hp
  · -- nothing was selected from an open endpoint
    have hfree : ∀ x ∈ p.selected, x.endpointId ≠ ep := fun x hx h => hp.closed x hx (h ▸ hopened)
    refine ⟨fun ep' => ?_, fun x hx => ?_, fun x hx => ?_, fun ep' id => ?_, fun ep' id => ?_⟩
    · by_cases hep : ep' = ep
      · subst hep
        rw [Pick.setEndpoint_self]
        exact (hp.scheduled ep').gate hgate
      · rw [hstate ep' hep]
        exact hp.scheduled ep'
    · rw [hstate _ (hfree x hx)]
      exact hp.closed x hx
    · rw [hstate _ (hfree x hx)]
      exact hp.taken x hx
    · by_cases hep : ep' = ep
      · subst hep
        rw [Pick.setEndpoint_self]
        exact fun h => absurd h (by simp)
      · rw [hstate ep' hep]
        exact hp.named ep' id
    · by_cases hep : ep' = ep
      · subst hep
        -- the row was open when it was read as well
        intro hhalf
        rcases (hp.scheduled ep').circuit with ⟨hsame, -⟩ | ⟨-, hnow, -⟩
        · rw [← hsame, hopened] at hhalf
          exact absurd hhalf (by decide)
        · rw [hopened] at hnow
          exact absurd hnow (by decide)
      · rw [hstate ep' hep]
        exact hp.held ep' id

theorem Pick.probing_take (hp : p.Probing r) (hd : d.endpointId = ep)
    (hgate : (p.endpointStates ep).gate now = some (p.endpointStates ep))
    (hprobe : (p.endpointStates ep).probeAdmits d.id = true) :
    (p.take now org ep d rest).Probing r := by
  have hself : (p.take now org ep d rest).endpointStates ep = p.takenEndpoint ep d :=
    Function.update_self _ _ _
  have hstate : ∀ ep', ep' ≠ ep →
      (p.take now org ep d rest).endpointStates ep' = p.endpointStates ep' :=
    fun ep' hne => Function.update_of_ne hne _ _
  have hselected : ∀ x, x ∈ (p.take now org ep d rest).selected ↔ x ∈ p.selected ∨ x = d := by
    intro x
    show x ∈ p.selected ++ [d] ↔ _
    rw [mem_append, mem_singleton]
  have hcircuit : (p.takenEndpoint ep d).circuitState = (p.endpointStates ep).circuitState := rfl
  -- a half-open circuit has no probe yet, or this very delivery
  have hfree : ∀ id, (p.endpointStates ep).circuitState = .halfOpen →
      (p.endpointStates ep).halfOpenProbeDeliveryId = some id → id = d.id := by
    intro id hhalf hid
    unfold EndpointQuotaState.probeAdmits at hprobe
    rw [hhalf, hid] at hprobe
    simpa using hprobe
  have hnow : (p.endpointStates ep).circuitState = .halfOpen →
      (p.takenEndpoint ep d).halfOpenProbeDeliveryId = some d.id := fun hhalf => if_pos hhalf
  refine ⟨fun ep' => ?_, fun x hx => ?_, fun x hx => ?_, fun ep' id => ?_, fun ep' id => ?_⟩
  · by_cases hep : ep' = ep
    · subst hep
      rw [hself]
      exact (hp.scheduled ep').taken d
    · rw [hstate ep' hep]
      exact hp.scheduled ep'
  · by_cases hep : x.endpointId = ep
    · rw [hep, hself, hcircuit]
      exact EndpointQuotaState.not_opened_of_gate hgate
    · rw [hstate _ hep]
      rcases (hselected x).mp hx with hx | rfl
      · exact hp.closed x hx
      · exact absurd hd hep
  · by_cases hep : x.endpointId = ep
    · rw [hep, hself, hcircuit]
      intro hhalf
      rw [hnow hhalf]
      rcases (hselected x).mp hx with hx | rfl
      · have hid := hp.taken x hx
        rw [hep] at hid
        rw [hfree x.id hhalf (hid hhalf)]
      · rfl
    · rw [hstate _ hep]
      rcases (hselected x).mp hx with hx | rfl
      · exact hp.taken x hx
      · exact absurd hd hep
  · have hold : (∃ x ∈ p.selected, x.endpointId = ep' ∧ x.id = id) →
        ∃ x ∈ (p.take now org ep d rest).selected, x.endpointId = ep' ∧ x.id = id := by
      rintro ⟨x, hx, hxid⟩
      exact ⟨x, (hselected x).mpr (Or.inl hx), hxid⟩
    by_cases hep : ep' = ep
    · subst hep
      rw [hself]
      intro hid
      by_cases hhalf : (p.endpointStates ep').circuitState = .halfOpen
      · rw [hnow hhalf] at hid
        exact Or.inr ⟨d, (hselected d).mpr (Or.inr rfl), hd, Option.some.inj hid⟩
      · have hid : (if (p.endpointStates ep').circuitState = .halfOpen then some d.id
            else (p.endpointStates ep').halfOpenProbeDeliveryId) = some id := hid
        rw [if_neg hhalf] at hid
        exact (hp.named ep' id hid).imp_right hold
    · rw [hstate ep' hep]
      intro hid
      exact (hp.named ep' id hid).imp_right hold
  · by_cases hep : ep' = ep
    · subst hep
      rw [hself]
      intro hhalf hid
      have hbefore := hp.held ep' id hhalf hid
      have hstill : (p.endpointStates ep').circuitState = .halfOpen := by
        rcases (hp.scheduled ep').circuit with ⟨hsame, -⟩ | ⟨-, hsame, -⟩
        · exact hsame.trans hhalf
        · exact hsame
      rw [hnow hstill, hfree id hstill hbefore]
    · rw [hstate ep' hep]
      exact hp.held ep' id

theorem Pick.probing_move (hg : Pick.Grouped r.candidates p) (hp : p.Probing r)
    (h : Pick.Move s now available p q) : q.Probing r := by
  cases h with
  | rotate => exact ⟨hp.scheduled, hp.closed, hp.taken, hp.named, hp.held⟩
  | wake _ _ gate => exact Pick.probing_wake hp gate
  | take org ep d _ queue gate probe =>
    obtain ⟨-, -, hend⟩ := hg.queued org ep d (by rw [queue]; exact mem_cons_self)
    exact Pick.probing_take hp hend gate probe

theorem Reads.choose_probing (s : Settings) (now : Time) (available : Nat)
    (hids : (r.candidates.map Delivery.id).Nodup) : (r.choose s now available).Probing r := by
  have hstart : (r.start s now).Probing r :=
    ⟨fun ep => ⟨rfl, rfl, Or.inl ⟨rfl, rfl⟩, Or.inr rfl⟩, fun x hx => absurd hx not_mem_nil,
      fun x hx => absurd hx not_mem_nil, fun _ _ h => Or.inl h, fun _ _ _ h => h⟩
  exact (Pick.Moves.inv (I := fun p => Pick.Grouped r.candidates p ∧ p.Probing r)
    (fun p q hp hm => ⟨Pick.grouped_move hids p q hp.1 hm, Pick.probing_move hp.1 hp.2 hm⟩)
    (Pick.selectLoop_moves r.organizationOrder available (r.start s now))
    ⟨r.start_grouped s now hids, hstart⟩).2

/-- **What one selection does to a state row**, next to the deliveries it
selects. -/
structure SelectedState (s : Settings) (now : Time) (db : Db) (selected : List Delivery)
    (e' : EndpointQuotaState) : Prop where
  scheduled : Scheduled (endpointState s db now e'.endpointId) e'
  closed : ∀ x ∈ selected, x.endpointId = e'.endpointId → e'.circuitState ≠ .opened
  taken : ∀ x ∈ selected, x.endpointId = e'.endpointId → e'.circuitState = .halfOpen →
    e'.halfOpenProbeDeliveryId = some x.id
  named : ∀ id, e'.halfOpenProbeDeliveryId = some id →
    (endpointState s db now e'.endpointId).halfOpenProbeDeliveryId = some id
      ∨ ∃ x ∈ selected, x.endpointId = e'.endpointId ∧ x.id = id
  held : ∀ id, (endpointState s db now e'.endpointId).circuitState = .halfOpen →
    (endpointState s db now e'.endpointId).halfOpenProbeDeliveryId = some id →
    e'.halfOpenProbeDeliveryId = some id

theorem endpointState_of_mem (h : e ∈ db.endpointStates.rows) :
    endpointState s db now e.endpointId = e := by
  unfold endpointState
  rw [Table.find?_key h]
  rfl

/-- A row that the selection does not touch. -/
theorem selectedState_of_untouched (he : e ∈ db.endpointStates.rows)
    (hfree : ∀ x ∈ selected, x.endpointId ≠ e.endpointId) : SelectedState s now db selected e := by
  have hsame : endpointState s db now e.endpointId = e := endpointState_of_mem he
  refine ⟨?_, fun x hx h => absurd h (hfree x hx), fun x hx h => absurd h (hfree x hx), ?_, ?_⟩
  · rw [hsame]
    exact ⟨rfl, rfl, Or.inl ⟨rfl, rfl⟩, Or.inr rfl⟩
  · rw [hsame]
    exact fun id h => Or.inl h
  · rw [hsame]
    exact fun id _ h => h

/-- Every candidate's endpoint is among the locked ones. -/
theorem Reads.mem_endpointIds : ep ∈ r.endpointIds ↔ ∃ d ∈ r.candidates, d.endpointId = ep := by
  unfold Reads.endpointIds sortedSet
  rw [(perm_insertionSort _ _).mem_iff, mem_dedup, mem_map]

theorem selectFairDeliveries_states (s : Settings) (now : Time) (requested : Nat) (db : Db) :
    ∀ e' ∈ (selectFairDeliveries s now requested db).1.endpointStates.rows,
      SelectedState s now db (selectFairDeliveries s now requested db).2 e' := by
  unfold selectFairDeliveries
  dsimp only
  split
  · exact fun e' he' => selectedState_of_untouched he' fun x hx => absurd hx not_mem_nil
  intro e' he'
  have hreads : ∀ ep, (readsOf s now (availableSlots s now requested (ensureGlobalState now db))
      (ensureGlobalState now db)).endpointStates ep = endpointState s db now ep := fun _ => rfl
  have hnodup := readsOf_nodup s now (availableSlots s now requested (ensureGlobalState now db))
    (ensureGlobalState now db)
  revert he' hreads hnodup
  generalize readsOf s now (availableSlots s now requested (ensureGlobalState now db))
    (ensureGlobalState now db) = r
  generalize availableSlots s now requested (ensureGlobalState now db) = available
  intro he' hreads hnodup
  have hkeys : ∀ ep, (r.endpointStates ep).endpointId = ep := by
    intro ep
    rw [hreads]
    exact endpointState_endpointId s db now ep
  have hprobing := Reads.choose_probing s now available hnodup
  have hsubset := (Reads.choose_choice s now available r hnodup).subset
  -- a locked row is as the choice leaves it, any other as it was
  have hfind := Table.find?_key he'
  rw [Reads.find?_store_endpoint (Reads.choose_endpointKey hkeys)] at hfind
  split at hfind
  · injection hfind with hfind
    refine ⟨?_, fun x hx hep => ?_, fun x hx hep => ?_, fun id hid => ?_, fun id hhalf hid => ?_⟩
    · have hscheduled := hprobing.scheduled e'.endpointId
      rw [hfind, hreads] at hscheduled
      exact hscheduled
    · have hclosed := hprobing.closed x hx
      rw [hep, hfind] at hclosed
      exact hclosed
    · have htaken := hprobing.taken x hx
      rw [hep, hfind] at htaken
      exact htaken
    · have hnamed := hprobing.named e'.endpointId id
      rw [hfind, hreads] at hnamed
      exact hnamed hid
    · have hheld := hprobing.held e'.endpointId id
      rw [hfind, hreads] at hheld
      exact hheld hhalf hid
  next hout =>
    refine selectedState_of_untouched (mem_of_find? hfind) fun x hx hep => hout ?_
    exact Reads.mem_endpointIds.mpr ⟨x, hsubset x hx, hep⟩

/-! ## §2. Where a state row comes from. -/

/-- The origin of a state row after the action. -/
inductive StateOrigin (s : Settings) (d : Deployment) : Action → EndpointQuotaState → Prop where
  | kept (a : Action) (e : EndpointQuotaState) (mem : e ∈ d.db.endpointStates.rows) :
      StateOrigin s d a e
  | created (a : Action) (id : Nat)
      (absent : id ∉ d.db.endpointStates.rows.map EndpointQuotaState.endpointId) :
      StateOrigin s d a (endpointQuotaValues id s d.clock)
  | selected (limit : Nat) (tokens : List Uuid) (e' : EndpointQuotaState)
      (mem : e' ∈ (selectFairDeliveries s d.clock limit d.db).1.endpointStates.rows) :
      StateOrigin s d (.op (.claim limit tokens)) e'
  | finalized (c : ClaimedDelivery) (f : Finalization) (x : Delivery) (e : EndpointQuotaState)
      (mem : e ∈ d.db.endpointStates.rows) :
      StateOrigin s d (.op (.finalize c f)) (finalizeEndpoint s d.clock f.result x.id e)
  | canceled (a : Action) (id : Nat) (e : EndpointQuotaState)
      (mem : e ∈ d.db.endpointStates.rows) : StateOrigin s d a (cancelEndpoint d.clock id e)
  | operated (projectId : Nat) (endpointPublicId : Uuid) (operation : EndpointOperation)
      (e : EndpointQuotaState) (mem : e ∈ d.db.endpointStates.rows) :
      StateOrigin s d (.op (.operate projectId endpointPublicId operation))
        (operation.apply s d.clock e)
  | unprobed (a : Action) (ids : List Nat) (e : EndpointQuotaState)
      (mem : e ∈ d.db.endpointStates.rows) : StateOrigin s d a (unprobe ids e)

section States

theorem state_put (hnew : StateOrigin s d a new) (h : e' ∈ (d.db.endpointStates.put new).rows) :
    StateOrigin s d a e' := by
  rcases mem_of_mem_put h with rfl | hold
  · exact hnew
  · exact StateOrigin.kept a e' hold

theorem state_deleted (h : e' ∈ (deleteDeliveries ids d.db).endpointStates.rows) :
    StateOrigin s d a e' := by
  obtain ⟨e, he, rfl⟩ := (mem_mapRows (unprobe_endpointId ids)).mp h
  exact StateOrigin.unprobed a ids e he

theorem state_cleanup {r : Db × Bool} (hr : Cleanup s d.clock organizationId d.db r)
    (h : e' ∈ r.1.endpointStates.rows) : StateOrigin s d a e' := by
  cases hr with
  | canceled | waiting | eventsDeleted => exact StateOrigin.kept a e' h
  | deliveriesDeleted => exact state_deleted h
  | removed => exact StateOrigin.kept a e' (mem_delete.mp h).1

/-- **Where the state rows come from.** -/
theorem Effect.state (h : Effect P s d a d') (he : e' ∈ d'.db.endpointStates.rows) :
    StateOrigin s d a e' := by
  cases h with
  | claimed limit tokens =>
    exact StateOrigin.selected limit tokens e' he
  | finalized c f x e _ _ _ _ state =>
    exact state_put (StateOrigin.finalized c f x e (mem_of_find? state)) he
  | canceled _ _ _ x =>
    rcases mem_cancelWrite he with ⟨-, he⟩ | ⟨e, hfind, he⟩
    · exact StateOrigin.kept _ e' he
    · exact state_put (StateOrigin.canceled _ x.id e (mem_of_find? hfind)) he
  | operated projectId endpointPublicId operation e mem =>
    exact state_put (StateOrigin.operated projectId endpointPublicId operation e mem) he
  | created =>
    by_cases hid : d.endpointIds ∈ d.db.endpointStates.rows.map EndpointQuotaState.endpointId
    · have hsame := insert_of_mem (b := endpointQuotaValues d.endpointIds s d.clock) hid
      exact StateOrigin.kept _ e' (hsame ▸ he)
    · rcases mem_insert he with rfl | hold
      · exact StateOrigin.created _ d.endpointIds hid
      · exact StateOrigin.kept _ e' hold
  | retired => exact state_deleted he
  | cleaned _ _ _ cleanup => exact state_cleanup cleanup he
  | _ => exact StateOrigin.kept _ e' he

end States

/-! ## §3. Within the row. -/

/-- The circuit columns of a row agree. -/
structure EndpointQuotaState.Sound (s : Settings) (e : EndpointQuotaState) : Prop where
  openUntil : e.circuitOpenUntil.isSome = true ↔ e.circuitState = .opened
  probe : e.halfOpenProbeDeliveryId.isSome = true → e.circuitState = .halfOpen
  closed : e.circuitState = .closed → e.consecutiveFailures < s.endpointCircuitFailureThreshold

section Rows

theorem endpointQuotaValues_sound (id : Nat) (now : Time) :
    (endpointQuotaValues id s now).Sound s :=
  ⟨by simp [endpointQuotaValues], fun h => absurd h (by simp [endpointQuotaValues]),
    fun _ => s.endpointCircuitFailureThreshold_pos⟩

theorem Scheduled.sound (h : Scheduled e e') (he : e.Sound s) : e'.Sound s := by
  rcases h.circuit with ⟨hcircuit, huntil⟩ | ⟨-, hcircuit, huntil⟩
  · refine ⟨?_, fun hsome => ?_, fun hclosed => ?_⟩
    · rw [huntil, hcircuit]
      exact he.openUntil
    · rcases h.probe with hhalf | hprobe
      · exact hhalf
      · rw [hcircuit]
        exact he.probe (hprobe ▸ hsome)
    · rw [h.failures]
      exact he.closed (hcircuit.symm.trans hclosed)
  · refine ⟨?_, fun _ => hcircuit, fun hclosed => ?_⟩
    · rw [huntil, hcircuit]
      decide
    · rw [hcircuit] at hclosed
      exact absurd hclosed (by decide)

/-- A closed circuit without failures. -/
theorem sound_of_closed (hcircuit : e.circuitState = .closed)
    (hfailures : e.consecutiveFailures = 0) (huntil : e.circuitOpenUntil = none)
    (hprobe : e.halfOpenProbeDeliveryId = none) : e.Sound s := by
  refine ⟨?_, fun hsome => ?_, fun _ => ?_⟩
  · rw [huntil, hcircuit]
    decide
  · rw [hprobe] at hsome
    exact absurd hsome (by decide)
  · rw [hfailures]
    exact s.endpointCircuitFailureThreshold_pos

/-- An open circuit without a probe. -/
theorem sound_of_opened {t : Time} (hcircuit : e.circuitState = .opened)
    (huntil : e.circuitOpenUntil = some t) (hprobe : e.halfOpenProbeDeliveryId = none) :
    e.Sound s := by
  refine ⟨?_, fun hsome => ?_, fun hclosed => ?_⟩
  · rw [huntil, hcircuit]
    exact ⟨fun _ => rfl, fun _ => rfl⟩
  · rw [hprobe] at hsome
    exact absurd hsome (by decide)
  · rw [hcircuit] at hclosed
    exact absurd hclosed (by decide)

theorem finalizeEndpoint_sound (he : e.Sound s) (finished : Time) (r : AttemptResult)
    (deliveryId : Nat) : (finalizeEndpoint s finished r deliveryId e).Sound s := by
  unfold finalizeEndpoint
  dsimp only
  split
  · exact sound_of_closed rfl rfl rfl rfl
  · split
    · split
      · exact sound_of_opened rfl rfl rfl
      next hstay =>
        -- one more failure, and still below the threshold if closed
        refine ⟨he.openUntil, he.probe, fun hclosed => ?_⟩
        by_contra hnot
        exact hstay (Or.inr ⟨hclosed, not_lt.mp hnot⟩)
    · split
      · exact sound_of_opened rfl rfl rfl
      · split
        · exact sound_of_closed rfl rfl rfl rfl
        · exact ⟨he.openUntil, he.probe, he.closed⟩

theorem EndpointOperation.apply_sound (he : e.Sound s) (now : Time)
    (operation : EndpointOperation) :
    (operation.apply s now e).Sound s := by
  cases operation with
  | pause | resume => exact ⟨he.openUntil, he.probe, he.closed⟩
  | recover => exact sound_of_closed rfl rfl rfl rfl

theorem unprobe_sound (he : e.Sound s) (ids : List Nat) : (unprobe ids e).Sound s := by
  refine ⟨he.openUntil, fun hsome => he.probe ?_, he.closed⟩
  obtain ⟨id, hid⟩ := Option.isSome_iff_exists.mp hsome
  exact Option.isSome_iff_exists.mpr ⟨id, (Option.filter_eq_some_iff.mp hid).1⟩

/-- **Whatever happens to a state row leaves it sound.** -/
theorem StateOrigin.sound (h : StateOrigin s d a e')
    (hd : ∀ e ∈ d.db.endpointStates.rows, e.Sound s) : e'.Sound s := by
  cases h with
  | kept _ _ mem => exact hd e' mem
  | created _ id => exact endpointQuotaValues_sound id d.clock
  | selected limit _ _ mem =>
    have state := selectFairDeliveries_states s d.clock limit d.db e' mem
    exact state.scheduled.sound
      (endpointState_forall hd (fun id => endpointQuotaValues_sound id d.clock) _)
  | finalized _ f x e mem => exact finalizeEndpoint_sound (hd e mem) d.clock f.result x.id
  | canceled _ id e mem =>
    unfold cancelEndpoint
    split
    · exact sound_of_opened rfl rfl rfl
    · exact (hd e mem)
  | operated _ _ operation e mem => exact operation.apply_sound (hd e mem) d.clock
  | unprobed _ ids e mem => exact unprobe_sound (hd e mem) ids

end Rows

/-! ## §4. Between the row and the deliveries. -/

/-- `id` names a delivery of the endpoint, and an unfinished one unless its
organization is being deleted. -/
def Deployment.Probes (d : Deployment) (endpointId id : Nat) : Prop :=
  ∃ x ∈ d.db.deliveries.rows, x.id = id ∧ x.endpointId = endpointId
    ∧ (x.status.terminal = false ∨ d.tenants.deleting x.organizationId = true)

/-- Every probe names a delivery of its endpoint. -/
def Deployment.Probed (d : Deployment) : Prop :=
  ∀ e ∈ d.db.endpointStates.rows, ∀ id, e.halfOpenProbeDeliveryId = some id →
    d.Probes e.endpointId id

section Probes

variable {d d' : Deployment}

/-- The row `x` is there after the step, as unfinished as it was. -/
def Continues (d' : Deployment) (x : Delivery) : Prop :=
  ∃ x' ∈ d'.db.deliveries.rows, SameDelivery x x'
    ∧ (x.status.terminal = false →
      x'.status.terminal = false ∨ d'.tenants.deleting x.organizationId = true)

variable {id : Nat}

theorem continues_of_mem (h : x ∈ d'.db.deliveries.rows) : Continues d' x :=
  ⟨x, h, ⟨rfl, rfl, rfl, rfl⟩, Or.inl⟩

/-- A probe stays a probe if its delivery continues. -/
theorem Deployment.Probes.mono (h : d.Probes ep id) (heffect : Effect P s d a d')
    (hrows : ∀ x ∈ d.db.deliveries.rows, x.id = id → Continues d' x) : d'.Probes ep id := by
  obtain ⟨x, hx, rfl, rfl, hstatus⟩ := h
  obtain ⟨x', hx', hsame, hcontinues⟩ := hrows x hx rfl
  refine ⟨x', hx', hsame.id, hsame.endpointId, ?_⟩
  rw [hsame.organizationId]
  rcases hstatus with hopen | hdeleting
  · exact hcontinues hopen
  · exact Or.inr (heffect.deleting hdeleting ⟨x', hx', hsame.organizationId⟩)

/-- Rows continue when another row, or this one for an unfinished version,
is put. -/
theorem continues_put (hx : x ∈ d.db.deliveries.rows)
    (hrows : d'.db.deliveries = d.db.deliveries.put new) (mem : old ∈ d.db.deliveries.rows)
    (same : SameDelivery old new) (hnew : x = old → new.status.terminal = false) :
    Continues d' x := by
  obtain ⟨x', hx', hkey, rfl | rfl⟩ := exists_put new hx
  · exact continues_of_mem (hrows ▸ hx')
  · have hold : x = old := d.db.deliveries.eq_of_key_eq hx mem (hkey.symm.trans same.id)
    exact ⟨x', hrows ▸ hx', hold ▸ same, fun _ => Or.inl (hnew hold)⟩

theorem continues_appendAll {rows : List (Nat → Delivery)}
    (hids : ∀ f ∈ rows, ∀ n, (f n).id = n) (hx : x ∈ d.db.deliveries.rows)
    (hrows : d'.db.deliveries = d.db.deliveries.appendAll rows) : Continues d' x := by
  apply continues_of_mem
  rw [hrows, Serial.rows_appendAll hids]
  exact mem_append_left _ hx

theorem continues_deleted (hx : x ∈ d.db.deliveries.rows) (hids : x.id ∉ ids)
    (hrows : d'.db.deliveries = (deleteDeliveries ids d.db).deliveries) : Continues d' x := by
  refine ⟨unlink ids x, ?_, ⟨rfl, rfl, rfl, rfl⟩, Or.inl⟩
  rw [hrows]
  exact mem_deleteDeliveries.mpr ⟨x, hx, hids, rfl⟩

theorem continues_claimed (hx : x ∈ d.db.deliveries.rows)
    (hrows : d'.db.deliveries = (claimedDb s d.clock limit tokens d.db).deliveries) :
    Continues d' x := by
  rw [claimedDb_deliveries] at hrows
  obtain ⟨x', hx', hkey, rfl | hnew⟩ := exists_putAll
    (claimedRows s d.clock (claimedPicks s d.clock limit tokens d.db)) hx
  · rw [← Serial.putAll_toTable, ← hrows] at hx'
    exact continues_of_mem hx'
  · rw [← Serial.putAll_toTable, ← hrows] at hx'
    obtain ⟨y, hy, rfl⟩ := mem_map.mp hnew
    have hyx : y.1 = x := d.db.deliveries.eq_of_key_eq (mem_claimedPicks hy).2.2.1 hx hkey
    refine ⟨_, hx', ?_, fun _ => Or.inl rfl⟩
    rw [hyx]
    exact ⟨rfl, rfl, rfl, rfl⟩

theorem continues_cleaned (hx : x ∈ d.db.deliveries.rows)
    (hrows : d'.db.deliveries = d.db.deliveries.putAll
      ((cancelBatch s d.clock organizationId d.db).map (cleanupRow d.clock)))
    (hdeleting : d'.tenants.deleting organizationId = true) : Continues d' x := by
  obtain ⟨x', hx', hkey, rfl | hnew⟩ := exists_putAll
    ((cancelBatch s d.clock organizationId d.db).map (cleanupRow d.clock)) hx
  · rw [← Serial.putAll_toTable, ← hrows] at hx'
    exact continues_of_mem hx'
  · rw [← Serial.putAll_toTable, ← hrows] at hx'
    obtain ⟨y, hy, rfl⟩ := mem_map.mp hnew
    obtain ⟨hmem, hcancel⟩ := mem_cancelBatch hy
    have hyx : y = x := d.db.deliveries.eq_of_key_eq hmem hx hkey
    subst hyx
    -- the cleanup cancels deliveries of the organization it deletes
    have horg : y.organizationId = organizationId := by
      unfold cancellable at hcancel
      rw [Bool.and_eq_true, decide_eq_true_eq] at hcancel
      exact hcancel.1
    refine ⟨_, hx', ⟨rfl, rfl, rfl, rfl⟩, fun _ => Or.inr ?_⟩
    rw [horg]
    exact hdeleting

/-- A finalized delivery is no probe any more. -/
theorem finalizeEndpoint_released (s : Settings) (finished : Time) (r : AttemptResult)
    (deliveryId : Nat) (e : EndpointQuotaState) :
    (finalizeEndpoint s finished r deliveryId e).halfOpenProbeDeliveryId ≠ some deliveryId := by
  unfold finalizeEndpoint
  dsimp only
  split
  · exact fun h => absurd h (by simp)
  · split
    · split
      · exact fun h => absurd h (by simp)
      next hother => exact fun h => hother (Or.inl (decide_eq_true h))
    · split
      · exact fun h => absurd h (by simp)
      · split
        · exact fun h => absurd h (by simp)
        next hother => exact fun h => hother (Or.inl (decide_eq_true h))

/-- A canceled delivery is no probe any more. -/
theorem cancelEndpoint_released (now : Time) (deliveryId : Nat) (e : EndpointQuotaState) :
    (cancelEndpoint now deliveryId e).halfOpenProbeDeliveryId ≠ some deliveryId := by
  unfold cancelEndpoint
  split
  · exact fun h => absurd h (by simp)
  next hother => exact hother

/-- One operation finishes the delivery `x` and clears it from its endpoint's
row: no probe names it afterwards. -/
theorem probed_finished (hd : d.Probed) (hx : x ∈ d.db.deliveries.rows)
    (hfind : d.db.endpointStates.find? x.endpointId = some e) (hkeep : new.endpointId = e.endpointId
      ∧ ∀ id, new.halfOpenProbeDeliveryId = some id → e.halfOpenProbeDeliveryId = some id)
    (hclear : new.halfOpenProbeDeliveryId ≠ some x.id)
    (he' : e' ∈ (d.db.endpointStates.put new).rows) (hid : e'.halfOpenProbeDeliveryId = some id) :
    d.Probes e'.endpointId id ∧ id ≠ x.id := by
  obtain ⟨hmem, hep⟩ := Table.find?_eq_some.mp hfind
  rcases mem_put.mp he' with ⟨rfl, -⟩ | ⟨hold, hne⟩
  · refine ⟨?_, fun h => hclear (h ▸ hid)⟩
    rw [hkeep.1]
    exact hd e hmem id (hkeep.2 id hid)
  · -- the probe of another endpoint is a delivery of that endpoint
    have hprobes := hd e' hold id hid
    refine ⟨hprobes, fun h => hne ?_⟩
    obtain ⟨y, hy, hyid, hyep, -⟩ := hprobes
    have hyx : y = x := d.db.deliveries.eq_of_key_eq hy hx (hyid.trans h)
    rw [← hyep, hyx, hkeep.1, hep]

/-- Deleted deliveries are cleared from every row. -/
theorem probed_deleted (hd : d.Probed) (he' : e' ∈ (deleteDeliveries ids d.db).endpointStates.rows)
    (hid : e'.halfOpenProbeDeliveryId = some id) : d.Probes e'.endpointId id ∧ id ∉ ids := by
  obtain ⟨e, he, rfl⟩ := (mem_mapRows (unprobe_endpointId ids)).mp he'
  obtain ⟨hprobe, hout⟩ := Option.filter_eq_some_iff.mp hid
  exact ⟨hd e he id hprobe, of_decide_eq_true hout⟩

/-- **Probes keep naming deliveries of their endpoints.** -/
theorem Effect.probed (h : Effect P s d a d') (hd : d.Probed) : d'.Probed := by
  intro e' he' id hid
  -- an old probe whose delivery continues
  have hcontinue : d.Probes e'.endpointId id →
      (∀ x ∈ d.db.deliveries.rows, x.id = id → Continues d' x) → d'.Probes e'.endpointId id :=
    fun hold hrows => hold.mono h hrows
  cases h with
  | claimed limit tokens claims =>
    have hrows : ∀ x ∈ d.db.deliveries.rows, Continues
        { d with
          db := claimedDb s d.clock limit tokens d.db
          issued := d.issued ++ claims
          drawn := d.drawn ++ tokens } x := fun x hx => continues_claimed hx rfl
    rcases (selectFairDeliveries_states s d.clock limit d.db e' he').named id hid
      with hbefore | ⟨x, hx, hep, hxid⟩
    · obtain ⟨e, he, hep, hprobe⟩ := endpointState_probe hbefore
      exact hcontinue (hep ▸ hd e he id hprobe) fun x hx _ => hrows x hx
    · obtain ⟨hmem, hdue⟩ := (selectFairDeliveries_choice s d.clock limit d.db).rows x hx
      exact hcontinue ⟨x, hmem, hxid, hep, Or.inl (Delivery.nonterminal_of_due hdue)⟩
        fun y hy _ => hrows y hy
  | renewed _ x mem _ _ holds =>
    have hprocessing := (ClaimedDelivery.owns_iff.mp (ClaimedDelivery.owns_of_holds holds)).1
    refine hcontinue (hd e' he' id hid) fun y hy _ =>
      continues_put hy rfl mem ⟨rfl, rfl, rfl, rfl⟩ fun _ => ?_
    show x.status.terminal = false
    rw [hprocessing]
    rfl
  | released _ _ mem =>
    exact hcontinue (hd e' he' id hid) fun y hy _ =>
      continues_put hy rfl mem ⟨rfl, rfl, rfl, rfl⟩ fun _ => rfl
  | finalized c f x e mem _ _ _ state =>
    obtain ⟨hold, hne⟩ := probed_finished hd mem state
      (finalizeEndpoint_probe s d.clock f.result x.id e)
      (finalizeEndpoint_released s d.clock f.result x.id e) he' hid
    refine hcontinue hold fun y hy hyid =>
      continues_put hy rfl mem (finalizeRow_same s d.clock c f x) fun hyx => ?_
    exact absurd (hyid.symm.trans (congrArg Delivery.id hyx)) hne
  | ingested =>
    refine hcontinue (hd e' he' id hid) fun y hy _ => continues_appendAll ?_ hy rfl
    intro f hf n
    obtain ⟨y, -, rfl⟩ := mem_map.mp hf
    rfl
  | replayed _ _ _ _ _ _ _ _ source =>
    refine hcontinue (hd e' he' id hid) fun y hy _ => continues_appendAll ?_ hy rfl
    intro f hf n
    obtain ⟨original, -, -, -, -, publicId, rfl⟩ := source f hf
    rfl
  | canceled _ _ _ x mem =>
    have hcanceled : d.Probes e'.endpointId id ∧ id ≠ x.id := by
      rcases mem_cancelWrite he' with ⟨hnone, he'⟩ | ⟨e, hfind, he'⟩
      · have hprobes := hd e' he' id hid
        refine ⟨hprobes, fun h => ?_⟩
        obtain ⟨y, hy, hyid, hyep, -⟩ := hprobes
        rw [d.db.deliveries.eq_of_key_eq hy mem (hyid.trans h)] at hyep
        exact Table.find?_eq_none.mp hnone e' he' hyep.symm
      · exact probed_finished hd mem hfind (cancelEndpoint_probe d.clock x.id e)
          (cancelEndpoint_released d.clock x.id e) he' hid
    refine hcontinue hcanceled.1 fun y hy hyid =>
      continues_put hy rfl mem ⟨rfl, rfl, rfl, rfl⟩ fun hyx => ?_
    exact absurd (hyid.symm.trans (congrArg Delivery.id hyx)) hcanceled.2
  | operated _ _ operation e mem =>
    obtain ⟨hkey, hprobe⟩ := operation.apply_probe s d.clock e
    have hold : d.Probes e'.endpointId id := by
      rcases mem_of_mem_put he' with rfl | hold
      · rw [hkey]
        exact hd e mem id (hprobe id hid)
      · exact hd e' hold id hid
    exact hcontinue hold fun x hx _ => continues_of_mem hx
  | created =>
    rcases mem_insert he' with rfl | hold
    · exact absurd hid (by simp [endpointQuotaValues])
    · exact hcontinue (hd e' hold id hid) fun x hx _ => continues_of_mem hx
  | retired =>
    obtain ⟨hold, hout⟩ := probed_deleted hd he' hid
    exact hcontinue hold fun y hy hyid => continues_deleted hy (hyid ▸ hout) rfl
  | cleaned operation _ due cleanup =>
    have hdeleting := Tenants.start_deleting operation (Tenants.claimOperation_some due).1
    cases cleanup with
    | canceled =>
      exact hcontinue (hd e' he' id hid) fun y hy _ => continues_cleaned hy rfl hdeleting
    | waiting => exact hcontinue (hd e' he' id hid) fun y hy _ => continues_of_mem hy
    | deliveriesDeleted =>
      obtain ⟨hold, hout⟩ := probed_deleted hd he' hid
      exact hcontinue hold fun y hy hyid => continues_deleted hy (hyid ▸ hout) rfl
    | eventsDeleted => exact hcontinue (hd e' he' id hid) fun y hy _ => continues_of_mem hy
    | removed =>
      exact hcontinue (hd e' (mem_delete.mp he').1 id hid) fun y hy _ =>
        continues_of_mem hy
  | _ => exact hcontinue (hd e' he' id hid) fun x hx _ => continues_of_mem hx

end Probes

/-! ## §5. Every run. -/

theorem Deployment.Fresh.circuits {d : Deployment} (h : d.Fresh) :
    (∀ e ∈ d.db.endpointStates.rows, e.Sound s) ∧ d.Probed := by
  unfold Deployment.Probed
  rw [h.endpointStates]
  exact ⟨fun e he => absurd he not_mem_nil, fun e he => absurd he not_mem_nil⟩

theorem circuit_run (hfresh : d.Fresh) (hrun : run (Deployment.stepAt P s) d xs = some d') :
    (∀ e ∈ d'.db.endpointStates.rows, e.Sound s) ∧ d'.Probed := by
  refine run_inv (I := fun d : Deployment =>
    (∀ e ∈ d.db.endpointStates.rows, e.Sound s) ∧ d.Probed) ?_ hfresh.circuits hrun
  intro d x d' hd hstep
  have heffect := Deployment.stepAt_effect hstep
  exact ⟨fun e he => (heffect.state he).sound hd.1, heffect.probed hd.2⟩

/-- **THE CIRCUIT INVARIANT.**  After any run, for every endpoint:
`circuit_open_until` is set exactly when the circuit is open; a probe is set
only when it is half open, and names an unfinished delivery of the endpoint
(unless the deletion of the organization has begun); and a closed circuit has
fewer failures than the threshold. -/
theorem circuit_sound (P : Primitives) (s : Settings) (d d' : Deployment)
    (xs : List (Time × Action)) (hfresh : d.Fresh)
    (hrun : run (Deployment.stepAt P s) d xs = some d') :
    ∀ e ∈ d'.db.endpointStates.rows,
      (e.circuitOpenUntil.isSome = true ↔ e.circuitState = .opened)
      ∧ (∀ id, e.halfOpenProbeDeliveryId = some id → e.circuitState = .halfOpen
        ∧ ∃ x ∈ d'.db.deliveries.rows, x.id = id ∧ x.endpointId = e.endpointId
          ∧ (x.status.terminal = false ∨ d'.tenants.deleting x.organizationId = true))
      ∧ (e.circuitState = .closed →
        e.consecutiveFailures < s.endpointCircuitFailureThreshold) := by
  intro e he
  obtain ⟨hsound, hprobed⟩ := circuit_run hfresh hrun
  refine ⟨(hsound e he).openUntil, fun id hid => ⟨(hsound e he).probe ?_, hprobed e he id hid⟩,
    (hsound e he).closed⟩
  rw [hid]
  rfl

/-- The first claim has failed and opened the circuit. -/
def openedRun : List (Time × Action) :=
  [(0, registerEndpoint), (0, .op (.ingest 1 firstEvent)), (0, .op (.claim 1 ["token-1"])),
    (1, .op (.finalize (firstClaim "token-1" 1) unavailable))]

/-- A circuit that has failed once is probed a minute later. -/
theorem circuit_sound_probe :
    ∃ d', freshRun oneFailure (openedRun ++ [(61, .op (.claim 1 ["token-2"]))]) = some d'
      ∧ d'.db.endpointStates.rows.map EndpointQuotaState.halfOpenProbeDeliveryId = [some 1]
      ∧ ∀ e ∈ d'.db.endpointStates.rows,
        (e.circuitOpenUntil.isSome = true ↔ e.circuitState = .opened)
        ∧ (∀ id, e.halfOpenProbeDeliveryId = some id → e.circuitState = .halfOpen
          ∧ ∃ x ∈ d'.db.deliveries.rows, x.id = id ∧ x.endpointId = e.endpointId
            ∧ (x.status.terminal = false ∨ d'.tenants.deleting x.organizationId = true))
        ∧ (e.circuitState = .closed → e.consecutiveFailures < 1) := by
  obtain ⟨d', hrun, hprobe⟩ : ∃ d',
      freshRun oneFailure (openedRun ++ [(61, .op (.claim 1 ["token-2"]))]) = some d'
      ∧ d'.db.endpointStates.rows.map EndpointQuotaState.halfOpenProbeDeliveryId = [some 1] := by
    decide +kernel
  exact ⟨d', hrun, hprobe,
    circuit_sound smallPrimitives oneFailure freshDeployment d' _ freshDeployment_fresh hrun⟩

end WebhookPlatform
