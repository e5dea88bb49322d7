/-
  WebhookPlatform.OneProbe
  **ONE PROBE PER HALF-OPEN EPISODE.**

  While an endpoint's circuit stays half open, every claim of one of its
  deliveries is a claim of ONE delivery, and at any instant at most one of
  these claims holds a live lease (`one_probe`).

  The reservation is a column that many operations may clear.  Each of them
  also leaves the half-open state, with one exception: when the organization
  is deleted, the probe's row goes and the reservation with it.  By then the
  endpoint is `Doomed`: all its deliveries are finished and none will follow.
-/
import WebhookPlatform.Circuit
import WebhookPlatform.ClaimLedger

namespace WebhookPlatform

open Relational Transition List

/-! ## §1. The claim ledger of a deployment. -/

section Ledgers

theorem ledger_deleted (hw : Ledger w)
    (deliveries : w'.db.deliveries = (deleteDeliveries ids w.db).deliveries)
    (issued : w'.issued = w.issued) (drawn : w'.drawn = w.drawn) : Ledger w' := by
  refine ledger_versions hw ?_ (by rw [deliveries]; rfl) issued drawn
  rw [deliveries]
  intro x' hx'
  obtain ⟨x, hx, -, rfl⟩ := mem_deleteDeliveries.mp hx'
  exact ⟨x, hx, rfl, rfl, fun _ ht => ht, fun _ hc => hc⟩

theorem ledger_cleanup {now : Time} (hw : Ledger w) (h : Cleanup s now organizationId w.db r)
    (deliveries : w'.db.deliveries = r.1.deliveries) (issued : w'.issued = w.issued)
    (drawn : w'.drawn = w.drawn) : Ledger w' := by
  have hkept : w'.db.deliveries = w.db.deliveries → Ledger w' := fun hsame =>
    ledger_versions hw (fun x hx => ⟨x, hsame ▸ hx, rfl, rfl, fun _ ht => ht, fun _ hc => hc⟩)
      (by rw [hsame]) issued drawn
  cases h with
  | canceled =>
    replace deliveries : w'.db.deliveries = w.db.deliveries.putAll
      ((cancelBatch s now organizationId w.db).map (cleanupRow now)) := deliveries
    refine ledger_versions hw ?_ (by rw [deliveries, Serial.putAll_next]) issued drawn
    rw [deliveries, Serial.putAll_toTable]
    intro x' hx'
    rcases Table.mem_putAll hx' with hnew | ⟨hold, -⟩
    · obtain ⟨x, hx, rfl⟩ := mem_map.mp hnew
      exact ⟨x, (mem_cancelBatch hx).1, ⟨rfl, rfl, fun t ht => absurd ht (by simp [cleanupRow]),
        fun c hc => absurd hc (by simp [ClaimedDelivery.owns, cleanupRow])⟩⟩
    · exact ⟨x', hold, rfl, rfl, fun _ ht => ht, fun _ hc => hc⟩
  | waiting => exact hkept deliveries
  | deliveriesDeleted => exact ledger_deleted hw deliveries issued drawn
  | eventsDeleted => exact hkept deliveries
  | removed => exact hkept deliveries

/-- **The claim ledger is kept by every action.** -/
theorem Effect.ledger (h : Effect P s d a d') (hd : Ledger d.toWorld) : Ledger d'.toWorld := by
  cases h with
  | idle _ _ keep =>
    exact ledger_change (s := s) hd (Change.kept (.tick 0) _ rfl (le_refl _) rfl keep)
  | ticked now later =>
    exact ledger_change (s := s) hd (Change.kept (.tick now) _ rfl later rfl fun _ ht => ht)
  | claimed limit tokens _ _ _ unused built =>
    have hchoice := selectFairDeliveries_choice s d.clock limit d.db
    refine ledger_claimed hd (claimedDb_deliveries s d.clock limit tokens d.db) rfl
      (fun t ht => mem_append_left _ ht) (fun x hx => (mem_claimedPicks hx).2.2.1) ?_ ?_
      built
    · have hsub := (fst_zip_sublist (selectFairDeliveries s d.clock limit d.db).2 tokens).map
        Delivery.id
      rw [map_map] at hsub
      exact hchoice.nodup.sublist hsub
    · intro x hx
      have htoken := (mem_claimedPicks hx).2.1
      exact ⟨unused _ htoken, mem_append_right _ htoken⟩
  | renewed _ x mem =>
    exact ledger_updated hd rfl rfl rfl mem (renewRow_keepsOwner s d.clock x)
  | released _ x mem =>
    exact ledger_updated hd rfl rfl rfl mem (releaseRow_keepsOwner d.clock x)
  | finalized c f x _ mem =>
    exact ledger_updated hd rfl rfl rfl mem (finalizeRow_keepsOwner s d.clock c f x)
  | ingested =>
    refine ledger_created hd rfl rfl rfl ?_
    intro f hf n
    obtain ⟨y, -, rfl⟩ := mem_map.mp hf
    exact ⟨rfl, rfl, rfl⟩
  | replayed _ _ _ _ _ _ _ _ source =>
    refine ledger_created hd rfl rfl rfl ?_
    intro f hf n
    obtain ⟨original, -, -, -, -, publicId, rfl⟩ := source f hf
    exact ⟨rfl, rfl, rfl⟩
  | canceled _ _ reason x mem =>
    exact ledger_updated hd rfl rfl rfl mem (cancelRow_keepsOwner d.clock reason x)
  | retired => exact ledger_deleted hd rfl rfl rfl
  | cleaned _ _ _ cleanup => exact ledger_cleanup hd cleanup rfl rfl rfl
  | _ =>
    exact ledger_change (s := s) hd (Change.kept (.tick 0) _ rfl (le_refl _) rfl fun _ ht => ht)

end Ledgers

/-! ## §2. The reservation. -/

namespace Deployment

/-- The probe that the endpoint's row reserves. -/
def probe (d : Deployment) (endpointId : Nat) : Option Nat :=
  (d.db.endpointStates.find? endpointId).bind EndpointQuotaState.halfOpenProbeDeliveryId

/-- The endpoint's circuit is half open. -/
def HalfOpen (d : Deployment) (endpointId : Nat) : Prop :=
  ∃ e, d.db.endpointStates.find? endpointId = some e ∧ e.circuitState = .halfOpen

instance : Decidable (HalfOpen d endpointId) :=
  inferInstanceAs (Decidable (∃ _, _ = some _ ∧ _))

/-- The endpoint's organization is being deleted, and the endpoint has no
unfinished delivery. -/
def Doomed (d : Deployment) (endpointId : Nat) : Prop :=
  ∃ organizationId, d.tenants.deleting organizationId = true
    ∧ endpointOf d.db organizationId endpointId = true
    ∧ ∀ x ∈ d.db.deliveries.rows, x.endpointId = endpointId → x.status.terminal = true

/-- What holds in every reachable state. -/
structure Reached (s : Settings) (d : Deployment) : Prop where
  orderly : d.tenants.Orderly
  belongs : Belongs d.db
  circuits : ∀ e ∈ d.db.endpointStates.rows, e.Sound s
  probed : d.Probed
  ledger : Ledger d.toWorld

end Deployment

section Steps

variable {d d' : Deployment}

theorem Effect.reached (h : Effect P s d a d') (hd : d.Reached s) : d'.Reached s :=
  ⟨h.orderly hd.orderly, h.belongs hd.belongs, fun _ he => (h.state he).sound hd.circuits,
    h.probed hd.probed, h.ledger hd.ledger⟩

theorem Deployment.Fresh.reached (h : d.Fresh) : d.Reached s := by
  have hledger : Ledger d.toWorld := ledger_unissued h.issued fun x hx => by
    rw [h.deliveries] at hx
    cases hx
  obtain ⟨hcircuits, hprobed⟩ := h.circuits (s := s)
  exact ⟨h.orderly, h.belongs, hcircuits, hprobed, hledger⟩

/-- An endpoint stays the organization's, or loses its state row. -/
theorem Outlives.endpointOf (h : Outlives db db') (ho : endpointOf db organizationId ep = true) :
    endpointOf db' organizationId ep = true ∨ db'.endpointStates.find? ep = none := by
  obtain ⟨w, hw, hwid, p, hp, hpw, horg⟩ := endpointOf_iff.mp ho
  have hgone : Removed db db' organizationId → db'.endpointStates.find? ep = none := by
    intro hremoved
    refine Table.find?_eq_none.mpr fun e he hep => ?_
    have hnot := hremoved.states e he
    rw [hep, ho] at hnot
    exact absurd hnot (by decide)
  rcases h.endpoints w hw with ⟨w', hw', hwid', hwproject⟩ | ⟨q, hq, hqw, hremoved⟩
  · rcases h.projects p hp with ⟨p', hp', hpid, hporg⟩ | hremoved
    · exact Or.inl (endpointOf_iff.mpr ⟨w', hw', hwid'.trans hwid, p', hp',
        hpid.trans (hpw.trans hwproject.symm), hporg.trans horg⟩)
    · exact Or.inr (hgone (horg ▸ hremoved))
  · rw [db.projects.eq_of_key_eq hq hp (hqw.trans hpw.symm), horg] at hremoved
    exact Or.inr (hgone hremoved)

/-- **A doomed endpoint stays doomed.** -/
theorem Effect.doomed (h : Effect P s d a d') (hd : d.Reached s) (hdoomed : d.Doomed ep)
    (hhalf : d'.HalfOpen ep) : d'.Doomed ep := by
  obtain ⟨org, hdeleting, howner, hterminal⟩ := hdoomed
  obtain ⟨e', hfind, -⟩ := hhalf
  have hinactive := hd.orderly.inactive hdeleting
  refine ⟨org, ?_, ?_, fun x' hx' hep => ?_⟩
  · rcases h.deleting_or hdeleting with hstill | ⟨hremoved, -⟩
    · exact hstill
    · -- an organization that goes takes the state row with it
      obtain ⟨hmem, rfl⟩ := Table.find?_eq_some.mp hfind
      rw [hremoved.states e' hmem] at howner
      exact absurd howner (by decide)
  · rcases h.outlives.endpointOf howner with hstill | hgone
    · exact hstill
    · rw [hgone] at hfind
      cases hfind
  · cases h.row hx' with
    | worked x _ mem work => exact work.terminal (hterminal x mem (work.same.endpointId ▸ hep))
    | ingested project w _ _ hproject hw owner active =>
      have hother : endpointOf d.db project.organizationId ep = true :=
        endpointOf_iff.mpr ⟨w, hw, hep, project, hproject, owner.symm, rfl⟩
      rw [endpointOf_unique hother howner, hinactive] at active
      exact absurd active (by decide)
    | replayed _ original _ _ hproject mem _ owner _ active =>
      replace hep : original.endpointId = ep := hep
      have hother := hd.belongs.endpointOf mem
      rw [hep] at hother
      rw [hd.belongs.organization mem hproject owner, endpointOf_unique hother howner,
        hinactive] at active
      exact absurd active (by decide)

/-- A finalization after which the circuit is half open has left it alone. -/
theorem finalizeEndpoint_halfOpen {finished : Time}
    (h : (finalizeEndpoint s finished r deliveryId e).circuitState = .halfOpen) :
    (finalizeEndpoint s finished r deliveryId e).halfOpenProbeDeliveryId
      = e.halfOpenProbeDeliveryId := by
  unfold finalizeEndpoint at h ⊢
  dsimp only at h ⊢
  split at h
  · cases h
  · split at h
    · split at h
      · cases h
      next hsucceeded hretry hstay => rw [if_neg hsucceeded, if_pos hretry, if_neg hstay]
    · split at h
      · cases h
      · split at h
        · cases h
        next hsucceeded hretry hage hclose =>
          rw [if_neg hsucceeded, if_neg hretry, if_neg hage, if_neg hclose]

theorem cancelEndpoint_halfOpen {now : Time}
    (h : (cancelEndpoint now deliveryId e).circuitState = .halfOpen) :
    (cancelEndpoint now deliveryId e).halfOpenProbeDeliveryId = e.halfOpenProbeDeliveryId := by
  unfold cancelEndpoint at h ⊢
  split at h
  · cases h
  next hother => rw [if_neg hother]

theorem EndpointOperation.apply_halfOpen {now : Time} {operation : EndpointOperation}
    (h : (operation.apply s now e).circuitState = .halfOpen) :
    (operation.apply s now e).halfOpenProbeDeliveryId = e.halfOpenProbeDeliveryId := by
  cases operation with
  | pause => rfl
  | resume => rfl
  | recover => exact absurd h (by simp [EndpointOperation.apply])

/-- A purge does not delete a probe: what it deletes is finished, in an
organization that is not being deleted. -/
theorem probe_not_retired (hd : d.Reached s) {maxRecords id : Nat}
    (hproject : project ∈ d.db.projects.rows)
    (hactive : d.tenants.isActive project.organizationId = true) (hprobes : d.Probes ep id) :
    id ∉ retiredIds s d.clock project.id maxRecords d.db := by
  intro hretired
  obtain ⟨x, hx, rfl, -, hopen | hdeleting⟩ := hprobes
  · rw [(mem_retiredIds hx hretired).2] at hopen
    exact absurd hopen (by decide)
  · have howner := (mem_retiredIds hx hretired).1
    rw [hd.belongs.organization hx hproject howner, hd.orderly.inactive hdeleting] at hactive
    exact absurd hactive (by decide)

/-- **The reservation is kept as long as the circuit is half open**, unless
the endpoint is doomed. -/
theorem Effect.probe_kept (h : Effect P s d a d') (hd : d.Reached s) (hhalf : d'.HalfOpen ep)
    {id : Nat} (hprobe : d.probe ep = some id) :
    d'.probe ep = some id ∨ (d'.Doomed ep ∧ d'.issued = d.issued) := by
  obtain ⟨e', hfind', hhalf'⟩ := hhalf
  obtain ⟨he', hep'⟩ := Table.find?_eq_some.mp hfind'
  obtain ⟨e, hfind, hid⟩ := Option.bind_eq_some_iff.mp hprobe
  obtain ⟨he, hep⟩ := Table.find?_eq_some.mp hfind
  have hprobes := hd.probed e he id hid
  have hsame : ∀ x ∈ d.db.endpointStates.rows, x.endpointId = ep → x = e := fun x hx hxep =>
    d.db.endpointStates.eq_of_key_eq hx he (hxep.trans hep.symm)
  suffices hgoal : e'.halfOpenProbeDeliveryId = some id ∨ (d'.Doomed ep ∧ d'.issued = d.issued) by
    refine hgoal.imp_left fun hkept => ?_
    unfold Deployment.probe
    rw [hfind']
    exact hkept
  -- the row that was put, or an old one
  have hput : ∀ {old new : EndpointQuotaState}, old ∈ d.db.endpointStates.rows →
      new.endpointId = old.endpointId →
      (new.circuitState = .halfOpen → new.halfOpenProbeDeliveryId = old.halfOpenProbeDeliveryId) →
      e' ∈ (d.db.endpointStates.put new).rows → e'.halfOpenProbeDeliveryId = some id := by
    intro old new hold hkey hnew hmem
    rcases Table.mem_of_mem_put hmem with rfl | hmem
    · rw [hnew hhalf', hsame old hold (hkey.symm.trans hep')]
      exact hid
    · rw [hsame e' hmem hep']
      exact hid
  have hdeleted : ∀ ids : List Nat, id ∉ ids →
      e' ∈ (deleteDeliveries ids d.db).endpointStates.rows →
      e'.halfOpenProbeDeliveryId = some id := by
    intro ids hout hmem
    obtain ⟨x, hx, rfl⟩ := (Table.mem_mapRows (unprobe_endpointId ids)).mp hmem
    rw [hsame x hx hep']
    exact Option.filter_eq_some_iff.mpr ⟨hid, decide_eq_true hout⟩
  cases h with
  | claimed limit =>
    have hstate := selectFairDeliveries_states s d.clock limit d.db e' he'
    have hread : endpointState s d.db d.clock e'.endpointId = e := by
      rw [hep', ← hep]
      exact endpointState_of_mem he
    refine Or.inl (hstate.held id ?_ ?_)
    · rw [hread]
      exact (hd.circuits e he).probe (by rw [hid]; rfl)
    · rw [hread]
      exact hid
  | finalized _ _ _ old _ _ _ _ state =>
    exact Or.inl (hput (Table.mem_of_find? state) (finalizeEndpoint_probe s _ _ _ old).1
      finalizeEndpoint_halfOpen he')
  | canceled _ _ _ x =>
    rcases mem_cancelWrite he' with ⟨-, he'⟩ | ⟨old, hold, he'⟩
    · rw [hsame e' he' hep']
      exact Or.inl hid
    · exact Or.inl (hput (Table.mem_of_find? hold) (cancelEndpoint_probe _ _ old).1
        cancelEndpoint_halfOpen he')
  | operated _ _ operation old mem =>
    exact Or.inl (hput mem (operation.apply_probe s _ old).1 EndpointOperation.apply_halfOpen he')
  | created =>
    rcases Table.mem_insert he' with rfl | hold
    · exact absurd hhalf' (by simp [endpointQuotaValues])
    · rw [hsame e' hold hep']
      exact Or.inl hid
  | retired _ _ mem active =>
    exact Or.inl (hdeleted _ (probe_not_retired hd mem active hprobes) he')
  | cleaned operation _ due cleanup =>
    cases cleanup with
    | deliveriesDeleted settled =>
      by_cases hout : id ∈ deliveryBatch s operation.organizationId d.db
      · -- the probe itself is deleted, with everything else finished
        obtain ⟨x, hx, rfl, hxep, -⟩ := hprobes
        have horg := organization_of_deleted hx hout
        have howner := hd.belongs.endpointOf hx
        rw [hxep, hep, horg] at howner
        refine Or.inr ⟨⟨operation.organizationId,
          Tenants.start_deleting operation (Tenants.claimOperation_some due).1, howner, ?_⟩,
          rfl⟩
        intro y' hy' hyep
        obtain ⟨y, hy, -, rfl⟩ := mem_deleteDeliveries.mp hy'
        have hyowner := hd.belongs.endpointOf hy
        rw [show y.endpointId = ep from hyep] at hyowner
        exact settled y hy (endpointOf_unique hyowner howner)
      · exact Or.inl (hdeleted _ hout he')
    | removed =>
      rw [hsame e' (Table.mem_delete.mp he').1 hep']
      exact Or.inl hid
    | _ =>
      rw [hsame e' he' hep']
      exact Or.inl hid
  | _ =>
    rw [hsame e' he' hep']
    exact Or.inl hid

/-! ## §3. A half-open period. -/

/-- The claims of the endpoint since the first `n` claims: all of one
delivery, which the endpoint reserves unless it is doomed. -/
structure Deployment.Period (n ep : Nat) (d : Deployment) : Prop where
  single : ∀ c ∈ d.issued.drop n, ∀ c' ∈ d.issued.drop n, c.endpointId = ep →
    c'.endpointId = ep → c.id = c'.id
  reserved : (∀ c ∈ d.issued.drop n, c.endpointId = ep → d.probe ep = some c.id) ∨ d.Doomed ep

theorem period_start (d : Deployment) (ep : Nat) : d.Period d.issued.length ep := by
  have hnone : d.issued.drop d.issued.length = [] := drop_length
  constructor
  · rw [hnone]
    exact fun c hc => absurd hc not_mem_nil
  · rw [hnone]
    exact Or.inl fun c hc => absurd hc not_mem_nil

/-- What is handed out for a half-open endpoint is its probe. -/
theorem Effect.issued_probe (h : Effect P s d a d') (hhalf : d'.HalfOpen ep) :
    ∃ new, d'.issued = d.issued ++ new ∧ ∀ c ∈ new, c.endpointId = ep → d'.probe ep = some c.id
        ∧ ∃ x ∈ d.db.deliveries.rows, x.endpointId = ep ∧ x.status.terminal = false := by
  obtain ⟨new, hissued, hnew⟩ := h.issued
  refine ⟨new, hissued, fun c hc hcep => ?_⟩
  obtain ⟨limit, tokens, -, hdb, x, hx, hclaim⟩ := hnew c hc
  obtain ⟨hselected, -, hmem, hdue⟩ := mem_claimedPicks hx
  obtain ⟨event, envelope, -, -, rfl⟩ := claimedDelivery_spec hclaim
  refine ⟨?_, x.1, hmem, hcep, Delivery.nonterminal_of_due hdue⟩
  obtain ⟨e', hfind, hhalf'⟩ := hhalf
  have he' := Table.mem_of_find? hfind
  rw [hdb] at he'
  have hstate := selectFairDeliveries_states s d.clock limit d.db e' he'
  unfold Deployment.probe
  rw [hfind]
  exact hstate.taken x.1 hselected (hcep.trans (Table.key_of_find? hfind).symm) hhalf'

theorem period_step (h : Effect P s d a d') (hd : d.Reached s) (hn : n ≤ d.issued.length)
    (hhalf : d'.HalfOpen ep) (hp : d.Period n ep) : d'.Period n ep := by
  obtain ⟨new, hissued, hnew⟩ := h.issued_probe hhalf
  have hdrop : d'.issued.drop n = d.issued.drop n ++ new := by
    rw [hissued, drop_append_of_le_length hn]
  -- a doomed endpoint gets no claims
  have hdoomed : d.Doomed ep → d'.Period n ep := by
    intro hdoom
    have hnone : ∀ c ∈ new, c.endpointId ≠ ep := by
      intro c hc hcep
      obtain ⟨-, x, hx, hxep, hopen⟩ := hnew c hc hcep
      obtain ⟨-, -, -, hterminal⟩ := hdoom
      rw [hterminal x hx hxep] at hopen
      exact absurd hopen (by decide)
    refine ⟨?_, Or.inr (h.doomed hd hdoom hhalf)⟩
    rw [hdrop]
    intro c hc c' hc' hcep hcep'
    rcases mem_append.mp hc with hc | hc
    · rcases mem_append.mp hc' with hc' | hc'
      · exact hp.single c hc c' hc' hcep hcep'
      · exact absurd hcep' (hnone c' hc')
    · exact absurd hcep (hnone c hc)
  rcases hp.reserved with hreserved | hdoom
  · by_cases hstill : ∀ c ∈ d'.issued.drop n, c.endpointId = ep → d'.probe ep = some c.id
    · refine ⟨fun c hc c' hc' hcep hcep' => ?_, Or.inl hstill⟩
      exact Option.some.inj ((hstill c hc hcep).symm.trans (hstill c' hc' hcep'))
    · -- the reservation of an old claim is lost, in a step that hands out nothing
      push Not at hstill
      obtain ⟨c, hc, hcep, hlost⟩ := hstill
      rw [hdrop] at hc
      rcases mem_append.mp hc with hc | hc
      · rcases h.probe_kept hd hhalf (hreserved c hc hcep) with hkept | ⟨hdoom, hsame⟩
        · exact absurd hkept hlost
        · refine ⟨?_, Or.inr hdoom⟩
          rw [hsame]
          exact hp.single
      · exact absurd (hnew c hc hcep).1 hlost
  · exact hdoomed hdoom

end Steps

/-! ## §4. Every run. -/

section Runs

variable {d d' : Deployment}

/-- Nothing that is said of a reached state depends on the clock. -/
theorem Deployment.Reached.anytime (hd : d.Reached s) (now : Time) :
    ({ d with clock := now } : Deployment).Reached s :=
  ⟨hd.orderly, hd.belongs, hd.circuits, hd.probed,
    hd.ledger.rowToken, hd.ledger.claimToken, hd.ledger.claimId, hd.ledger.positive,
    hd.ledger.owner, hd.ledger.bound, hd.ledger.increasing⟩

theorem reached_run (hd : d.Reached s) (hrun : run (Deployment.stepAt P s) d xs = some d') :
    d'.Reached s :=
  run_inv (fun _ x _ hd hstep => (Deployment.stepAt_effect hstep).reached (hd.anytime x.1)) hd hrun

/-- The claims of a half-open period are all of one delivery. -/
theorem period_run (hd : d.Reached s)
    (hstays : Along (Deployment.stepAt P s) (fun _ _ t => t.HalfOpen ep) d xs)
    (hrun : run (Deployment.stepAt P s) d xs = some d') : d'.Period d.issued.length ep := by
  have hinv : d'.Reached s ∧ d.issued.length ≤ d'.issued.length ∧ d'.Period d.issued.length ep := by
    refine run_inv_of_along (I := fun t : Deployment => t.Reached s
      ∧ d.issued.length ≤ t.issued.length ∧ t.Period d.issued.length ep) ?_ xs d d'
      ⟨hd, le_refl _, period_start d ep⟩ hstays hrun
    rintro t x t' ⟨hreached, hlength, hperiod⟩ hstep hhalf
    have heffect := Deployment.stepAt_effect hstep
    have hnow := hreached.anytime x.1
    refine ⟨heffect.reached hnow, ?_,
      period_step heffect hnow hlength hhalf ⟨hperiod.single, hperiod.reserved⟩⟩
    obtain ⟨new, hissued, -⟩ := heffect.issued
    rw [hissued, length_append]
    exact hlength.trans (Nat.le_add_right _ _)
  exact hinv.2.2

theorem issued_mono_run (hrun : run (Deployment.stepAt P s) d xs = some d') :
    ∀ c ∈ d.issued, c ∈ d'.issued := by
  refine run_inv (I := fun t : Deployment => ∀ c ∈ d.issued, c ∈ t.issued) ?_ (fun _ hc => hc) hrun
  intro t x t' ht hstep c hc
  obtain ⟨new, hissued, -⟩ := (Deployment.stepAt_effect hstep).issued
  rw [hissued]
  exact mem_append_left _ (ht c hc)

/-- **ONE PROBE PER HALF-OPEN EPISODE.**  From a reachable state `u` on, let
every step leave the endpoint's circuit half open, up to `w`.  The claims of
the endpoint's deliveries that these steps hand out are all of one delivery;
and in `w` and in every later state `z`, at no time do two of them hold a
live lease. -/
theorem one_probe (P : Primitives) (s : Settings) (d u w z : Deployment)
    (ws xs ys : List (Time × Action)) (ep : Nat) (hfresh : d.Fresh)
    (hbefore : run (Deployment.stepAt P s) d ws = some u)
    (hstays : Along (Deployment.stepAt P s) (fun _ _ t => t.HalfOpen ep) u xs)
    (hperiod : run (Deployment.stepAt P s) u xs = some w)
    (hlater : run (Deployment.stepAt P s) w ys = some z) :
    ∀ c ∈ w.issued.drop u.issued.length, ∀ c' ∈ w.issued.drop u.issued.length,
      c.endpointId = ep → c'.endpointId = ep →
      c.id = c'.id
      ∧ ∀ now, ∀ r ∈ z.db.deliveries.rows, ∀ r' ∈ z.db.deliveries.rows, r.id = c.id →
        r'.id = c'.id → c.holds now r = true → c'.holds now r' = true → c = c' := by
  intro c hc c' hc' hep hep'
  have hu : u.Reached s := reached_run hfresh.reached hbefore
  have hw : w.Reached s := reached_run hu hperiod
  have hz : z.Reached s := reached_run hw hlater
  have hid := (period_run hu hstays hperiod).single c hc c' hc' hep hep'
  refine ⟨hid, fun now r hr r' hr' hrc hrc' hholds hholds' => ?_⟩
  have hissued := issued_mono_run hlater
  have hmem := hissued c (mem_of_mem_drop hc)
  have hmem' := hissued c' (mem_of_mem_drop hc')
  -- both are the last attempt of the same row
  have hsame : r = r' :=
    z.db.deliveries.eq_of_key_eq hr hr' (hrc.trans (hid.trans hrc'.symm))
  subst hsame
  have hnumber := hz.ledger.owner c hmem r hr hrc (ClaimedDelivery.owns_of_holds hholds)
  have hnumber' := hz.ledger.owner c' hmem' r hr hrc' (ClaimedDelivery.owns_of_holds hholds')
  exact hz.ledger.claim_inj hmem hmem' hid (hnumber.trans hnumber'.symm)

end Runs

/-- The probe is claimed, handed back, and claimed again. -/
def probeRun : List (Time × Action) :=
  [(61, .op (.claim 1 ["token-2"])), (62, .op (.release (firstClaim "token-2" 2))),
    (63, .op (.claim 1 ["token-3"]))]

/-- Two claims of one half-open period. -/
theorem one_probe_twice :
    ∃ u w, freshRun oneFailure openedRun = some u
      ∧ run (Deployment.stepAt smallPrimitives oneFailure) u probeRun = some w
      ∧ w.issued.drop u.issued.length = [firstClaim "token-2" 2, firstClaim "token-3" 3]
      ∧ ∀ c ∈ w.issued.drop u.issued.length, ∀ c' ∈ w.issued.drop u.issued.length,
        c.endpointId = 1 → c'.endpointId = 1 →
        c.id = c'.id
        ∧ ∀ now, ∀ r ∈ w.db.deliveries.rows, ∀ r' ∈ w.db.deliveries.rows, r.id = c.id →
          r'.id = c'.id → c.holds now r = true → c'.holds now r' = true → c = c' := by
  obtain ⟨u, hu, halong, w, hw, hissued⟩ : ∃ u, freshRun oneFailure openedRun = some u
      ∧ Along (Deployment.stepAt smallPrimitives oneFailure) (fun _ _ t => t.HalfOpen 1) u probeRun
      ∧ ∃ w, run (Deployment.stepAt smallPrimitives oneFailure) u probeRun = some w
        ∧ w.issued.drop u.issued.length = [firstClaim "token-2" 2, firstClaim "token-3" 3] := by
    decide +kernel
  exact ⟨u, w, hu, hw, hissued, one_probe smallPrimitives oneFailure freshDeployment u w w openedRun
    probeRun [] 1 freshDeployment_fresh hu halong hw rfl⟩

end WebhookPlatform
