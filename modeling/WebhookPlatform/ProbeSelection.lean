/-
  WebhookPlatform.ProbeSelection
  **WHEN A HALF-OPEN CIRCUIT GETS ITS PROBE BACK.**

  A half-open endpoint gives nothing but its probe, and the selection loop
  looks only at the HEAD of the endpoint's due queue, ordered by
  `(next_attempt_at, id)`.  So with room everywhere the probe is selected
  EXACTLY WHEN no other due delivery of the endpoint comes before it
  (`probe_selected_iff`).  `release_claim` sets the probe's
  `next_attempt_at` to now, behind everything that was queued earlier, and
  the circuit is wedged: `half_open_wedged`.

    • §1  the head of an endpoint's queue,
    • §2  `Waiting`: nothing but the probe leaves the endpoint,
    • §3  how long an endpoint and a tenant can be passed by: round robin
          lets the others have one turn each,
    • §4  the two directions,
    • §5  every reachable state.
-/
import WebhookPlatform.SelectionContract

namespace WebhookPlatform

open Relational Transition RowNumber List

/-! ## §1. The head of an endpoint's queue. -/

/-- The scan windows hold every due row. -/
structure FitsWindows (s : Settings) (now : Time) (available : Nat) (db : Db) : Prop where
  scan : (dueRows db now).length ≤ s.workerCandidateScanLimit
  tenant : ∀ d ∈ dueRows db now,
    (dueRows db now).countP (fun x => decide (x.organizationId = d.organizationId))
      ≤ perTenantScan s available

instance (s : Settings) (now : Time) (available : Nat) (db : Db) :
    Decidable (FitsWindows s now available db) :=
  decidable_of_iff (_ ∧ _) ⟨fun h => ⟨h.1, h.2⟩, fun h => ⟨h.scan, h.tenant⟩⟩

theorem candidates_of_windows (h : FitsWindows s now available db) :
    (readsOf s now available db).candidates = orderBy (scanKey db now) (dueRows db now) := by
  rw [readsOf_candidates]
  unfold scanned
  have hall : (dueRows db now).filter (fun d =>
      decide (tenantRank (dueRows db now) d ≤ perTenantScan s available)) = dueRows db now := by
    rw [filter_eq_self]
    intro d hd
    have hrank : tenantRank (dueRows db now) d
        ≤ (dueRows db now).countP fun x => decide (x.organizationId = d.organizationId) :=
      rowNumber_le hd
    exact decide_eq_true (hrank.trans (h.tenant d hd))
  rw [hall]
  apply take_of_length_le
  rw [(orderBy_perm _ _).length_eq]
  exact h.scan

/-- No due delivery of the same endpoint comes before `d`. -/
def FirstInLine (db : Db) (now : Time) (d : Delivery) : Prop :=
  ∀ x ∈ dueRows db now, x.organizationId = d.organizationId → x.endpointId = d.endpointId →
    ¬ x.turn < d.turn

instance (db : Db) (now : Time) (d : Delivery) : Decidable (FirstInLine db now d) := by
  unfold FirstInLine
  infer_instance

/-- **The head of the queue** is the delivery that is first in line. -/
theorem queue_head_iff (hd : d ∈ dueRows db now) :
    ((orderBy (scanKey db now) (dueRows db now)).filter
        (inQueue d.organizationId d.endpointId)).head? = some d
      ↔ FirstInLine db now d := by
  rw [head?_filter_orderBy_iff hd (inQueue_iff.mpr ⟨rfl, rfl⟩) (fun x hx h => scanKey_inj hx hd h)]
  constructor
  · intro hleast x hx horg hep
    exact (scanKey_le_iff hx hd horg hep).mp (hleast x hx (inQueue_iff.mpr ⟨horg, hep⟩))
  · intro hfirst x hx hin
    obtain ⟨horg, hep⟩ := inQueue_iff.mp hin
    exact (scanKey_le_iff hx hd horg hep).mpr (hfirst x hx horg hep)

/-! ## §2. Nothing but the probe leaves a half-open endpoint. -/

/-- The endpoint of `d` is half open for `d`, has room, and `d` has not been
selected; `queue` is the endpoint's queue. -/
structure Waiting (s : Settings) (d : Delivery) (queue : List Delivery) (p : Pick) : Prop where
  queue : p.grouped d.organizationId d.endpointId = queue
  others : ∀ org, org ≠ d.organizationId → p.grouped org d.endpointId = []
  unpaused : (p.endpointStates d.endpointId).pausedAt = none
  halfOpen : (p.endpointStates d.endpointId).circuitState = .halfOpen
  probe : (p.endpointStates d.endpointId).halfOpenProbeDeliveryId = some d.id
  room : p.endpointCounts d.endpointId < s.endpointConcurrency
  balance : 1 ≤ p.endpointBalances d.endpointId
  retryBalance : 1 ≤ p.endpointRetryBalances d.endpointId
  unselected : d ∉ p.selected

namespace Waiting

variable {queue : List Delivery}

theorem gate (h : Waiting s d queue p) :
    (p.endpointStates d.endpointId).gate now = some (p.endpointStates d.endpointId) := by
  unfold EndpointQuotaState.gate
  rw [h.unpaused, h.halfOpen]
  rfl

/-- A half-open endpoint admits its probe and nothing else. -/
theorem probeAdmits_iff (h : Waiting s d queue p) (id : Nat) :
    (p.endpointStates d.endpointId).probeAdmits id = true ↔ d.id = id := by
  unfold EndpointQuotaState.probeAdmits
  rw [h.halfOpen, h.probe]
  simp

/-- **One move**: the probe is still waiting, or it was at the head of its
queue and is selected now. -/
theorem move (hgrouped : ∀ org ep, ∀ x ∈ p.grouped org ep, x.endpointId = ep)
    (hids : ∀ x ∈ queue, x.id = d.id → x = d) (h : Waiting s d queue p)
    (hm : Pick.Move s now available p q) :
    Waiting s d queue q ∨ ((∃ rest, queue = d :: rest) ∧ d ∈ q.selected) := by
  cases hm with
  | rotate =>
    exact Or.inl ⟨h.queue, h.others, h.unpaused, h.halfOpen, h.probe, h.room, h.balance,
      h.retryBalance, h.unselected⟩
  | wake ep e hgate =>
    by_cases hep : ep = d.endpointId
    · -- the half-open state wakes up as it was
      subst hep
      rw [h.gate] at hgate
      cases hgate
      have hsame : p.setEndpoint d.endpointId (p.endpointStates d.endpointId) = p := by
        unfold Pick.setEndpoint
        rw [Function.update_eq_self]
      rw [hsame]
      exact Or.inl h
    · have hstate : (p.setEndpoint ep e).endpointStates d.endpointId
          = p.endpointStates d.endpointId := Function.update_of_ne (Ne.symm hep) _ _
      exact Or.inl ⟨h.queue, h.others, by rw [hstate]; exact h.unpaused,
        by rw [hstate]; exact h.halfOpen, by rw [hstate]; exact h.probe, h.room, h.balance,
        h.retryBalance, h.unselected⟩
  | take org ep x rest hqueue _ hprobe =>
    have hx : x ∈ p.grouped org ep := by
      rw [hqueue]
      exact mem_cons_self
    by_cases hep : ep = d.endpointId
    · -- taken from the endpoint itself: then from its own tenant, and it is the probe
      subst hep
      have horg : org = d.organizationId := by
        by_contra hne
        rw [h.others org hne] at hx
        cases hx
      subst horg
      have hxd : x = d := by
        apply hids
        · rw [← h.queue]
          exact hx
        · exact ((h.probeAdmits_iff x.id).mp hprobe).symm
      subst hxd
      refine Or.inr ⟨⟨rest, ?_⟩, mem_append_right _ mem_cons_self⟩
      rw [← h.queue]
      exact hqueue
    -- taken from another endpoint: nothing of the probe's endpoint is touched
    · have hne : d.endpointId ≠ ep := Ne.symm hep
      have hgroup : ∀ org', (p.take now org ep x rest).grouped org' d.endpointId
          = p.grouped org' d.endpointId := by
        intro org'
        rw [Pick.grouped_take, if_neg (fun hc => hne hc.2)]
      have hstate : (p.take now org ep x rest).endpointStates d.endpointId
          = p.endpointStates d.endpointId := Function.update_of_ne hne _ _
      have hretry : (p.take now org ep x rest).endpointRetryBalances d.endpointId
          = p.endpointRetryBalances d.endpointId := by
        show (if 0 < x.attemptCount then _ else _ : Nat → ℚ) d.endpointId = _
        split
        · exact Function.update_of_ne hne _ _
        · rfl
      have hcount : (p.take now org ep x rest).endpointCounts d.endpointId
          = p.endpointCounts d.endpointId := Function.update_of_ne hne _ _
      have hbalance : (p.take now org ep x rest).endpointBalances d.endpointId
          = p.endpointBalances d.endpointId := Function.update_of_ne hne _ _
      refine Or.inl ⟨by rw [hgroup]; exact h.queue, fun o ho => by rw [hgroup]; exact h.others o ho,
        by rw [hstate]; exact h.unpaused, by rw [hstate]; exact h.halfOpen,
        by rw [hstate]; exact h.probe, by rw [hcount]; exact h.room,
        by rw [hbalance]; exact h.balance, by rw [hretry]; exact h.retryBalance, ?_⟩
      intro hmem
      rcases mem_append.mp hmem with hmem | hmem
      · exact h.unselected hmem
      · -- what was taken belongs to another endpoint
        rw [mem_singleton] at hmem
        subst hmem
        exact hne (hgrouped org ep d hx)

/-- **Any number of moves**: the queues stay grouped, and the probe is still
waiting or was selected from the head of its queue. -/
theorem moves (hids : (candidates.map Delivery.id).Nodup) (hd : d ∈ candidates)
    (hgrouped : Pick.Grouped candidates p) (h : Waiting s d queue p)
    (hm : Pick.Moves s now available p q) :
    Pick.Grouped candidates q
      ∧ (Waiting s d queue q ∨ ((∃ rest, queue = d :: rest) ∧ d ∈ q.selected)) := by
  refine hm.inv (I := fun r => Pick.Grouped candidates r
    ∧ (Waiting s d queue r ∨ ((∃ rest, queue = d :: rest) ∧ d ∈ r.selected))) ?_
    ⟨hgrouped, Or.inl h⟩
  intro r r' hr hmove
  refine ⟨Pick.grouped_move hids r r' hr.1 hmove, ?_⟩
  rcases hr.2 with hw | ⟨hhead, hsel⟩
  · refine hw.move (fun org ep x hx => (hr.1.queued org ep x hx).2.2) ?_ hmove
    intro x hx hxd
    rw [← hw.queue] at hx
    exact inj_on_of_nodup_map hids (hr.1.queued _ _ x hx).1 hd hxd
  · exact Or.inr ⟨hhead, hmove.selected_subset d hsel⟩

/-- The endpoint of a waiting probe at the head of its queue is ready. -/
theorem ready (now : Time) (h : Waiting s d (d :: rest) p) :
    p.ready s now d.organizationId d.endpointId = true := by
  apply Pick.ready_iff.mpr
  refine ⟨d, ?_, ?_, ?_⟩
  · rw [h.queue]
    rfl
  · unfold EndpointQuotaState.passes
    rw [h.unpaused, h.halfOpen, h.probe]
    simp
  · unfold Pick.hasRoom
    simp [h.room, h.balance, h.retryBalance]

end Waiting

/-! ## §3. How long an endpoint and a tenant can be passed by. -/

namespace Reads

variable {r : Reads}

/-- **A tenant's ready endpoint that the loop never serves** is passed by at
most once by each of the others. -/
theorem endpoints_nodup (hids : (r.candidates.map Delivery.id).Nodup)
    (hready : (r.choose s now n).ready s now org ep = true)
    (hunserved : ∀ d ∈ (r.choose s now n).selected, d.organizationId = org → d.endpointId ≠ ep) :
    (ep :: (((r.choose s now n).selected.filter fun d =>
      decide (d.organizationId = org)).map Delivery.endpointId)).Nodup := by
  have hlog := log_logged s now n hids
  have hselected : (r.choose s now n).selected = (r.log s now n).map Point.delivery := hlog.selected
  rw [hselected] at hunserved ⊢
  have hpoints : ∀ x ∈ (r.log s now n).filter fun x => decide (x.tenant = org),
      x ∈ r.log s now n ∧ x.tenant = org ∧ x.endpoint ≠ ep := by
    intro x hx
    obtain ⟨hmem, htenant⟩ := mem_filter.mp hx
    rw [decide_eq_true_eq] at htenant
    exact ⟨hmem, htenant, hunserved _ (mem_map_of_mem hmem) htenant⟩
  have hnodup := (hlog.endpoints org).nodup infix_rfl (fun x hx => by
      obtain ⟨hmem, htenant, -⟩ := hpoints x hx
      have hturn := log_turns s now n r x hmem
      apply (log_fair hids org ep x hmem).2 htenant
      rw [hturn.now_eq]
      exact Pick.ready_moves hturn.after hready)
    fun x hx => (hpoints x hx).2.2
  rw [filter_map, map_map]
  apply nodup_cons.mpr
  constructor
  · intro hmem
    obtain ⟨x, hx, hep⟩ := mem_map.mp hmem
    exact (hpoints x hx).2.2 hep
  · exact hnodup

/-- **While a tenant is eligible to the end**, the others are served at most
once between two of its turns. -/
theorem selected_length_le (hids : (r.candidates.map Delivery.id).Nodup)
    (heligible : (r.choose s now n).Eligible s now org) (tenants : List Nat)
    (hdue : ∀ d ∈ r.candidates, d.organizationId ∈ tenants) (horg : org ∈ tenants) :
    (r.choose s now n).selected.length < tenants.length
      * ((r.choose s now n).selected.countP (fun d => decide (d.organizationId = org)) + 1) := by
  have hlog := log_logged s now n hids
  have hselected : (r.choose s now n).selected = (r.log s now n).map Point.delivery := hlog.selected
  have hgaps := Carousel.length_le_of_gaps (p := fun x => decide (x.tenant = org))
    (m := tenants.length - 1) (r.log s now n) (by
      intro seg hseg hothers
      have hne : ∀ x ∈ seg, x.tenant ≠ org := fun x hx => of_decide_eq_false (hothers x hx)
      have hnodup := hlog.tenants.nodup hseg (b := org) (fun x hx => by
        have hmem := hseg.subset hx
        have hturn := log_turns s now n r x hmem
        apply (log_fair hids org 0 x hmem).1
        rw [hturn.now_eq]
        exact Pick.eligible_moves hturn.after heligible) hne
      have hcons : (org :: seg.map Point.tenant).Nodup := by
        apply nodup_cons.mpr ⟨fun hmem => ?_, hnodup⟩
        obtain ⟨x, hx, hsame⟩ := mem_map.mp hmem
        exact hne x hx hsame
      have hsubset : org :: seg.map Point.tenant ⊆ tenants := by
        intro t ht
        rcases mem_cons.mp ht with rfl | ht
        · exact horg
        · obtain ⟨x, hx, rfl⟩ := mem_map.mp ht
          apply hdue
          apply (choose_counted s now n r hids).1.chosen
          rw [hselected]
          exact mem_map_of_mem (hseg.subset hx)
      have hle := (hcons.subperm hsubset).length_le
      rw [length_cons, length_map] at hle
      omega)
  have hpos : 0 < tenants.length := length_pos_of_mem horg
  rw [hselected, length_map, countP_map, Nat.mul_succ, Nat.mul_comm]
  rw [Nat.sub_add_cancel hpos] at hgaps
  show (r.log s now n).length < (r.log s now n).countP (fun x => decide (x.tenant = org)) * _ + _
  omega

end Reads

/-! ## §4. The two directions. -/

/-- **THE PREMISES**: the endpoint is half open for the due delivery `d` and
not paused, its refilled balances allow a delivery, the scan windows hold
every due row, the endpoint has room, its tenant has room for one delivery of
each of its endpoints, and there are slots for every due row or for as many
rounds as the tenant has endpoints. -/
structure ProbeReady (s : Settings) (db : Db) (now : Time) (requested endpointId : Nat)
    (d : Delivery) : Prop where
  row : d ∈ db.deliveries.rows
  due : d.due now = true
  halfOpen : (endpointState s db now endpointId).circuitState = .halfOpen
  probe : (endpointState s db now endpointId).halfOpenProbeDeliveryId = some d.id
  unpaused : (endpointState s db now endpointId).pausedAt = none
  balance : 1 ≤ (refillEndpoint s now (endpointState s db now endpointId)).deliveryTokens
  retryBalance : 1 ≤ (refillEndpoint s now (endpointState s db now endpointId)).retryTokens
  windows : FitsWindows s now (availableSlots s now requested db) db
  endpointRoom : liveOfEndpoint db now endpointId < s.endpointConcurrency
  tenantRoom : liveOfTenant db now d.organizationId
    + (endpointsDue db now d.organizationId).length ≤ s.tenantInFlightDeliveries
  slots : min (dueRows db now).length
      ((tenantsDue db now).length * (endpointsDue db now d.organizationId).length)
    ≤ availableSlots s now requested db

instance (s : Settings) (db : Db) (now : Time) (requested endpointId : Nat) (d : Delivery) :
    Decidable (ProbeReady s db now requested endpointId d) :=
  decidable_of_iff (_ ∧ _ ∧ _ ∧ _ ∧ _ ∧ _ ∧ _ ∧ _ ∧ _ ∧ _ ∧ _)
    ⟨fun ⟨a, b, c, d, e, f, g, h, i, j, k⟩ => ⟨a, b, c, d, e, f, g, h, i, j, k⟩,
      fun ⟨a, b, c, d, e, f, g, h, i, j, k⟩ => ⟨a, b, c, d, e, f, g, h, i, j, k⟩⟩

namespace ProbeReady

theorem isDue (h : ProbeReady s db now requested endpointId d) : d ∈ dueRows db now :=
  mem_dueRows.mpr ⟨h.row, h.due⟩

/-- The probe is a delivery of the endpoint. -/
theorem endpoint (h : ProbeReady s db now requested endpointId d) (howned : Owned db) :
    endpointId = d.endpointId := by
  obtain ⟨e, he, hep, hprobe⟩ := endpointState_probe h.probe
  obtain ⟨x, hx, hxid, hxep⟩ := howned.probe e he d.id hprobe
  have hxd : x = d := db.deliveries.eq_of_key_eq hx h.row hxid
  rw [← hxd, hxep, hep]

theorem candidates (h : ProbeReady s db now requested endpointId d) :
    (readsOf s now (availableSlots s now requested db) db).candidates.Perm (dueRows db now) := by
  rw [candidates_of_windows h.windows]
  exact orderBy_perm _ _

/-- The probe waits when the loop starts. -/
theorem waiting (h : ProbeReady s db now requested endpointId d) (howned : Owned db) : Waiting s d
      ((orderBy (scanKey db now) (dueRows db now)).filter (inQueue d.organizationId d.endpointId))
      ((readsOf s now (availableSlots s now requested db) db).start s now) := by
  have hep := h.endpoint howned
  subst hep
  refine ⟨?_, ?_, h.unpaused, h.halfOpen, h.probe, h.endpointRoom, h.balance, h.retryBalance, ?_⟩
  · rw [← candidates_of_windows h.windows]
    rfl
  · intro org horg
    -- the endpoint's deliveries all belong to the probe's tenant
    show (readsOf s now (availableSlots s now requested db) db).candidates.filter
      (inQueue org d.endpointId) = []
    rw [filter_eq_nil_iff]
    intro x hx hin
    obtain ⟨hxorg, hxep⟩ := inQueue_iff.mp hin
    exact horg (hxorg.symm.trans (howned.tenant_eq (candidates_due hx).1 h.row hxep))
  · exact not_mem_nil

/-- **The probe at the head of its queue is not left out**: the turns that
pass it by are too few to use up the slots. -/
theorem selected_of_head (h : ProbeReady s db now requested endpointId d) (howned : Owned db)
    (hhead : (orderBy (scanKey db now) (dueRows db now)).filter
      (inQueue d.organizationId d.endpointId) = d :: rest) :
    d ∈ ((readsOf s now (availableSlots s now requested db) db).choose s now
      (availableSlots s now requested db)).selected := by
  have hids := readsOf_nodup s now (availableSlots s now requested db) db
  have hwait := h.waiting howned
  have hcandidates := h.candidates
  have hroom := h.tenantRoom
  have hslots := h.slots
  have hlive : (readsOf s now (availableSlots s now requested db) db).tenantCounts
    d.organizationId = liveOfTenant db now d.organizationId := rfl
  rw [hhead] at hwait
  generalize availableSlots s now requested db = n at *
  generalize readsOf s now n db = r at *
  have hmem : d ∈ r.candidates := hcandidates.mem_iff.mpr h.isDue
  by_contra hout
  obtain ⟨-, hw | ⟨-, hsel⟩⟩ := hwait.moves hids hmem (r.start_grouped s now hids)
    (Pick.selectLoop_moves r.organizationOrder n _)
  swap
  · exact hout hsel
  change Waiting s d (d :: rest) (r.choose s now n) at hw
  have hready := hw.ready now
  obtain ⟨hgrouped, hserved, henqueued⟩ := Reads.choose_queues s now n hids
  have hcounted := (r.choose_counted s now n hids).2
  have hchosen : ∀ x ∈ (r.choose s now n).selected, x ∈ dueRows db now := fun x hx =>
    hcandidates.mem_iff.mp (hgrouped.chosen x hx)
  -- the queue is as it was, so nothing of the endpoint was selected
  have hunserved : ∀ x ∈ (r.choose s now n).selected, x.organizationId = d.organizationId →
      x.endpointId ≠ d.endpointId := by
    intro x hx horg hep
    have hfront := hserved d.organizationId d.endpointId
    have hqueue : r.candidates.filter (inQueue d.organizationId d.endpointId) = d :: rest :=
      hwait.queue
    rw [hw.queue, hqueue, append_left_eq_self, filter_eq_nil_iff] at hfront
    exact hfront x hx (inQueue_iff.mpr ⟨horg, hep⟩)
  -- each other endpoint of the tenant was served at most once
  have hends : ((r.choose s now n).selected.countP fun x =>
      decide (x.organizationId = d.organizationId)) + 1
        ≤ (endpointsDue db now d.organizationId).length := by
    have hsub : d.endpointId :: ((r.choose s now n).selected.filter fun x =>
        decide (x.organizationId = d.organizationId)).map Delivery.endpointId
          ⊆ endpointsDue db now d.organizationId := by
      intro ep hep
      rcases mem_cons.mp hep with rfl | hep
      · exact mem_endpointsDue h.isDue
      · obtain ⟨x, hx, rfl⟩ := mem_map.mp hep
        obtain ⟨hx, horg⟩ := mem_filter.mp hx
        rw [← of_decide_eq_true horg]
        exact mem_endpointsDue (hchosen x hx)
    have hle := ((Reads.endpoints_nodup hids hready hunserved).subperm hsub).length_le
    rw [length_cons, length_map, ← countP_eq_length_filter] at hle
    exact hle
  -- so the tenant is below its cap, and eligible
  have heligible : (r.choose s now n).Eligible s now d.organizationId := by
    refine ⟨?_, d.endpointId, henqueued _ _ ?_, hready⟩
    · rw [hcounted.tenant, hlive]
      omega
    · rw [hw.queue]
      exact cons_ne_nil _ _
  -- and a slot is left at the end
  have hshort : (r.choose s now n).selected.length < n := by
    rcases min_le_iff.mp hslots with hall | hproduct
    · have hnodup := hgrouped.nodup 0 0
      rw [map_append] at hnodup
      have hcons : (d :: (r.choose s now n).selected).Nodup :=
        nodup_cons.mpr ⟨hout, List.Nodup.of_map _ hnodup.of_append_left⟩
      have hlt := (hcons.subperm (cons_subset.mpr ⟨h.isDue, hchosen⟩)).length_le
      rw [length_cons] at hlt
      omega
    · have hlt := Reads.selected_length_le hids heligible (tenantsDue db now)
        (fun x hx => mem_tenantsDue (hcandidates.mem_iff.mp hx)) (mem_tenantsDue h.isDue)
      exact hlt.trans_le ((Nat.mul_le_mul_left _ hends).trans hproduct)
  have hloops : Pick.Loops s now n r.organizationOrder (r.start s now) (r.choose s now n) :=
    Pick.selectLoop_loops r.organizationOrder n _ (by omega)
  refine hloops.exit hshort d.organizationId ?_ heligible
  exact rotateAfter_sortedSet_mem.mpr (mem_map_of_mem hmem)

/-- **THE PROBE IS SELECTED EXACTLY WHEN IT IS FIRST IN LINE**, in every
database whose deliveries and probes are owned. -/
theorem selected_iff (h : ProbeReady s db now requested endpointId d) (howned : Owned db) :
    d ∈ (selectFairDeliveries s now requested db).2 ↔ FirstInLine db now d := by
  have hids := readsOf_nodup s now (availableSlots s now requested db) db
  have hmem : d ∈ (readsOf s now (availableSlots s now requested db) db).candidates :=
    h.candidates.mem_iff.mpr h.isDue
  have hslots : availableSlots s now requested db ≠ 0 := by
    have hrows := length_pos_of_mem h.isDue
    have hends := length_pos_of_mem (mem_endpointsDue h.isDue)
    have hrounds := Nat.mul_pos (length_pos_of_mem (mem_tenantsDue h.isDue)) hends
    have hmin := h.slots
    omega
  have hchoose : (selectFairDeliveries s now requested db).2
      = ((readsOf s now (availableSlots s now requested db) db).choose s now
          (availableSlots s now requested db)).selected := by
    have hsame : availableSlots s now requested (ensureGlobalState now db)
        = availableSlots s now requested db := rfl
    unfold selectFairDeliveries
    dsimp only
    rw [hsame, readsOf_ensureGlobalState, if_neg (not_or.mpr ⟨hslots, ne_nil_of_mem hmem⟩)]
  rw [hchoose, ← queue_head_iff h.isDue, List.head?_eq_some_iff]
  constructor
  · intro hsel
    -- the loop can only have taken it from the head of its queue
    obtain ⟨-, hw | ⟨hhead, -⟩⟩ := (h.waiting howned).moves hids hmem
      (Reads.start_grouped s now _ hids) (Pick.selectLoop_moves _ _ _)
    · exact absurd hsel hw.unselected
    · exact hhead
  · intro ⟨rest, hhead⟩
    exact h.selected_of_head howned hhead

end ProbeReady

/-! ## §5. Every reachable state. -/

/-- **A HALF-OPEN CIRCUIT GETS ITS PROBE BACK EXACTLY WHEN THE PROBE IS FIRST
IN LINE.**  In every state that any sequence of transactions and ticks of the
clock reaches, under the premises `ProbeReady`. -/
theorem probe_selected_iff (P : Primitives) (s : Settings) (w w' : World) (ops : List Op)
    (hstart : Owned w.db) (hrun : run (World.step P s) w ops = some w')
    (requested endpointId : Nat) (d : Delivery)
    (hready : ProbeReady s w'.db w'.clock requested endpointId d) :
    d ∈ (selectFairDeliveries s w'.clock requested w'.db).2
      ↔ FirstInLine w'.db w'.clock d :=
  hready.selected_iff (run_inv (I := fun w : World => Owned w.db)
    (fun _ _ _ hw hstep => owned_step hw hstep) hstart hrun)

/-- The small deployment is owned. -/
theorem owned_small : Owned smallDb := by
  constructor
  · decide
  · decide

/-- The small delivery as the probe of its endpoint, claimed at time 60. -/
def smallProbe : Delivery := claimRow oneFailure 60 "token-2"
  (finalizeRow oneFailure 0 (smallClaim "token-1" 1) unavailable
    (claimRow oneFailure 0 "token-1" smallDelivery))

/-- A probe whose worker has crashed is selected again when its lease is over. -/
theorem probe_selected_iff_crashed :
    ∃ w', smallRun oneFailure
        [.claim 1 ["token-1"], .finalize (smallClaim "token-1" 1) unavailable, .tick 60,
          .claim 1 ["token-2"], .tick 120] = some w'
      ∧ ProbeReady oneFailure w'.db w'.clock 10 1 smallProbe
      ∧ smallProbe ∈ (selectFairDeliveries oneFailure w'.clock 10 w'.db).2 := by
  obtain ⟨w', hrun, hready, hfirst⟩ : ∃ w', smallRun oneFailure
        [.claim 1 ["token-1"], .finalize (smallClaim "token-1" 1) unavailable, .tick 60,
          .claim 1 ["token-2"], .tick 120] = some w'
      ∧ ProbeReady oneFailure w'.db w'.clock 10 1 smallProbe
      ∧ FirstInLine w'.db w'.clock smallProbe := by
    decide +kernel
  exact ⟨w', hrun, hready, (probe_selected_iff smallPrimitives oneFailure smallWorld w' _
    owned_small hrun 10 1 smallProbe hready).mpr hfirst⟩

/-- **THE CIRCUIT WEDGES.**  The delivery and a replay of it are queued; the
delivery fails and opens the circuit, is claimed again as the probe, and its
worker hands it back.  Released, it stands behind the replay, which the
half-open circuit refuses: nothing is selected. -/
theorem half_open_wedged :
    ∃ w', smallRun oneFailure
        [.replay 1 "delivery-1" ⟨fun _ => "delivery-2", "operation-1", "key-2"⟩,
          .claim 1 ["token-1"], .finalize (smallClaim "token-1" 1) unavailable, .tick 60,
          .claim 1 ["token-2"], .release (smallClaim "token-2" 2)] = some w'
      ∧ ProbeReady oneFailure w'.db w'.clock 10 1 (releaseRow 60 smallProbe)
      ∧ (selectFairDeliveries oneFailure w'.clock 10 w'.db).2 = [] := by
  decide +kernel

end WebhookPlatform
