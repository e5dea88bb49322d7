/-
  WebhookPlatform.CandidateWindow
  **WHEN THE SELECTION IS EMPTY ALTHOUGH SOMEBODY COULD BE SERVED.**

  `fair_candidate_ids` cuts the due rows of a tenant off at
  `per_tenant_scan` BEFORE anybody has looked at a pause, a circuit or a
  balance.  What the loop sees is therefore the window, not the queue:

    • `selectAround`     — the selection while other transactions hold row
      locks (`SKIP LOCKED` leaves those rows out of the window),
    • `FrontRunner`      — a due, unlocked row inside its tenant's window, at
      the head of its endpoint's queue, which the endpoint lets through,
    • `selection_nonempty_iff` — something is selected exactly when there is
      a front runner.

  A window full of rows of blocked endpoints has none, and hides the healthy
  endpoint behind it (`healthy_endpoint_starved`).

  What the two row numbers and the two limits do let through is
  `WindowCoverage`: prefixes of the queues, the first row of each endpoint of
  a tenant that is not cut off, and a row of every tenant.
-/
import WebhookPlatform.Eligibility
import WebhookPlatform.ScanOrder

namespace WebhookPlatform

open Relational RowNumber List

/-! ## §1. The selection next to other transactions. -/

/-- Everything the selection reads while others hold the row locks of the
deliveries `locked`: the locking select skips them. -/
def readsAround (s : Settings) (now : Time) (available : Nat) (locked : List Nat) (db : Db) :
    Reads :=
  { readsOf s now available db with
    candidates := (readsOf s now available db).candidates.filter fun d =>
      decide (d.id ∉ locked) }

/-- `select_fair_deliveries`, while others hold the row locks of the
deliveries `locked`. -/
def selectAround (s : Settings) (now : Time) (requested : Nat) (locked : List Nat) (db : Db) :
    Db × List Delivery :=
  let db := ensureGlobalState now db
  let available := availableSlots s now requested db
  let r := readsAround s now available locked db
  if available = 0 ∨ r.candidates = [] then (db, [])
  else (r.store s now (r.choose s now available) db, (r.choose s now available).selected)

/-- With no lock held it is the atomic selection. -/
theorem selectAround_nil (s : Settings) (now : Time) (requested : Nat) (db : Db) :
    selectAround s now requested [] db = selectFairDeliveries s now requested db := by
  have hreads : ∀ available db, readsAround s now available [] db = readsOf s now available db := by
    intro available db
    unfold readsAround
    simp
  unfold selectAround selectFairDeliveries
  simp only [hreads]

/-- With slots the selection is the loop's choice; without candidates the
loop would choose nothing either. -/
theorem selectAround_selected {now : Time} (hslots : availableSlots s now requested db ≠ 0) :
    (selectAround s now requested locked db).2
      = ((readsAround s now (availableSlots s now requested db) locked db).choose s now
          (availableSlots s now requested db)).selected := by
  have hsame : availableSlots s now requested (ensureGlobalState now db)
      = availableSlots s now requested db := rfl
  have hreads : readsAround s now (availableSlots s now requested db) locked
      (ensureGlobalState now db)
        = readsAround s now (availableSlots s now requested db) locked db := by
    unfold readsAround
    rw [readsOf_ensureGlobalState]
  unfold selectAround
  dsimp only
  rw [hsame, hreads]
  split
  next hnone =>
    obtain hslots' | hnil := hnone
    · exact absurd hslots' hslots
    · -- no tenant is in the rotation, so the first round ends the loop
      obtain ⟨n, hn⟩ := Nat.exists_eq_succ_of_ne_zero hslots
      have horder : (readsAround s now (availableSlots s now requested db) locked
          db).organizationOrder = [] := by
        unfold Reads.organizationOrder Reads.organizationIds
        rw [hnil]
        cases (readsAround s now (availableSlots s now requested db) locked
          db).globalState.tenantCursorOrganizationId <;> rfl
      unfold Reads.choose
      rw [horder, hn]
      rfl
  · rfl

/-! ## §2. What the window shows. -/

variable {requested : Nat}

/-- **A FRONT RUNNER**: a due, unlocked delivery whose `tenant_rank` is
within `per_tenant_scan`, the first unlocked one of its endpoint; its tenant
and its endpoint have room, the pause and the circuit let it through, and
the refilled balances pay for it. -/
structure FrontRunner (s : Settings) (now : Time) (requested : Nat) (locked : List Nat) (db : Db)
    (d : Delivery) : Prop where
  row : d ∈ db.deliveries.rows
  due : d.due now = true
  unlocked : d.id ∉ locked
  window : tenantRank (dueRows db now) d ≤ perTenantScan s (availableSlots s now requested db)
  first : ∀ x ∈ dueRows db now, x.id ∉ locked → x.organizationId = d.organizationId →
    x.endpointId = d.endpointId → ¬ x.turn < d.turn
  tenantRoom : liveOfTenant db now d.organizationId < s.tenantInFlightDeliveries
  endpointRoom : liveOfEndpoint db now d.endpointId < s.endpointConcurrency
  passes : (endpointState s db now d.endpointId).passes now d.id = true
  balance : 1 ≤ (refillEndpoint s now (endpointState s db now d.endpointId)).deliveryTokens
  retryBalance : d.attemptCount = 0
    ∨ 1 ≤ (refillEndpoint s now (endpointState s db now d.endpointId)).retryTokens

instance (s : Settings) (now : Time) (requested : Nat) (locked : List Nat) (db : Db)
    (d : Delivery) : Decidable (FrontRunner s now requested locked db d) :=
  decidable_of_iff (_ ∧ _ ∧ _ ∧ _ ∧ _ ∧ _ ∧ _ ∧ _ ∧ _ ∧ _)
    ⟨fun ⟨a, b, c, d, e, f, g, h, i, j⟩ => ⟨a, b, c, d, e, f, g, h, i, j⟩,
      fun ⟨a, b, c, d, e, f, g, h, i, j⟩ => ⟨a, b, c, d, e, f, g, h, i, j⟩⟩

/-- The due rows that the windows of their tenants hold. -/
def windowRows (s : Settings) (now : Time) (available : Nat) (db : Db) : List Delivery :=
  (dueRows db now).filter fun d =>
    decide (tenantRank (dueRows db now) d ≤ perTenantScan s available)

theorem mem_windowRows : d ∈ windowRows s now available db
      ↔ d ∈ dueRows db now ∧ tenantRank (dueRows db now) d ≤ perTenantScan s available := by
  unfold windowRows
  rw [mem_filter, decide_eq_true_eq]

/-- Where the scan limit cuts nothing off, the candidates are the unlocked
rows of the windows. -/
theorem candidates_around (hscan : (dueRows db now).length ≤ s.workerCandidateScanLimit) :
    (readsAround s now available locked db).candidates
      = (orderBy (scanKey db now) (windowRows s now available db)).filter fun d =>
          decide (d.id ∉ locked) := by
  show (readsOf s now available db).candidates.filter _ = _
  rw [readsOf_candidates]
  have hall : scanned db now s.workerCandidateScanLimit (perTenantScan s available)
      = orderBy (scanKey db now) (windowRows s now available db) := by
    apply take_of_length_le
    rw [(orderBy_perm _ _).length_eq]
    exact filter_sublist.length_le.trans hscan
  rw [hall]

theorem mem_candidates_around (hscan : (dueRows db now).length ≤ s.workerCandidateScanLimit) :
    d ∈ (readsAround s now available locked db).candidates
      ↔ d ∈ windowRows s now available db ∧ d.id ∉ locked := by
  rw [candidates_around hscan, mem_filter, (orderBy_perm _ _).mem_iff, decide_eq_true_eq]

/-- The head of an endpoint's queue is the first unlocked due row of the
endpoint, if the window reaches it. -/
theorem queue_around_head_iff (hscan : (dueRows db now).length ≤ s.workerCandidateScanLimit)
    (hd : d ∈ windowRows s now available db) (hunlocked : d.id ∉ locked) :
    ((readsAround s now available locked db).candidates.filter
        (inQueue d.organizationId d.endpointId)).head? = some d
      ↔ ∀ x ∈ dueRows db now, x.id ∉ locked → x.organizationId = d.organizationId →
          x.endpointId = d.endpointId → ¬ x.turn < d.turn := by
  obtain ⟨hdue, hwindow⟩ := mem_windowRows.mp hd
  rw [candidates_around hscan, filter_filter, head?_filter_orderBy_iff hd
    (by rw [inQueue_iff.mpr ⟨rfl, rfl⟩, decide_eq_true hunlocked]; rfl)
    (fun x hx h => scanKey_inj (mem_windowRows.mp hx).1 hdue h)]
  constructor
  · intro hleast x hx hfree horg hep hlt
    -- a row before `d` in its queue is in the window as well
    have hrank : tenantRank (dueRows db now) x < tenantRank (dueRows db now) d := by
      refine rowNumber_lt hx horg (Prod.Lex.toLex_lt_toLex.mpr (Or.inl ?_))
      exact rowNumber_lt hx (Prod.ext horg hep) hlt
    have hle := hleast x (mem_windowRows.mpr ⟨hx, hrank.le.trans hwindow⟩)
      (by rw [inQueue_iff.mpr ⟨horg, hep⟩, decide_eq_true hfree]; rfl)
    exact (scanKey_le_iff hx hdue horg hep).mp hle hlt
  · intro hfirst x hx hx'
    rw [Bool.and_eq_true, decide_eq_true_eq] at hx'
    obtain ⟨horg, hep⟩ := inQueue_iff.mp hx'.1
    have hxdue := (mem_windowRows.mp hx).1
    exact (scanKey_le_iff hxdue hdue horg hep).mpr (hfirst x hxdue hx'.2 horg hep)

/-! ## §3. Who is eligible when the loop starts. -/

theorem rotateAfter_sortedSet_mem : v ∈ rotateAfter (sortedSet values) cursor ↔ v ∈ values := by
  rw [(rotateAfter_sortedSet (List.Perm.refl values) cursor).mem_iff, mem_dedup]

/-- **A tenant is eligible when the loop starts exactly when it has a front
runner.** -/
theorem eligible_start_iff (hscan : (dueRows db now).length ≤ s.workerCandidateScanLimit)
    (org : Nat) :
    ((readsAround s now (availableSlots s now requested db) locked db).start s now).Eligible s now
        org
      ↔ ∃ d, d.organizationId = org ∧ FrontRunner s now requested locked db d := by
  constructor
  · rintro ⟨htenant, ep, -, hready⟩
    obtain ⟨d, hhead, hpasses, hroom⟩ := Pick.ready_iff.mp hready
    have hmem : d ∈ (readsAround s now (availableSlots s now requested db) locked
        db).candidates.filter (inQueue org ep) := mem_of_head? hhead
    obtain ⟨hcandidate, hin⟩ := mem_filter.mp hmem
    obtain ⟨rfl, rfl⟩ := inQueue_iff.mp hin
    obtain ⟨hwindow, hunlocked⟩ := (mem_candidates_around hscan).mp hcandidate
    obtain ⟨hdue, hrank⟩ := mem_windowRows.mp hwindow
    unfold Pick.hasRoom at hroom
    simp only [Bool.and_eq_true, Bool.or_eq_true, decide_eq_true_eq] at hroom
    exact ⟨d, rfl,
      { row := (mem_dueRows.mp hdue).1
        due := (mem_dueRows.mp hdue).2
        unlocked := hunlocked
        window := hrank
        first := (queue_around_head_iff hscan hwindow hunlocked).mp hhead
        tenantRoom := htenant
        endpointRoom := hroom.1.1
        passes := hpasses
        balance := hroom.1.2
        retryBalance := hroom.2 }⟩
  · rintro ⟨d, rfl, h⟩
    have hwindow : d ∈ windowRows s now (availableSlots s now requested db) db :=
      mem_windowRows.mpr ⟨mem_dueRows.mpr ⟨h.row, h.due⟩, h.window⟩
    have hcandidate : d ∈ (readsAround s now (availableSlots s now requested db) locked
        db).candidates := (mem_candidates_around hscan).mpr ⟨hwindow, h.unlocked⟩
    refine ⟨h.tenantRoom, d.endpointId, ?_, Pick.ready_iff.mpr ⟨d, ?_, h.passes, ?_⟩⟩
    · refine rotateAfter_sortedSet_mem.mpr (mem_map_of_mem ?_)
      exact mem_filter.mpr ⟨hcandidate, decide_eq_true rfl⟩
    · exact (queue_around_head_iff hscan hwindow h.unlocked).mpr h.first
    · unfold Pick.hasRoom
      simp only [Bool.and_eq_true, Bool.or_eq_true, decide_eq_true_eq]
      exact ⟨⟨h.endpointRoom, h.balance⟩, h.retryBalance⟩

/-- **SOMETHING IS SELECTED EXACTLY WHEN THERE IS A FRONT RUNNER**, in every
database, whatever rows others have locked, as long as there is a slot and
the scan limit holds every due row. -/
theorem selected_iff_frontRunner (hslots : availableSlots s now requested db ≠ 0)
    (hscan : (dueRows db now).length ≤ s.workerCandidateScanLimit) :
    (selectAround s now requested locked db).2 ≠ []
      ↔ ∃ d, FrontRunner s now requested locked db d := by
  obtain ⟨n, hn⟩ := Nat.exists_eq_succ_of_ne_zero hslots
  have hloop := Pick.selectLoop_selected_iff (s := s) now n
    (readsAround s now (availableSlots s now requested db) locked db).organizationOrder
    (p := (readsAround s now (availableSlots s now requested db) locked db).start s now)
    rfl (Nat.pos_of_ne_zero hslots) ?_
  · rw [selectAround_selected hslots]
    unfold Reads.choose
    rw [← Nat.succ_eq_add_one, ← hn] at hloop
    rw [hloop]
    constructor
    · rintro ⟨org, helig⟩
      obtain ⟨d, -, hd⟩ := (eligible_start_iff hscan org).mp helig
      exact ⟨d, hd⟩
    · rintro ⟨d, hd⟩
      exact ⟨d.organizationId, (eligible_start_iff hscan d.organizationId).mpr ⟨d, rfl, hd⟩⟩
  · -- a tenant with an endpoint in its deque has a candidate
    intro org hends
    obtain ⟨ep, hep⟩ := exists_mem_of_ne_nil _ hends
    obtain ⟨d, hd, -⟩ := mem_map.mp (rotateAfter_sortedSet_mem.mp hep)
    obtain ⟨hcandidate, horg⟩ := mem_filter.mp hd
    rw [decide_eq_true_eq] at horg
    exact rotateAfter_sortedSet_mem.mpr (mem_map.mpr ⟨d, hcandidate, horg⟩)

/-! ## §4. A healthy endpoint. -/

/-- **THE PREMISES**: a delivery is asked for, a slot is free, the scan limit
holds every due row, and the endpoint of the due, unlocked delivery `d` is
unpaused and closed, has room, belongs to a tenant with room, and can pay
for a delivery and for a retry. -/
structure HealthyWaiting (s : Settings) (now : Time) (requested : Nat) (locked : List Nat)
    (db : Db) (endpointId : Nat) (d : Delivery) : Prop where
  requested : 1 ≤ requested
  slots : liveTotal db now < s.workerGlobalConcurrency
  scan : (dueRows db now).length ≤ s.workerCandidateScanLimit
  row : d ∈ db.deliveries.rows
  due : d.due now = true
  unlocked : d.id ∉ locked
  endpoint : d.endpointId = endpointId
  unpaused : (endpointState s db now endpointId).pausedAt = none
  closed : (endpointState s db now endpointId).circuitState = .closed
  endpointRoom : liveOfEndpoint db now endpointId < s.endpointConcurrency
  tenantRoom : liveOfTenant db now d.organizationId < s.tenantInFlightDeliveries
  balance : 1 ≤ (refillEndpoint s now (endpointState s db now endpointId)).deliveryTokens
  retryBalance : 1 ≤ (refillEndpoint s now (endpointState s db now endpointId)).retryTokens

instance (s : Settings) (now : Time) (requested : Nat) (locked : List Nat) (db : Db)
    (endpointId : Nat) (d : Delivery) :
    Decidable (HealthyWaiting s now requested locked db endpointId d) :=
  decidable_of_iff (_ ∧ _ ∧ _ ∧ _ ∧ _ ∧ _ ∧ _ ∧ _ ∧ _ ∧ _ ∧ _ ∧ _ ∧ _)
    ⟨fun ⟨a, b, c, d, e, f, g, h, i, j, k, l, m⟩ => ⟨a, b, c, d, e, f, g, h, i, j, k, l, m⟩,
      fun ⟨a, b, c, d, e, f, g, h, i, j, k, l, m⟩ => ⟨a, b, c, d, e, f, g, h, i, j, k, l, m⟩⟩

theorem HealthyWaiting.slots_ne (h : HealthyWaiting s now requested locked db endpointId d) :
    availableSlots s now requested db ≠ 0 := by
  have hrequested := h.requested
  have hslots := h.slots
  unfold availableSlots
  omega

/-- **A HEALTHY ENDPOINT IS NOT STARVED EXACTLY WHEN THE WINDOWS SHOW A FRONT
RUNNER.** -/
theorem selection_nonempty_iff (s : Settings) (now : Time) (requested : Nat) (locked : List Nat)
    (db : Db) (endpointId : Nat) (d : Delivery)
    (h : HealthyWaiting s now requested locked db endpointId d) :
    (selectAround s now requested locked db).2 ≠ []
      ↔ ∃ x, FrontRunner s now requested locked db x :=
  selected_iff_frontRunner h.slots_ne h.scan

/-- The endpoint `i` of a tenant with many. -/
def crowdEndpoint (i : Nat) : WebhookEndpoint :=
  { smallEndpoint with id := i, publicId := "endpoint-" ++ toString i }

/-- Its delivery, queued at time zero. -/
def crowdDelivery (i : Nat) : Delivery :=
  newDelivery 1 1 ("delivery-" ++ toString i) (crowdEndpoint i) 0 i

/-- Its state row, paused at time zero. -/
def pausedState (i : Nat) : EndpointQuotaState :=
  { endpointQuotaValues i Settings.defaults 0 with pausedAt := some 0 }

/-- One delivery for each of the tenant's eleven endpoints; the first ten
endpoints are paused. -/
def crowdDb : Db where
  projects := smallDb.projects
  endpoints := ⟨[1, 2, 3, 4, 5, 6, 7, 8, 9, 10, 11].map crowdEndpoint, by decide⟩
  endpointStates := ⟨[1, 2, 3, 4, 5, 6, 7, 8, 9, 10].map pausedState, by decide⟩
  events := smallDb.events
  deliveries :=
    { rows := [1, 2, 3, 4, 5, 6, 7, 8, 9, 10, 11].map crowdDelivery
      nodup := by decide
      next := 12
      lt_next := by decide }

/-- Asked for six deliveries the window holds twelve rows, and the healthy
endpoint is served although a paused one's row is locked. -/
theorem selection_nonempty_iff_crowd :
    HealthyWaiting Settings.defaults 0 6 [3] crowdDb 11 (crowdDelivery 11)
      ∧ (selectAround Settings.defaults 0 6 [3] crowdDb).2 ≠ [] := by
  have hready : HealthyWaiting Settings.defaults 0 6 [3] crowdDb 11 (crowdDelivery 11) := by
    decide +kernel
  have hfront : FrontRunner Settings.defaults 0 6 [3] crowdDb (crowdDelivery 11) := by
    decide +kernel
  exact ⟨hready, (selection_nonempty_iff Settings.defaults 0 6 [3] crowdDb 11 (crowdDelivery 11)
    hready).mpr ⟨_, hfront⟩⟩

/-- **A HEALTHY ENDPOINT STARVES.**  Asked for one delivery the window holds
ten rows; they all belong to paused endpoints, and nothing is selected. -/
theorem healthy_endpoint_starved :
    HealthyWaiting Settings.defaults 0 1 [] crowdDb 11 (crowdDelivery 11)
      ∧ (selectFairDeliveries Settings.defaults 0 1 crowdDb).2 = [] := by
  constructor
  · decide +kernel
  · decide +kernel

/-! ## §5. What the scan covers. -/

/-- The endpoint's due rows in the order of `(next_attempt_at, id)`. -/
def endpointQueue (db : Db) (now : Time) (endpointId : Nat) : List Delivery :=
  orderBy Delivery.turn ((dueRows db now).filter fun d => decide (d.endpointId = endpointId))

/-- The global limit cuts off a row that the tenant's own window holds. -/
def Truncated (db : Db) (now : Time) (scanLimit perTenantLimit organizationId : Nat) : Prop :=
  ∃ d ∈ dueRows db now, d.organizationId = organizationId
    ∧ tenantRank (dueRows db now) d ≤ perTenantLimit
    ∧ d.id ∉ fairCandidateIds db now scanLimit perTenantLimit

/-- **THE COVERAGE OF THE CANDIDATE WINDOW**, over the returned ids. -/
structure WindowCoverage (db : Db) (now : Time) (scanLimit perTenantLimit : Nat)
    (ids : List Nat) : Prop where
  distinct : ids.Nodup
  due : ∀ id ∈ ids, ∃ d ∈ db.deliveries.rows, d.id = id ∧ d.due now = true
  total : ids.length ≤ scanLimit
  tenant : ∀ organizationId, (ids.filter fun id => (db.deliveries.find? id).any fun d =>
    decide (d.organizationId = organizationId)).length ≤ perTenantLimit
  queue : ∀ endpointId, (ids.filter fun id => (db.deliveries.find? id).any fun d =>
    decide (d.endpointId = endpointId)) <+: (endpointQueue db now endpointId).map Delivery.id
  endpoints : ∀ organizationId, (endpointsDue db now organizationId).length ≤ perTenantLimit →
    ¬ Truncated db now scanLimit perTenantLimit organizationId →
    ∀ endpointId ∈ endpointsDue db now organizationId,
      ∃ d, (endpointQueue db now endpointId).head? = some d ∧ d.id ∈ ids
  tenants : (tenantsDue db now).length ≤ scanLimit → ∀ organizationId ∈ tenantsDue db now,
    ∃ d ∈ db.deliveries.rows, d.organizationId = organizationId ∧ d.id ∈ ids

section Coverage

variable {db : Db}

theorem dueRows_nodup (db : Db) (now : Time) : (dueRows db now).Nodup :=
  (db.deliveries.nodup.of_map _).filter _

/-- The returned ids with a property of their rows are the ids of the scanned
rows with the property. -/
theorem candidateIds_filter (p : Delivery → Bool) :
    ((fairCandidateIds db now scanLimit perTenantLimit).filter fun id =>
        (db.deliveries.find? id).any p)
      = ((scanned db now scanLimit perTenantLimit).filter p).map Delivery.id := by
  rw [fairCandidateIds_eq, filter_map]
  refine congrArg (List.map Delivery.id) (filter_congr fun d hd => ?_)
  have hrow : db.deliveries.find? d.id = some d :=
    Table.find?_key (mem_dueRows.mp (scanned_subset hd)).1
  simp only [Function.comp_apply, hrow, Option.any_some]

/-- What the window holds and the limit does not cut off is scanned; what is
cut off has `scanLimit` rows in front of it. -/
theorem scanned_or_full (scanLimit : Nat) (hd : d ∈ dueRows db now)
    (hrank : tenantRank (dueRows db now) d ≤ perTenantLimit) :
    d ∈ scanned db now scanLimit perTenantLimit
      ∨ (scanned db now scanLimit perTenantLimit).length = scanLimit
        ∧ ∀ x ∈ scanned db now scanLimit perTenantLimit, scanKey db now x ≤ scanKey db now d := by
  by_cases hin : d ∈ scanned db now scanLimit perTenantLimit
  · exact Or.inl hin
  · exact Or.inr (take_orderBy_of_not_mem (mem_filter.mpr ⟨hd, decide_eq_true hrank⟩) hin)

theorem rank_of_scanned (h : d ∈ scanned db now scanLimit perTenantLimit) :
    tenantRank (dueRows db now) d ≤ perTenantLimit := by
  have hsorted := (orderBy_perm _ _).mem_iff.mp (mem_of_mem_take h)
  exact of_decide_eq_true (mem_filter.mp hsorted).2

theorem mem_endpointQueue :
    d ∈ endpointQueue db now endpointId ↔ d ∈ dueRows db now ∧ d.endpointId = endpointId := by
  unfold endpointQueue
  rw [(orderBy_perm _ _).mem_iff, mem_filter, decide_eq_true_eq]

theorem endpointQueue_sorted (db : Db) (now : Time) (endpointId : Nat) :
    ((endpointQueue db now endpointId).map Delivery.turn).Pairwise (· < ·) := by
  rw [pairwise_map]
  have hdistinct : (endpointQueue db now endpointId).Nodup :=
    (orderBy_perm _ _).nodup_iff.mpr ((dueRows_nodup db now).filter _)
  refine ((orderBy_pairwise _ _).and hdistinct).imp_of_mem ?_
  intro x y hx hy h
  refine lt_of_le_of_ne h.1 fun heq => h.2 ?_
  exact turn_inj (mem_endpointQueue.mp hx).1 (mem_endpointQueue.mp hy).1 heq

section Queue

variable (hone : ∀ x ∈ db.deliveries.rows, ∀ y ∈ db.deliveries.rows,
  x.endpointId = y.endpointId → x.organizationId = y.organizationId)

include hone

/-- The scan gives the rows of one endpoint in the order of their turns. -/
theorem scanned_sorted (endpointId : Nat) :
    (((scanned db now scanLimit perTenantLimit).filter fun d =>
      decide (d.endpointId = endpointId)).map Delivery.turn).Pairwise (· < ·) := by
  rw [pairwise_map]
  have hkeys : (scanned db now scanLimit perTenantLimit).Pairwise fun x y =>
      scanKey db now x ≤ scanKey db now y :=
    (orderBy_pairwise _ _).sublist (take_sublist _ _)
  have hdistinct : (scanned db now scanLimit perTenantLimit).Pairwise fun x y => x.id ≠ y.id :=
    pairwise_map.mp (scanned_nodup db now scanLimit perTenantLimit)
  refine ((hkeys.and hdistinct).filter _).imp_of_mem ?_
  intro x y hx hy h
  rw [mem_filter, decide_eq_true_eq] at hx hy
  have hxdue := scanned_subset hx.1
  have hydue := scanned_subset hy.1
  have hep := hy.2.trans hx.2.symm
  have horg := hone y (mem_dueRows.mp hydue).1 x (mem_dueRows.mp hxdue).1 hep
  refine lt_of_le_of_ne (not_lt.mp ((scanKey_le_iff hydue hxdue horg hep).mp h.1)) fun heq => ?_
  exact h.2 (congrArg Delivery.id (turn_inj hxdue hydue heq))

/-- **The rows of one endpoint are a prefix of its queue.** -/
theorem scanned_front (now : Time) (scanLimit perTenantLimit endpointId : Nat) :
    ((scanned db now scanLimit perTenantLimit).filter fun d =>
        decide (d.endpointId = endpointId)).map Delivery.turn
      <+: (endpointQueue db now endpointId).map Delivery.turn := by
  refine prefix_of_sorted (endpointQueue_sorted db now endpointId)
    (scanned_sorted hone endpointId) ?_ ?_
  · intro t ht
    obtain ⟨d, hd, rfl⟩ := mem_map.mp ht
    rw [mem_filter, decide_eq_true_eq] at hd
    exact mem_map_of_mem (mem_endpointQueue.mpr ⟨scanned_subset hd.1, hd.2⟩)
  · intro s hs t ht hlt
    obtain ⟨x, hx, rfl⟩ := mem_map.mp hs
    obtain ⟨d, hd, rfl⟩ := mem_map.mp ht
    obtain ⟨hxdue, hxep⟩ := mem_endpointQueue.mp hx
    rw [mem_filter, decide_eq_true_eq] at hd
    have hep := hxep.trans hd.2.symm
    have horg := hone x (mem_dueRows.mp hxdue).1 d (mem_dueRows.mp (scanned_subset hd.1)).1 hep
    refine mem_map_of_mem (mem_filter.mpr ⟨?_, decide_eq_true hxep⟩)
    have hkey := scanKey_lt hxdue horg hep hlt
    have hrank : tenantRank (dueRows db now) x ≤ perTenantLimit := by
      refine le_trans ?_ (rank_of_scanned hd.1)
      rcases Prod.Lex.toLex_lt_toLex.mp hkey with hlt | ⟨heq, -⟩
      · exact hlt.le
      · exact heq.le
    rcases scanned_or_full scanLimit hxdue hrank with hin | ⟨-, hbefore⟩
    · exact hin
    · exact absurd hkey (not_lt.mpr (hbefore d hd.1))

end Queue

/-- `tenant_rank` identifies a due row of a tenant. -/
theorem tenantRank_inj (hx : x ∈ dueRows db now) (hy : y ∈ dueRows db now)
    (horg : x.organizationId = y.organizationId)
    (h : tenantRank (dueRows db now) x = tenantRank (dueRows db now) y) : x = y := by
  unfold tenantRank at h
  have hkey := key_eq_of_rowNumber hx hy horg h
  exact turn_inj hx hy (congrArg (fun k => (ofLex k).2) hkey)

/-- The tenant's rows in the scan are those with the first ranks. -/
theorem scanned_tenant_le (organizationId : Nat) :
    ((scanned db now scanLimit perTenantLimit).filter fun d =>
      decide (d.organizationId = organizationId)).length ≤ perTenantLimit := by
  have hlength : (List.range' 1 perTenantLimit).length = perTenantLimit := length_range'
  refine (length_le_of_inj (f := tenantRank (dueRows db now)) ?_ ?_ ?_).trans hlength.le
  · exact ((scanned_nodup db now scanLimit perTenantLimit).of_map _).filter _
  · intro x hx y hy h
    simp only [mem_filter, decide_eq_true_eq] at hx hy
    exact tenantRank_inj (scanned_subset hx.1) (scanned_subset hy.1) (hx.2.trans hy.2.symm) h
  · intro x hx
    have hrank := rank_of_scanned (mem_filter.mp hx).1
    have hone : 1 ≤ tenantRank (dueRows db now) x := one_le_rowNumber _ _ _ _
    rw [mem_range'_1]
    omega

/-- **The first row of an endpoint has a rank up to the number of the
tenant's due endpoints**: only first rows of other endpoints come before it. -/
theorem tenantRank_first_le (hd : d ∈ dueRows db now)
    (hfirst : endpointRank (dueRows db now) d = 1) :
    tenantRank (dueRows db now) d ≤ (endpointsDue db now d.organizationId).length := by
  have hones : ∀ x, toLex (endpointRank (dueRows db now) x, x.turn)
      ≤ toLex (endpointRank (dueRows db now) d, d.turn) → endpointRank (dueRows db now) x = 1 := by
    intro x hle
    have hone : 1 ≤ endpointRank (dueRows db now) x := one_le_rowNumber _ _ _ _
    rcases Prod.Lex.toLex_le_toLex.mp hle with hlt | ⟨heq, -⟩
    · dsimp only at hlt
      omega
    · exact heq.trans hfirst
  refine rowNumber_le_of_inj (f := Delivery.endpointId) hd (dueRows_nodup db now) ?_ ?_
  · intro x hx y hy horg horg' hle hle' hep
    exact turn_inj hx hy (key_eq_of_rowNumber hx hy (Prod.ext (horg.trans horg'.symm) hep)
      ((hones x hle).trans (hones y hle').symm))
  · intro x hx horg _
    rw [← horg]
    exact mem_endpointsDue hx

/-- **Where no more tenants than `scanLimit` have due rows, each has a row in
the scan**: what the limit keeps in place of a row of rank one are rows of
rank one, of other tenants. -/
theorem tenant_scanned (hper : 1 ≤ perTenantLimit) (hfew : (tenantsDue db now).length ≤ scanLimit)
    (hd : d ∈ dueRows db now) :
    ∃ x ∈ scanned db now scanLimit perTenantLimit, x.organizationId = d.organizationId := by
  obtain ⟨x, hx, horg, hrank⟩ := exists_rowNumber_one Delivery.organizationId
    (fun d => toLex (endpointRank (dueRows db now) d, d.turn)) hd
  replace hrank : tenantRank (dueRows db now) x = 1 := hrank
  rcases scanned_or_full scanLimit hx (hrank.trans_le hper) with hin | ⟨hfull, hbefore⟩
  · exact ⟨x, hin, horg⟩
  by_contra hnone
  have hones : ∀ y ∈ scanned db now scanLimit perTenantLimit,
      tenantRank (dueRows db now) y = 1 := by
    intro y hy
    have hone : 1 ≤ tenantRank (dueRows db now) y := one_le_rowNumber _ _ _ _
    rcases Prod.Lex.toLex_le_toLex.mp (hbefore y hy) with hlt | ⟨heq, -⟩
    · dsimp only at hlt
      omega
    · exact heq.trans hrank
  have hle : (scanned db now scanLimit perTenantLimit).length
      ≤ ((tenantsDue db now).erase d.organizationId).length := by
    refine length_le_of_inj (f := Delivery.organizationId) ?_ ?_ ?_
    · exact (scanned_nodup db now scanLimit perTenantLimit).of_map _
    · intro y hy z hz hyz
      exact tenantRank_inj (scanned_subset hy) (scanned_subset hz) hyz
        ((hones y hy).trans (hones z hz).symm)
    · intro y hy
      refine (mem_erase_of_ne fun horg => hnone ⟨y, hy, horg⟩).mpr ?_
      exact mem_tenantsDue (scanned_subset hy)
  rw [length_erase_of_mem (mem_tenantsDue hd), hfull] at hle
  have hpos := length_pos_of_mem (mem_tenantsDue hd)
  omega

/-- **THE SCAN'S COVERAGE**, for every table in which an endpoint's rows
belong to one organization. -/
theorem candidate_window_coverage (db : Db) (now : Time) (scanLimit perTenantLimit : Nat)
    (hone : ∀ x ∈ db.deliveries.rows, ∀ y ∈ db.deliveries.rows, x.endpointId = y.endpointId →
      x.organizationId = y.organizationId)
    (hper : 1 ≤ perTenantLimit) :
    WindowCoverage db now scanLimit perTenantLimit
      (fairCandidateIds db now scanLimit perTenantLimit) where
  distinct := scanned_nodup db now scanLimit perTenantLimit
  due := by
    intro id hid
    obtain ⟨d, hd, rfl⟩ := mem_map.mp hid
    obtain ⟨hrow, hdue⟩ := mem_dueRows.mp (scanned_subset hd)
    exact ⟨d, hrow, rfl, hdue⟩
  total := by
    rw [fairCandidateIds_eq, length_map]
    exact length_take_le _ _
  tenant organizationId := by
    rw [candidateIds_filter, length_map]
    exact scanned_tenant_le organizationId
  queue endpointId := by
    rw [candidateIds_filter]
    have hids := (scanned_front hone now scanLimit perTenantLimit endpointId).map fun t =>
      (ofLex t).2
    rwa [map_map, map_map] at hids
  endpoints := by
    intro organizationId hfew hwhole endpointId hep
    obtain ⟨d, hd, rfl⟩ := mem_map.mp (mem_dedup.mp hep)
    rw [mem_filter, decide_eq_true_eq] at hd
    obtain ⟨hd, rfl⟩ := hd
    cases hqueue : endpointQueue db now d.endpointId with
    | nil =>
      have hmem := mem_endpointQueue.mpr ⟨hd, rfl⟩
      rw [hqueue] at hmem
      cases hmem
    | cons x =>
      refine ⟨x, rfl, ?_⟩
      have hx : x ∈ endpointQueue db now d.endpointId := by
        rw [hqueue]
        exact mem_cons_self
      obtain ⟨hxdue, hxep⟩ := mem_endpointQueue.mp hx
      have horg := hone x (mem_dueRows.mp hxdue).1 d (mem_dueRows.mp hd).1 hxep
      have hfirst : endpointRank (dueRows db now) x = 1 := by
        refine rowNumber_eq_one_iff.mpr fun y hy hpart => ?_
        have hyx := mem_endpointQueue.mpr ⟨hy, (congrArg Prod.snd hpart).trans hxep⟩
        have hsorted := endpointQueue_sorted db now d.endpointId
        rw [hqueue] at hyx hsorted
        rcases mem_cons.mp hyx with rfl | hrest
        · exact le_refl _
        · exact ((pairwise_cons.mp hsorted).1 _ (mem_map_of_mem hrest)).le
      by_contra hout
      refine hwhole ⟨x, hxdue, horg, (tenantRank_first_le hxdue hfirst).trans ?_, hout⟩
      rw [horg]
      exact hfew
  tenants := by
    intro hfew organizationId horg
    obtain ⟨d, hd, rfl⟩ := mem_map.mp (mem_dedup.mp horg)
    obtain ⟨x, hx, hxorg⟩ := tenant_scanned hper hfew hd
    exact ⟨x, (mem_dueRows.mp (scanned_subset hx)).1, hxorg, mem_map_of_mem hx⟩

end Coverage

/-- Six of the crowd's rows, of a tenant whose window holds ten. -/
theorem candidate_window_coverage_crowd :
    (fairCandidateIds crowdDb 0 6 10).length = 6
      ∧ WindowCoverage crowdDb 0 6 10 (fairCandidateIds crowdDb 0 6 10) :=
  ⟨by decide +kernel, candidate_window_coverage crowdDb 0 6 10 (by decide +kernel) (by decide)⟩

end WebhookPlatform
