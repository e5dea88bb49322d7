/-
  WebhookPlatform.SchedulingInvariants
  **WHAT THE SELECTION LOOP KEEPS.**

  Everything `selectLoop` does is a sequence of three kinds of moves
  (`Pick.Move`): the rotation turns, an endpoint's circuit wakes up, or the
  head of a queue is taken UNDER ALL ITS GUARDS.  `selectLoop_moves` says so
  once; every property of the loop is then three short cases.

    • `Grouped`   — the queues hold candidates of their own tenant and
      endpoint, and nothing is both selected and queued,
    • `Counted`   — the counters are the counts read at the start plus what
      was selected, and no selection exceeds a cap.

  `Reads.choose_choice` collects what the callers use.
-/
import WebhookPlatform.Scheduling

namespace WebhookPlatform

open Relational RowNumber List Function

/-! ## §1. The moves of the loop. -/

variable {r : Reads}

theorem EndpointQuotaState.gate_idem {e e' : EndpointQuotaState}
    (h : e.gate now = some e') : e'.gate now = some e' := by
  unfold EndpointQuotaState.gate at h
  split at h
  · cases h
  next hp =>
    split at h
    next ho =>
      split at h
      · cases h
        simp [EndpointQuotaState.gate, hp]
      · cases h
    next ho =>
      cases h
      simp [EndpointQuotaState.gate, hp, ho]

namespace Pick

variable (s : Settings) (now : Time) (available : Nat)

/-- One move of the selection loop. -/
inductive Move : Pick → Pick → Prop where
  /-- The tenant's endpoint deque turns. -/
  | rotate (p : Pick) (organizationId : Nat) (order : List Nat)
      (perm : order.Perm (p.endpointOrder organizationId)) :
      Move p (p.rotate organizationId order)
  /-- The gate of an endpoint is passed; an elapsed open circuit is now half
  open. -/
  | wake (p : Pick) (endpointId : Nat) (e : EndpointQuotaState)
      (gate : (p.endpointStates endpointId).gate now = some e) :
      Move p (p.setEndpoint endpointId e)
  /-- The head of a queue is selected. -/
  | take (p : Pick) (organizationId endpointId : Nat) (d : Delivery) (rest : List Delivery)
      (queue : p.grouped organizationId endpointId = d :: rest)
      (gate : (p.endpointStates endpointId).gate now = some (p.endpointStates endpointId))
      (probe : (p.endpointStates endpointId).probeAdmits d.id = true)
      (room : p.hasRoom s endpointId d = true)
      (tenant : p.tenantCounts organizationId < s.tenantInFlightDeliveries)
      (slots : p.selected.length < available) :
      Move p (p.take now organizationId endpointId d rest)

/-- Any number of moves. -/
abbrev Moves : Pick → Pick → Prop := Relation.ReflTransGen (Move s now available)

variable {s now available}

theorem Moves.single (h : Move s now available p q) : Moves s now available p q :=
  Relation.ReflTransGen.single h

/-- An invariant of the moves holds after any number of them. -/
theorem Moves.inv {I : Pick → Prop} (hI : ∀ p q, I p → Move s now available p q → I q)
    (h : Moves s now available p q) (hp : I p) : I q := by
  induction h with
  | refl => exact hp
  | tail _ hmove ih => exact hI _ _ ih hmove

@[simp] theorem setEndpoint_self (p : Pick) (endpointId : Nat) (e : EndpointQuotaState) :
    (p.setEndpoint endpointId e).endpointStates endpointId = e :=
  update_self _ _ _

/-- One endpoint: it is passed by, or its queue's head is taken. -/
theorem tryEndpoint_moves (tenant : p.tenantCounts org < s.tenantInFlightDeliveries)
    (slots : p.selected.length < available) :
    Moves s now available p (tryEndpoint s now org ep p).1 := by
  unfold tryEndpoint
  split
  · exact Relation.ReflTransGen.refl
  next d rest hqueue =>
    split
    · exact Relation.ReflTransGen.refl
    next e hgate =>
      have hwake : Move s now available p (p.setEndpoint ep e) := Move.wake p ep e hgate
      split
      next hguard =>
        rw [Bool.and_eq_true] at hguard
        refine (Moves.single hwake).tail
          (Move.take _ org ep d rest hqueue ?_ ?_ hguard.2 tenant slots)
        · rw [setEndpoint_self]
          exact EndpointQuotaState.gate_idem hgate
        · rw [setEndpoint_self]
          exact hguard.1
      · exact Moves.single hwake

/-- A failed try selects nothing and counts nothing. -/
theorem tryEndpoint_false (h : (tryEndpoint s now org ep p).2 = false) :
    (tryEndpoint s now org ep p).1.selected = p.selected
      ∧ (tryEndpoint s now org ep p).1.tenantCounts = p.tenantCounts := by
  unfold tryEndpoint at h ⊢
  split
  · exact ⟨rfl, rfl⟩
  next d rest hqueue =>
    split
    · exact ⟨rfl, rfl⟩
    next e hgate =>
      split
      next hguard => simp [hqueue, hgate, hguard] at h
      · exact ⟨rfl, rfl⟩

/-- A successful try selects one delivery. -/
theorem tryEndpoint_true (h : (tryEndpoint s now org ep p).2 = true) :
    (tryEndpoint s now org ep p).1.selected.length = p.selected.length + 1 := by
  unfold tryEndpoint at h ⊢
  split
  next hqueue => simp [hqueue] at h
  next d rest hqueue =>
    split
    next hgate => simp [hqueue, hgate] at h
    next e hgate =>
      split
      · exact length_append
      next hguard => simp [hqueue, hgate, hguard] at h

theorem scanEndpoints_cons (h : p.endpointOrder org = ep :: rest) :
    scanEndpoints s now org (n + 1) p
      = if (tryEndpoint s now org ep (p.rotate org (rest ++ [ep]))).2 then
          tryEndpoint s now org ep (p.rotate org (rest ++ [ep]))
        else scanEndpoints s now org n
          (tryEndpoint s now org ep (p.rotate org (rest ++ [ep]))).1 := by
  simp only [scanEndpoints, h]

/-- The tenant's turn is a sequence of moves; it selects one delivery if it
made progress and none otherwise. -/
theorem scanEndpoints_spec (n : Nat) :
    ∀ {p : Pick}, p.tenantCounts org < s.tenantInFlightDeliveries → p.selected.length < available →
      Moves s now available p (scanEndpoints s now org n p).1
        ∧ (scanEndpoints s now org n p).1.selected.length
          = p.selected.length + (if (scanEndpoints s now org n p).2 then 1 else 0) := by
  induction n with
  | zero =>
    intro p _ _
    exact ⟨Relation.ReflTransGen.refl, rfl⟩
  | succ n ih =>
    intro p tenant slots
    cases horder : p.endpointOrder org with
    | nil =>
      have hstop : scanEndpoints s now org (n + 1) p = (p, false) := by
        simp only [scanEndpoints, horder]
      rw [hstop]
      exact ⟨Relation.ReflTransGen.refl, rfl⟩
    | cons ep rest =>
      -- the endpoint goes to the back of the rotation whether or not it is taken
      have hturn : Move s now available p (p.rotate org (rest ++ [ep])) := by
        refine Move.rotate p org _ ?_
        rw [horder]
        exact perm_append_singleton ep rest
      have htry : Moves s now available p
          (tryEndpoint s now org ep (p.rotate org (rest ++ [ep]))).1 :=
        (Moves.single hturn).trans (tryEndpoint_moves tenant slots)
      rw [scanEndpoints_cons horder]
      split
      next htrue => exact ⟨htry, tryEndpoint_true htrue⟩
      -- nothing was taken, so the counters still admit the next endpoint
      next hfalse =>
        obtain ⟨hsel, hcount⟩ := tryEndpoint_false (Bool.eq_false_iff.mpr hfalse)
        obtain ⟨hmoves, hlen⟩ := ih (lt_of_eq_of_lt (congrFun hcount org) tenant)
          (lt_of_eq_of_lt (congrArg List.length hsel) slots)
        rw [hsel] at hlen
        exact ⟨htry.trans hmoves, hlen⟩

/-- A round is a sequence of moves, and progress means a selection. -/
theorem pass_spec (orgs : List Nat) :
    ∀ p : Pick, Moves s now available p (pass s now available orgs p).1
      ∧ p.selected.length ≤ (pass s now available orgs p).1.selected.length
      ∧ ((pass s now available orgs p).2 = true →
          p.selected.length < (pass s now available orgs p).1.selected.length) := by
  induction orgs with
  | nil =>
    intro p
    exact ⟨Relation.ReflTransGen.refl, le_refl _, fun h => absurd h (by simp [pass])⟩
  | cons org orgs ih =>
    intro p
    unfold pass
    split
    · exact ⟨Relation.ReflTransGen.refl, le_refl _, fun h => absurd h (by simp)⟩
    next hslots =>
      split
      · exact ih p
      next htenant =>
        obtain ⟨hmoves, hlen⟩ : Moves s now available p _ ∧ _ :=
          scanEndpoints_spec (p.endpointOrder org).length
            (Nat.lt_of_not_le htenant) (Nat.lt_of_not_le hslots)
        obtain ⟨hrest, hle, hlt⟩ := ih (scanEndpoints s now org (p.endpointOrder org).length p).1
        refine ⟨hmoves.trans hrest, ?_, ?_⟩
        · show p.selected.length ≤ (pass s now available orgs _).1.selected.length
          omega
        -- progress in this turn, or in a later one
        · intro hprog
          show p.selected.length < (pass s now available orgs _).1.selected.length
          rcases (Bool.or_eq_true _ _).mp hprog with hturn | hothers
          · rw [hturn, if_pos rfl] at hlen
            omega
          · have := hlt hothers
            omega

/-- **The loop is a sequence of moves.** -/
theorem selectLoop_moves (orgs : List Nat) (fuel : Nat) :
    ∀ p : Pick, Moves s now available p (selectLoop s now available orgs fuel p) := by
  induction fuel with
  | zero =>
    intro p
    exact Relation.ReflTransGen.refl
  | succ _ ih =>
    intro p
    have hpass : Moves s now available p _ := (pass_spec orgs p).1
    unfold selectLoop
    dsimp only
    split
    · exact Relation.ReflTransGen.refl
    split
    · exact hpass.trans (ih _)
    · exact hpass

/-- Nothing that was selected is given back. -/
theorem Move.selected_subset (h : Move s now available p q) : ∀ d ∈ p.selected, d ∈ q.selected := by
  intro d hd
  cases h with
  | rotate => exact hd
  | wake => exact hd
  | take => exact mem_append_left _ hd

theorem Moves.selected_subset (h : Moves s now available p q) :
    ∀ d ∈ p.selected, d ∈ q.selected := by
  intro d hd
  exact h.inv (I := fun r => d ∈ r.selected) (fun _ _ hr hm => hm.selected_subset d hr) hd

/-! ## §2. The queues. -/

/-- The queues hold candidates of their own tenant and endpoint, and nothing
is in a queue and selected, or selected twice. -/
structure Grouped (candidates : List Delivery) (p : Pick) : Prop where
  queued : ∀ org ep, ∀ d ∈ p.grouped org ep,
    d ∈ candidates ∧ d.organizationId = org ∧ d.endpointId = ep
  chosen : ∀ d ∈ p.selected, d ∈ candidates
  nodup : ∀ org ep, ((p.selected ++ p.grouped org ep).map Delivery.id).Nodup

theorem grouped_take (p : Pick) (org ep org' ep' : Nat) (d : Delivery) (rest : List Delivery) :
    (p.take now org ep d rest).grouped org' ep'
      = if org' = org ∧ ep' = ep then rest else p.grouped org' ep' := by
  show Function.update p.grouped org (Function.update (p.grouped org) ep rest) org' ep' = _
  by_cases horg : org' = org
  · subst horg
    rw [update_self]
    by_cases hep : ep' = ep
    · subst hep
      rw [update_self, if_pos ⟨rfl, rfl⟩]
    · rw [update_of_ne hep, if_neg (fun h => hep h.2)]
  · rw [update_of_ne horg, if_neg (fun h => horg h.1)]

theorem grouped_move (hids : (candidates.map Delivery.id).Nodup) (p q : Pick)
    (hp : Grouped candidates p) (h : Move s now available p q) : Grouped candidates q := by
  cases h with
  | rotate | wake => exact ⟨hp.queued, hp.chosen, hp.nodup⟩
  | take org ep d _ queue =>
    have hd : d ∈ p.grouped org ep := by
      rw [queue]
      exact mem_cons_self
    obtain ⟨hcand, horg, hep⟩ := hp.queued org ep d hd
    have hown := hp.nodup org ep
    rw [queue] at hown
    constructor
    · intro org' ep' x hx
      rw [grouped_take] at hx
      split at hx
      next heq =>
        rw [heq.1, heq.2]
        exact hp.queued org ep x (by rw [queue]; exact mem_cons_of_mem _ hx)
      · exact hp.queued org' ep' x hx
    · intro x hx
      rcases mem_append.mp hx with hx | hx
      · exact hp.chosen x hx
      · rw [mem_singleton.mp hx]
        exact hcand
    · intro org' ep'
      rw [grouped_take]
      show ((p.selected ++ [d] ++ _).map Delivery.id).Nodup
      split
      · rw [append_assoc]
        exact hown
      next hne =>
        -- the taken delivery is in no other queue: a queue's deliveries are its endpoint's
        have hother := hp.nodup org' ep'
        have hfresh : d.id ∉ (p.grouped org' ep').map Delivery.id := by
          intro hmem
          obtain ⟨x, hx, hid⟩ := mem_map.mp hmem
          obtain ⟨hxc, hxo, hxe⟩ := hp.queued org' ep' x hx
          have hxd : x = d := inj_on_of_nodup_map hids hxc hcand hid
          subst hxd
          exact hne ⟨hxo.symm.trans horg, hxe.symm.trans hep⟩
        have hnew : d.id ∉ p.selected.map Delivery.id := by
          intro hmem
          rw [map_append, nodup_append] at hown
          exact hown.2.2 d.id hmem d.id (by simp) rfl
        rw [append_assoc, singleton_append]
        rw [map_append, map_cons, nodup_middle, nodup_cons]
        rw [map_append] at hother
        refine ⟨?_, hother⟩
        rw [mem_append, not_or]
        exact ⟨hnew, hfresh⟩

/-! ## §3. The counters. -/

/-- The counters are the counts read at the start plus what was selected;
every tenant and endpoint that was given something is within its cap. -/
structure Counted (s : Settings) (available : Nat) (tenant0 endpoint0 : Nat → Nat) (p : Pick) :
    Prop where
  slots : p.selected.length ≤ available
  tenant : ∀ org, p.tenantCounts org
    = tenant0 org + p.selected.countP fun d => decide (d.organizationId = org)
  endpoint : ∀ ep, p.endpointCounts ep
    = endpoint0 ep + p.selected.countP fun d => decide (d.endpointId = ep)
  tenantCap : ∀ d ∈ p.selected, p.tenantCounts d.organizationId ≤ s.tenantInFlightDeliveries
  endpointCap : ∀ d ∈ p.selected, p.endpointCounts d.endpointId ≤ s.endpointConcurrency

/-- A counter that is raised at `key` for a new element with that key. -/
theorem count_raised {f g0 : Nat → Nat} {key : Delivery → Nat}
    (hf : ∀ k, f k = g0 k + l.countP fun x => decide (key x = k)) (k : Nat) :
    Function.update f (key d) (f (key d) + 1) k
      = g0 k + (l ++ [d]).countP fun x => decide (key x = k) := by
  rw [countP_append, countP_singleton]
  by_cases hk : k = key d
  · subst hk
    rw [update_self, hf]
    simp
    omega
  · rw [update_of_ne hk, hf, if_neg (by simpa using Ne.symm hk)]
    omega

/-- A raised counter stays within a cap it was below. -/
theorem cap_raised {f : Nat → Nat} {key : Delivery → Nat} (hf : ∀ x ∈ l, f (key x) ≤ cap)
    (hd : f (key d) < cap) :
    ∀ x ∈ l ++ [d], Function.update f (key d) (f (key d) + 1) (key x) ≤ cap := by
  intro x hx
  by_cases hk : key x = key d
  · rw [hk, update_self]
    omega
  · rw [update_of_ne hk]
    rcases mem_append.mp hx with hx | hx
    · exact hf x hx
    · exact absurd (congrArg key (mem_singleton.mp hx)) hk

theorem counted_move {candidates : List Delivery} (p q : Pick) (hg : Grouped candidates p)
    (hp : Counted s available tenant0 endpoint0 p) (h : Move s now available p q) :
    Counted s available tenant0 endpoint0 q := by
  cases h with
  | rotate | wake =>
    exact ⟨hp.slots, hp.tenant, hp.endpoint, hp.tenantCap, hp.endpointCap⟩
  | take org ep d _ queue _ _ room tenant =>
    obtain ⟨-, rfl, rfl⟩ := hg.queued org ep d (by rw [queue]; exact mem_cons_self)
    have hroom : p.endpointCounts d.endpointId < s.endpointConcurrency := by
      unfold hasRoom at room
      simp only [Bool.and_eq_true, decide_eq_true_eq] at room
      exact room.1.1
    constructor
    · show (p.selected ++ [d]).length ≤ available
      rw [length_append, length_singleton]
      omega
    · exact count_raised hp.tenant
    · exact count_raised hp.endpoint
    · exact cap_raised hp.tenantCap tenant
    · exact cap_raised hp.endpointCap hroom

end Pick

/-! ## §4. What is chosen. -/

/-- **The choice**: candidates, none twice, within the free slots; and where
a tenant or an endpoint is given something, its live count at the start plus
what it is given is within its cap. -/
structure Reads.Choice (s : Settings) (available : Nat) (r : Reads) (selected : List Delivery) :
    Prop where
  subset : ∀ d ∈ selected, d ∈ r.candidates
  nodup : (selected.map Delivery.id).Nodup
  slots : selected.length ≤ available
  tenant : ∀ d ∈ selected, r.tenantCounts d.organizationId
    + selected.countP (fun x => decide (x.organizationId = d.organizationId))
      ≤ s.tenantInFlightDeliveries
  endpoint : ∀ d ∈ selected, r.endpointCounts d.endpointId
    + selected.countP (fun x => decide (x.endpointId = d.endpointId)) ≤ s.endpointConcurrency

theorem Reads.start_grouped (s : Settings) (now : Time) (r : Reads)
    (hids : (r.candidates.map Delivery.id).Nodup) : Pick.Grouped r.candidates (r.start s now) := by
  refine ⟨?_, ?_, ?_⟩
  · intro org ep d hd
    obtain ⟨hmem, hkey⟩ := mem_filter.mp hd
    rw [Bool.and_eq_true, decide_eq_true_eq, decide_eq_true_eq] at hkey
    exact ⟨hmem, hkey⟩
  · intro d hd
    exact absurd hd (by simp [Reads.start])
  · intro org ep
    exact hids.sublist (filter_sublist.map Delivery.id)

/-- What the queues and the counters are when the loop has ended. -/
theorem Reads.choose_counted (s : Settings) (now : Time) (available : Nat) (r : Reads)
    (hids : (r.candidates.map Delivery.id).Nodup) :
    Pick.Grouped r.candidates (r.choose s now available)
      ∧ Pick.Counted s available r.tenantCounts r.endpointCounts (r.choose s now available) := by
  have hstart : Pick.Grouped r.candidates (r.start s now)
      ∧ Pick.Counted s available r.tenantCounts r.endpointCounts (r.start s now) := by
    refine ⟨r.start_grouped s now hids, ⟨Nat.zero_le _, fun _ => rfl, fun _ => rfl, ?_, ?_⟩⟩
    · intro d hd
      exact absurd hd (by simp [Reads.start])
    · intro d hd
      exact absurd hd (by simp [Reads.start])
  exact Pick.Moves.inv (I := fun p => Pick.Grouped r.candidates p
      ∧ Pick.Counted s available r.tenantCounts r.endpointCounts p)
    (fun p q hp hm => ⟨Pick.grouped_move hids p q hp.1 hm, Pick.counted_move p q hp.1 hp.2 hm⟩)
    (Pick.selectLoop_moves r.organizationOrder available (r.start s now)) hstart

theorem Reads.choose_choice (s : Settings) (now : Time) (available : Nat) (r : Reads)
    (hids : (r.candidates.map Delivery.id).Nodup) :
    r.Choice s available (r.choose s now available).selected := by
  obtain ⟨hg, hc⟩ := r.choose_counted s now available hids
  have hnodup := hg.nodup 0 0
  rw [map_append] at hnodup
  exact
    { subset := hg.chosen
      nodup := hnodup.of_append_left
      slots := hc.slots
      tenant := fun d hd => (hc.tenant d.organizationId) ▸ hc.tenantCap d hd
      endpoint := fun d hd => (hc.endpoint d.endpointId) ▸ hc.endpointCap d hd }

/-! ## §5. The candidates of one instant. -/

/-- The rows of the scan, in the order of their ids in `fairCandidateIds`. -/
def scanned (db : Db) (now : Time) (scanLimit perTenantLimit : Nat) : List Delivery :=
  (orderBy (fun d => toLex (tenantRank (dueRows db now) d, d.turn))
    ((dueRows db now).filter fun d =>
      decide (tenantRank (dueRows db now) d ≤ perTenantLimit))).take scanLimit

theorem fairCandidateIds_eq (db : Db) (now : Time) (scanLimit perTenantLimit : Nat) :
    fairCandidateIds db now scanLimit perTenantLimit
      = (scanned db now scanLimit perTenantLimit).map Delivery.id := rfl

theorem mem_dueRows : d ∈ dueRows db now ↔ d ∈ db.deliveries.rows ∧ d.due now = true := mem_filter

theorem scanned_subset (h : d ∈ scanned db now scanLimit perTenantLimit) : d ∈ dueRows db now := by
  have hsorted := (orderBy_perm _ _).mem_iff.mp (mem_of_mem_take h)
  exact (mem_filter.mp hsorted).1

/-- The atomic reads lock every row the scan found. -/
theorem readsOf_candidates (s : Settings) (now : Time) (available : Nat) (db : Db) :
    (readsOf s now available db).candidates
      = scanned db now s.workerCandidateScanLimit (perTenantScan s available) := by
  show (fairCandidateIds _ _ _ _).filterMap db.deliveries.find? = _
  rw [fairCandidateIds_eq]
  apply Table.filterMap_find?_keys
  intro d hd
  exact (mem_dueRows.mp (scanned_subset hd)).1

theorem candidates_due (h : d ∈ (readsOf s now available db).candidates) :
    d ∈ db.deliveries.rows ∧ d.due now = true := by
  rw [readsOf_candidates] at h
  exact mem_dueRows.mp (scanned_subset h)

theorem scanned_nodup (db : Db) (now : Time) (scanLimit perTenantLimit : Nat) :
    ((scanned db now scanLimit perTenantLimit).map Delivery.id).Nodup := by
  have hdue : ((dueRows db now).map Delivery.id).Nodup :=
    db.deliveries.nodup.sublist (filter_sublist.map _)
  have hsorted := ((orderBy_perm (fun d => toLex (tenantRank (dueRows db now) d, d.turn))
    ((dueRows db now).filter fun d =>
      decide (tenantRank (dueRows db now) d ≤ perTenantLimit))).map Delivery.id).nodup_iff.mpr
    (hdue.sublist (filter_sublist.map _))
  exact hsorted.sublist ((take_sublist _ _).map _)

theorem readsOf_nodup (s : Settings) (now : Time) (available : Nat) (db : Db) :
    ((readsOf s now available db).candidates.map Delivery.id).Nodup := by
  rw [readsOf_candidates]
  exact scanned_nodup _ _ _ _

/-- **What one atomic selection chooses**: due rows of the table, none twice,
and within the three caps when added to the live leases. -/
structure FairChoice (s : Settings) (now : Time) (db : Db) (requested : Nat)
    (selected : List Delivery) : Prop where
  rows : ∀ d ∈ selected, d ∈ db.deliveries.rows ∧ d.due now = true
  nodup : (selected.map Delivery.id).Nodup
  requested : selected.length ≤ requested
  total : selected = [] ∨ liveTotal db now + selected.length ≤ s.workerGlobalConcurrency
  tenant : ∀ d ∈ selected, liveOfTenant db now d.organizationId
    + selected.countP (fun x => decide (x.organizationId = d.organizationId))
      ≤ s.tenantInFlightDeliveries
  endpoint : ∀ d ∈ selected, liveOfEndpoint db now d.endpointId
    + selected.countP (fun x => decide (x.endpointId = d.endpointId)) ≤ s.endpointConcurrency

theorem availableSlots_le (s : Settings) (now : Time) (requested : Nat) (db : Db) :
    availableSlots s now requested db ≤ requested ∧ (availableSlots s now requested db ≠ 0 →
          liveTotal db now + availableSlots s now requested db ≤ s.workerGlobalConcurrency) := by
  unfold availableSlots
  omega

theorem selectFairDeliveries_choice (s : Settings) (now : Time) (requested : Nat) (db : Db) :
    FairChoice s now db requested (selectFairDeliveries s now requested db).2 := by
  obtain ⟨hreq, hcap⟩ := availableSlots_le s now requested (ensureGlobalState now db)
  have hc := Reads.choose_choice s now (availableSlots s now requested (ensureGlobalState now db))
    (readsOf s now (availableSlots s now requested (ensureGlobalState now db))
      (ensureGlobalState now db)) (readsOf_nodup _ _ _ _)
  have hslots := hc.slots
  unfold selectFairDeliveries
  dsimp only
  split
  · exact ⟨by simp, by simp, Nat.zero_le _, Or.inl rfl, by simp, by simp⟩
  next hsome =>
    obtain ⟨havail, -⟩ := not_or.mp hsome
    have hlive : liveTotal (ensureGlobalState now db) now = liveTotal db now := rfl
    rw [hlive] at hcap
    have hroom := hcap havail
    exact
      { rows := fun d hd => candidates_due (hc.subset d hd)
        nodup := hc.nodup
        requested := hslots.trans hreq
        total := Or.inr ((Nat.add_le_add_left hslots _).trans hroom)
        tenant := hc.tenant
        endpoint := hc.endpoint }

theorem ensureTenantState_foldl (s : Settings) (now : Time) (ids : List Nat) :
    ∀ db : Db, ∃ ts, ids.foldl (ensureTenantState s now) db = { db with tenantStates := ts } := by
  induction ids with
  | nil => exact fun db => ⟨db.tenantStates, rfl⟩
  | cons i _ ih =>
    intro db
    obtain ⟨ts, hts⟩ := ih (ensureTenantState s now db i)
    exact ⟨ts, hts⟩

theorem ensureEndpointState_foldl (s : Settings) (now : Time) (ids : List Nat) : ∀ db : Db, ∃ es,
      ids.foldl (ensureEndpointState s now) db = { db with endpointStates := es } := by
  induction ids with
  | nil => exact fun db => ⟨db.endpointStates, rfl⟩
  | cons i _ ih =>
    intro db
    obtain ⟨es, hes⟩ := ih (ensureEndpointState s now db i)
    exact ⟨es, hes⟩

/-- Storing a choice writes the three kinds of state rows and nothing else. -/
theorem Reads.store_frame (s : Settings) (now : Time) (r : Reads) (p : Pick) (db : Db) :
    ∃ g ts es, r.store s now p db
      = { db with globalState := g, tenantStates := ts, endpointStates := es } := by
  unfold Reads.store
  obtain ⟨ts, hts⟩ := ensureTenantState_foldl s now r.organizationIds db
  obtain ⟨es, hes⟩ := ensureEndpointState_foldl s now r.endpointIds { db with tenantStates := ts }
  rw [hts]
  dsimp only
  rw [hes]
  exact ⟨_, _, _, rfl⟩

/-- The selection writes the three kinds of state rows and nothing else. -/
theorem selectFairDeliveries_frame (s : Settings) (now : Time) (requested : Nat) (db : Db) :
    ∃ g ts es, (selectFairDeliveries s now requested db).1
      = { db with globalState := g, tenantStates := ts, endpointStates := es } := by
  unfold selectFairDeliveries
  dsimp only
  split
  · exact ⟨_, _, _, rfl⟩
  obtain ⟨g, ts, es, h⟩ := Reads.store_frame s now
    (readsOf s now (availableSlots s now requested (ensureGlobalState now db))
      (ensureGlobalState now db)) _ (ensureGlobalState now db)
  exact ⟨g, ts, es, h⟩

/-! ## §6. The state rows. -/

theorem EndpointQuotaState.gate_endpointId {e e' : EndpointQuotaState}
    (h : e.gate now = some e') : e'.endpointId = e.endpointId := by
  unfold EndpointQuotaState.gate at h
  split at h
  · cases h
  split at h
  · split at h
    · injection h with h
      rw [← h]
    · cases h
  injection h with h
  rw [← h]

theorem tenantState_organizationId (db : Db) (now : Time) (o : Nat) :
    (tenantState s db now o).organizationId = o := by
  unfold tenantState
  cases hfind : db.tenantStates.find? o with
  | none => rfl
  | some => exact Table.key_of_find? hfind

theorem endpointState_endpointId (s : Settings) (db : Db) (now : Time) (ep : Nat) :
    (endpointState s db now ep).endpointId = ep := by
  unfold endpointState
  cases hfind : db.endpointStates.find? ep with
  | none => rfl
  | some => exact Table.key_of_find? hfind

/-- The tenants' rows in memory stay under their keys. -/
theorem Reads.choose_tenantKey (h : ∀ o, (r.tenantStates o).organizationId = o) (o : Nat) :
    ((r.choose s now available).tenantStates o).organizationId = o := by
  refine (Pick.selectLoop_moves r.organizationOrder available (r.start s now)).inv
    (I := fun p => ∀ o, (p.tenantStates o).organizationId = o) ?_ h o
  intro p q hp hm
  cases hm with
  | rotate => exact hp
  | wake => exact hp
  | take org =>
    exact (forall_update_iff _ fun o t => TenantQuotaState.organizationId t = o).mpr
      ⟨hp org, fun o _ => hp o⟩

/-- The endpoints' rows in memory stay under their keys. -/
theorem Reads.choose_endpointKey (h : ∀ ep, (r.endpointStates ep).endpointId = ep) (ep : Nat) :
    ((r.choose s now available).endpointStates ep).endpointId = ep := by
  refine (Pick.selectLoop_moves r.organizationOrder available (r.start s now)).inv
    (I := fun p => ∀ ep, (p.endpointStates ep).endpointId = ep) ?_ h ep
  intro p q hp hm
  cases hm with
  | rotate => exact hp
  | wake ep' e hgate =>
    exact (forall_update_iff _ fun ep e => EndpointQuotaState.endpointId e = ep).mpr
      ⟨(EndpointQuotaState.gate_endpointId hgate).trans (hp ep'), fun ep _ => hp ep⟩
  | take _ ep' =>
    exact (forall_update_iff _ fun ep e => EndpointQuotaState.endpointId e = ep).mpr
      ⟨hp ep', fun ep _ => hp ep⟩

theorem ensureTenantState_find? (s : Settings) (now : Time) (o : Nat) (ids : List Nat) :
    ∀ db : Db, (ids.foldl (ensureTenantState s now) db).tenantStates.find? o
      = if o ∈ ids then some (tenantState s db now o) else db.tenantStates.find? o := by
  induction ids with
  | nil => exact fun db => rfl
  | cons i _ ih =>
    intro db
    have hinsert : (ensureTenantState s now db i).tenantStates.find? o
        = (db.tenantStates.find? o).or (if i = o then some (tenantQuotaValues i s now) else none) :=
      Table.find?_insert
    rw [foldl_cons, ih]
    unfold tenantState
    rw [hinsert]
    by_cases hi : i = o
    · subst hi
      cases db.tenantStates.find? i <;> simp
    · simp [hi, Ne.symm hi]

theorem ensureEndpointState_find? (s : Settings) (now : Time) (ep : Nat) (ids : List Nat) :
    ∀ db : Db, (ids.foldl (ensureEndpointState s now) db).endpointStates.find? ep
      = if ep ∈ ids then some (endpointState s db now ep) else db.endpointStates.find? ep := by
  induction ids with
  | nil => exact fun db => rfl
  | cons i _ ih =>
    intro db
    have hinsert : (ensureEndpointState s now db i).endpointStates.find? ep
        = (db.endpointStates.find? ep).or
            (if i = ep then some (endpointQuotaValues i s now) else none) :=
      Table.find?_insert
    rw [foldl_cons, ih]
    unfold endpointState
    rw [hinsert]
    by_cases hi : i = ep
    · subst hi
      cases db.endpointStates.find? i <;> simp
    · simp [hi, Ne.symm hi]

/-- **The tenants' rows after a selection.** -/
theorem Reads.find?_store_tenant (hp : ∀ o, (p.tenantStates o).organizationId = o) (db : Db)
    (o : Nat) :
    (r.store s now p db).tenantStates.find? o
      = if o ∈ r.organizationIds then some (p.tenantStates o) else db.tenantStates.find? o := by
  obtain ⟨es, hes⟩ := ensureEndpointState_foldl s now r.endpointIds
    (r.organizationIds.foldl (ensureTenantState s now) db)
  have hensured := ensureTenantState_find? s now o r.organizationIds db
  show ((r.endpointIds.foldl (ensureEndpointState s now)
    (r.organizationIds.foldl (ensureTenantState s now) db)).tenantStates.putAll
      (r.organizationIds.map p.tenantStates)).find? o = _
  rw [hes]
  by_cases ho : o ∈ r.organizationIds
  · rw [if_pos ho] at hensured
    rw [Table.find?_putAll_map hp _ (by rw [hensured]; rfl), if_pos ho, if_pos ho]
  · rw [if_neg ho] at hensured
    rw [if_neg ho, Table.find?_putAll_ne, hensured]
    intro b hb
    obtain ⟨o', ho', rfl⟩ := mem_map.mp hb
    rw [hp]
    exact fun h => ho (h ▸ ho')

/-- **The endpoints' rows after a selection.** -/
theorem Reads.find?_store_endpoint (hp : ∀ ep, (p.endpointStates ep).endpointId = ep) (db : Db)
    (ep : Nat) :
    (r.store s now p db).endpointStates.find? ep
      = if ep ∈ r.endpointIds then some (p.endpointStates ep) else db.endpointStates.find? ep := by
  obtain ⟨ts, hts⟩ := ensureTenantState_foldl s now r.organizationIds db
  have hensured := ensureEndpointState_find? s now ep r.endpointIds { db with tenantStates := ts }
  show ((r.endpointIds.foldl (ensureEndpointState s now)
    (r.organizationIds.foldl (ensureTenantState s now) db)).endpointStates.putAll
      (r.endpointIds.map p.endpointStates)).find? ep = _
  rw [hts]
  by_cases hep : ep ∈ r.endpointIds
  · rw [if_pos hep] at hensured
    rw [Table.find?_putAll_map hp _ (by rw [hensured]; rfl), if_pos hep, if_pos hep]
  · rw [if_neg hep] at hensured
    rw [if_neg hep, Table.find?_putAll_ne, hensured]
    intro b hb
    obtain ⟨ep', hep', rfl⟩ := mem_map.mp hb
    rw [hp]
    exact fun h => hep (h ▸ hep')

end WebhookPlatform
