/-
  WebhookPlatform.SelectionContract
  **WHAT THE SELECTION LOOP GUARANTEES WHEN IT STOPS.**

  `Pick.Loops` is the `while` loop of `select_fair_deliveries` without fuel:
  it stops when enough is selected, or after a round without progress.  The
  modelled loop is one of its terminating runs (`selectLoop_loops`).

    • `Served`    — what an endpoint has been given, followed by what still
      waits in its queue, is its candidate queue,
    • `Spent`     — the balances in memory and in the rows are the refilled
      ones minus what was selected,
    • `Blocked`   — the six reasons for which the loop passes a head by,
    • `Loops.exit` — with a free slot left, nobody is eligible any more.

  `selection_postcondition` collects them.  The loop looks at the HEAD of an
  endpoint's queue only, so a retry without a token holds back the first
  attempts behind it: `Reads.first_attempts_selected_iff` says exactly which
  ones, and `retry_head_holds_back_original` is the smallest example.
-/
import WebhookPlatform.AdmissionLimits
import WebhookPlatform.Fairness

namespace WebhookPlatform

open Relational List Function

namespace Pick

/-! ## §1. The loop without fuel. -/

/-- `while len(selected) < available`, from its first test to its end. -/
inductive Loops (s : Settings) (now : Time) (available : Nat) (organizationOrder : List Nat) :
    Pick → Pick → Prop where
  /-- The condition of the loop is false. -/
  | full (p : Pick) (enough : available ≤ p.selected.length) :
      Loops s now available organizationOrder p p
  /-- `if not made_progress: break`. -/
  | idle (p : Pick) (short : p.selected.length < available)
      (still : (pass s now available organizationOrder p).2 = false) :
      Loops s now available organizationOrder p (pass s now available organizationOrder p).1
  | again (p q : Pick) (short : p.selected.length < available)
      (progress : (pass s now available organizationOrder p).2 = true)
      (rest : Loops s now available organizationOrder
        (pass s now available organizationOrder p).1 q) :
      Loops s now available organizationOrder p q

/-- **The loop terminates**: every round but the last selects something, so
`available` rounds are enough. -/
theorem selectLoop_loops (orgs : List Nat) (fuel : Nat) :
    ∀ p : Pick, available ≤ p.selected.length + fuel →
      Loops s now available orgs p (selectLoop s now available orgs fuel p) := by
  induction fuel with
  | zero =>
    intro p hfuel
    exact Loops.full p (by omega)
  | succ _ ih =>
    intro p hfuel
    obtain ⟨-, -, hgrows⟩ : Moves s now available p _ ∧ _ ∧ _ := pass_spec orgs p
    unfold selectLoop
    dsimp only
    by_cases hfull : available ≤ p.selected.length
    · rw [if_pos hfull]
      exact Loops.full p hfull
    · rw [if_neg hfull]
      by_cases hprogress : (pass s now available orgs p).2 = true
      · rw [if_pos hprogress]
        have hmore := hgrows hprogress
        exact Loops.again p _ (not_le.mp hfull) hprogress (ih _ (by omega))
      · rw [if_neg hprogress]
        exact Loops.idle p (not_le.mp hfull) (Bool.eq_false_iff.mpr hprogress)

/-- **With a slot left at the end, no tenant of the rotation is eligible.** -/
theorem Loops.exit (h : Loops s now available orgs p q) (hshort : q.selected.length < available) :
    ∀ org ∈ orgs, ¬ q.Eligible s now org := by
  induction h with
  | full => omega
  | idle p short still =>
    -- nobody was eligible before the last round, and eligibility is never gained
    intro org horg heligible
    have hbefore := eligible_moves (pass_spec orgs p).1 heligible
    exact pass_idle orgs p short still org horg hbefore
  | again _ _ _ _ _ ih => exact ih hshort

/-! ## §2. The queues. -/

/-- What was selected of a queue is its front, in order. -/
def Served (candidates : List Delivery) (p : Pick) : Prop :=
  ∀ org ep, p.selected.filter (inQueue org ep) ++ p.grouped org ep
    = candidates.filter (inQueue org ep)

theorem served_move (hg : Grouped candidates p) (hp : Served candidates p)
    (h : Move s now available p q) : Served candidates q := by
  cases h with
  | rotate => exact hp
  | wake => exact hp
  | take org ep d _ queue =>
    obtain ⟨-, horg, hep⟩ := hg.queued org ep d (by rw [queue]; exact mem_cons_self)
    intro org' ep'
    rw [grouped_take]
    show (p.selected ++ [d]).filter (inQueue org' ep') ++ _ = _
    rw [filter_append, ← hp org' ep']
    by_cases hself : org' = org ∧ ep' = ep
    · -- the head moves from the queue to the end of what was selected
      obtain ⟨rfl, rfl⟩ := hself
      have hin : inQueue org' ep' d = true := inQueue_iff.mpr ⟨horg, hep⟩
      rw [if_pos ⟨rfl, rfl⟩, queue, filter_cons_of_pos hin, filter_nil, append_assoc]
      rfl
    · have hout : ¬ inQueue org' ep' d = true := by
        intro hin
        obtain ⟨horg', hep'⟩ := inQueue_iff.mp hin
        exact hself ⟨horg'.symm.trans horg, hep'.symm.trans hep⟩
      rw [if_neg hself, filter_cons_of_neg hout, filter_nil, append_nil]

/-- Every endpoint with a queue is in its tenant's deque. -/
def Enqueued (p : Pick) : Prop :=
  ∀ org ep, p.grouped org ep ≠ [] → ep ∈ p.endpointOrder org

theorem enqueued_move (hp : Enqueued p) (h : Move s now available p q) : Enqueued q := by
  cases h with
  | rotate org order perm =>
    intro org' ep' hqueue
    have hold : ep' ∈ p.endpointOrder org' := hp org' ep' hqueue
    show ep' ∈ Function.update p.endpointOrder org order org'
    by_cases horg : org' = org
    · subst horg
      rw [update_self]
      exact perm.mem_iff.mpr hold
    · rw [update_of_ne horg]
      exact hold
  | wake => exact hp
  | take org ep _ _ queue =>
    intro org' ep' hqueue
    apply hp org' ep'
    rw [grouped_take] at hqueue
    by_cases hself : org' = org ∧ ep' = ep
    · rw [hself.1, hself.2, queue]
      simp
    · rw [if_neg hself] at hqueue
      exact hqueue

/-! ## §3. The balances. -/

/-- The retries of an endpoint among some deliveries. -/
def retriesOf (ep : Nat) (l : List Delivery) : Nat :=
  l.countP fun d => decide (d.endpointId = ep) && decide (0 < d.attemptCount)

/-- The deliveries of an endpoint among some deliveries. -/
def countOf (ep : Nat) (l : List Delivery) : Nat :=
  l.countP fun d => decide (d.endpointId = ep)

/-- The balances since the state `start`: each delivery has cost its endpoint
one token, each retry one retry token; the rows say what the memory says. -/
structure Spent (start p : Pick) : Prop where
  balance : ∀ ep, p.endpointBalances ep = start.endpointBalances ep - countOf ep p.selected
  retryBalance : ∀ ep,
    p.endpointRetryBalances ep = start.endpointRetryBalances ep - retriesOf ep p.selected
  stored : ∀ ep, (p.endpointStates ep).deliveryTokens = p.endpointBalances ep
  retryStored : ∀ ep, (p.endpointStates ep).retryTokens = p.endpointRetryBalances ep
  moment : ∀ ep, (p.endpointStates ep).retryRefilledAt = (start.endpointStates ep).retryRefilledAt
  nonneg : ∀ ep, 0 ≤ p.endpointBalances ep
  retryNonneg : ∀ ep, 0 ≤ p.endpointRetryBalances ep

/-- The balance of the endpoint that is served goes down by one. -/
theorem balance_spent {f g : Nat → ℚ} (hf : ∀ ep, f ep = g ep - countOf ep l) (ep : Nat) :
    Function.update f d.endpointId (f d.endpointId - 1) ep = g ep - countOf ep (l ++ [d]) := by
  unfold countOf at hf ⊢
  rw [countP_append, countP_singleton]
  by_cases hep : ep = d.endpointId
  · subst hep
    rw [update_self, hf, if_pos (decide_eq_true rfl)]
    push_cast
    ring
  · rw [update_of_ne hep, hf, if_neg (by simpa using Ne.symm hep), Nat.add_zero]

/-- The retry balance goes down by one for a retry, and not at all for a
first attempt. -/
theorem retryBalance_spent {f g : Nat → ℚ} (hf : ∀ ep, f ep = g ep - retriesOf ep l) (ep : Nat) :
    (if 0 < d.attemptCount then Function.update f d.endpointId (f d.endpointId - 1) else f) ep
      = g ep - retriesOf ep (l ++ [d]) := by
  unfold retriesOf at hf ⊢
  rw [countP_append, countP_singleton]
  by_cases hretry : 0 < d.attemptCount
  · rw [if_pos hretry]
    by_cases hep : ep = d.endpointId
    · subst hep
      rw [update_self, hf, if_pos (by simpa using hretry)]
      push_cast
      ring
    · rw [update_of_ne hep, hf, if_neg (by simp [Ne.symm hep]), Nat.add_zero]
  · rw [if_neg hretry, hf, if_neg (by simp [hretry]), Nat.add_zero]

/-- A property of every endpoint that holds where the function was changed. -/
theorem forall_update {β : Type} {f : Nat → β} {C : Nat → β → Prop} {v : β}
    (hv : C ep v) (hf : ∀ i, C i (f i)) : ∀ i, C i (Function.update f ep v i) :=
  (forall_update_iff f C).mpr ⟨hv, fun i _ => hf i⟩

theorem spent_wake {e : EndpointQuotaState} (hp : Spent start p)
    (hgate : (p.endpointStates ep).gate now = some e) : Spent start (p.setEndpoint ep e) := by
  -- the gate looks at the circuit and leaves the tokens alone
  have hkept : e.deliveryTokens = (p.endpointStates ep).deliveryTokens
      ∧ e.retryTokens = (p.endpointStates ep).retryTokens
      ∧ e.retryRefilledAt = (p.endpointStates ep).retryRefilledAt := by
    rcases EndpointQuotaState.gate_cases hgate with ⟨rfl, -⟩ | ⟨-, rfl⟩
    · exact ⟨rfl, rfl, rfl⟩
    · exact ⟨rfl, rfl, rfl⟩
  obtain ⟨hdelivery, hretry, hmoment⟩ := hkept
  refine ⟨hp.balance, hp.retryBalance, ?_, ?_, ?_, hp.nonneg, hp.retryNonneg⟩
  · exact forall_update
      (C := fun i (e : EndpointQuotaState) => e.deliveryTokens = p.endpointBalances i)
      (hdelivery.trans (hp.stored ep)) hp.stored
  · exact forall_update
      (C := fun i (e : EndpointQuotaState) => e.retryTokens = p.endpointRetryBalances i)
      (hretry.trans (hp.retryStored ep)) hp.retryStored
  · exact forall_update (C := fun i (e : EndpointQuotaState) =>
        e.retryRefilledAt = (start.endpointStates i).retryRefilledAt)
      (hmoment.trans (hp.moment ep)) hp.moment

theorem spent_take (hp : Spent start p) (hroom : p.hasRoom s d.endpointId d = true) :
    Spent start (p.take now org d.endpointId d rest) := by
  unfold hasRoom at hroom
  simp only [Bool.and_eq_true, Bool.or_eq_true, decide_eq_true_eq] at hroom
  obtain ⟨⟨-, htoken⟩, hretryToken⟩ := hroom
  have hbalances : (p.take now org d.endpointId d rest).endpointBalances
      = Function.update p.endpointBalances d.endpointId (p.endpointBalances d.endpointId - 1) := rfl
  have hretries : (p.take now org d.endpointId d rest).endpointRetryBalances
      = if 0 < d.attemptCount then
          Function.update p.endpointRetryBalances d.endpointId
            (p.endpointRetryBalances d.endpointId - 1)
        else p.endpointRetryBalances := rfl
  have hrows : (p.take now org d.endpointId d rest).endpointStates
      = Function.update p.endpointStates d.endpointId (p.takenEndpoint d.endpointId d) := rfl
  refine ⟨balance_spent hp.balance, retryBalance_spent hp.retryBalance, ?_, ?_, ?_, ?_, ?_⟩
  · intro ep
    rw [hrows, hbalances]
    by_cases hep : ep = d.endpointId
    · subst hep
      rw [update_self, update_self]
      rfl
    · rw [update_of_ne hep, update_of_ne hep]
      exact hp.stored ep
  · -- the row of a first attempt keeps its retry tokens
    intro ep
    rw [hrows, hretries]
    by_cases hep : ep = d.endpointId
    · subst hep
      rw [update_self]
      show (if 0 < d.attemptCount then p.endpointRetryBalances d.endpointId - 1
        else (p.endpointStates d.endpointId).retryTokens) = _
      by_cases hretry : 0 < d.attemptCount
      · rw [if_pos hretry, if_pos hretry, update_self]
      · rw [if_neg hretry, if_neg hretry]
        exact hp.retryStored d.endpointId
    · rw [update_of_ne hep, hp.retryStored ep]
      by_cases hretry : 0 < d.attemptCount
      · rw [if_pos hretry, update_of_ne hep]
      · rw [if_neg hretry]
  · rw [hrows]
    exact forall_update (C := fun i (e : EndpointQuotaState) =>
        e.retryRefilledAt = (start.endpointStates i).retryRefilledAt)
      (hp.moment d.endpointId) hp.moment
  · rw [hbalances]
    exact forall_update (C := fun _ x => 0 ≤ x) (sub_nonneg.mpr htoken) hp.nonneg
  · rw [hretries]
    by_cases hretry : 0 < d.attemptCount
    · rw [if_pos hretry]
      have hone : 1 ≤ p.endpointRetryBalances d.endpointId := by
        rcases hretryToken with hfirst | hone
        · omega
        · exact hone
      exact forall_update (C := fun _ x => 0 ≤ x) (sub_nonneg.mpr hone) hp.retryNonneg
    · rw [if_neg hretry]
      exact hp.retryNonneg

theorem spent_move (hg : Grouped candidates p) (hp : Spent start p)
    (h : Move s now available p q) : Spent start q := by
  cases h with
  | rotate =>
    exact ⟨hp.balance, hp.retryBalance, hp.stored, hp.retryStored, hp.moment, hp.nonneg,
      hp.retryNonneg⟩
  | wake _ _ hgate => exact spent_wake hp hgate
  | take org ep d _ queue _ _ hroom =>
    obtain ⟨-, -, rfl⟩ := hg.queued org ep d (by rw [queue]; exact mem_cons_self)
    exact spent_take hp hroom

/-! ## §4. The heads that are passed by. -/

/-- Why the head `d` of the endpoint's queue is not taken: one constructor
for each `continue` behind `if not queue`. -/
inductive Blocked (s : Settings) (now : Time) (p : Pick) (ep : Nat) (d : Delivery) : Prop where
  | paused (since : (p.endpointStates ep).pausedAt.isSome = true)
  | circuit (opened : (p.endpointStates ep).circuitState = .opened)
      (later : ¬ ∃ t, (p.endpointStates ep).circuitOpenUntil = some t ∧ t ≤ now)
  | probe (halfOpen : (p.endpointStates ep).circuitState = .halfOpen) (id : Nat)
      (reserved : (p.endpointStates ep).halfOpenProbeDeliveryId = some id) (other : id ≠ d.id)
  | concurrency (full : s.endpointConcurrency ≤ p.endpointCounts ep)
  | rate (empty : p.endpointBalances ep < 1)
  | retryBudget (retry : 0 < d.attemptCount) (empty : p.endpointRetryBalances ep < 1)

/-- A delivery does not pass: pause, circuit or probe. -/
theorem blocked_of_passes
    (h : (p.endpointStates ep).passes now d.id = false) : Blocked s now p ep d := by
  unfold EndpointQuotaState.passes at h
  by_cases hpaused : (p.endpointStates ep).pausedAt.isSome = true
  · exact Blocked.paused hpaused
  · have hrunning : (p.endpointStates ep).pausedAt.isNone = true := by
      simpa using hpaused
    rw [hrunning, Bool.true_and] at h
    cases hstate : (p.endpointStates ep).circuitState with
    | closed =>
      rw [hstate] at h
      cases h
    | opened =>
      rw [hstate] at h
      apply Blocked.circuit hstate
      rintro ⟨t, ht, hle⟩
      rw [ht] at h
      simp [hle] at h
    | halfOpen =>
      rw [hstate] at h
      cases hprobe : (p.endpointStates ep).halfOpenProbeDeliveryId with
      | none =>
        rw [hprobe] at h
        cases h
      | some id =>
        rw [hprobe] at h
        exact Blocked.probe hstate id hprobe (by simpa using h)

/-- There is no room: concurrency, rate or retry budget. -/
theorem blocked_of_hasRoom (h : p.hasRoom s ep d = false) : Blocked s now p ep d := by
  by_cases hcount : p.endpointCounts ep < s.endpointConcurrency
  · by_cases hbalance : 1 ≤ p.endpointBalances ep
    · unfold hasRoom at h
      rw [decide_eq_true hcount, decide_eq_true hbalance, Bool.true_and, Bool.true_and,
        Bool.or_eq_false_iff, decide_eq_false_iff_not, decide_eq_false_iff_not] at h
      exact Blocked.retryBudget (Nat.pos_of_ne_zero h.1) (not_le.mp h.2)
    · exact Blocked.rate (not_le.mp hbalance)
  · exact Blocked.concurrency (not_lt.mp hcount)

/-- **A head that is not ready is blocked.** -/
theorem blocked_of_not_ready
    (hhead : (p.grouped org ep).head? = some d) (h : ¬ p.ready s now org ep = true) :
    Blocked s now p ep d := by
  by_cases hpasses : (p.endpointStates ep).passes now d.id = true
  · by_cases hroom : p.hasRoom s ep d = true
    · exact absurd (ready_iff.mpr ⟨d, hhead, hpasses, hroom⟩) h
    · exact blocked_of_hasRoom (Bool.eq_false_iff.mpr hroom)
  · exact blocked_of_passes (Bool.eq_false_iff.mpr hpasses)

/-! ## §5. The endpoint at the moment of a selection. -/

/-- What the loop has found of the endpoint when it takes the delivery. -/
structure Admits (e : EndpointQuotaState) (d : Delivery) : Prop where
  running : e.pausedAt = none
  circuit : e.circuitState = .closed ∨ (e.circuitState = .halfOpen
    ∧ (e.halfOpenProbeDeliveryId = none ∨ e.halfOpenProbeDeliveryId = some d.id))

/-- Behind the gate and the probe's test. -/
theorem admits_of_passes {e : EndpointQuotaState} (h : e.passes now d.id = true) :
    ∃ e', e.gate now = some e' ∧ Admits e' d := by
  rw [← EndpointQuotaState.gate_any] at h
  obtain ⟨e', hgate, hprobe⟩ := (Option.any_eq_true _ _).mp h
  refine ⟨e', hgate, ?_, ?_⟩
  · have hidem := EndpointQuotaState.gate_idem hgate
    unfold EndpointQuotaState.gate at hidem
    by_cases hpaused : e'.pausedAt.isSome = true
    · rw [if_pos hpaused] at hidem
      cases hidem
    · simpa using hpaused
  · have hopened : e'.circuitState ≠ .opened :=
      EndpointQuotaState.not_opened_of_gate (EndpointQuotaState.gate_idem hgate)
    unfold EndpointQuotaState.probeAdmits at hprobe
    cases hstate : e'.circuitState with
    | closed => exact Or.inl rfl
    | opened => exact absurd hstate hopened
    | halfOpen =>
      refine Or.inr ⟨rfl, ?_⟩
      cases hid : e'.halfOpenProbeDeliveryId with
      | none => exact Or.inl rfl
      | some id =>
        rw [hstate, hid] at hprobe
        have hsame : id = d.id := by simpa using hprobe
        exact Or.inr (congrArg some hsame)

/-- The endpoint of a selection point lets its delivery through. -/
def AdmittedAt (now : Time) (x : Point) : Prop :=
  ∃ e, (x.before.endpointStates x.delivery.endpointId).gate now = some e ∧ Admits e x.delivery

theorem turn_admitted (hp : Grouped candidates p) (h : Turn s now org p r) :
    ∀ x ∈ turnLog now p r.1, AdmittedAt now x := by
  intro x hx
  cases h with
  | served _ _ _ _ _ _ _ ready head selected =>
    rw [turnLog_served selected] at hx
    rw [mem_singleton.mp hx]
    obtain ⟨-, rfl⟩ := hp.head head
    obtain ⟨d', hhead', hpasses, -⟩ := ready_iff.mp ready
    rw [head] at hhead'
    obtain rfl := Option.some.inj hhead'
    exact admits_of_passes hpasses
  | idle _ _ selected =>
    rw [turnLog_idle selected] at hx
    cases hx

/-- **Every selection of the loop** was of an endpoint that lets it through. -/
theorem loop_admitted (hids : (candidates.map Delivery.id).Nodup) (orgs : List Nat) (fuel : Nat)
    (hp : Grouped candidates p) :
    ∀ x ∈ loopLog s now available orgs fuel p, AdmittedAt now x := by
  intro x hx
  obtain ⟨hbefore, org, r, hturn, hmem, -⟩ := loop_turns orgs fuel p x hx
  exact turn_admitted (hbefore.grouped hids hp) hturn x hmem

end Pick

/-! ## §6. The whole choice. -/

namespace Reads

/-- The retry and delivery balances of the rows that were read. -/
def NonnegativeBalances (r : Reads) : Prop :=
  ∀ ep, 0 ≤ (r.endpointStates ep).deliveryTokens ∧ 0 ≤ (r.endpointStates ep).retryTokens

/-- Every endpoint belongs to one tenant. -/
def OneTenant (r : Reads) : Prop :=
  ∀ d ∈ r.candidates, ∀ d' ∈ r.candidates, d.endpointId = d'.endpointId →
    d.organizationId = d'.organizationId

/-- The candidates of an endpoint, in the order of the scan. -/
def queueOf (r : Reads) (ep : Nat) : List Delivery :=
  r.candidates.filter fun d => decide (d.endpointId = ep)

/-- The selection points of the choice. -/
def log (s : Settings) (now : Time) (available : Nat) (r : Reads) : List Point :=
  Pick.loopLog s now available r.organizationOrder available (r.start s now)

variable {r : Reads}

theorem start_spent (hs : s.Accepted) (hr : r.NonnegativeBalances) :
    Pick.Spent (r.start s now) (r.start s now) := by
  have hrefilled : ∀ {tokens : ℚ} {at₀ : Time} {rate : ℚ} {cap : Nat}, 0 < rate → 0 ≤ tokens →
      0 ≤ (consumeTokens tokens at₀ rate cap 0 now s.quotaRetryAfterMaxSeconds).tokens := by
    intro tokens at₀ rate cap hrate htokens
    have hlevel := congrArg TokenBucket.Bucket.level
      (consumeTokens_refines_draw tokens at₀ rate cap 0 now s.quotaRetryAfterMaxSeconds)
    have hdraw : 0 ≤ (TokenBucket.draw rate (cap : ℚ) (bucket tokens at₀)
        ⟨((0 : ℕ) : ℚ), now⟩).level :=
      TokenBucket.draw_level_nonneg hrate.le (Nat.cast_nonneg _) htokens
    rw [← hlevel] at hdraw
    exact hdraw
  refine ⟨fun ep => ?_, fun ep => ?_, fun _ => rfl, fun _ => rfl, fun _ => rfl, ?_, ?_⟩
  · show (_ : ℚ) = _ - ((0 : ℕ) : ℚ)
    rw [Nat.cast_zero, sub_zero]
  · show (_ : ℚ) = _ - ((0 : ℕ) : ℚ)
    rw [Nat.cast_zero, sub_zero]
  · exact fun ep => hrefilled hs.endpointRate (hr ep).1
  · exact fun ep => hrefilled hs.retryRate (hr ep).2

theorem start_enqueued (s : Settings) (now : Time) (r : Reads) : (r.start s now).Enqueued := by
  intro org ep hqueue
  obtain ⟨d, hd⟩ := exists_mem_of_ne_nil _ hqueue
  obtain ⟨hmem, hin⟩ := mem_filter.mp hd
  rw [Bool.and_eq_true, decide_eq_true_eq, decide_eq_true_eq] at hin
  apply rotateAfter_sortedSet_mem.mpr
  rw [← hin.2]
  exact mem_map_of_mem (mem_filter.mpr ⟨hmem, decide_eq_true hin.1⟩)

/-- The queues at the end of the loop. -/
theorem choose_queues (s : Settings) (now : Time) (available : Nat)
    (hids : (r.candidates.map Delivery.id).Nodup) :
    Pick.Grouped r.candidates (r.choose s now available)
      ∧ Pick.Served r.candidates (r.choose s now available)
      ∧ (r.choose s now available).Enqueued := by
  refine (Pick.selectLoop_moves r.organizationOrder available (r.start s now)).inv
    (I := fun p => Pick.Grouped r.candidates p ∧ Pick.Served r.candidates p ∧ p.Enqueued) ?_ ?_
  · intro p q hp hmove
    exact ⟨Pick.grouped_move hids p q hp.1 hmove, Pick.served_move hp.1 hp.2.1 hmove,
      Pick.enqueued_move hp.2.2 hmove⟩
  · exact ⟨r.start_grouped s now hids, fun _ _ => rfl, start_enqueued s now r⟩
theorem log_logged (s : Settings) (now : Time) (n : Nat)
    (hids : (r.candidates.map Delivery.id).Nodup) :
    Logged (r.start s now) (r.log s now n) (r.choose s now n) :=
  Pick.loop_logged hids _ _ _ (r.start_grouped s now hids)

theorem log_turns (s : Settings) (now : Time) (n : Nat) (r : Reads) : ∀ x ∈ r.log s now n,
    Pick.TurnAt s now n (r.start s now) (r.choose s now n) x :=
  Pick.loop_turns _ _ _

theorem log_fair (hids : (r.candidates.map Delivery.id).Nodup) (org ep : Nat) :
    ∀ x ∈ r.log s now n, x.FairTo s org ∧ x.FairToEndpoint s org ep :=
  Pick.loop_fair hids _ _ (r.start_riding s now hids org ep)

/-- Everything the loop keeps, of the working state it ends in. -/
theorem choose_spec (now : Time) (available : Nat)
    (hids : (r.candidates.map Delivery.id).Nodup) (hs : s.Accepted)
    (hr : r.NonnegativeBalances) :
    Pick.Grouped r.candidates (r.choose s now available)
      ∧ Pick.Served r.candidates (r.choose s now available)
      ∧ (r.choose s now available).Enqueued
      ∧ Pick.Spent (r.start s now) (r.choose s now available) := by
  obtain ⟨hgrouped, hserved, henqueued⟩ := choose_queues s now available hids
  have hmoves : Pick.Moves s now available (r.start s now) (r.choose s now available) :=
    Pick.selectLoop_moves r.organizationOrder available _
  have hspent := hmoves.inv
    (I := fun p => Pick.Grouped r.candidates p ∧ Pick.Spent (r.start s now) p)
    (fun p q hp hmove => ⟨Pick.grouped_move hids p q hp.1 hmove, Pick.spent_move hp.1 hp.2 hmove⟩)
    ⟨r.start_grouped s now hids, start_spent hs hr⟩
  exact ⟨hgrouped, hserved, henqueued, hspent.2⟩

/-- In a list of candidates an endpoint's deliveries are those of one of the
queues. -/
theorem filter_endpoint (hone : r.OneTenant) {l : List Delivery} (hl : ∀ d ∈ l, d ∈ r.candidates)
    (hqueue : ∃ d ∈ r.candidates, d.organizationId = org ∧ d.endpointId = ep) :
    l.filter (fun d => decide (d.endpointId = ep)) = l.filter (inQueue org ep) := by
  obtain ⟨d₀, hd₀, rfl, rfl⟩ := hqueue
  apply filter_congr
  intro d hd
  by_cases hep : d.endpointId = d₀.endpointId
  · have horg := hone d (hl d hd) d₀ hd₀ hep
    unfold inQueue
    rw [decide_eq_true horg, Bool.true_and]
  · unfold inQueue
    rw [decide_eq_false hep, Bool.and_false]

/-- **An endpoint is served from the front of its queue.** -/
theorem choose_front (now : Time) (available : Nat)
    (hids : (r.candidates.map Delivery.id).Nodup) (hs : s.Accepted)
    (hr : r.NonnegativeBalances) (hone : r.OneTenant)
    (hqueue : ∃ d ∈ r.candidates, d.organizationId = org ∧ d.endpointId = ep) :
    (r.choose s now available).selected.filter (fun d => decide (d.endpointId = ep))
        ++ (r.choose s now available).grouped org ep = r.queueOf ep := by
  obtain ⟨hgrouped, hserved, -, -⟩ := choose_spec now available hids hs hr
  unfold queueOf
  rw [filter_endpoint hone hgrouped.chosen hqueue, filter_endpoint hone (fun d hd => hd) hqueue]
  exact hserved org ep

/-- **With a slot left, every head that still waits is blocked.** -/
theorem choose_exit (hids : (r.candidates.map Delivery.id).Nodup) (hs : s.Accepted)
    (hr : r.NonnegativeBalances) (hshort : (r.choose s now available).selected.length < available)
    (hbelow : (r.choose s now available).tenantCounts org < s.tenantInFlightDeliveries)
    (hhead : ((r.choose s now available).grouped org ep).head? = some d) :
    Pick.Blocked s now (r.choose s now available) ep d := by
  obtain ⟨hgrouped, -, henqueued, -⟩ := choose_spec now available hids hs hr
  have hloops : Pick.Loops s now available r.organizationOrder (r.start s now)
      (r.choose s now available) := Pick.selectLoop_loops r.organizationOrder available _ (by omega)
  obtain ⟨hmem, horg, -⟩ := hgrouped.queued org ep d (mem_of_head? hhead)
  have hturn : org ∈ r.organizationOrder := by
    apply rotateAfter_sortedSet_mem.mpr
    rw [← horg]
    exact mem_map_of_mem hmem
  have hdeque : ep ∈ (r.choose s now available).endpointOrder org := by
    apply henqueued org ep
    exact ne_nil_of_mem (mem_of_head? hhead)
  apply Pick.blocked_of_not_ready hhead
  intro hready
  exact hloops.exit hshort org hturn ⟨hbelow, ep, hdeque, hready⟩

/-- What the loop guarantees of the working state `p` it ends in. -/
structure Postcondition (s : Settings) (now : Time) (available : Nat) (r : Reads) (p : Pick) :
    Prop where
  /-- The loop, without fuel, ends in `p`. -/
  terminates : Pick.Loops s now available r.organizationOrder (r.start s now) p
  nodup : (p.selected.map Delivery.id).Nodup
  length : p.selected.length ≤ available
  /-- An endpoint is served from the front of its queue, in order. -/
  front : ∀ ep, (p.selected.filter fun d => decide (d.endpointId = ep)) <+: r.queueOf ep
  /-- The selection points are those of the selected deliveries. -/
  logged : (r.log s now available).map Point.delivery = p.selected
  /-- At each of them the endpoint was unpaused, and closed or half open for
  this delivery. -/
  admitted : ∀ x ∈ r.log s now available, Pick.AdmittedAt now x
  /-- The stored balances are the refilled ones minus what was selected. -/
  balance : ∀ ep, (p.endpointStates ep).deliveryTokens
    = (refillEndpoint s now (r.endpointStates ep)).deliveryTokens - Pick.countOf ep p.selected
  retryBalance : ∀ ep, (p.endpointStates ep).retryTokens
    = (refillEndpoint s now (r.endpointStates ep)).retryTokens - Pick.retriesOf ep p.selected
  nonneg : ∀ ep, 0 ≤ (p.endpointStates ep).deliveryTokens
  retryNonneg : ∀ ep, 0 ≤ (p.endpointStates ep).retryTokens
  /-- The rows of the candidates' endpoints are the ones the transaction
  leaves in the table. -/
  stored : (∀ ep, (r.endpointStates ep).endpointId = ep) → ∀ db, ∀ ep ∈ r.endpointIds,
    (r.store s now p db).endpointStates.find? ep = some (p.endpointStates ep)
  /-- With a slot left, every tenant below its cap has only blocked heads. -/
  blocked : p.selected.length < available → ∀ org,
    p.tenantCounts org < s.tenantInFlightDeliveries → ∀ ep d,
      (p.grouped org ep).head? = some d → Pick.Blocked s now p ep d
  /-- What is left of a queue is what was not selected of it. -/
  remaining : ∀ org ep, (∃ d ∈ r.candidates, d.organizationId = org ∧ d.endpointId = ep) →
    (p.selected.filter fun d => decide (d.endpointId = ep)) ++ p.grouped org ep = r.queueOf ep

end Reads

/-- **THE POSTCONDITION OF THE SELECTION LOOP.**  For every list of
candidates without a duplicate in which each endpoint belongs to one tenant,
whatever the cursors, the live counts, the nonnegative balances, the pauses
and the circuits are. -/
theorem selection_postcondition (s : Settings) (now : Time) (available : Nat) (r : Reads)
    (haccepted : s.accepted = true) (hids : (r.candidates.map Delivery.id).Nodup)
    (hone : r.OneTenant) (hbalances : r.NonnegativeBalances) :
    r.Postcondition s now available (r.choose s now available) := by
  have hs := Settings.accepted_spec haccepted
  obtain ⟨hgrouped, hserved, -, hspent⟩ :=
    Reads.choose_spec now available hids hs hbalances
  have hchoice := Reads.choose_choice s now available r hids
  have hlogged := Reads.log_logged s now available hids
  refine
    { terminates := Pick.selectLoop_loops r.organizationOrder available _ (by omega)
      nodup := hchoice.nodup
      length := hchoice.slots
      front := ?_
      logged := hlogged.selected.symm
      admitted := Pick.loop_admitted hids r.organizationOrder available
        (r.start_grouped s now hids)
      balance := fun ep => (hspent.stored ep).trans (hspent.balance ep)
      retryBalance := fun ep => (hspent.retryStored ep).trans (hspent.retryBalance ep)
      nonneg := ?_
      retryNonneg := ?_
      stored := ?_
      blocked := fun hshort org hbelow ep d hhead =>
        Reads.choose_exit hids hs hbalances hshort hbelow hhead
      remaining := fun org ep hqueue =>
        Reads.choose_front now available hids hs hbalances hone hqueue }
  · intro ep
    by_cases hqueue : ∃ d ∈ r.candidates, d.endpointId = ep
    · obtain ⟨d, hd, hep⟩ := hqueue
      rw [← Reads.choose_front now available hids hs hbalances hone
        ⟨d, hd, rfl, hep⟩]
      exact prefix_append _ _
    · -- nothing waits for the endpoint, so nothing was selected for it
      have hnone : (r.choose s now available).selected.filter
          (fun d => decide (d.endpointId = ep)) = [] := by
        apply filter_eq_nil_iff.mpr
        intro d hd hep
        exact hqueue ⟨d, hgrouped.chosen d hd, of_decide_eq_true hep⟩
      rw [hnone]
      exact nil_prefix
  · intro ep
    rw [hspent.stored ep]
    exact hspent.nonneg ep
  · intro ep
    rw [hspent.retryStored ep]
    exact hspent.retryNonneg ep
  · intro hkeys db ep hep
    rw [Reads.find?_store_endpoint (Reads.choose_endpointKey hkeys), if_pos hep]

/-- Two deliveries of one endpoint that may have a single one in flight, and
one retry of another. -/
def threeWaiting : Reads where
  globalState := ⟨none, 0, 0⟩
  candidates :=
    [newDelivery 1 1 "delivery-1" smallEndpoint 0 1,
      { newDelivery 1 1 "delivery-2" { smallEndpoint with id := 2 } 0 2 with attemptCount := 1 },
      newDelivery 1 2 "delivery-3" smallEndpoint 0 3]
  tenantStates := fun o => tenantQuotaValues o Settings.defaults 0
  endpointStates := fun ep => endpointQuotaValues ep Settings.defaults 0
  tenantCounts := fun _ => 0
  endpointCounts := fun _ => Settings.defaults.endpointConcurrency - 1

/-- With three slots the loop takes the two heads and leaves the delivery
whose endpoint is full. -/
theorem selection_postcondition_three :
    ((threeWaiting.choose Settings.defaults 0 3).selected.map Delivery.id = [1, 2])
      ∧ threeWaiting.Postcondition Settings.defaults 0 3
        (threeWaiting.choose Settings.defaults 0 3) := by
  refine ⟨by decide +kernel, ?_⟩
  apply selection_postcondition Settings.defaults 0 3 threeWaiting Settings.defaults_accepted
  · decide
  · unfold Reads.OneTenant
    decide
  · intro ep
    exact ⟨Nat.cast_nonneg _, Nat.cast_nonneg _⟩

/-! ## §7. Retries in front of first attempts. -/

namespace Pick

/-- The endpoint is neither paused nor is its circuit open or half open. -/
def Healthy (ep : Nat) (p : Pick) : Prop :=
  (p.endpointStates ep).pausedAt = none ∧ (p.endpointStates ep).circuitState = .closed

theorem healthy_move (hp : Healthy ep p) (h : Move s now available p q) : Healthy ep q := by
  cases h with
  | rotate => exact hp
  | wake ep' e hgate =>
    show (Function.update p.endpointStates ep' e ep).pausedAt = none
      ∧ (Function.update p.endpointStates ep' e ep).circuitState = .closed
    by_cases hep : ep = ep'
    · subst hep
      rw [update_self]
      rcases EndpointQuotaState.gate_cases hgate with ⟨rfl, -⟩ | ⟨hopened, -⟩
      · exact hp
      · rw [hp.2] at hopened
        cases hopened
    · rw [update_of_ne hep]
      exact hp
  | take _ ep' d =>
    show (Function.update p.endpointStates ep' (p.takenEndpoint ep' d) ep).pausedAt = none
      ∧ (Function.update p.endpointStates ep' (p.takenEndpoint ep' d) ep).circuitState = .closed
    by_cases hep : ep = ep'
    · subst hep
      rw [update_self]
      exact hp
    · rw [update_of_ne hep]
      exact hp

end Pick

/-- The retries that wait in front of the delivery. -/
def retriesAhead (queue : List Delivery) (d : Delivery) : Nat :=
  (queue.takeWhile fun x => decide (x.id ≠ d.id)).countP fun x => decide (0 < x.attemptCount)

/-- Behind a front that holds the delivery the queue does not matter. -/
theorem retriesAhead_front (rest : List Delivery) (hd : d ∈ front) :
    retriesAhead (front ++ rest) d ≤ front.countP fun x => decide (0 < x.attemptCount) := by
  have hstop : (front ++ rest).takeWhile (fun x => decide (x.id ≠ d.id))
      = front.takeWhile fun x => decide (x.id ≠ d.id) := by
    rw [takeWhile_append, if_neg]
    intro hall
    have hself := mem_takeWhile_imp (( takeWhile_prefix _).eq_of_length hall ▸ hd)
    exact absurd hself (by simp)
  unfold retriesAhead
  rw [hstop]
  exact List.Sublist.countP_le (takeWhile_sublist _)

/-- Everything in a front without the delivery is ahead of it, and the head
of the rest as well. -/
theorem retriesAhead_rest {d head : Delivery} (hd : ∀ x ∈ front, x.id ≠ d.id)
    (hhead : rest.head? = some head) (hne : head.id ≠ d.id) (hretry : 0 < head.attemptCount) :
    (front.countP fun x => decide (0 < x.attemptCount)) + 1 ≤ retriesAhead (front ++ rest) d := by
  have hall : front.takeWhile (fun x => decide (x.id ≠ d.id)) = front :=
    takeWhile_eq_self_iff.mpr fun x hx => decide_eq_true (hd x hx)
  unfold retriesAhead
  rw [takeWhile_append, if_pos (by rw [hall]), countP_append]
  cases rest with
  | nil => cases hhead
  | cons x rest =>
    obtain rfl := Option.some.inj hhead
    have hahead : (x :: rest).takeWhile (fun y => decide (y.id ≠ d.id))
        = x :: rest.takeWhile fun y => decide (y.id ≠ d.id) := by
      simp [hne]
    rw [hahead, countP_cons, if_pos (decide_eq_true hretry)]
    omega

namespace Reads

variable {r : Reads}

/-- Nothing but the retry budget limits the endpoint: the slots cover all
candidates, the tenant and the endpoint have room for theirs, the rate pays
for the whole queue, and neither pause nor circuit is in the way. -/
structure Unlimited (s : Settings) (now : Time) (available : Nat) (r : Reads) (ep : Nat) :
    Prop where
  slots : r.candidates.length ≤ available
  tenant : ∀ d ∈ r.candidates, d.endpointId = ep → r.tenantCounts d.organizationId
    + r.candidates.countP (fun x => decide (x.organizationId = d.organizationId))
      ≤ s.tenantInFlightDeliveries
  endpoint : r.endpointCounts ep + (r.queueOf ep).length ≤ s.endpointConcurrency
  rate : ((r.queueOf ep).length : ℚ)
    ≤ (refillEndpoint s now (r.endpointStates ep)).deliveryTokens
  running : (r.endpointStates ep).pausedAt = none
  circuit : (r.endpointStates ep).circuitState = .closed

/-- The endpoint's retry balance when the loop starts. -/
def retryBalance (s : Settings) (now : Time) (r : Reads) (ep : Nat) : ℚ :=
  (refillEndpoint s now (r.endpointStates ep)).retryTokens

theorem choose_healthy (h : r.Unlimited s now available ep) :
    Pick.Healthy ep (r.choose s now available) :=
  (Pick.selectLoop_moves r.organizationOrder available (r.start s now)).inv
    (I := Pick.Healthy ep) (fun _ _ hp hmove => Pick.healthy_move hp hmove)
    ⟨h.running, h.circuit⟩

/-- A sublist without one of the elements that count is shorter. -/
theorem countP_lt_of_missing {l m : List Delivery} (hnodup : (l.map Delivery.id).Nodup)
    (hsub : ∀ x ∈ l, x ∈ m) (hd : d ∈ m) (hC : C d = true) (hmissing : d ∉ l) :
    l.countP C < m.countP C := by
  have hcons : (d :: l).Nodup := nodup_cons.mpr ⟨hmissing, hnodup.of_map⟩
  have hperm : (d :: l).Subperm m := by
    apply hcons.subperm
    intro x hx
    rcases mem_cons.mp hx with rfl | hx
    · exact hd
    · exact hsub x hx
  have hle := hperm.countP_le C
  rw [countP_cons_of_pos hC] at hle
  omega

/-- A delivery that is left behind at such an endpoint waits behind a retry
without a token. -/
theorem waiting_blocked (hids : (r.candidates.map Delivery.id).Nodup)
    (hs : s.Accepted) (hr : r.NonnegativeBalances) (hone : r.OneTenant)
    (hfree : r.Unlimited s now available ep) (hd : d ∈ r.candidates)
    (hep : d.endpointId = ep) (hmissing : d ∉ (r.choose s now available).selected) :
    ∃ head, ((r.choose s now available).grouped d.organizationId ep).head? = some head
      ∧ 0 < head.attemptCount ∧ (r.choose s now available).endpointRetryBalances ep < 1 := by
  obtain ⟨hgrouped, hcounted⟩ := r.choose_counted s now available hids
  obtain ⟨-, -, -, hspent⟩ := choose_spec now available hids hs hr
  have hnodup := (choose_choice s now available r hids).nodup
  have hfront := choose_front now available hids hs hr hone ⟨d, hd, rfl, hep⟩
  -- fewer were selected than there are candidates, of all, of the tenant, of the endpoint
  have hfewer : ∀ C : Delivery → Bool, C d = true →
      (r.choose s now available).selected.countP C < r.candidates.countP C := fun C hC =>
    countP_lt_of_missing hnodup hgrouped.chosen hd hC hmissing
  have hshort : (r.choose s now available).selected.length < available := by
    have hlt := hfewer (fun _ => true) rfl
    have hslots := hfree.slots
    simp only [countP_true] at hlt
    omega
  have hbelow : (r.choose s now available).tenantCounts d.organizationId
      < s.tenantInFlightDeliveries := by
    rw [hcounted.tenant]
    have hlt := hfewer (fun x => decide (x.organizationId = d.organizationId)) (decide_eq_true rfl)
    have hroom := hfree.tenant d hd hep
    omega
  have hqueue : Pick.countOf ep (r.choose s now available).selected < (r.queueOf ep).length := by
    have hlt := hfewer (fun x => decide (x.endpointId = ep)) (decide_eq_true hep)
    unfold Pick.countOf queueOf
    rw [← countP_eq_length_filter]
    exact hlt
  -- the queue still has a head
  have hwaits : d ∈ (r.choose s now available).grouped d.organizationId ep := by
    have hmem : d ∈ r.queueOf ep := mem_filter.mpr ⟨hd, decide_eq_true hep⟩
    rw [← hfront] at hmem
    rcases mem_append.mp hmem with hin | hin
    · exact absurd (mem_filter.mp hin).1 hmissing
    · exact hin
  obtain ⟨head, hhead⟩ : ∃ head,
      ((r.choose s now available).grouped d.organizationId ep).head? = some head :=
    Option.isSome_iff_exists.mp (isSome_head?.mpr (ne_nil_of_mem hwaits))
  refine ⟨head, hhead, ?_⟩
  obtain ⟨hrunning, hclosed⟩ := choose_healthy hfree
  cases choose_exit hids hs hr hshort hbelow hhead with
  | paused since =>
    rw [hrunning] at since
    exact absurd since (by simp)
  | circuit opened =>
    rw [hclosed] at opened
    exact absurd opened (by simp)
  | probe halfOpen =>
    rw [hclosed] at halfOpen
    cases halfOpen
  | concurrency full =>
    rw [hcounted.endpoint] at full
    have hroom := hfree.endpoint
    unfold Pick.countOf at hqueue
    omega
  | rate empty =>
    have hpays := hfree.rate
    have hone : ((Pick.countOf ep (r.choose s now available).selected + 1 : ℕ) : ℚ)
        ≤ ((r.queueOf ep).length : ℕ) := Nat.cast_le.mpr hqueue
    rw [hspent.balance] at empty
    push_cast at hone
    have hstart : (r.start s now).endpointBalances ep
        = (refillEndpoint s now (r.endpointStates ep)).deliveryTokens := rfl
    rw [hstart] at empty
    linarith
  | retryBudget retry empty => exact ⟨retry, empty⟩

/-- **WHICH FIRST ATTEMPTS ARE SELECTED** at an endpoint that nothing else
limits: those with no more retries ahead of them than the balance pays
for. -/
theorem first_attempts_selected_iff (hids : (r.candidates.map Delivery.id).Nodup)
    (hs : s.Accepted) (hr : r.NonnegativeBalances) (hone : r.OneTenant)
    (hfree : r.Unlimited s now available ep) (hd : d ∈ r.candidates)
    (hep : d.endpointId = ep) (hfirst : d.attemptCount = 0) :
    d ∈ (r.choose s now available).selected
      ↔ (retriesAhead (r.queueOf ep) d : ℚ) ≤ r.retryBalance s now ep := by
  obtain ⟨hgrouped, -, -, hspent⟩ := choose_spec now available hids hs hr
  have hchoice := choose_choice s now available r hids
  have hfront := choose_front now available hids hs hr hone ⟨d, hd, rfl, hep⟩
  have hretries : ((r.choose s now available).selected.filter fun x =>
      decide (x.endpointId = ep)).countP (fun x => decide (0 < x.attemptCount))
        = Pick.retriesOf ep (r.choose s now available).selected := by
    unfold Pick.retriesOf
    rw [countP_filter]
    exact countP_congr fun x _ => by simp [and_comm]
  have hbalance : (r.choose s now available).endpointRetryBalances ep
      = r.retryBalance s now ep - Pick.retriesOf ep (r.choose s now available).selected :=
    hspent.retryBalance ep
  rw [← hfront]
  by_cases hselected : d ∈ (r.choose s now available).selected
  · -- the retries ahead of it were selected, so they were paid for
    refine iff_of_true hselected ?_
    have hmem : d ∈ (r.choose s now available).selected.filter fun x =>
        decide (x.endpointId = ep) := mem_filter.mpr ⟨hselected, decide_eq_true hep⟩
    have hahead := retriesAhead_front ((r.choose s now available).grouped d.organizationId ep) hmem
    rw [hretries] at hahead
    have hcast : (retriesAhead _ d : ℚ) ≤ (Pick.retriesOf ep _ : ℕ) := Nat.cast_le.mpr hahead
    have hnonneg := hspent.retryNonneg ep
    rw [hbalance] at hnonneg
    linarith
  · refine iff_of_false hselected ?_
    intro hpaid
    -- the delivery still waits, so its queue has a head, and the head is blocked
    obtain ⟨head, hhead, hretry, hempty⟩ := waiting_blocked hids hs hr hone hfree hd hep hselected
    have hsame : ∀ x ∈ r.candidates, x.id = d.id → x = d := fun x hx hid =>
      inj_on_of_nodup_map hids hx hd hid
    have hothers : ∀ x ∈ (r.choose s now available).selected.filter fun x =>
        decide (x.endpointId = ep), x.id ≠ d.id := by
      intro x hx hid
      have hx := (mem_filter.mp hx).1
      exact hselected (hsame x (hgrouped.chosen x hx) hid ▸ hx)
    have hbefore : head.id ≠ d.id := by
      intro hid
      have hmem := (hgrouped.queued _ _ head (mem_of_head? hhead)).1
      rw [hsame head hmem hid] at hretry
      omega
    have hahead := retriesAhead_rest hothers hhead hbefore hretry
    rw [hretries] at hahead
    rw [hbalance] at hempty
    have hcast : ((Pick.retriesOf ep (r.choose s now available).selected + 1 : ℕ) : ℚ)
        ≤ (retriesAhead _ d : ℕ) := Nat.cast_le.mpr hahead
    push_cast at hcast
    linarith

instance (s : Settings) (now : Time) (available : Nat) (r : Reads) (ep : Nat) :
    Decidable (r.Unlimited s now available ep) :=
  decidable_of_iff
    (r.candidates.length ≤ available
      ∧ (∀ d ∈ r.candidates, d.endpointId = ep → r.tenantCounts d.organizationId
        + r.candidates.countP (fun x => decide (x.organizationId = d.organizationId))
          ≤ s.tenantInFlightDeliveries)
      ∧ r.endpointCounts ep + (r.queueOf ep).length ≤ s.endpointConcurrency
      ∧ ((r.queueOf ep).length : ℚ) ≤ (refillEndpoint s now (r.endpointStates ep)).deliveryTokens
      ∧ (r.endpointStates ep).pausedAt = none ∧ (r.endpointStates ep).circuitState = .closed)
    ⟨fun ⟨h₁, h₂, h₃, h₄, h₅, h₆⟩ => ⟨h₁, h₂, h₃, h₄, h₅, h₆⟩,
      fun h => ⟨h.slots, h.tenant, h.endpoint, h.rate, h.running, h.circuit⟩⟩

end Reads

/-! ## §8. Two budgets for one endpoint. -/

/-- The database with other retry tokens in the endpoint's row. -/
def Db.withRetryTokens (db : Db) (endpointId : Nat) (tokens : ℚ) : Db :=
  { db with
    endpointStates := db.endpointStates.putAll
      ((db.endpointStates.find? endpointId).toList.map fun e => { e with retryTokens := tokens }) }

section Budgets

/-- Only the retry tokens of the one row differ. -/
theorem find?_withRetryTokens (db : Db) (ep ep' : Nat) (tokens : ℚ) :
    (db.withRetryTokens ep tokens).endpointStates.find? ep'
      = (db.endpointStates.find? ep').map fun e =>
          if ep' = ep then { e with retryTokens := tokens } else e := by
  unfold Db.withRetryTokens
  cases hrow : db.endpointStates.find? ep with
  | none =>
    show db.endpointStates.find? ep' = _
    by_cases hep : ep' = ep
    · rw [hep, hrow]
      rfl
    · simp [hep]
  | some e =>
    have hkey : e.endpointId = ep := Table.key_of_find? hrow
    show (db.endpointStates.put { e with retryTokens := tokens }).find? ep' = _
    by_cases hep : ep' = ep
    · have hput := Table.find?_put_self (b := { e with retryTokens := tokens }) hrow hkey
      rw [hep, hput, hrow]
      simp
    · have hput : (db.endpointStates.put { e with retryTokens := tokens }).find? ep'
          = db.endpointStates.find? ep' :=
        Table.find?_put_ne fun h => hep (h.symm.trans hkey)
      rw [hput]
      simp [hep]

theorem endpointState_withRetryTokens (s : Settings) (now : Time) (db : Db) (ep ep' : Nat)
    (tokens : ℚ) :
    endpointState s (db.withRetryTokens ep tokens) now ep' = endpointState s db now ep'
      ∨ endpointState s (db.withRetryTokens ep tokens) now ep'
        = { endpointState s db now ep' with retryTokens := tokens } := by
  unfold endpointState
  rw [find?_withRetryTokens]
  cases db.endpointStates.find? ep' with
  | none => exact Or.inl rfl
  | some =>
    by_cases hep : ep' = ep
    · simp [hep]
    · simp [hep]

/-- What the selection reads differs in the retry tokens only. -/
theorem readsAround_withRetryTokens (available ep : Nat) (tokens : ℚ) :
    readsAround s now available locked (db.withRetryTokens ep tokens)
      = { readsAround s now available locked db with
          endpointStates := endpointState s (db.withRetryTokens ep tokens) now } := rfl

/-- The other limits do not see the retry tokens. -/
theorem Reads.Unlimited.withRetryTokens {tokens : ℚ}
    (h : (readsAround s now available locked db).Unlimited s now available ep) :
    (readsAround s now available locked (db.withRetryTokens ep tokens)).Unlimited s now available
      ep := by
  rw [readsAround_withRetryTokens]
  obtain ⟨hrate, hrunning, hcircuit⟩ :
      (((readsAround s now available locked db).queueOf ep).length : ℚ)
        ≤ (refillEndpoint s now (endpointState s (db.withRetryTokens ep tokens) now
          ep)).deliveryTokens
      ∧ (endpointState s (db.withRetryTokens ep tokens) now ep).pausedAt = none
      ∧ (endpointState s (db.withRetryTokens ep tokens) now ep).circuitState = .closed := by
    rcases endpointState_withRetryTokens s now db ep ep tokens with hsame | hsame
    · rw [hsame]
      exact ⟨h.rate, h.running, h.circuit⟩
    · rw [hsame]
      exact ⟨h.rate, h.running, h.circuit⟩
  exact ⟨h.slots, h.tenant, h.endpoint, hrate, hrunning, hcircuit⟩

end Budgets

/-- **A LOW RETRY BUDGET SPARES THE FIRST ATTEMPTS BEHIND PAID RETRIES.**
Two selections that differ in one endpoint's stored retry tokens, with slots
for all candidates and nothing else that limits the endpoint: a first attempt
that is selected with `high` is selected with `low` exactly if `low` pays for
the retries ahead of it in the queue. -/
theorem retry_budget_spares_originals (s : Settings) (now : Time) (requested : Nat)
    (locked : List Nat) (db : Db) (ep : Nat) (low high : ℚ) (haccepted : s.accepted = true)
    (howned : ∀ x ∈ db.deliveries.rows, ∀ y ∈ db.deliveries.rows,
      x.endpointId = y.endpointId → x.organizationId = y.organizationId)
    (hbalances : ∀ e ∈ db.endpointStates.rows, 0 ≤ e.deliveryTokens ∧ 0 ≤ e.retryTokens)
    (hlow : 0 ≤ low)
    (hfree : (readsAround s now (availableSlots s now requested db) locked db).Unlimited s now
      (availableSlots s now requested db) ep)
    (d : Delivery) (hd : d ∈ (selectAround s now requested locked (db.withRetryTokens ep high)).2)
    (hep : d.endpointId = ep) (hfirst : d.attemptCount = 0) :
    d ∈ (selectAround s now requested locked (db.withRetryTokens ep low)).2
      ↔ (retriesAhead ((readsAround s now (availableSlots s now requested db) locked
            db).queueOf ep) d : ℚ)
        ≤ (readsAround s now (availableSlots s now requested db) locked
            (db.withRetryTokens ep low)).retryBalance s now ep := by
  have hs := Settings.accepted_spec haccepted
  -- both selections see the same candidates
  have hcandidate : d ∈ (readsAround s now (availableSlots s now requested db) locked
      db).candidates := by
    by_cases hslots : availableSlots s now requested db = 0
    · have hnone : (selectAround s now requested locked (db.withRetryTokens ep high)).2 = [] := by
        have hnoSlots : availableSlots s now requested
            (ensureGlobalState now (db.withRetryTokens ep high)) = 0 := hslots
        unfold selectAround
        dsimp only
        rw [if_pos (Or.inl hnoSlots)]
      rw [hnone] at hd
      cases hd
    · have hselected : (selectAround s now requested locked (db.withRetryTokens ep high)).2 = _ :=
        selectAround_selected hslots
      rw [hselected] at hd
      have hids : ((readsAround s now (availableSlots s now requested db) locked
          (db.withRetryTokens ep high)).candidates.map Delivery.id).Nodup :=
        (readsOf_nodup s now _ _).sublist (filter_sublist.map _)
      exact (Reads.choose_choice s now _ _ hids).subset d hd
  have hslots : availableSlots s now requested (db.withRetryTokens ep low) ≠ 0 := by
    have hcovered := hfree.slots
    have hsome := length_pos_of_mem hcandidate
    show availableSlots s now requested db ≠ 0
    omega
  rw [selectAround_selected hslots]
  apply Reads.first_attempts_selected_iff ?_ hs ?_ ?_ hfree.withRetryTokens hcandidate hep hfirst
  · exact (readsOf_nodup s now _ _).sublist (filter_sublist.map _)
  · -- the balances of the rows, and of the one that was changed
    have hread : ∀ ep', 0 ≤ (endpointState s db now ep').deliveryTokens
        ∧ 0 ≤ (endpointState s db now ep').retryTokens := fun ep' =>
      endpointState_forall (I := fun e => 0 ≤ e.deliveryTokens ∧ 0 ≤ e.retryTokens) hbalances
        (fun id => ⟨Nat.cast_nonneg _, Nat.cast_nonneg _⟩) ep'
    intro ep'
    show 0 ≤ (endpointState s (db.withRetryTokens ep low) now ep').deliveryTokens
      ∧ 0 ≤ (endpointState s (db.withRetryTokens ep low) now ep').retryTokens
    rcases endpointState_withRetryTokens s now db ep ep' low with hsame | hsame
    · rw [hsame]
      exact hread ep'
    · rw [hsame]
      exact ⟨(hread ep').1, hlow⟩
  · intro x hx y hy
    exact howned x (candidates_due (mem_filter.mp hx).1).1 y
      (candidates_due (mem_filter.mp hy).1).1

/-- One retry token, and one back for a success. -/
def oneRetry : Settings :=
  { Settings.defaults with endpointRetryBurst := 1, endpointRetrySuccessRefill := 1 }

/-- The project's second event. -/
def secondEvent : IngestCall :=
  { firstEvent with
    idempotencyKey := "key-2", eventPublicId := "event-2"
    deliveryPublicId := fun _ => "delivery-2" }

/-- A first delivery has failed once; a second one, never attempted, is due
before it. -/
def retryBehind : List (Time × Action) :=
  [(0, registerEndpoint), (0, .op (.ingest 1 firstEvent)), (0, .op (.claim 1 ["token-1"])),
    (0, .op (.ingest 1 secondEvent)), (1, .op (.finalize (firstClaim "token-1" 1) unavailable))]

/-- A retry waits behind a first attempt, which is selected with and without
a retry token. -/
theorem retry_budget_spares_originals_behind :
    ∃ u x, freshRun oneRetry retryBehind = some u ∧ x.id = 2 ∧ x.attemptCount = 0
      ∧ (selectAround oneRetry 1 2 [] (u.db.withRetryTokens 1 1)).2.map Delivery.id = [2, 1]
      ∧ x ∈ (selectAround oneRetry 1 2 [] (u.db.withRetryTokens 1 0)).2 := by
  obtain ⟨u, hrun, hboth, howned, hbalances, hfree, x, hx, hid, hep, hfirst, hpaid⟩ :
      ∃ u, freshRun oneRetry retryBehind = some u
        ∧ (selectAround oneRetry 1 2 [] (u.db.withRetryTokens 1 1)).2.map Delivery.id = [2, 1]
        ∧ (∀ x ∈ u.db.deliveries.rows, ∀ y ∈ u.db.deliveries.rows,
          x.endpointId = y.endpointId → x.organizationId = y.organizationId)
        ∧ (∀ e ∈ u.db.endpointStates.rows, 0 ≤ e.deliveryTokens ∧ 0 ≤ e.retryTokens)
        ∧ (readsAround oneRetry 1 (availableSlots oneRetry 1 2 u.db) [] u.db).Unlimited oneRetry 1
          (availableSlots oneRetry 1 2 u.db) 1
        ∧ ∃ x ∈ (selectAround oneRetry 1 2 [] (u.db.withRetryTokens 1 1)).2,
          x.id = 2 ∧ x.endpointId = 1 ∧ x.attemptCount = 0
          ∧ (retriesAhead ((readsAround oneRetry 1 (availableSlots oneRetry 1 2 u.db) []
              u.db).queueOf 1) x : ℚ)
            ≤ (readsAround oneRetry 1 (availableSlots oneRetry 1 2 u.db) []
                (u.db.withRetryTokens 1 0)).retryBalance oneRetry 1 1 := by
    decide +kernel
  have haccepted : oneRetry.accepted = true := by decide +kernel
  exact ⟨u, x, hrun, hid, hfirst, hboth,
    (retry_budget_spares_originals oneRetry 1 2 [] u.db 1 0 1 haccepted howned hbalances (le_refl 0)
      hfree x hx hep hfirst).mpr hpaid⟩

/-- A first delivery has failed twice and spent the retry token; a second
one, never attempted, is due behind it. -/
def retryAhead : List (Time × Action) :=
  [(0, registerEndpoint), (0, .op (.ingest 1 firstEvent)), (0, .op (.claim 1 ["token-1"])),
    (1, .op (.finalize (firstClaim "token-1" 1) unavailable)), (1, .op (.claim 1 ["token-2"])),
    (1, .op (.finalize (firstClaim "token-2" 2) unavailable)), (1, .op (.ingest 1 secondEvent))]

/-- **A RETRY WITHOUT A TOKEN HOLDS BACK THE FIRST ATTEMPT BEHIND IT.**  With
one token both are selected, with none neither is. -/
theorem retry_head_holds_back_original :
    ∃ d, freshRun oneRetry retryAhead = some d
      ∧ (readsAround oneRetry 1 (availableSlots oneRetry 1 2 d.db) [] d.db).Unlimited oneRetry 1
        (availableSlots oneRetry 1 2 d.db) 1
      ∧ d.db.endpointStates.rows.map EndpointQuotaState.retryTokens = [0]
      ∧ ((selectAround oneRetry 1 2 [] (d.db.withRetryTokens 1 1)).2.map fun x =>
          (x.id, x.attemptCount)) = [(1, 2), (2, 0)]
      ∧ (selectAround oneRetry 1 2 [] (d.db.withRetryTokens 1 0)).2 = [] := by
  decide +kernel

end WebhookPlatform
