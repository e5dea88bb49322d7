/-
  WebhookPlatform.Scheduling
  **DEPLOYMENT-WIDE FAIR CLAIMING** (`app/scheduling.py`).

    • `rotateAfter`, `fairCandidateIds` — the cursor rotation and the ranked
      candidate scan,
    • `Pick` — what `select_fair_deliveries` holds in memory while it
      chooses: the queues, the rotation, the counts, the balances and the
      state rows,
    • `tryEndpoint` / `scanEndpoints` / `pass` / `selectLoop` — one endpoint,
      one tenant's turn, one round over the tenants, the `while` loop,
    • `selectFairDeliveries` — the whole function, over the database.

  The `while` loop runs on fuel; that `available` rounds always suffice, and
  what the loop keeps, is proved in `SchedulingInvariants`.
-/
import WebhookPlatform.Admission
import WebhookPlatform.Lib.RowNumber
import Mathlib.Data.List.Dedup

namespace WebhookPlatform

open Relational RowNumber

/-! ## §1. The candidate scan. -/

/-- `rotate_after`: from the first value greater than the cursor on, then
the values in front of it; unchanged when there is none. -/
def rotateAfter (values : List Nat) : Option Nat → List Nat
  | none => values
  | some cursor =>
    values.dropWhile (fun v => decide (v ≤ cursor))
      ++ values.takeWhile fun v => decide (v ≤ cursor)

/-- The sort key `(next_attempt_at, id)`. -/
def Delivery.turn (d : Delivery) : ℚ ×ₗ ℕ := toLex (d.nextAttemptAt, d.id)

/-- `endpoint_rank`: `row_number()` within the tenant's endpoint. -/
def endpointRank (due : List Delivery) : Delivery → Nat :=
  rowNumber (fun d => (d.organizationId, d.endpointId)) Delivery.turn due

/-- `tenant_rank`: `row_number()` within the tenant, over
`(endpoint_rank, next_attempt_at, delivery_id)`. -/
def tenantRank (due : List Delivery) : Delivery → Nat :=
  rowNumber Delivery.organizationId (fun d => toLex (endpointRank due d, d.turn)) due

/-- The rows of the scan that decides which deliveries are considered. -/
def dueRows (db : Db) (now : Time) : List Delivery :=
  db.deliveries.rows.filter (Delivery.due now)

/-- `fair_candidate_ids`. -/
def fairCandidateIds (db : Db) (now : Time) (scanLimit perTenantLimit : Nat) : List Nat :=
  let due := dueRows db now
  let ranked := due.filter fun d => decide (tenantRank due d ≤ perTenantLimit)
  let ordered := orderBy (fun d => toLex (tenantRank due d, d.turn)) ranked
  (ordered.take scanLimit).map Delivery.id

/-- `sorted({…})`. -/
def sortedSet (values : List Nat) : List Nat := values.dedup.insertionSort (· ≤ ·)

/-! ## §2. The selection loop. -/

/-- The working state of `select_fair_deliveries` after its last read; the
dictionaries are functions of the id. -/
structure Pick where
  selected : List Delivery
  grouped : Nat → Nat → List Delivery
  endpointOrder : Nat → List Nat
  tenantCounts : Nat → Nat
  endpointCounts : Nat → Nat
  endpointBalances : Nat → ℚ
  endpointRetryBalances : Nat → ℚ
  endpointStates : Nat → EndpointQuotaState
  tenantStates : Nat → TenantQuotaState
  globalState : GlobalControlState

/-- The pause and circuit checks that come before the queue is looked at:
`none` skips the endpoint; an open circuit whose time is over becomes half
open. -/
def EndpointQuotaState.gate (now : Time) (e : EndpointQuotaState) : Option EndpointQuotaState :=
  if e.pausedAt.isSome then none
  else if e.circuitState = .opened then
    if e.circuitOpenUntil.any fun t => decide (t ≤ now) then
      some { e with
        circuitState := .halfOpen, circuitOpenUntil := none, halfOpenProbeDeliveryId := none }
    else none
  else some e

/-- A half-open circuit lets only its probe through. -/
def EndpointQuotaState.probeAdmits (e : EndpointQuotaState) (deliveryId : Nat) : Bool :=
  decide (e.circuitState ≠ .halfOpen)
    || e.halfOpenProbeDeliveryId.all fun probe => decide (probe = deliveryId)

namespace Pick

variable (s : Settings) (now : Time)

/-- `endpoint_state_by_id[endpoint_id]`, mutated in place. -/
def setEndpoint (p : Pick) (endpointId : Nat) (e : EndpointQuotaState) : Pick :=
  { p with endpointStates := Function.update p.endpointStates endpointId e }

/-- The endpoint's concurrency, rate and retry budget allow the delivery. -/
def hasRoom (p : Pick) (endpointId : Nat) (d : Delivery) : Bool :=
  decide (p.endpointCounts endpointId < s.endpointConcurrency)
    && decide (1 ≤ p.endpointBalances endpointId)
    && (decide (d.attemptCount = 0) || decide (1 ≤ p.endpointRetryBalances endpointId))

/-- The state row of the endpoint after the delivery was taken. -/
def takenEndpoint (p : Pick) (endpointId : Nat) (d : Delivery) : EndpointQuotaState :=
  let e := p.endpointStates endpointId
  { e with
    retryTokens :=
      if 0 < d.attemptCount then p.endpointRetryBalances endpointId - 1 else e.retryTokens
    halfOpenProbeDeliveryId :=
      if e.circuitState = .halfOpen then some d.id else e.halfOpenProbeDeliveryId
    deliveryTokens := p.endpointBalances endpointId - 1 }

/-- The head `d` of the endpoint's queue is selected; `rest` stays. -/
def take (p : Pick) (organizationId endpointId : Nat) (d : Delivery) (rest : List Delivery) :
    Pick where
  selected := p.selected ++ [d]
  grouped := Function.update p.grouped organizationId
    (Function.update (p.grouped organizationId) endpointId rest)
  endpointOrder := p.endpointOrder
  tenantCounts :=
    Function.update p.tenantCounts organizationId (p.tenantCounts organizationId + 1)
  endpointCounts := Function.update p.endpointCounts endpointId (p.endpointCounts endpointId + 1)
  endpointBalances :=
    Function.update p.endpointBalances endpointId (p.endpointBalances endpointId - 1)
  endpointRetryBalances :=
    if 0 < d.attemptCount then
      Function.update p.endpointRetryBalances endpointId (p.endpointRetryBalances endpointId - 1)
    else p.endpointRetryBalances
  endpointStates := Function.update p.endpointStates endpointId (p.takenEndpoint endpointId d)
  tenantStates := Function.update p.tenantStates organizationId
    { p.tenantStates organizationId with endpointCursorId := some endpointId, updatedAt := now }
  globalState :=
    { p.globalState with tenantCursorOrganizationId := some organizationId, updatedAt := now }

/-- One endpoint of the rotation: the new state, and whether it gave a
delivery. -/
def tryEndpoint (organizationId endpointId : Nat) (p : Pick) : Pick × Bool :=
  match p.grouped organizationId endpointId with
  | [] => (p, false)
  | d :: rest =>
    match (p.endpointStates endpointId).gate now with
    | none => (p, false)
    | some e =>
      if e.probeAdmits d.id && (p.setEndpoint endpointId e).hasRoom s endpointId d then
        ((p.setEndpoint endpointId e).take now organizationId endpointId d rest, true)
      else (p.setEndpoint endpointId e, false)

/-- `endpoints.popleft()` and `endpoints.append(…)`. -/
def rotate (p : Pick) (organizationId : Nat) (order : List Nat) : Pick :=
  { p with endpointOrder := Function.update p.endpointOrder organizationId order }

/-- `for _ in range(len(endpoints))`: the tenant's turn, up to its first
delivery. -/
def scanEndpoints (organizationId : Nat) : Nat → Pick → Pick × Bool
  | 0, p => (p, false)
  | n + 1, p =>
    match p.endpointOrder organizationId with
    | [] => (p, false)
    | endpointId :: rest =>
      let attempt := tryEndpoint s now organizationId endpointId
        (p.rotate organizationId (rest ++ [endpointId]))
      if attempt.2 then attempt else scanEndpoints organizationId n attempt.1

/-- `for organization_id in organization_order`: one round, and
`made_progress`. -/
def pass (available : Nat) : List Nat → Pick → Pick × Bool
  | [], p => (p, false)
  | organizationId :: rest, p =>
    if available ≤ p.selected.length then (p, false)
    else if s.tenantInFlightDeliveries ≤ p.tenantCounts organizationId then
      pass available rest p
    else
      let turn := scanEndpoints s now organizationId (p.endpointOrder organizationId).length p
      let others := pass available rest turn.1
      (others.1, turn.2 || others.2)

/-- `while len(selected) < available`, stopped by a round without progress. -/
def selectLoop (available : Nat) (organizationOrder : List Nat) : Nat → Pick → Pick
  | 0, p => p
  | fuel + 1, p =>
    if available ≤ p.selected.length then p
    else
      let round := pass s now available organizationOrder p
      if round.2 then selectLoop available organizationOrder fuel round.1 else round.1

end Pick

/-! ## §3. The whole function. -/

/-- The refill of an endpoint's two buckets when its row is locked. -/
def refillEndpoint (s : Settings) (now : Time) (e : EndpointQuotaState) : EndpointQuotaState :=
  let balance := consumeTokens e.deliveryTokens e.refilledAt s.endpointRatePerSecond
    s.endpointRateBurst 0 now s.quotaRetryAfterMaxSeconds
  let retryBalance := consumeTokens e.retryTokens e.retryRefilledAt s.endpointRetryRatePerSecond
    s.endpointRetryBurst 0 now s.quotaRetryAfterMaxSeconds
  { e with
    deliveryTokens := balance.tokens
    refilledAt := balance.refilledAt
    retryTokens := retryBalance.tokens
    retryRefilledAt := retryBalance.refilledAt
    updatedAt := now }

/-- What `select_fair_deliveries` has read when it starts to choose: the
scheduler row, the locked candidates, their state rows, the live counts. -/
structure Reads where
  globalState : GlobalControlState
  candidates : List Delivery
  tenantStates : Nat → TenantQuotaState
  endpointStates : Nat → EndpointQuotaState
  tenantCounts : Nat → Nat
  endpointCounts : Nat → Nat

namespace Reads

/-- `organization_ids`. -/
def organizationIds (r : Reads) : List Nat :=
  sortedSet (r.candidates.map Delivery.organizationId)

/-- `endpoint_ids`. -/
def endpointIds (r : Reads) : List Nat :=
  sortedSet (r.candidates.map Delivery.endpointId)

/-- `organization_order`. -/
def organizationOrder (r : Reads) : List Nat :=
  rotateAfter r.organizationIds r.globalState.tenantCursorOrganizationId

/-- `endpoint_order[organization_id]`. -/
def endpointOrder (r : Reads) (organizationId : Nat) : List Nat :=
  rotateAfter
    (sortedSet ((r.candidates.filter fun d =>
      decide (d.organizationId = organizationId)).map Delivery.endpointId))
    (r.tenantStates organizationId).endpointCursorId

/-- The working state before the loop. -/
def start (s : Settings) (now : Time) (r : Reads) : Pick where
  selected := []
  grouped := fun organizationId endpointId =>
    r.candidates.filter fun d =>
      decide (d.organizationId = organizationId) && decide (d.endpointId = endpointId)
  endpointOrder := r.endpointOrder
  tenantCounts := r.tenantCounts
  endpointCounts := r.endpointCounts
  endpointBalances := fun e => (refillEndpoint s now (r.endpointStates e)).deliveryTokens
  endpointRetryBalances := fun e => (refillEndpoint s now (r.endpointStates e)).retryTokens
  endpointStates := fun e => refillEndpoint s now (r.endpointStates e)
  tenantStates := r.tenantStates
  globalState := r.globalState

/-- The choice: the loop, run to its end. -/
def choose (s : Settings) (now : Time) (available : Nat) (r : Reads) : Pick :=
  Pick.selectLoop s now available r.organizationOrder available (r.start s now)

/-- The state rows as the transaction leaves them: created where missing,
then as the loop changed them. -/
def store (s : Settings) (now : Time) (r : Reads) (p : Pick) (db : Db) : Db :=
  let db := r.organizationIds.foldl (ensureTenantState s now) db
  let db := r.endpointIds.foldl (ensureEndpointState s now) db
  { db with
    globalState := some p.globalState
    tenantStates := db.tenantStates.putAll (r.organizationIds.map p.tenantStates)
    endpointStates := db.endpointStates.putAll (r.endpointIds.map p.endpointStates) }

end Reads

/-- The tenant's state as a locked read sees it after `ensure_tenant_state`. -/
def tenantState (s : Settings) (db : Db) (now : Time) (organizationId : Nat) : TenantQuotaState :=
  (db.tenantStates.find? organizationId).getD (tenantQuotaValues organizationId s now)

/-- The scheduler row as a locked read sees it after `ensure_global_state`. -/
def globalState (db : Db) (now : Time) : GlobalControlState :=
  db.globalState.getD ⟨none, now, now⟩

/-- `live_total`. -/
def liveTotal (db : Db) (now : Time) : Nat :=
  db.deliveries.rows.countP (Delivery.live now)

/-- `tenant_counts`. -/
def liveOfTenant (db : Db) (now : Time) (organizationId : Nat) : Nat :=
  db.deliveries.rows.countP fun d =>
    d.live now && decide (d.organizationId = organizationId)

/-- `endpoint_counts`. -/
def liveOfEndpoint (db : Db) (now : Time) (endpointId : Nat) : Nat :=
  db.deliveries.rows.countP fun d => d.live now && decide (d.endpointId = endpointId)

/-- `available`; what would be negative is zero, and both return at once. -/
def availableSlots (s : Settings) (now : Time) (requested : Nat) (db : Db) : Nat :=
  min requested (s.workerGlobalConcurrency - liveTotal db now)

/-- `per_tenant_scan`. -/
def perTenantScan (s : Settings) (available : Nat) : Nat :=
  max (available * 2) s.endpointConcurrency

/-- `candidate_ids`, for a given number of free slots. -/
def candidateIds (s : Settings) (now : Time) (available : Nat) (db : Db) : List Nat :=
  fairCandidateIds db now s.workerCandidateScanLimit (perTenantScan s available)

/-- Everything the selection reads, in one instant. -/
def readsOf (s : Settings) (now : Time) (available : Nat) (db : Db) : Reads where
  globalState := globalState db now
  candidates := (candidateIds s now available db).filterMap db.deliveries.find?
  tenantStates := tenantState s db now
  endpointStates := endpointState s db now
  tenantCounts := liveOfTenant db now
  endpointCounts := liveOfEndpoint db now

/-- `select_fair_deliveries`, as one atomic transaction step: the database
it leaves and the deliveries it chose. -/
def selectFairDeliveries (s : Settings) (now : Time) (requested : Nat) (db : Db) :
    Db × List Delivery :=
  let db := ensureGlobalState now db
  let available := availableSlots s now requested db
  let r := readsOf s now available db
  if available = 0 ∨ r.candidates = [] then (db, [])
  else (r.store s now (r.choose s now available) db, (r.choose s now available).selected)

end WebhookPlatform
