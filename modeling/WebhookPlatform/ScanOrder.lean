/-
  WebhookPlatform.ScanOrder
  **THE ORDER IN WHICH THE SELECTION SEES THE DUE ROWS.**

  The candidates are sorted by `(tenant_rank, next_attempt_at, id)`; within
  one endpoint's queue that is the order of their turns (`scanKey_le_iff`).
  The loop visits the tenants, and each tenant's endpoints, in a rotation of
  their sorted ids that starts behind a cursor: every tenant and endpoint
  with a due row stands in it once (`rotateAfter_sortedSet`).

    • §1  the scan key and the queues,
    • §2  where the rotation starts.
-/
import WebhookPlatform.Ownership

namespace WebhookPlatform

open Relational Transition RowNumber

/-! ## §1. The scan key and the queues. -/

/-- The sort key of the candidates. -/
def scanKey (db : Db) (now : Time) (d : Delivery) : ℕ ×ₗ ℚ ×ₗ ℕ :=
  toLex (tenantRank (dueRows db now) d, d.turn)

/-- In one endpoint's queue the candidates are ordered by their turn. -/
theorem scanKey_lt (hx : x ∈ dueRows db now)
    (horg : x.organizationId = y.organizationId) (hep : x.endpointId = y.endpointId)
    (h : x.turn < y.turn) : scanKey db now x < scanKey db now y := by
  have hendpoint : endpointRank (dueRows db now) x < endpointRank (dueRows db now) y :=
    rowNumber_lt hx (Prod.ext horg hep) h
  have htenant : tenantRank (dueRows db now) x < tenantRank (dueRows db now) y :=
    rowNumber_lt hx horg (Prod.Lex.toLex_lt_toLex.mpr (Or.inl hendpoint))
  exact Prod.Lex.toLex_lt_toLex.mpr (Or.inl htenant)

/-- The delivery is in the queue of the tenant `org` at the endpoint `ep`. -/
def inQueue (org ep : Nat) (d : Delivery) : Bool :=
  decide (d.organizationId = org) && decide (d.endpointId = ep)

theorem inQueue_iff : inQueue org ep d = true ↔ d.organizationId = org ∧ d.endpointId = ep := by
  unfold inQueue
  rw [Bool.and_eq_true, decide_eq_true_eq, decide_eq_true_eq]

/-- The turn, and so the sort key, identifies a due row. -/
theorem turn_inj (hx : x ∈ dueRows db now) (hy : y ∈ dueRows db now) (h : x.turn = y.turn) :
    x = y :=
  db.deliveries.eq_of_key_eq (mem_dueRows.mp hx).1 (mem_dueRows.mp hy).1
    (congrArg (fun t => (ofLex t).2) h)

theorem scanKey_inj (hx : x ∈ dueRows db now)
    (hy : y ∈ dueRows db now) (h : scanKey db now x = scanKey db now y) : x = y :=
  turn_inj hx hy (congrArg (fun k => (ofLex k).2) h)

/-- In one endpoint's queue the order of the candidates is that of their
turns. -/
theorem scanKey_le_iff (hx : x ∈ dueRows db now)
    (hy : y ∈ dueRows db now) (horg : x.organizationId = y.organizationId)
    (hep : x.endpointId = y.endpointId) :
    scanKey db now y ≤ scanKey db now x ↔ ¬ x.turn < y.turn := by
  constructor
  · intro hle hlt
    exact absurd (scanKey_lt hx horg hep hlt) (not_lt.mpr hle)
  · intro hnot
    rcases lt_or_eq_of_le (not_lt.mp hnot) with hlt | heq
    · exact (scanKey_lt hy horg.symm hep.symm hlt).le
    · rw [turn_inj hy hx heq]

/-! ## §2. Where the rotation starts. -/

/-- Creating the scheduler row does not change what the selection reads. -/
theorem readsOf_ensureGlobalState (s : Settings) (now : Time) (available : Nat) (db : Db) :
    readsOf s now available (ensureGlobalState now db) = readsOf s now available db := by
  have hglobal : globalState (ensureGlobalState now db) now = globalState db now := by
    unfold globalState ensureGlobalState
    cases db.globalState <;> rfl
  unfold readsOf
  rw [hglobal]
  rfl

theorem rotateAfter_perm (values : List Nat) (cursor : Option Nat) :
    (rotateAfter values cursor).Perm values := by
  cases cursor with
  | none => exact List.Perm.refl _
  | some =>
    refine List.perm_append_comm.trans (List.Perm.of_eq ?_)
    exact List.takeWhile_append_dropWhile

theorem sortedSet_perm (values : List Nat) : (sortedSet values).Perm values.dedup :=
  List.perm_insertionSort _ _

/-- A rotation of the sorted set of values holds each of them once. -/
theorem rotateAfter_sortedSet (hperm : values.Perm values') (cursor : Option Nat) :
    (rotateAfter (sortedSet values) cursor).Perm values'.dedup :=
  (rotateAfter_perm _ _).trans ((sortedSet_perm _).trans hperm.dedup)

/-- The tenants with due deliveries. -/
def tenantsDue (db : Db) (now : Time) : List Nat :=
  ((dueRows db now).map Delivery.organizationId).dedup

/-- The endpoints of the tenant with due deliveries. -/
def endpointsDue (db : Db) (now : Time) (organizationId : Nat) : List Nat :=
  (((dueRows db now).filter fun d =>
    decide (d.organizationId = organizationId)).map Delivery.endpointId).dedup

theorem mem_tenantsDue (h : d ∈ dueRows db now) : d.organizationId ∈ tenantsDue db now :=
  List.mem_dedup.mpr (List.mem_map_of_mem h)

theorem mem_endpointsDue (h : d ∈ dueRows db now) :
    d.endpointId ∈ endpointsDue db now d.organizationId :=
  List.mem_dedup.mpr (List.mem_map_of_mem (List.mem_filter.mpr ⟨h, decide_eq_true rfl⟩))

end WebhookPlatform
