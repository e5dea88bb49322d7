/-
  WebhookPlatform.LockOrder
  **THE ORDER OF THE ROW LOCKS**: which rows each operation locks with
  `FOR UPDATE`, one after the other, and who can wait for whom.

      ingest_event                    global, tenant
      replay_delivery                 delivery, global, tenant
      replay_deliveries               global, tenant, deliveries
      claim_due                       global, deliveries (SKIP LOCKED),
                                      tenants by id, endpoint states by id
      _finalize, cancel_delivery      delivery, endpoint state
      renew_lease, release_claim      delivery
      pause, resume, recover          endpoint, endpoint state
      create_endpoint                 tenant
      update_endpoint                 endpoint, tenant (if it activates)

  No order of the rows explains all of these: `replay_delivery` takes its
  delivery before the global row, `replay_deliveries` after it.  Two of them on
  one delivery block each other (`replays_deadlock`), and without that there is
  no cycle (`no_lock_cycle`); the rank of a wait is

      0   a delivery, unless by `replay_deliveries`; an endpoint
      1   the global row
      2   a tenant, by id
      3   a delivery, by `replay_deliveries`
      4   an endpoint state, by id

  and the one who is waited for has the higher rank, if it waits at all.
-/
import WebhookPlatform.Lib.WaitFor
import Mathlib.Data.Prod.Lex

namespace WebhookPlatform

open Transition RowLocks List

/-! ## §1. The operations and their locks. -/

/-- The rows that are locked with `FOR UPDATE`. -/
inductive LockedRow where
  /-- `global_control_state`. -/
  | global
  /-- `tenant_quota_state`. -/
  | tenant (organizationId : Nat)
  | delivery (id : Nat)
  /-- `webhook_endpoints`. -/
  | endpoint (id : Nat)
  /-- `endpoint_quota_state`. -/
  | endpointState (endpointId : Nat)
  deriving Repr, DecidableEq

/-- The rows of a claim: the deliveries that its scan has found, and the state
rows in the order of the query. -/
structure ClaimRows where
  deliveryIds : List Nat
  organizationIds : List Nat
  endpointIds : List Nat
  organizations_sorted : organizationIds.Pairwise (· < ·)
  endpoints_sorted : endpointIds.Pairwise (· < ·)

/-- The operations, with the rows that they are about. -/
inductive LockOperation where
  | ingestEvent (organizationId : Nat)
  | replayDelivery (deliveryId organizationId : Nat)
  | replayDeliveries (organizationId : Nat) (deliveryIds : List Nat)
  | claimDue (rows : ClaimRows)
  | finalize (deliveryId endpointId : Nat)
  | renewLease (deliveryId : Nat)
  | releaseClaim (deliveryId : Nat)
  | cancelDelivery (deliveryId endpointId : Nat)
  | pauseEndpoint (endpointId : Nat)
  | resumeEndpoint (endpointId : Nat)
  | recoverEndpointCircuit (endpointId : Nat)
  | createEndpoint (organizationId : Nat)
  /-- With the organization whose limit is checked, if the endpoint becomes
  active. -/
  | updateEndpoint (endpointId : Nat) (limit : Option Nat)

/-- `lock_global_tenant`. -/
def lockGlobalTenant (organizationId : Nat) : List (Acquire LockedRow) :=
  [.wait .global, .wait (.tenant organizationId)]

/-- `_endpoint_runtime`. -/
def endpointRuntime (endpointId : Nat) : List (Acquire LockedRow) :=
  [.wait (.endpoint endpointId), .wait (.endpointState endpointId)]

/-- The locks of each operation in their order. -/
def LockOperation.script : LockOperation → List (Acquire LockedRow)
  | .ingestEvent organizationId => lockGlobalTenant organizationId
  | .replayDelivery deliveryId organizationId =>
    .wait (.delivery deliveryId) :: lockGlobalTenant organizationId
  | .replayDeliveries organizationId deliveryIds =>
    lockGlobalTenant organizationId ++ deliveryIds.map fun id => .wait (.delivery id)
  | .claimDue rows =>
    .wait .global :: (rows.deliveryIds.map (fun id => .skip (.delivery id))
      ++ (rows.organizationIds.map (fun id => .wait (.tenant id))
        ++ rows.endpointIds.map fun id => .wait (.endpointState id)))
  | .finalize deliveryId endpointId =>
    [.wait (.delivery deliveryId), .wait (.endpointState endpointId)]
  | .renewLease deliveryId => [.wait (.delivery deliveryId)]
  | .releaseClaim deliveryId => [.wait (.delivery deliveryId)]
  | .cancelDelivery deliveryId endpointId =>
    [.wait (.delivery deliveryId), .wait (.endpointState endpointId)]
  | .pauseEndpoint endpointId => endpointRuntime endpointId
  | .resumeEndpoint endpointId => endpointRuntime endpointId
  | .recoverEndpointCircuit endpointId => endpointRuntime endpointId
  | .createEndpoint organizationId => [.wait (.tenant organizationId)]
  | .updateEndpoint endpointId limit =>
    .wait (.endpoint endpointId) :: limit.toList.map fun id => .wait (.tenant id)

/-- **The operations as a program of locks.**  One that finds nothing, or is
refused, ends before its script does: it is aborted. -/
abbrev lockProgram :
    Program Unit LockedRow (Scripted LockOperation LockedRow) LockOperation Empty :=
  scripts LockOperation.script

/-! ## §2. What is locked before what. -/

/-- `replay_deliveries`. -/
def LockOperation.bulk : LockOperation → Bool
  | .replayDeliveries _ _ => true
  | _ => false

/-- The operation locks the global row. -/
def LockOperation.underGlobal : LockOperation → Bool
  | .ingestEvent _ | .replayDelivery _ _ | .replayDeliveries _ _ | .claimDue _ => true
  | _ => false

/-- `replay_delivery`, of this delivery. -/
def LockOperation.replays (deliveryId : Nat) : LockOperation → Bool
  | .replayDelivery id _ => decide (id = deliveryId)
  | _ => false

/-- The operation locks the one row before it waits for the other. -/
def LockOperation.Precedes (o : LockOperation) : LockedRow → LockedRow → Prop
  | .global, .tenant _ => True
  | .global, .delivery _ => o.bulk = true
  | .global, .endpointState _ => True
  | .tenant p, .tenant q => p < q
  | .tenant _, .delivery _ => o.bulk = true
  | .tenant _, .endpointState _ => True
  | .delivery id, .global => o.replays id = true
  | .delivery _, .tenant _ => o.underGlobal = true
  | .delivery _, .delivery _ => o.bulk = true
  | .delivery _, .endpointState _ => True
  | .endpoint _, .tenant _ => True
  | .endpoint _, .endpointState _ => True
  | .endpointState p, .endpointState q => p < q
  | _, _ => False

/-- `a` comes before `b`. -/
def LockOperation.InOrder (o : LockOperation) (a b : Acquire LockedRow) : Prop :=
  ∀ k, b = .wait k → o.Precedes a.row k

section Order

variable {o : LockOperation}

theorem inOrder_wait (h : o.Precedes a.row k) : o.InOrder a (.wait k) := by
  intro k' hk
  cases hk
  exact h

theorem inOrder_skip (a : Acquire LockedRow) (k : LockedRow) : o.InOrder a (.skip k) := by
  intro k' hk
  cases hk

theorem pairwise_two (h : o.InOrder a b) : [a, b].Pairwise o.InOrder := by
  refine pairwise_cons.mpr ⟨?_, pairwise_singleton _ _⟩
  intro c hc
  rw [mem_singleton.mp hc]
  exact h

theorem globalTenant_inOrder (organizationId : Nat) :
    (lockGlobalTenant organizationId).Pairwise o.InOrder := by
  apply pairwise_two
  apply inOrder_wait
  trivial

/-- A claim: the scan skips, the state rows come by id. -/
theorem claim_inOrder (rows : ClaimRows) :
    (LockOperation.claimDue rows).script.Pairwise (LockOperation.claimDue rows).InOrder := by
  refine pairwise_cons.mpr ⟨?_, pairwise_append.mpr ⟨?_, pairwise_append.mpr ⟨?_, ?_, ?_⟩, ?_⟩⟩
  · -- the global row comes first
    intro b hb
    rcases mem_append.mp hb with hb | hb
    · obtain ⟨id, -, rfl⟩ := mem_map.mp hb
      exact inOrder_skip _ _
    · rcases mem_append.mp hb with hb | hb
      all_goals
        obtain ⟨id, -, rfl⟩ := mem_map.mp hb
        exact inOrder_wait trivial
  · rw [pairwise_map]
    exact pairwise_of_forall fun _ _ => inOrder_skip _ _
  · rw [pairwise_map]
    exact rows.organizations_sorted.imp fun h => inOrder_wait h
  · rw [pairwise_map]
    exact rows.endpoints_sorted.imp fun h => inOrder_wait h
  · intro a ha b hb
    obtain ⟨p, -, rfl⟩ := mem_map.mp ha
    obtain ⟨q, -, rfl⟩ := mem_map.mp hb
    exact inOrder_wait trivial
  · intro a ha b hb
    obtain ⟨p, -, rfl⟩ := mem_map.mp ha
    rcases mem_append.mp hb with hb | hb
    · obtain ⟨q, -, rfl⟩ := mem_map.mp hb
      apply inOrder_wait
      rfl
    · obtain ⟨q, -, rfl⟩ := mem_map.mp hb
      exact inOrder_wait trivial

/-- **Every script is in the order of its operation.** -/
theorem script_inOrder (o : LockOperation) : o.script.Pairwise o.InOrder := by
  cases o with
  | ingestEvent organizationId => exact globalTenant_inOrder organizationId
  | replayDelivery _ organizationId =>
    refine pairwise_cons.mpr ⟨?_, globalTenant_inOrder organizationId⟩
    intro b hb
    rcases mem_cons.mp hb with rfl | hb
    · exact inOrder_wait (decide_eq_true rfl)
    · rw [mem_singleton.mp hb]
      apply inOrder_wait
      rfl
  | replayDeliveries organizationId deliveryIds =>
    refine pairwise_append.mpr ⟨globalTenant_inOrder organizationId, ?_, ?_⟩
    · rw [pairwise_map]
      refine pairwise_of_forall fun p q => ?_
      apply inOrder_wait
      rfl
    · intro a ha b hb
      obtain ⟨q, -, rfl⟩ := mem_map.mp hb
      rcases mem_cons.mp ha with rfl | ha
      · apply inOrder_wait
        rfl
      · rw [mem_singleton.mp ha]
        apply inOrder_wait
        rfl
  | claimDue rows => exact claim_inOrder rows
  | finalize | cancelDelivery => exact pairwise_two (inOrder_wait trivial)
  | pauseEndpoint | resumeEndpoint | recoverEndpointCircuit =>
    exact pairwise_two (inOrder_wait trivial)
  | renewLease | releaseClaim | createEndpoint => exact pairwise_singleton _ _
  | updateEndpoint _ limit =>
    cases limit with
    | none => exact pairwise_singleton _ _
    | some => exact pairwise_two (inOrder_wait trivial)

theorem global_mem_script (h : o.underGlobal = true) : .wait .global ∈ o.script := by
  cases o with
  | ingestEvent | replayDeliveries | claimDue => exact mem_cons_self
  | replayDelivery => exact mem_cons_of_mem _ mem_cons_self
  | _ => cases h

theorem underGlobal_of_bulk (h : o.bulk = true) : o.underGlobal = true := by
  cases o with
  | replayDeliveries => rfl
  | _ => cases h

end Order

/-! ## §3. Ranks. -/

/-- The rank of a wait. -/
def LockOperation.rank (o : LockOperation) : LockedRow → Nat ×ₗ Nat
  | .global => toLex (1, 0)
  | .tenant organizationId => toLex (2, organizationId)
  | .delivery _ => if o.bulk then toLex (3, 0) else toLex (0, 0)
  | .endpoint _ => toLex (0, 0)
  | .endpointState endpointId => toLex (4, endpointId)

/-- No `replay_deliveries` waits for a delivery that a `replay_delivery` has
locked. -/
def Apart (s : Sys Unit LockedRow (Scripted LockOperation LockedRow)) : Prop :=
  ∀ i j o id rest o' rest', s.locals i = some (.running o (.wait (.delivery id) :: rest)) →
    o.bulk = true → s.locals j = some (.running o' rest') → o'.replays id = true →
    .delivery id ∉ s.held j

section Ranks

variable (hs : (scriptOutline LockOperation.script).Inv s)

include hs

/-- An operation that is past the global row holds it. -/
theorem holds_global (hl : s.locals i = some (.running o (.wait k :: rest)))
    (hglobal : o.underGlobal = true) (hne : .global ≠ k) (hnot : ¬ o.Precedes k .global) :
    .global ∈ s.held i :=
  held_of_waits hs hl (script_inOrder o) (global_mem_script hglobal) hne hnot

/-- Only one transaction is past the global row. -/
theorem global_unique (hi : .global ∈ s.held i) (hj : .global ∈ s.held j) : j = i := by
  by_contra hne
  have hconflict := hs.exclusive j i .global .global hne hj hi
  cases hconflict

/-- A `replay_deliveries` at its deliveries is past the global row. -/
theorem bulk_holds_global {id : Nat}
    (hl : s.locals i = some (.running o (.wait (.delivery id) :: rest)))
    (hbulk : o.bulk = true) : .global ∈ s.held i := by
  refine holds_global hs hl (underGlobal_of_bulk hbulk) (by simp) fun hreplays => ?_
  cases o <;> cases hbulk
  cases hreplays

/-- A `replay_delivery` with its delivery, and without the global row, asks for
the global row. -/
theorem replay_waits_global {id : Nat} (hl : s.locals i = some (.running o rest))
    (hreplays : o.replays id = true) (hheld : .delivery id ∈ s.held i)
    (hglobal : .global ∉ s.held i) : ∃ left, rest = .wait .global :: left := by
  obtain ⟨done, hscript, hrows, hwaited⟩ := hs.ok i _ hl
  cases o with
  | replayDelivery =>
    -- how much of the script is done: nothing, the delivery, or more
    cases done with
    | nil =>
      obtain ⟨a, ha, -⟩ := hrows _ hheld
      cases ha
    | cons a done =>
      have hleft := (cons.inj hscript).2
      cases done with
      | nil => exact ⟨_, hleft.symm⟩
      | cons b done =>
        rw [← (cons.inj hleft).1] at hwaited
        exact absurd (hwaited .global (mem_cons_of_mem _ mem_cons_self)) hglobal
  | _ => cases hreplays

/-- Whoever a `replay_deliveries` waits for at a delivery waits, if at all, for
an endpoint state. -/
theorem rank_bulk (hapart : Apart s) {id : Nat}
    (hi : s.locals i = some (.running o (.wait (.delivery id) :: rest))) (hbulk : o.bulk = true)
    (hj : s.locals j = some (.running o' (.wait k :: rest'))) (hheld : .delivery id ∈ s.held j)
    (hne : j ≠ i) : ∃ endpointId, k = .endpointState endpointId := by
  have hbefore : o'.Precedes (.delivery id) k := before_of_waits hs hj (script_inOrder o') hheld
  have hmine : .global ∈ s.held i := bulk_holds_global hs hi hbulk
  cases k with
  | endpointState endpointId => exact ⟨endpointId, rfl⟩
  | global => exact absurd hheld (hapart i j o id rest o' _ hi hbulk hj hbefore)
  | tenant =>
    have htheirs := holds_global hs hj hbefore (by simp) (fun h => h)
    exact absurd (global_unique hs hmine htheirs) hne
  | delivery =>
    exact absurd (global_unique hs hmine (bulk_holds_global hs hj hbefore)) hne
  | endpoint => exact absurd hbefore (fun h => h)

end Ranks

/-- A lower level is a lower rank. -/
theorem level_lt {m n p q : Nat} (h : m < n) : toLex (m, p) < toLex (n, q) :=
  Prod.Lex.toLex_lt_toLex.mpr (.inl h)

theorem index_lt {n p q : Nat} (h : p < q) : toLex (n, p) < toLex (n, q) :=
  Prod.Lex.toLex_lt_toLex.mpr (.inr ⟨rfl, h⟩)

theorem rank_delivery_bulk {o : LockOperation} (h : o.bulk = true) (id : Nat) :
    o.rank (.delivery id) = toLex (3, 0) := if_pos h

/-- The one who holds `a` and asks for `k` has the higher rank. -/
theorem rank_lt {o o' : LockOperation} (h : o'.Precedes a k)
    (hbulk : ∀ id, a = .delivery id → o.bulk = true → ∃ endpointId, k = .endpointState endpointId) :
    o.rank a < o'.rank k := by
  cases a with
  | global =>
    cases k with
    | tenant | endpointState => exact level_lt (by omega)
    | delivery =>
      rw [rank_delivery_bulk h]
      exact level_lt (by omega)
    | global | endpoint => exact absurd h not_false
  | tenant =>
    cases k with
    | tenant => exact index_lt h
    | endpointState => exact level_lt (by omega)
    | delivery =>
      rw [rank_delivery_bulk h]
      exact level_lt (by omega)
    | global | endpoint => exact absurd h not_false
  | delivery id =>
    by_cases ho : o.bulk = true
    · obtain ⟨endpointId, rfl⟩ := hbulk id rfl ho
      rw [rank_delivery_bulk ho]
      exact level_lt (by omega)
    · have hrank : o.rank (.delivery id) = toLex (0, 0) := if_neg ho
      rw [hrank]
      cases k with
      | global | tenant | endpointState => exact level_lt (by omega)
      | delivery =>
        rw [rank_delivery_bulk h]
        exact level_lt (by omega)
      | endpoint => exact absurd h not_false
  | endpoint =>
    cases k with
    | tenant | endpointState => exact level_lt (by omega)
    | global | delivery | endpoint => exact absurd h not_false
  | endpointState =>
    cases k with
    | endpointState => exact index_lt h
    | global | tenant | delivery | endpoint => exact absurd h not_false

/-! ## §4. Waits without a cycle, and the cycle. -/

/-- **No cycle of waits**, in exactly the reachable states in which the two
replays are apart. -/
theorem no_lock_cycle (ms : List (Move LockOperation Empty))
    (s : Sys Unit LockedRow (Scripted LockOperation LockedRow))
    (hrun : run lockProgram.step (Sys.initial ()) ms = some s) :
    ¬ lockProgram.Deadlocked s ↔ Apart s := by
  have hs := scripts_run hrun
  constructor
  · -- each of the two has locked what the other asks for
    intro hno i j o id rest o' rest' hi hbulk hj hreplays hheld
    have hne : j ≠ i := by
      rintro rfl
      cases hi.symm.trans hj
      cases o <;> cases hbulk
      cases hreplays
    have hmine := bulk_holds_global hs hi hbulk
    obtain ⟨left, rfl⟩ := replay_waits_global hs hj hreplays hheld fun htheirs =>
      hne (global_unique hs hmine htheirs)
    refine hno ⟨i, Relation.TransGen.tail (b := j) (.single ?_) ?_⟩
    · exact scripts_waits_iff.mpr ⟨o, .delivery id, rest, hi, hheld, hne⟩
    · exact scripts_waits_iff.mpr ⟨o', .global, left, hj, hmine, hne.symm⟩
  · intro hapart
    apply scripts_not_deadlocked LockOperation.rank
    intro i j o a rest o' k rest' hi hj ha hne
    have hbefore : o'.Precedes a k := before_of_waits hs hj (script_inOrder o') ha
    refine rank_lt hbefore ?_
    rintro id rfl hbulk
    exact rank_bulk hs hapart hi hbulk hj ha hne

/-- A bulk replay that asks for a delivery which is being finalized. -/
def queuedReplay : List (Move LockOperation Empty) :=
  [.begin 0 (.finalize 1 1), .exec 0, .begin 1 (.replayDeliveries 1 [1]), .exec 1, .exec 1]

theorem no_lock_cycle_queued : ∃ s, run lockProgram.step (Sys.initial ()) queuedReplay = some s
    ∧ lockProgram.WaitsFor s 1 0 ∧ ¬ lockProgram.Deadlocked s := by
  refine ⟨_, rfl, ?_, (no_lock_cycle queuedReplay _ rfl).mpr ?_⟩
  · exact scripts_waits_iff.mpr ⟨_, .delivery 1, _, rfl, by decide, by decide⟩
  · intro i j o id rest o' rest' hi hbulk hj hreplays
    by_cases hone : j = 1
    · subst hone
      cases hj
      cases hreplays
    · by_cases hzero : j = 0
      · subst hzero
        cases hj
        cases hreplays
      · simp [Sys.at_, Sys.initial, hone, hzero] at hj

/-- A bulk replay and a single replay of one delivery: each has locked what the
other asks for next. -/
def crossedReplays : List (Move LockOperation Empty) :=
  [.begin 0 (.replayDelivery 1 1), .exec 0, .begin 1 (.replayDeliveries 1 [1]), .exec 1, .exec 1]

/-- **They block each other.** -/
theorem replays_deadlock : ∃ s, run lockProgram.step (Sys.initial ()) crossedReplays = some s
    ∧ lockProgram.Deadlocked s := by
  refine ⟨_, rfl, 0, Relation.TransGen.tail (b := 1) (.single ?_) ?_⟩
  · -- the single replay waits for the global row
    exact scripts_waits_iff.mpr ⟨_, .global, _, rfl, by decide, by decide⟩
  · -- the bulk replay waits for the delivery
    exact scripts_waits_iff.mpr ⟨_, .delivery 1, _, rfl, by decide, by decide⟩

end WebhookPlatform
