/-
  WebhookPlatform.LeaseCaps
  **THE THREE CONCURRENCY CAPS.**

  However many workers claim, renew, release, finalize and crash, the live
  leases stay within the deployment's, each tenant's and each endpoint's
  cap: `leases_capped`.

  The argument is one inequality per step.  For every filter `q` that looks
  only at where a delivery belongs, a step raises the number of live leases
  in `q` by at most what a FAIR CHOICE selected in `q` (`live_change`); and a
  fair choice is within the caps (`FairChoice`).
-/
import WebhookPlatform.Platform

namespace WebhookPlatform

open Relational Transition

/-! ## §1. Counting live leases. -/

/-- The live leases of the deliveries in `q`. -/
def liveWhere (q : Delivery → Bool) (db : Db) (now : Time) : Nat :=
  db.deliveries.rows.countP fun d => d.live now && q d

/-- The filter looks only at the delivery's tenant and endpoint. -/
def Placed (q : Delivery → Bool) : Prop :=
  ∀ a b, SameDelivery a b → q b = q a

theorem liveTotal_eq (db : Db) (now : Time) :
    liveTotal db now = liveWhere (fun _ => true) db now := by
  unfold liveTotal liveWhere
  simp only [Bool.and_true]

theorem placed_true : Placed fun _ => true := fun _ _ _ => rfl

theorem placed_tenant (org : Nat) : Placed fun d => decide (d.organizationId = org) := by
  intro a b h
  show decide (b.organizationId = org) = decide (a.organizationId = org)
  rw [h.organizationId]

theorem placed_endpoint (ep : Nat) : Placed fun d => decide (d.endpointId = ep) := by
  intro a b h
  show decide (b.endpointId = ep) = decide (a.endpointId = ep)
  rw [h.endpointId]

/-- An update keeps the delivery, and makes no lease live that was not. -/
theorem RowUpdate.same (h : RowUpdate s w op old new) : SameDelivery old new := by
  cases h with
  | renewed | released | canceled => exact ⟨rfl, rfl, rfl, rfl⟩
  | finalized => exact finalizeRow_same _ _ _ _ _

theorem RowUpdate.live (h : RowUpdate s w op old new) (hl : new.live w.clock = true) :
    old.live w.clock = true := by
  have hprocessing := Delivery.processing_of_live hl
  cases h with
  | renewed _ _ _ _ holds | finalized _ _ _ _ _ holds => exact ClaimedDelivery.live_of_holds holds
  | released | canceled => exact absurd hprocessing (by simp [releaseRow, cancelRow])

/-- A new row is queued, not leased. -/
theorem Created.pending (h : Created w d) :
    d.status = .pending ∧ d.attemptCount = 0 ∧ d.leaseToken = none := by
  cases h with
  | ingested => exact ⟨rfl, rfl, rfl⟩
  | replayed => exact ⟨rfl, rfl, rfl⟩

/-! ## §2. One step. -/

theorem fairChoice_nil (s : Settings) (now : Time) (db : Db) : FairChoice s now db 0 [] :=
  ⟨by simp, by simp, Nat.le_refl 0, Or.inl rfl, by simp, by simp⟩

/-- **One step**: some fair choice bounds what it adds to the live leases of
every filter. -/
theorem live_change (h : Change s w op w') :
    ∃ limit selected, FairChoice s w.clock w.db limit selected ∧ ∀ q, Placed q →
        liveWhere q w'.db w'.clock ≤ liveWhere q w.db w.clock + selected.countP q := by
  cases h with
  | kept _ _ deliveries clock =>
    refine ⟨0, [], fairChoice_nil _ _ _, fun q _ => ?_⟩
    unfold liveWhere
    rw [deliveries]
    -- as time passes leases only run out
    apply List.countP_mono_left
    intro d _ hd
    rw [Bool.and_eq_true] at hd ⊢
    exact ⟨Delivery.live_anti clock hd.1, hd.2⟩
  | claimed limit _ _ picks _ deliveries clock _ _ choice =>
    refine ⟨limit, picks.map Prod.fst, choice, fun q hq => ?_⟩
    have hput := Table.countP_putAll_le (fun d => d.live w.clock && q d) w.db.deliveries.toTable
      (claimedRows s w.clock picks)
    -- each new lease is one of the selected rows
    have hrows : (claimedRows s w.clock picks).countP (fun d => d.live w.clock && q d)
        ≤ (picks.map Prod.fst).countP q := by
      unfold claimedRows
      rw [List.countP_map, List.countP_map]
      apply List.countP_mono_left
      intro x _ hx
      have hclaimed : q (claimRow s w.clock x.2 x.1) = true := ((Bool.and_eq_true _ _).mp hx).2
      exact (hq x.1 (claimRow s w.clock x.2 x.1) ⟨rfl, rfl, rfl, rfl⟩).symm.trans hclaimed
    unfold liveWhere
    rw [deliveries, clock, Serial.putAll_toTable]
    omega
  | updated _ _ _ _ deliveries clock _ _ mem update =>
    refine ⟨0, [], fairChoice_nil _ _ _, fun q hq => ?_⟩
    unfold liveWhere
    rw [deliveries, clock]
    -- an updated row is live only if it was
    refine Table.countP_put_le_of_imp _ mem update.same.id.symm ?_
    intro hnew
    rw [Bool.and_eq_true] at hnew ⊢
    rw [hq _ _ update.same] at hnew
    exact ⟨update.live hnew.1, hnew.2⟩
  | created _ _ rows deliveries clock _ _ build =>
    refine ⟨0, [], fairChoice_nil _ _ _, fun q _ => ?_⟩
    unfold liveWhere
    rw [deliveries, clock, Serial.rows_appendAll fun f hf n => (build f hf n).1, List.countP_append]
    -- a new row is pending
    have hnone : (Serial.built w.db.deliveries.next rows).countP
        (fun d => d.live w.clock && q d) = 0 := by
      rw [List.countP_eq_zero]
      intro d hd hlive
      obtain ⟨f, hf, n, rfl⟩ := Serial.mem_built hd
      have hpending := (build f hf n).2.pending.1
      have hprocessing := Delivery.processing_of_live ((Bool.and_eq_true _ _).mp hlive).1
      rw [hpending] at hprocessing
      exact absurd hprocessing (by decide)
    omega

/-! ## §3. Every run. -/

/-- The live leases are within the three caps. -/
structure Capped (s : Settings) (w : World) : Prop where
  total : liveTotal w.db w.clock ≤ s.workerGlobalConcurrency
  tenant : ∀ org, liveOfTenant w.db w.clock org ≤ s.tenantInFlightDeliveries
  endpoint : ∀ ep, liveOfEndpoint w.db w.clock ep ≤ s.endpointConcurrency

/-- A count that grows by what was selected stays within a cap that holds
for the old count and, where something was selected, for the sum. -/
theorem le_cap {selected : List Delivery} (hnew : new ≤ old + selected.countP q) (hold : old ≤ cap)
    (hchoice : ∀ d ∈ selected, q d = true → old + selected.countP q ≤ cap) : new ≤ cap := by
  by_cases hzero : selected.countP q = 0
  · omega
  · obtain ⟨d, hd, hq⟩ := List.countP_pos_iff.mp (Nat.pos_of_ne_zero hzero)
    exact hnew.trans (hchoice d hd hq)

theorem capped_change {w' : World} (hw : Capped s w) (h : Change s w op w') : Capped s w' := by
  obtain ⟨limit, selected, choice, hlive⟩ := live_change h
  constructor
  · have htotal := hlive _ placed_true
    rw [← liveTotal_eq, ← liveTotal_eq] at htotal
    refine le_cap htotal hw.total ?_
    intro d hd _
    rcases choice.total with hnil | hroom
    · rw [hnil] at hd
      cases hd
    · rw [List.countP_true]
      exact hroom
  · intro org
    refine le_cap (hlive _ (placed_tenant org)) (hw.tenant org) ?_
    intro d hd hq
    have horg : d.organizationId = org := of_decide_eq_true hq
    have := choice.tenant d hd
    rw [horg] at this
    exact this
  · intro ep
    refine le_cap (hlive _ (placed_endpoint ep)) (hw.endpoint ep) ?_
    intro d hd hq
    have hep : d.endpointId = ep := of_decide_eq_true hq
    have := choice.endpoint d hd
    rw [hep] at this
    exact this

/-- **THE CAPS HOLD THROUGHOUT.**  In every state that any sequence of
transactions and ticks of the clock reaches from a state within the caps,
the live leases are within the global, every tenant's and every endpoint's
cap. -/
theorem leases_capped (P : Primitives) (s : Settings) (w w' : World) (ops : List Op)
    (hstart : Capped s w) (hrun : run (World.step P s) w ops = some w') : Capped s w' :=
  run_inv (fun _ _ _ hw hstep => capped_change hw (World.step_change hstep)) hstart hrun

/-- The small deployment, claimed once and observed while the lease is live. -/
theorem leases_capped_small :
    ∃ w', smallRun {} [.claim 1 ["token-1"], .tick 30] = some w'
      ∧ liveTotal w'.db w'.clock = 1 ∧ Capped {} w' := by
  obtain ⟨w', hrun, hlive⟩ : ∃ w', smallRun {} [.claim 1 ["token-1"], .tick 30] = some w'
      ∧ liveTotal w'.db w'.clock = 1 := by
    decide +kernel
  refine ⟨w', hrun, hlive, leases_capped smallPrimitives {} _ w' _ ?_ hrun⟩
  -- nothing is leased at the start
  have hone : ∀ q : Delivery → Bool, smallDb.deliveries.rows.countP q ≤ 10 := fun q =>
    (List.countP_le_length).trans (by decide)
  exact ⟨hone _, fun _ => hone _, fun _ => hone _⟩

end WebhookPlatform
