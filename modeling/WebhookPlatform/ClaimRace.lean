/-
  WebhookPlatform.ClaimRace
  **A CLAIM AGAINST CANCELLATION, FINALIZATION, RELEASE AND RENEWAL.**

  `select_fair_deliveries` finds the due deliveries in one statement and
  locks them in the next, by their ids alone.  A cancellation or a renewal
  that commits between the two is not seen again: `stale_scan_claimed` is a
  run in which a claim takes a canceled delivery out of its terminal status,
  and one in which it replaces the token of a lease that was just renewed.

  While the rows that the second statement locks are still due, no claim
  does either, under any interleaving (`claims_respect_rows`).
-/
import WebhookPlatform.TransactionOutline

namespace WebhookPlatform

open Relational Transition RowLocks

/-! ## §1. What a claim must not do. -/

/-- The call that a statement of `claim_due` belongs to. -/
def Txn.claimCall {s : Settings} : Txn s → Option ClaimCall
  | .claimGlobal k | .claimLive k _ | .claimScan k _ _ | .claimRows k _ _ _ | .claimTenants k _
  | .claimEndpoints k _ _ | .claimTenantCounts k _ _ _ | .claimEndpointCounts k _ _ _ _
  | .claimWrite k _ _ | .claimNothing k => some k
  | _ => none

/-- From `db` to `db'` no delivery left a terminal status, and none whose
lease runs beyond `now` got another token. -/
def RowsRespected (now : Time) (db db' : Db) : Prop :=
  ∀ x ∈ db.deliveries.rows, ∃ x' ∈ db'.deliveries.rows, x'.id = x.id
    ∧ (x.status.terminal = true → x'.status = x.status)
    ∧ ∀ expiry, x.leaseExpiresAt = some expiry → now < expiry → x'.leaseToken = x.leaseToken

/-- Every statement of a claim respects the rows, at the claim's own `now`. -/
def ClaimRespects {s : Settings} (σ : Platform s) (m : Move Call Time) (σ' : Platform s) : Prop :=
  ∀ i l k, m = .exec i → σ.locals i = some l → l.claimCall = some k →
    RowsRespected k.now σ.db.db σ'.db.db

theorem rowsRespected_of_eq {now : Time} (h : db'.deliveries = db.deliveries) :
    RowsRespected now db db' := by
  intro x hx
  rw [h]
  exact ⟨x, hx, rfl, fun _ => rfl, fun _ _ _ => rfl⟩

/-! ## §2. Queued deliveries are not leased. -/

/-- Only a delivery in processing has a lease. -/
def Unleased (db : Db) : Prop :=
  ∀ x ∈ db.deliveries.rows, x.status.queued = true → x.leaseExpiresAt = none

theorem unleased_put (h : Unleased db) (hy : y.status.queued = true → y.leaseExpiresAt = none) :
    ∀ x ∈ (db.deliveries.put y).rows, x.status.queued = true → x.leaseExpiresAt = none := by
  intro x hx
  rcases Table.mem_of_mem_put hx with rfl | hx
  · exact hy
  · exact h x hx

theorem unleased_append (h : Unleased db) (hrows : rows = db.deliveries.rows ++ new)
    (hnew : ∀ y ∈ new, y.leaseExpiresAt = none) :
    ∀ x ∈ rows, x.status.queued = true → x.leaseExpiresAt = none := by
  intro x hx hqueued
  rw [hrows] at hx
  rcases List.mem_append.mp hx with hx | hx
  · exact h x hx hqueued
  · exact hnew x hx

/-- Every commit keeps it: leases are given with `processing` and taken back
with it. -/
theorem unleased_commit (h : Unleased d.db) (hc : Commit P s p d d') : Unleased d'.db := by
  cases hc with
  | idle | ensured | purged => exact h
  | claimed =>
    intro x hx hqueued
    rcases mem_claimed hx with ⟨y, -, rfl⟩ | ⟨hx, -⟩
    · exact absurd hqueued (by simp [claimRow, DeliveryStatus.queued])
    · exact h x hx hqueued
  | renewed now c x _ _ _ holds =>
    -- the renewed row stays in processing
    have hprocessing := (ClaimedDelivery.owns_iff.mp (ClaimedDelivery.owns_of_holds holds)).1
    refine unleased_put h fun hqueued => ?_
    have hnew : (renewRow s now x).status = .processing := hprocessing
    rw [hnew] at hqueued
    exact absurd hqueued (by decide)
  | released => exact unleased_put h fun _ => rfl
  | finalized =>
    unfold Shared.finalized
    split
    · exact h
    · exact unleased_put h fun _ => rfl
  | canceled =>
    refine unleased_put h fun hqueued => ?_
    exact absurd hqueued (by simp [cancelRow, DeliveryStatus.queued])
  | ingested q a =>
    refine unleased_append h (acceptEvent_deliveries q a d.db) fun y hy => ?_
    obtain ⟨w, publicId, n, rfl⟩ := mem_newDeliveries hy
    rfl
  | replayed q copies =>
    refine unleased_append h (acceptReplays_deliveries copies d.db) fun y hy => ?_
    obtain ⟨x, -, publicId, n, rfl⟩ := mem_copies copies hy
    rfl

/-! ## §3. One claim. -/

/-- A due delivery has no lease that runs beyond now. -/
theorem lease_le_of_due (h : Unleased db) {now expiry : Time} (hx : x ∈ db.deliveries.rows)
    (hdue : x.due now = true) (hlease : x.leaseExpiresAt = some expiry) : expiry ≤ now := by
  rcases Delivery.status_of_due hdue with hqueued | hprocessing
  · rw [h x hx hqueued] at hlease
    cases hlease
  · simpa [Delivery.due, hprocessing, hlease, DeliveryStatus.queued] using hdue

/-- **The commit of a claim** whose rows are due respects the rows. -/
theorem rowsRespected_claimed {G : Shared → Prop} (h : Unleased d.db) (hb : b.Locked p G d H k)
    (hr : r.candidates = b.candidates) (hp : p.due = true) :
    RowsRespected k.now d.db (Shared.claimed s k b r claims d).db := by
  intro x hx
  -- the row under the same id is the claimed version of `x`, or `x` itself
  have hid : x.id ∈ (d.db.deliveries.putAll
      (claimedRows s k.now (claimPicks s k b r))).rows.map Delivery.id := by
    rw [Serial.putAll_toTable, Table.keys_putAll]
    exact List.mem_map_of_mem hx
  obtain ⟨x', hx', hxx'⟩ := List.mem_map.mp hid
  refine ⟨x', hx', hxx', ?_⟩
  rcases mem_claimed hx' with ⟨y, hy, rfl⟩ | ⟨hkept, -⟩
  · have hpick : y.1 ∈ b.candidates := hb.mem_of_pick hr hy
    have hyx : y.1 = x := d.db.deliveries.eq_of_key_eq (hb.rows y.1 hpick).row hx hxx'
    have hdue : x.due k.now = true := hyx ▸ hb.due hp y.1 hpick
    constructor
    · intro hterminal
      -- what is due is not terminal
      rw [Delivery.nonterminal_of_due hdue] at hterminal
      exact absurd hterminal (by decide)
    · intro expiry hlease hlive
      exact absurd hlive (not_lt.mpr (lease_le_of_due h hx hdue hlease))
  · have heq : x' = x := d.db.deliveries.eq_of_key_eq hkept hx hxx'
    subst heq
    exact ⟨fun _ => rfl, fun _ _ _ => rfl⟩

/-- Every statement of a claim respects the rows. -/
theorem rowsRespected_stmt {G : Shared → Prop} {l : Txn s} (h : Unleased d.db)
    (hok : l.ok P p G d H) (hp : p.due = true) (hk : l.claimCall = some k)
    (hst : l.stmt P s = some st) : RowsRespected k.now d.db (st.write d).db := by
  cases l <;> simp only [Txn.claimCall, Option.some.injEq, reduceCtorEq] at hk
  case claimWrite k' b r =>
    subst hk
    simp only [Txn.stmt] at hst
    split at hst
    · cases hst
      exact rowsRespected_of_eq rfl
    next claims _ =>
      cases hst
      exact rowsRespected_claimed h hok.1 hok.2.2 hp
  all_goals
    cases hst
    exact rowsRespected_of_eq rfl

/-! ## §4. All interleavings. -/

/-- **CLAIMS RESPECT TERMINAL STATUSES AND LIVE LEASES** in every interleaving
in which the rows that a claim locks are still due at its own `now`. -/
theorem claims_respect_rows (P : Primitives) (s : Settings) (d : Shared) (hd : Unleased d.db)
    (ms : List (Move Call Time))
    (hdue : Along (platform P s).step
      (Allowed (platform P s) (Discipline.allow { due := true })) (Sys.initial d) ms) :
    Along (platform P s).step ClaimRespects (Sys.initial d) ms := by
  let O := outline P s { due := true } (fun d => Unleased d.db)
    (fun _ _ h hc => unleased_commit h hc) (fun _ _ h _ => h)
  refine O.along ?_ hd ms hdue
  intro σ m σ' hσ _ hstep _ i l k hm hl hk
  subst hm
  obtain ⟨st, hst, hexec⟩ := (platform P s).step_exec hl hstep
  rw [(platform P s).execStmt_db hexec]
  exact rowsRespected_stmt hσ.glob (hσ.ok i l hl) rfl hk hst

/-- A whole claim, and a cancellation that comes too late. -/
def claimThenCancel : List (Move Call Time) :=
  .begin 0 (.claim 1 ["token-1"]) :: List.replicate 9 (.exec 0)
    ++ .begin 1 (.cancel 1 "delivery-1" none) :: List.replicate 2 (.exec 1)

theorem claims_respect_rows_small :
    (smallInterleaving {} claimThenCancel).map
        (fun σ => (σ.db.db.deliveries.find? 1).map Delivery.status) = some (some .processing)
      ∧ Along (platform smallPrimitives {}).step ClaimRespects (Sys.initial smallShared)
          claimThenCancel := by
  refine ⟨by decide +kernel, claims_respect_rows smallPrimitives {} smallShared ?_ _ ?_⟩
  · unfold Unleased
    decide +kernel
  · decide +kernel

/-- The claim has scanned; the cancellation commits; the claim goes on to its
write. -/
def canceledAfterScan : List (Move Call Time) :=
  .begin 0 (.claim 1 ["token-1"]) :: List.replicate 3 (.exec 0)
    ++ .begin 1 (.cancel 1 "delivery-1" none) :: List.replicate 3 (.exec 1)
    ++ List.replicate 5 (.exec 0)

/-- A renewal begins at 59; at 61 another worker's claim scans; the renewal
commits; the claim goes on to its write. -/
def renewedAfterScan : List (Move Call Time) :=
  .begin 0 (.claim 1 ["token-1"]) :: List.replicate 9 (.exec 0)
    ++ [.env 59, .begin 1 (.renew (smallClaim "token-1" 1)), .env 61]
    ++ .begin 2 (.claim 1 ["token-2"]) :: List.replicate 3 (.exec 2)
    ++ List.replicate 2 (.exec 1) ++ List.replicate 5 (.exec 2)

/-- **A CLAIM ACTS ON A STALE SCAN.**  It moves a canceled delivery to
processing; and at its own time 61 it replaces the token of a delivery whose
committed lease runs until 119. -/
theorem stale_scan_claimed :
    (∃ σ σ' : Platform {}, smallInterleaving {} canceledAfterScan = some σ
      ∧ (platform smallPrimitives {}).step σ (.exec 0) = some σ'
      ∧ ((σ.locals 0).bind Txn.claimCall).map ClaimCall.now = some 0
      ∧ (σ.db.db.deliveries.find? 1).map Delivery.status = some .canceled
      ∧ (σ'.db.db.deliveries.find? 1).map Delivery.status = some .processing)
    ∧ ∃ σ σ' : Platform {}, smallInterleaving {} renewedAfterScan = some σ
      ∧ (platform smallPrimitives {}).step σ (.exec 2) = some σ'
      ∧ ((σ.locals 2).bind Txn.claimCall).map ClaimCall.now = some 61
      ∧ (σ.db.db.deliveries.find? 1).bind Delivery.leaseExpiresAt = some 119
      ∧ (σ.db.db.deliveries.find? 1).bind Delivery.leaseToken = some "token-1"
      ∧ (σ'.db.db.deliveries.find? 1).bind Delivery.leaseToken = some "token-2" := by
  constructor <;> decide +kernel

end WebhookPlatform
