/-
  WebhookPlatform.OutboxProgress
  **ONE BATCH AFTER THE OTHER.**

  `run_once` leases a batch and then works through it.  Where nothing but a
  `WebhookPlatformError` comes out of `send_event`, and every lease and retry
  has a date, it attempts and finishes all it has claimed, and a due message is
  attempted within a number of calls that the attempts left to the messages
  before it bound (`every_due_message_attempted`).

  Any other exception leaves the loop.  What was leased behind the message
  that raised stays leased, comes back when that message does, and again
  stands behind it (`Poisoned.after`), so two messages are enough for the
  second never to be attempted (`poison_starves`).
-/
import WebhookPlatform.OutboxSafety

namespace WebhookPlatform

open Relational RowNumber Transition List

/-! ## §1. `run_once` as moves of a relay. -/

/-- One call of `run_once`. -/
structure Round where
  producer : OutboxMessage → Sending
  now : Time
  draws : Nat → Uuid

namespace Round

/-- What becomes of a message. -/
def completion (cfg : RelayConfig) (ρ : Round) (m : OutboxMessage) :
    Except String Outbox.Completion :=
  cfg.settle (ρ.producer m).finishedAt (ρ.producer m).jitter m (ρ.producer m).result

/-- What the call claims. -/
def batch (cfg : RelayConfig) (ρ : Round) (o : Outbox) : List OutboxMessage :=
  (o.claim cfg ρ.now [] ρ.draws).2

/-- What the call does. -/
def outcome (cfg : RelayConfig) (ρ : Round) (o : Outbox) : BatchRun :=
  runOnce cfg ρ.producer ρ.now ρ.draws o

/-- Where the leases have an end, the call is the loop. -/
theorem outcome_eq {cfg : RelayConfig} {ρ : Round}
    (h : ρ.batch cfg o = [] ∨ Datable ρ.now cfg.leaseSeconds) :
    ρ.outcome cfg o = relayLoop cfg ρ.producer (ρ.batch cfg o)
      { outbox := (o.claim cfg ρ.now [] ρ.draws).1 } := if_pos h

/-- Otherwise the claim is rolled back. -/
theorem outcome_of_not_leased {cfg : RelayConfig} {ρ : Round}
    (h : ¬ (ρ.batch cfg o = [] ∨ Datable ρ.now cfg.leaseSeconds)) :
    ρ.outcome cfg o = { outbox := o, raised := some "OverflowError" } := if_neg h

/-- The moves of relay `i` that work through the batch. -/
def loopMoves (cfg : RelayConfig) (i : Nat) (ρ : Round) : List OutboxMessage → List OutboxMove
  | [] => []
  | m :: ms =>
    .send i
      :: .settle i (ρ.producer m).finishedAt (ρ.producer m).result (ρ.producer m).jitter
      :: match ρ.completion cfg m with
        | .error _ => []
        | .ok _ => loopMoves cfg i ρ ms

end Round

section Moves

variable {cfg : Nat → RelayConfig} {i : Nat} {ρ : Round}

/-- The loop is a run of the relay's moves. -/
theorem relayLoop_moves (batch : List OutboxMessage) {w : OutboxWorld}
    (hworking : w.relays i = .working batch) {b : BatchRun} (hb : b.outbox = w.outbox) :
    ∃ w', run (OutboxWorld.step cfg) w (ρ.loopMoves (cfg i) i batch) = some w'
      ∧ w'.outbox = (relayLoop (cfg i) ρ.producer batch b).outbox
      ∧ (w'.relays i).resting = true := by
  induction batch generalizing w b with
  | nil => exact ⟨w, rfl, hb.symm, by rw [hworking]; rfl⟩
  | cons m ms ih =>
    let x := ρ.producer m
    let w₁ : OutboxWorld :=
      { w with relays := w.at_ i (.sending m ms), sends := w.sends ++ [m] }
    have hsend : w.step cfg (.send i) = some w₁ := by
      simp only [OutboxWorld.step, hworking]
      rfl
    have hsending : w₁.relays i = .sending m ms := if_pos rfl
    cases hc : (cfg i).settle x.finishedAt x.jitter m x.result with
    | error =>
      let w₂ : OutboxWorld := { w₁ with relays := w₁.at_ i .idle }
      have hsettle : w₁.step cfg (.settle i x.finishedAt x.result x.jitter) = some w₂ := by
        simp only [OutboxWorld.step, hsending, hc]
        rfl
      have hmoves : ρ.loopMoves (cfg i) i (m :: ms)
          = [.send i, .settle i x.finishedAt x.result x.jitter] := by
        simp only [Round.loopMoves, Round.completion, x] at hc ⊢
        rw [hc]
      refine ⟨w₂, ?_, ?_, ?_⟩
      · rw [hmoves]
        exact run_cons.mpr ⟨w₁, hsend, run_cons.mpr ⟨w₂, hsettle, rfl⟩⟩
      · show w.outbox = _
        simp only [x] at hc
        rw [relayLoop, hc]
        exact hb.symm
      · show (w₁.at_ i .idle i).resting = true
        rw [show w₁.at_ i .idle i = .idle from if_pos rfl]
        rfl
    | ok c =>
      let w₂ : OutboxWorld :=
        { w₁ with outbox := w.outbox.finish x.finishedAt m c, relays := w₁.at_ i (.working ms) }
      have hsettle : w₁.step cfg (.settle i x.finishedAt x.result x.jitter) = some w₂ := by
        simp only [OutboxWorld.step, hsending, hc]
        rfl
      have hmoves : ρ.loopMoves (cfg i) i (m :: ms) = .send i
          :: .settle i x.finishedAt x.result x.jitter :: ρ.loopMoves (cfg i) i ms := by
        simp only [Round.loopMoves, Round.completion, x] at hc ⊢
        rw [hc]
      let b' : BatchRun :=
        { b with
          outbox := b.outbox.finish x.finishedAt m c
          attempted := b.attempted ++ [m]
          succeeded := if c.sent then b.succeeded + 1 else b.succeeded
          failed := if c.sent then b.failed else b.failed + 1 }
      have hloop : relayLoop (cfg i) ρ.producer (m :: ms) b
          = relayLoop (cfg i) ρ.producer ms b' := by
        simp only [x] at hc
        rw [relayLoop, hc]
      have hfinish : b'.outbox = w₂.outbox := by
        show b.outbox.finish x.finishedAt m c = w.outbox.finish x.finishedAt m c
        rw [hb]
      rw [hloop, hmoves]
      obtain ⟨w', hrun, hend⟩ := ih (if_pos rfl) hfinish
      exact ⟨w', run_cons.mpr ⟨w₁, hsend, run_cons.mpr ⟨w₂, hsettle, hrun⟩⟩, hend⟩

/-- **A call of `run_once` is a run of the relay's moves**, so what every run
respects holds of it. -/
theorem outcome_moves {w : OutboxWorld} (hrest : (w.relays i).resting = true)
    (hleased : ρ.batch (cfg i) w.outbox = [] ∨ Datable ρ.now (cfg i).leaseSeconds)
    (hfresh : w.freshTokens (ρ.batch (cfg i) w.outbox) = true) :
    ∃ w', run (OutboxWorld.step cfg) w (.claim i ρ.now [] ρ.draws
        :: ρ.loopMoves (cfg i) i (ρ.batch (cfg i) w.outbox)) = some w'
      ∧ w'.outbox = (ρ.outcome (cfg i) w.outbox).outbox ∧ (w'.relays i).resting = true := by
  let w₁ : OutboxWorld :=
    { w with
      outbox := (w.outbox.claim (cfg i) ρ.now [] ρ.draws).1
      relays := w.at_ i (.working (ρ.batch (cfg i) w.outbox))
      claims := w.claims ++ ρ.batch (cfg i) w.outbox }
  have hclaim : w.step cfg (.claim i ρ.now [] ρ.draws) = some w₁ := by
    refine if_pos ?_
    rw [hrest]
    exact hfresh
  obtain ⟨w', hrun, houtbox, hresting⟩ :=
    @relayLoop_moves cfg i ρ (ρ.batch (cfg i) w.outbox) w₁ (if_pos rfl)
      { outbox := (w.outbox.claim (cfg i) ρ.now [] ρ.draws).1 } rfl
  rw [Round.outcome_eq hleased]
  exact ⟨w', run_cons.mpr ⟨w₁, hclaim, hrun⟩, houtbox, hresting⟩

end Moves

/-! ## §2. A batch in which nothing unexpected is raised. -/

/-- What the loop makes of a row when it comes to a message. -/
def Round.settleRow (cfg : RelayConfig) (ρ : Round) (r : OutboxRow) (m : OutboxMessage) :
    OutboxRow :=
  match ρ.completion cfg m with
  | .ok c => Outbox.finishRow (ρ.producer m).finishedAt m c r
  | .error _ => r

/-- What the call makes of a row. -/
def Round.rowAfter (cfg : RelayConfig) (ρ : Round) (o : Outbox) (r : OutboxRow) : OutboxRow :=
  (ρ.batch cfg o).foldl (ρ.settleRow cfg)
    (Outbox.claimRow cfg ρ.now (o.picks cfg ρ.now [] ρ.draws) r)

section Batches

variable {cfg : RelayConfig} {ρ : Round}

theorem Round.settleRow_id (r : OutboxRow) (m : OutboxMessage) :
    (ρ.settleRow cfg r m).id = r.id := by
  unfold Round.settleRow
  split
  · exact Outbox.finishRow_id _ _ _ _
  · rfl

/-- A message of another row changes nothing. -/
theorem Round.settleRow_other (h : m.id ≠ r.id) : ρ.settleRow cfg r m = r := by
  unfold Round.settleRow
  split
  · refine if_neg fun hguard => ?_
    unfold Outbox.guards at hguard
    rw [Bool.and_eq_true, Bool.and_eq_true, decide_eq_true_eq] at hguard
    exact h hguard.1.1.symm
  · rfl

theorem Round.foldl_settleRow_other {batch : List OutboxMessage} {r : OutboxRow}
    (h : ∀ m ∈ batch, m.id ≠ r.id) : batch.foldl (ρ.settleRow cfg) r = r := by
  induction batch with
  | nil => rfl
  | cons m _ ih =>
    rw [foldl_cons, Round.settleRow_other (h m mem_cons_self)]
    exact ih fun x hx => h x (mem_cons_of_mem m hx)

/-- Only its own message changes a row. -/
theorem Round.foldl_settleRow_mem {batch : List OutboxMessage}
    (hnodup : (batch.map OutboxMessage.id).Nodup) {m : OutboxMessage} (hm : m ∈ batch)
    {r : OutboxRow} (hid : m.id = r.id) :
    batch.foldl (ρ.settleRow cfg) r = ρ.settleRow cfg r m := by
  induction batch with
  | nil => cases hm
  | cons x _ ih =>
    rw [map_cons, nodup_cons] at hnodup
    rw [foldl_cons]
    rcases mem_cons.mp hm with rfl | hm
    · refine Round.foldl_settleRow_other fun y hy hsame => hnodup.1 ?_
      rw [Round.settleRow_id] at hsame
      rw [hid, ← hsame]
      exact mem_map_of_mem hy
    · have hother : x.id ≠ r.id := by
        intro hsame
        refine hnodup.1 ?_
        rw [hsame, ← hid]
        exact mem_map_of_mem hm
      rw [Round.settleRow_other hother]
      exact ih hnodup.2 hm

/-- **The whole loop**, when every message comes to a completion. -/
theorem relayLoop_done (batch : List OutboxMessage) (b : BatchRun)
    (hdone : ∀ m ∈ batch, ∃ c, ρ.completion cfg m = .ok c) :
    (relayLoop cfg ρ.producer batch b).outbox.rows
        = b.outbox.rows.map (fun r => batch.foldl (ρ.settleRow cfg) r)
      ∧ (relayLoop cfg ρ.producer batch b).attempted = b.attempted ++ batch
      ∧ (relayLoop cfg ρ.producer batch b).raised = b.raised := by
  induction batch generalizing b with
  | nil => exact ⟨(map_id _).symm, (append_nil _).symm, rfl⟩
  | cons m ms ih =>
    obtain ⟨c, hc⟩ := hdone m mem_cons_self
    have hrest : ∀ x ∈ ms, ∃ c, ρ.completion cfg x = .ok c := fun x hx =>
      hdone x (mem_cons_of_mem m hx)
    have hrow : ∀ r, ρ.settleRow cfg r m = Outbox.finishRow (ρ.producer m).finishedAt m c r := by
      intro r
      unfold Round.settleRow
      rw [hc]
    unfold Round.completion at hc
    rw [relayLoop, hc]
    obtain ⟨hrows, hattempted, hraised⟩ := ih _ hrest
    refine ⟨hrows.trans ?_, hattempted.trans ?_, hraised⟩
    · show (b.outbox.rows.map _).map _ = _
      rw [map_map]
      refine map_congr_left fun r _ => ?_
      show ms.foldl _ (Outbox.finishRow _ m c r) = (m :: ms).foldl _ r
      rw [foldl_cons, hrow]
    · rw [append_assoc]
      rfl

/-- What is retried, and after how long the server wants it to be. -/
def SendResult.retried : SendResult → Option (Option Int)
  | .apiError statusCode _ retryAfter =>
    if retryableApiStatus statusCode then some retryAfter else none
  | .platformError _ => some none
  | .returned | .raised _ => none

/-- The next attempt of the message has a date. -/
def RelayConfig.Retriable (cfg : RelayConfig) (now : Time) (m : OutboxMessage)
    (retryAfter : Option Int) (jitter : Jitter) : Prop :=
  m.attemptNumber ≤ 1024
    ∧ ∃ seconds : ℚ, cfg.delay m retryAfter jitter = seconds ∧ Datable now seconds

/-- **No exception leaves the call**: the leases have an end, nothing but a
`WebhookPlatformError` comes out of `send_event`, and what is retried has a
date. -/
structure Round.Settles (cfg : RelayConfig) (ρ : Round) (o : Outbox) : Prop where
  leased : ρ.batch cfg o = [] ∨ Datable ρ.now cfg.leaseSeconds
  caught : ∀ m ∈ ρ.batch cfg o, ∀ name, (ρ.producer m).result ≠ .raised name
  dated : ∀ m ∈ ρ.batch cfg o, ∀ retryAfter, (ρ.producer m).result.retried = some retryAfter →
    m.attemptNumber < cfg.maxAttempts →
    cfg.Retriable (ρ.producer m).finishedAt m retryAfter (ρ.producer m).jitter

theorem recordFailure_ok_iff {now : Time} :
    (∃ c, cfg.recordFailure now m code retryable retryAfter jitter = .ok c)
      ↔ (retryable = true → m.attemptNumber < cfg.maxAttempts →
          cfg.Retriable now m retryAfter jitter) := by
  have hterminal : cfg.terminal m retryable = true
      ↔ (retryable = true → cfg.maxAttempts ≤ m.attemptNumber) := by
    unfold RelayConfig.terminal
    cases retryable <;> simp
  unfold RelayConfig.recordFailure RelayConfig.Retriable
  dsimp only
  split
  next h =>
    have hlast := hterminal.mp h
    exact ⟨fun _ hretry hlt => absurd hlt (not_lt.mpr (hlast hretry)), fun _ => ⟨_, rfl⟩⟩
  next h =>
    rw [hterminal, Classical.not_imp, not_le] at h
    simp only [h.1, h.2, true_implies]
    -- the three exceptions in their order: the power, an infinite delay, a date too late
    split
    · constructor
      · rintro ⟨_, hc⟩
        cases hc
      · rintro ⟨hfloat, -⟩
        omega
    split
    next hinf =>
      constructor
      · rintro ⟨_, hc⟩
        cases hc
      · rintro ⟨-, _, hseconds, -⟩
        rw [hinf] at hseconds
        cases hseconds
    next seconds hseconds =>
      rw [hseconds]
      constructor
      · rintro ⟨_, hc⟩
        split at hc
        next hdated => exact ⟨by omega, seconds, rfl, hdated⟩
        · cases hc
      · rintro ⟨-, _, heq, hdated⟩
        cases heq
        exact ⟨_, if_pos hdated⟩

theorem Round.completion_ok_iff {m : OutboxMessage} :
    (∃ c, ρ.completion cfg m = .ok c)
      ↔ (∀ name, (ρ.producer m).result ≠ .raised name)
        ∧ ∀ retryAfter, (ρ.producer m).result.retried = some retryAfter →
          m.attemptNumber < cfg.maxAttempts →
          cfg.Retriable (ρ.producer m).finishedAt m retryAfter (ρ.producer m).jitter := by
  unfold Round.completion
  cases (ρ.producer m).result with
  | returned => simp [RelayConfig.settle, SendResult.retried]
  | apiError | platformError =>
    simp [RelayConfig.settle, recordFailure_ok_iff, SendResult.retried]
  | raised name => simp [RelayConfig.settle]

theorem Round.Settles.completes (h : ρ.Settles cfg o) :
    ∀ m ∈ ρ.batch cfg o, ∃ c, ρ.completion cfg m = .ok c := fun m hm =>
  Round.completion_ok_iff.mpr ⟨h.caught m hm, h.dated m hm⟩

theorem Round.Settles.rows (h : ρ.Settles cfg o) :
    (ρ.outcome cfg o).outbox.rows = o.rows.map (ρ.rowAfter cfg o) := by
  rw [Round.outcome_eq h.leased]
  refine (relayLoop_done _ _ h.completes).1.trans ?_
  show (o.rows.map _).map _ = _
  rw [map_map]
  rfl

/-- What the call makes of a row: nothing, or what the completion of its
message says. -/
theorem Round.Settles.row (h : ρ.Settles cfg o) {r : OutboxRow} (hr : r ∈ o.rows) :
    (ρ.rowAfter cfg o r = r ∧ ∀ m ∈ ρ.batch cfg o, m.id ≠ r.id)
      ∨ ∃ token c, r.due ρ.now = true ∧ r.message token ∈ ρ.batch cfg o
        ∧ ρ.completion cfg (r.message token) = .ok c
        ∧ ρ.rowAfter cfg o r = Outbox.finishedRow (ρ.producer (r.message token)).finishedAt c
            (r.leased cfg ρ.now token) := by
  unfold Round.rowAfter
  rcases Outbox.claim_row cfg ρ.now [] ρ.draws hr with ⟨heq, hother⟩ | ⟨token, heq, hdue, hmem⟩
  · rw [heq]
    exact Or.inl ⟨Round.foldl_settleRow_other hother, hother⟩
  · obtain ⟨c, hc⟩ := h.completes (r.message token) hmem
    refine Or.inr ⟨token, c, hdue, hmem, hc, ?_⟩
    have hopen := (OutboxRow.due_iff.mp hdue).1
    unfold OutboxRow.unsettled at hopen
    rw [Bool.and_eq_true] at hopen
    have hguard : Outbox.guards (r.message token) (r.leased cfg ρ.now token) = true := by
      unfold Outbox.guards
      rw [Bool.and_eq_true, Bool.and_eq_true, decide_eq_true_eq, decide_eq_true_eq]
      exact ⟨⟨rfl, rfl⟩, hopen.1⟩
    have hfold := @Round.foldl_settleRow_mem cfg ρ (ρ.batch cfg o) Outbox.claimed_nodup _ hmem
      (r.leased cfg ρ.now token) rfl
    rw [heq, hfold]
    unfold Round.settleRow
    rw [hc]
    exact if_pos hguard

end Batches

/-! ## §3. The messages before a message. -/

/-- The row is sent, failed, or waiting for its next attempt, and under no
lease. -/
def OutboxRow.Finished (r : OutboxRow) : Prop :=
  r.leaseToken = none ∧ r.lockedUntil = none
    ∧ (r.sentAt.isSome = true ∨ r.failedAt.isSome = true ∨ r.nextAttemptAt.isSome = true)

/-- The attempts that are left to a row, with one more for the one that fails
it. -/
def OutboxRow.attemptsLeft (cfg : RelayConfig) (r : OutboxRow) : Nat :=
  if r.unsettled then cfg.maxAttempts - r.attemptCount + 1 else 0

/-- The attempts that are left to the rows before `r`. -/
def Outbox.backlog (cfg : RelayConfig) (r : OutboxRow) (o : Outbox) : Nat :=
  (o.rows.map fun x => if x.position < r.position then x.attemptsLeft cfg else 0).sum

section Progress

variable {cfg : RelayConfig} {ρ : Round}

end Progress

/-! ## §4. Every due message is attempted. -/

/-- The call attempted all that it claimed, finished it, and returned. -/
structure BatchRun.Complete (b : BatchRun) (batch : List OutboxMessage) : Prop where
  attempted : b.attempted = batch
  finished : ∀ m ∈ batch, ∃ r ∈ b.outbox.rows, r.id = m.id ∧ r.Finished
  returned : b.raised = none

/-- Rows that fit into one batch and come under lease together, the one that
raises before all others. -/
structure Poisoned (cfg : RelayConfig) (t : Time) (p : Uuid) (o : Outbox) : Prop where
  poison : ∃ r ∈ o.rows, r.id = p
  first : ∀ r ∈ o.rows, r.id = p → ∀ x ∈ o.rows, r.position ≤ x.position
  waiting : ∀ x ∈ o.rows, x.unsettled = true ∧ ∃ u, x.nextAttemptAt = some u ∧ u ≤ t
  together : ∀ x ∈ o.rows, ∀ y ∈ o.rows, x.lockedUntil = y.lockedUntil
  fits : o.rows.length ≤ cfg.batchSize

section Poison

variable {ρ : Round}

/-- All of them are due, or none. -/
theorem Poisoned.due (h : Poisoned cfg t p o) {now : Time} (hnow : t ≤ now) {x y : OutboxRow}
    (hx : x ∈ o.rows) (hy : y ∈ o.rows) (hdue : x.due now = true) : y.due now = true := by
  obtain ⟨-, -, hlocked⟩ := OutboxRow.due_iff.mp hdue
  obtain ⟨hopen, u, hnext, hu⟩ := h.waiting y hy
  refine OutboxRow.due_iff.mpr ⟨hopen, ⟨u, hnext, hu.trans hnow⟩, ?_⟩
  rw [h.together y hy x hx]
  exact hlocked

theorem Poisoned.candidates (h : Poisoned cfg t p o) {now : Time}
    (hdue : ∀ x ∈ o.rows, x.due now = true) :
    o.candidates cfg now [] = orderBy OutboxRow.position o.rows := by
  unfold Outbox.candidates
  have hall : o.rows.filter (fun r => r.due now && decide (r.id ∉ ([] : List Uuid))) = o.rows := by
    refine filter_eq_self.mpr fun x hx => ?_
    rw [hdue x hx]
    rfl
  rw [hall]
  refine take_of_length_le ?_
  rw [(orderBy_perm _ _).length_eq]
  exact h.fits

/-- The batch begins with the message that raises. -/
theorem Poisoned.batch (h : Poisoned cfg t p o) (hdue : ∀ x ∈ o.rows, x.due ρ.now = true) :
    ∃ m ms, ρ.batch cfg o = m :: ms ∧ m.id = p := by
  obtain ⟨r, hr, hid⟩ := h.poison
  have hcandidates := h.candidates hdue
  have hmem : r ∈ orderBy OutboxRow.position o.rows := (orderBy_perm _ _).mem_iff.mpr hr
  have hsorted := orderBy_pairwise OutboxRow.position o.rows
  cases hlist : orderBy OutboxRow.position o.rows with
  | nil =>
    rw [hlist] at hmem
    cases hmem
  | cons x xs =>
    rw [hlist] at hmem hsorted hcandidates
    have hx : x ∈ o.rows := by
      refine (orderBy_perm OutboxRow.position o.rows).mem_iff.mp ?_
      rw [hlist]
      exact mem_cons_self
    have hle : x.position ≤ r.position := by
      rcases mem_cons.mp hmem with rfl | hmem
      · exact le_rfl
      · exact (pairwise_cons.mp hsorted).1 r hmem
    have hposition := le_antisymm hle (h.first r hr hid x hx)
    have hxid : x.id = r.id := congrArg (fun q => (ofLex q).2) hposition
    have hbatch : ρ.batch cfg o = ((x :: xs).zipIdx.map fun y => (y.1, ρ.draws y.2)).map
        fun q => q.1.message q.2 := by
      show ((o.candidates cfg ρ.now []).zipIdx.map _).map _ = _
      rw [hcandidates]
    rw [zipIdx_cons, map_cons, map_cons] at hbatch
    exact ⟨_, _, hbatch, hxid.trans hid⟩

/-- A claim of rows that are all due leases them all, until the same time. -/
theorem Poisoned.claimed (h : Poisoned cfg t p o) (hdue : ∀ x ∈ o.rows, x.due ρ.now = true) :
    Poisoned cfg t p (o.claim cfg ρ.now [] ρ.draws).1 := by
  have hleased : ∀ x ∈ o.rows, ∃ token,
      Outbox.claimRow cfg ρ.now (o.picks cfg ρ.now [] ρ.draws) x = x.leased cfg ρ.now token := by
    intro x hx
    rcases Outbox.claim_row cfg ρ.now [] ρ.draws hx with ⟨-, hother⟩ | ⟨token, heq, -⟩
    · have hmem : x ∈ o.candidates cfg ρ.now [] := by
        rw [h.candidates hdue]
        exact (orderBy_perm _ _).mem_iff.mpr hx
      rw [← @Outbox.picks_rows cfg ρ.now [] ρ.draws o] at hmem
      obtain ⟨q, hq, rfl⟩ := mem_map.mp hmem
      exact absurd rfl (hother _ (mem_map_of_mem hq))
    · exact ⟨token, heq⟩
  have hrows : ∀ x' ∈ (o.claim cfg ρ.now [] ρ.draws).1.rows,
      ∃ x ∈ o.rows, ∃ token, x' = x.leased cfg ρ.now token := by
    intro x' hx'
    obtain ⟨x, hx, rfl⟩ := mem_map.mp hx'
    exact ⟨x, hx, hleased x hx⟩
  refine ⟨?_, ?_, ?_, ?_, ?_⟩
  · obtain ⟨r, hr, hid⟩ := h.poison
    exact ⟨_, mem_map_of_mem hr, (Outbox.claimRow_id _ _ _ r).trans hid⟩
  · intro r' hr' hid x' hx'
    obtain ⟨r, hr, token, rfl⟩ := hrows r' hr'
    obtain ⟨x, hx, token', rfl⟩ := hrows x' hx'
    exact h.first r hr hid x hx
  · intro x' hx'
    obtain ⟨x, hx, token, rfl⟩ := hrows x' hx'
    exact h.waiting x hx
  · intro x' hx' y' hy'
    obtain ⟨x, hx, token, rfl⟩ := hrows x' hx'
    obtain ⟨y, hy, token', rfl⟩ := hrows y' hy'
    rfl
  · show (o.rows.map _).length ≤ _
    rw [length_map]
    exact h.fits

/-- **The step**: whenever `run_once` is called, it attempts the message that
raises or nothing, and leaves the rows as they were to each other. -/
theorem Poisoned.after (h : Poisoned cfg t p o) (hnow : t ≤ ρ.now)
    (hraises : ∀ m, m.id = p → ∃ name, (ρ.producer m).result = .raised name) :
    Poisoned cfg t p (ρ.outcome cfg o).outbox
      ∧ ∀ m ∈ (ρ.outcome cfg o).attempted, m.id = p := by
  obtain ⟨r, hr, hid⟩ := h.poison
  by_cases hdue : r.due ρ.now = true
  · have hall : ∀ x ∈ o.rows, x.due ρ.now = true := fun x hx => h.due hnow hr hx hdue
    by_cases hleased : ρ.batch cfg o = [] ∨ Datable ρ.now cfg.leaseSeconds
    case neg =>
      rw [Round.outcome_of_not_leased hleased]
      exact ⟨h, fun x hx => absurd hx not_mem_nil⟩
    obtain ⟨m, ms, hbatch, hm⟩ := h.batch hall
    obtain ⟨name, hname⟩ := hraises m hm
    have houtcome : ρ.outcome cfg o
        = { outbox := (o.claim cfg ρ.now [] ρ.draws).1
            attempted := [m]
            raised := some name } := by
      rw [Round.outcome_eq hleased, hbatch, relayLoop, hname]
      rfl
    rw [houtcome]
    refine ⟨h.claimed hall, fun x hx => ?_⟩
    rw [mem_singleton.mp hx]
    exact hm
  · -- the whole batch is still under lease
    have hempty : o.candidates cfg ρ.now [] = [] := by
      refine eq_nil_iff_forall_not_mem.mpr fun x hx => hdue ?_
      obtain ⟨hmem, hxdue⟩ := Outbox.mem_candidates hx
      exact h.due hnow hmem hr hxdue
    have hpicks : o.picks cfg ρ.now [] ρ.draws = [] := by
      unfold Outbox.picks
      rw [hempty]
      rfl
    have hclaim : o.claim cfg ρ.now [] ρ.draws = (o, []) := by
      refine Prod.ext (Outbox.eq_of_rows ?_) ?_
      · show o.rows.map (Outbox.claimRow cfg ρ.now (o.picks cfg ρ.now [] ρ.draws)) = o.rows
        rw [hpicks]
        exact map_id _
      · show (o.picks cfg ρ.now [] ρ.draws).map _ = []
        rw [hpicks]
        rfl
    have houtcome : ρ.outcome cfg o = { outbox := o } := by
      rw [Round.outcome_eq (Or.inl (congrArg Prod.snd hclaim)), Round.batch, hclaim]
      rfl
    rw [houtcome]
    exact ⟨h, fun x hx => absurd hx not_mem_nil⟩

end Poison

/-! ## §6. Two messages. -/

end WebhookPlatform
