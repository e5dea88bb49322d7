/-
  WebhookPlatform.Outbox
  **THE TRANSACTIONAL OUTBOX** (`webhook_platform_sdk/outbox.py`): a table in
  the producer's own database, and relays that claim its rows, send them and
  record what came of it.

    • `Outbox`                    — the table, with its two unique columns,
    • `claim`, `finish`           — the two transactions of a relay,
    • `recordFailure`, `settle`   — what becomes of one message,
    • `runOnce`                   — one batch: the `for` loop of `run_once`,
      which an exception that nobody catches leaves early,
    • `OutboxWorld.step`          — any number of relays, one transaction or
      one send at a time.

  What the producer does with a message is an argument, and so are the clock,
  the lease tokens and the random draws.  Relays need not agree on the time,
  which counts the seconds since 1970.  Floats are exact where they are finite.
-/
import WebhookPlatform.WebhookService
import WebhookPlatform.Lib.RowNumber
import WebhookPlatform.Lib.Runs
import Mathlib.Data.String.Basic

namespace WebhookPlatform

open Relational RowNumber

/-! ## §1. The table. -/

/-- A row of `webhook_outbox`. -/
structure OutboxRow where
  id : Uuid
  eventType : String
  payload : Json
  idempotencyKey : String
  envelopeMode : EnvelopeMode
  leaseToken : Option Uuid := none
  lockedUntil : Option Time := none
  attemptCount : Nat := 0
  nextAttemptAt : Option Time
  lastErrorCode : Option String := none
  createdAt : Time
  sentAt : Option Time := none
  failedAt : Option Time := none

/-- `webhook_outbox`: the primary key, and the unique idempotency key. -/
structure Outbox extends Table OutboxRow OutboxRow.id where
  unique : (rows.map OutboxRow.idempotencyKey).Nodup

namespace Outbox

/-- The outbox before the first message. -/
def empty : Outbox := ⟨Table.empty, List.nodup_nil⟩

/-- `UPDATE webhook_outbox`: neither of the two keys is ever assigned. -/
def update (o : Outbox) (f : OutboxRow → OutboxRow) (hid : ∀ r, (f r).id = r.id)
    (hkey : ∀ r, (f r).idempotencyKey = r.idempotencyKey) : Outbox where
  toTable := o.mapRows f hid
  unique := by
    show ((o.rows.map f).map OutboxRow.idempotencyKey).Nodup
    rw [List.map_map, show OutboxRow.idempotencyKey ∘ f = OutboxRow.idempotencyKey from funext hkey]
    exact o.unique

/-- Two outboxes with the same rows are the same. -/
theorem eq_of_rows {o o' : Outbox} (h : o.rows = o'.rows) : o = o' := by
  obtain ⟨⟨rows, nodup⟩, unique⟩ := o
  obtain ⟨⟨rows', nodup'⟩, unique'⟩ := o'
  dsimp only at h
  subst h
  rfl

end Outbox

/-! ## §2. Enqueuing. -/

/-- The arguments of `enqueue_outbox`, and what it draws. -/
structure EnqueueCall where
  id : Uuid
  eventType : String
  payload : Json
  idempotencyKey : Option String := none
  drawnKey : String
  envelopeMode : String := "native"

/-- `key = idempotency_key or str(uuid4())`. -/
def EnqueueCall.key (q : EnqueueCall) : String :=
  match q.idempotencyKey with
  | none => q.drawnKey
  | some key => if key = "" then q.drawnKey else key

/-- The inserted row. -/
def EnqueueCall.row (now : Time) (q : EnqueueCall) (mode : EnvelopeMode) : OutboxRow where
  id := q.id
  eventType := q.eventType
  payload := q.payload
  idempotencyKey := q.key
  envelopeMode := mode
  nextAttemptAt := some now
  createdAt := now

/-- A unique column stays unique when a new value is appended. -/
theorem nodup_map_snoc {α β : Type} {f : α → β} {rows : List α} {a : α} (h : (rows.map f).Nodup)
    (hnew : f a ∉ rows.map f) : ((rows ++ [a]).map f).Nodup := by
  rw [List.map_append, List.nodup_append]
  refine ⟨h, List.nodup_singleton _, ?_⟩
  intro x hx y hy hxy
  rw [List.map_singleton, List.mem_singleton] at hy
  exact hnew (hy ▸ hxy ▸ hx)

/-- `enqueue_outbox`, with the caller's commit; `none` is a `ValueError` or an
`IntegrityError`, after which nothing is inserted. -/
def enqueueOutbox (now : Time) (q : EnqueueCall) (o : Outbox) : Option Outbox :=
  if q.eventType = "" then none
  else
    match EnvelopeMode.parse q.envelopeMode with
    | none => none
    | some mode =>
      if h : q.id ∉ o.rows.map OutboxRow.id
          ∧ q.key ∉ o.rows.map OutboxRow.idempotencyKey then
        some
          { rows := o.rows ++ [q.row now mode]
            nodup := nodup_map_snoc o.nodup h.1
            unique := nodup_map_snoc o.unique h.2 }
      else none

theorem enqueueOutbox_some (h : enqueueOutbox now q o = some o') :
    ∃ mode, o'.rows = o.rows ++ [q.row now mode] ∧ q.id ∉ o.rows.map OutboxRow.id := by
  unfold enqueueOutbox at h
  split at h
  · cases h
  split at h
  · cases h
  next mode hmode =>
    split at h
    next hnew =>
      injection h with h
      exact ⟨mode, by rw [← h], hnew.1⟩
    · cases h

/-! ## §3. Claiming. -/

/-- The arguments of `OutboxRelay`, with what its constructor checks.  The
bounds of the delay are floats: `⊤` is `inf`, which passes, and `nan` does not. -/
structure RelayConfig where
  batchSize : Nat := 50
  leaseSeconds : Nat := 60
  maxAttempts : Nat := 20
  retryBaseSeconds : WithTop ℚ := (1 : ℚ)
  retryCapSeconds : WithTop ℚ := (300 : ℚ)
  batchSize_bounds : 1 ≤ batchSize ∧ batchSize ≤ 1000 := by decide
  leaseSeconds_pos : 1 ≤ leaseSeconds := by decide
  maxAttempts_pos : 1 ≤ maxAttempts := by decide
  retry_bounds : 0 ≤ retryBaseSeconds ∧ retryBaseSeconds ≤ retryCapSeconds := by decide

/-- A relay with the default arguments. -/
def defaultRelay : RelayConfig := {}

/-- `OutboxMessage`. -/
structure OutboxMessage where
  id : Uuid
  eventType : String
  payload : Json
  idempotencyKey : String
  envelopeMode : EnvelopeMode
  leaseToken : Uuid
  attemptNumber : Nat

/-- Neither sent nor failed. -/
def OutboxRow.unsettled (r : OutboxRow) : Bool := r.sentAt.isNone && r.failedAt.isNone

/-- The `WHERE` clause of `_claim`; a comparison with `NULL` is not true. -/
def OutboxRow.due (now : Time) (r : OutboxRow) : Bool :=
  r.unsettled && r.nextAttemptAt.any (fun t => decide (t ≤ now))
    && !r.lockedUntil.any fun t => decide (now < t)

/-- `ORDER BY created_at, id`. -/
def OutboxRow.position (r : OutboxRow) : ℚ ×ₗ Uuid := toLex (r.createdAt, r.id)

/-- The claimed row. -/
def OutboxRow.leased (cfg : RelayConfig) (now : Time) (token : Uuid) (r : OutboxRow) : OutboxRow :=
  { r with
    leaseToken := some token
    lockedUntil := some (now + cfg.leaseSeconds)
    attemptCount := r.attemptCount + 1 }

/-- The message of a claimed row. -/
def OutboxRow.message (token : Uuid) (r : OutboxRow) : OutboxMessage where
  id := r.id
  eventType := r.eventType
  payload := r.payload
  idempotencyKey := r.idempotencyKey
  envelopeMode := r.envelopeMode
  leaseToken := token
  attemptNumber := r.attemptCount + 1

namespace Outbox

/-- The rows that `_claim` selects while other transactions hold locks on
`skipped`. -/
def candidates (cfg : RelayConfig) (now : Time) (skipped : List Uuid) (o : Outbox) :
    List OutboxRow :=
  (orderBy OutboxRow.position
    (o.rows.filter fun r => r.due now && decide (r.id ∉ skipped))).take cfg.batchSize

/-- The selected rows, each with the token that is drawn for it. -/
def picks (cfg : RelayConfig) (now : Time) (skipped : List Uuid) (draws : Nat → Uuid)
    (o : Outbox) : List (OutboxRow × Uuid) :=
  (o.candidates cfg now skipped).zipIdx.map fun x => (x.1, draws x.2)

/-- The update of one row by a claim. -/
def claimRow (cfg : RelayConfig) (now : Time) (ps : List (OutboxRow × Uuid)) (r : OutboxRow) :
    OutboxRow :=
  match ps.find? fun p => decide (p.1.id = r.id) with
  | some p => r.leased cfg now p.2
  | none => r

theorem claimRow_id (cfg : RelayConfig) (now : Time) (ps : List (OutboxRow × Uuid))
    (r : OutboxRow) : (claimRow cfg now ps r).id = r.id := by
  unfold claimRow
  split <;> rfl

theorem claimRow_key (cfg : RelayConfig) (now : Time) (ps : List (OutboxRow × Uuid))
    (r : OutboxRow) : (claimRow cfg now ps r).idempotencyKey = r.idempotencyKey := by
  unfold claimRow
  split <;> rfl

/-- `_claim`, where the end of the lease has a date; `runOnce` has the other
case. -/
def claim (cfg : RelayConfig) (now : Time) (skipped : List Uuid) (draws : Nat → Uuid)
    (o : Outbox) : Outbox × List OutboxMessage :=
  (o.update (claimRow cfg now (o.picks cfg now skipped draws)) (claimRow_id cfg now _)
      (claimRow_key cfg now _),
    (o.picks cfg now skipped draws).map fun p => p.1.message p.2)

/-! ## §4. Finishing. -/

/-- The keyword arguments of `_finish`. -/
structure Completion where
  sent : Bool
  errorCode : Option String := none
  retryAt : Option Time := none
  terminal : Bool := false

/-- The finished row. -/
def finishedRow (now : Time) (c : Completion) (r : OutboxRow) : OutboxRow :=
  { r with
    leaseToken := none
    lockedUntil := none
    lastErrorCode := c.errorCode
    nextAttemptAt := c.retryAt
    sentAt := if c.sent then some now else r.sentAt
    failedAt := if !c.sent && c.terminal then some now else r.failedAt }

/-- The `WHERE` clause of `_finish`. -/
def guards (m : OutboxMessage) (r : OutboxRow) : Bool :=
  decide (r.id = m.id) && decide (r.leaseToken = some m.leaseToken) && r.sentAt.isNone

/-- The update of one row by `_finish`. -/
def finishRow (now : Time) (m : OutboxMessage) (c : Completion) (r : OutboxRow) : OutboxRow :=
  if guards m r then finishedRow now c r else r

theorem finishRow_id (now : Time) (m : OutboxMessage) (c : Completion) (r : OutboxRow) :
    (finishRow now m c r).id = r.id := by
  unfold finishRow
  split <;> rfl

theorem finishRow_key (now : Time) (m : OutboxMessage) (c : Completion) (r : OutboxRow) :
    (finishRow now m c r).idempotencyKey = r.idempotencyKey := by
  unfold finishRow
  split <;> rfl

/-- `_finish`. -/
def finish (now : Time) (m : OutboxMessage) (c : Completion) (o : Outbox) : Outbox :=
  o.update (finishRow now m c) (finishRow_id now m c) (finishRow_key now m c)

end Outbox

/-! ## §5. What becomes of a message. -/

/-- What `send_event` did. -/
inductive SendResult where
  | returned
  | apiError (statusCode : Nat) (code : String) (retryAfter : Option Int)
  /-- Another `WebhookPlatformError`, such as `TransportError`. -/
  | platformError (name : String)
  /-- Any other exception. -/
  | raised (name : String)
  deriving Repr, DecidableEq

/-- `retryable` of an `ApiError`. -/
def retryableApiStatus (statusCode : Nat) : Bool :=
  decide (statusCode ∈ [408, 425, 429, 503]) || decide (500 ≤ statusCode)

/-- `terminal`. -/
def RelayConfig.terminal (cfg : RelayConfig) (m : OutboxMessage) (retryable : Bool) : Bool :=
  !retryable || decide (cfg.maxAttempts ≤ m.attemptNumber)

/-- The ceiling of the drawn delay; a product that is too large for a float is
`inf`. -/
def RelayConfig.ceiling (cfg : RelayConfig) (m : OutboxMessage) : WithTop ℚ :=
  min cfg.retryCapSeconds <|
    match cfg.retryBaseSeconds with
    | none => ⊤
    | some base =>
      if base * 2 ^ (m.attemptNumber - 1) < 2 ^ 1024 then
        ((base * 2 ^ (m.attemptNumber - 1) : ℚ) : WithTop ℚ)
      else ⊤

/-- `delay`: full jitter under an exponential ceiling, and no less than the
server asks for. -/
def RelayConfig.delay (cfg : RelayConfig) (m : OutboxMessage) (retryAfter : Option Int)
    (jitter : Jitter) : WithTop ℚ :=
  let drawn := (cfg.ceiling m).map (jitter.value * ·)
  match retryAfter with
  | none => drawn
  | some seconds => max drawn (min ((seconds : ℚ) : WithTop ℚ) cfg.retryCapSeconds)

/-- The year 10000, which no `datetime` reaches. -/
def datetimeEnd : Time := 253402300800

/-- So many seconds make a `timedelta`, which is shorter than `10 ^ 9` days,
and lead to a `datetime`. -/
def Datable (moment : Time) (seconds : ℚ) : Prop :=
  seconds < 86400 * 10 ^ 9 ∧ moment + seconds < datetimeEnd

instance (moment : Time) (seconds : ℚ) : Decidable (Datable moment seconds) :=
  inferInstanceAs (Decidable (_ ∧ _))

/-- `_record_failure`, up to `_finish`.  `2 ** 1024` is no float, so the
ceiling of the 1025th attempt raises `OverflowError`; so does a delay that is
`inf` or leads past the last date, and one that is `nan` raises `ValueError`. -/
def RelayConfig.recordFailure (cfg : RelayConfig) (now : Time) (m : OutboxMessage) (code : String)
    (retryable : Bool) (retryAfter : Option Int) (jitter : Jitter) :
    Except String Outbox.Completion :=
  let errorCode := some (String.ofList (code.toList.take 64))
  if cfg.terminal m retryable then
    .ok { sent := false, errorCode := errorCode, terminal := true }
  else if 1024 ≤ m.attemptNumber - 1 then .error "OverflowError"
  else
    match cfg.delay m retryAfter jitter with
    -- `inf * 0.0` is `nan`
    | none => .error (if jitter.value = 0 then "ValueError" else "OverflowError")
    | some seconds =>
      if Datable now seconds then
        .ok { sent := false, errorCode := errorCode, retryAt := some (now + seconds) }
      else .error "OverflowError"

/-- The body of the loop after `send_event`: the completion that `_finish`
gets, or the exception that leaves `run_once`. -/
def RelayConfig.settle (cfg : RelayConfig) (now : Time) (jitter : Jitter) (m : OutboxMessage) :
    SendResult → Except String Outbox.Completion
  | .returned => .ok { sent := true }
  | .apiError statusCode code retryAfter =>
    cfg.recordFailure now m code (retryableApiStatus statusCode) retryAfter jitter
  | .platformError name => cfg.recordFailure now m name true none jitter
  | .raised name => .error name

/-- What a completion does to a row is one of three things. -/
def Outbox.Completion.Lawful (c : Outbox.Completion) : Prop :=
  (c.sent = true ∧ c.retryAt = none) ∨ (c.sent = false ∧ c.terminal = true ∧ c.retryAt = none)
    ∨ (c.sent = false ∧ c.terminal = false ∧ c.retryAt.isSome = true)

theorem recordFailure_lawful {cfg : RelayConfig}
    (h : cfg.recordFailure now m code retryable retryAfter jitter = .ok c) :
    c.sent = false ∧ c.Lawful ∧ (c.terminal = false → m.attemptNumber < cfg.maxAttempts) := by
  unfold RelayConfig.recordFailure at h
  dsimp only at h
  split at h
  · cases h
    exact ⟨rfl, Or.inr (Or.inl ⟨rfl, rfl, rfl⟩), fun hterminal => by cases hterminal⟩
  next hterminal =>
    unfold RelayConfig.terminal at hterminal
    rw [Bool.or_eq_true, not_or, decide_eq_true_eq] at hterminal
    split at h
    · cases h
    split at h
    · cases h
    split at h
    · cases h
      exact ⟨rfl, Or.inr (Or.inr ⟨rfl, rfl, rfl⟩), fun _ => not_le.mp hterminal.2⟩
    · cases h

theorem settle_lawful {cfg : RelayConfig} (h : cfg.settle now jitter m result = .ok c) :
    c.Lawful ∧ (c.sent = true ↔ result = .returned)
      ∧ (c.sent = false → c.terminal = false → m.attemptNumber < cfg.maxAttempts) := by
  cases result with
  | returned =>
    cases h
    exact ⟨Or.inl ⟨rfl, rfl⟩, ⟨fun _ => rfl, fun _ => rfl⟩, fun hsent => absurd hsent (by decide)⟩
  | apiError | platformError =>
    obtain ⟨hsent, hlawful, hbound⟩ := recordFailure_lawful h
    exact ⟨hlawful, ⟨fun hs => absurd (hs.symm.trans hsent) (by decide), fun hr => by cases hr⟩,
      fun _ => hbound⟩
  | raised => exact absurd h (by simp [RelayConfig.settle])

/-! ## §6. One batch. -/

/-- How the producer treats a message, and when. -/
structure Sending where
  result : SendResult
  finishedAt : Time
  jitter : Jitter := Jitter.zero

/-- A run of the loop so far: the outbox, the messages that were sent, the
counts to return, and the exception that ended it. -/
structure BatchRun where
  outbox : Outbox
  attempted : List OutboxMessage := []
  succeeded : Nat := 0
  failed : Nat := 0
  raised : Option String := none

/-- The `for` loop of `run_once`. -/
def relayLoop (cfg : RelayConfig) (producer : OutboxMessage → Sending) :
    List OutboxMessage → BatchRun → BatchRun
  | [], b => b
  | m :: ms, b =>
    let x := producer m
    let attempted := b.attempted ++ [m]
    match cfg.settle x.finishedAt x.jitter m x.result with
    | .error name => { b with attempted := attempted, raised := some name }
    | .ok c =>
      relayLoop cfg producer ms
        { b with
          outbox := b.outbox.finish x.finishedAt m c
          attempted := attempted
          succeeded := if c.sent then b.succeeded + 1 else b.succeeded
          failed := if c.sent then b.failed else b.failed + 1 }

/-- **`run_once`.** -/
def runOnce (cfg : RelayConfig) (producer : OutboxMessage → Sending) (now : Time)
    (draws : Nat → Uuid) (o : Outbox) : BatchRun :=
  let claimed := o.claim cfg now [] draws
  -- each claimed row gets the end of its lease; an exception rolls all back
  if claimed.2 = [] ∨ Datable now cfg.leaseSeconds then
    relayLoop cfg producer claimed.2 { outbox := claimed.1 }
  else { outbox := o, raised := some "OverflowError" }

/-! ## §7. Many relays. -/

/-- Where a relay is in its batch. -/
inductive Relay where
  | idle
  /-- The next message of the batch is about to be sent. -/
  | working (batch : List OutboxMessage)
  /-- `send_event` has been called with the message. -/
  | sending (m : OutboxMessage) (rest : List OutboxMessage)

/-- No `run_once` is under way, or its loop has come to the end. -/
def Relay.resting : Relay → Bool
  | .idle => true
  | .working [] => true
  | _ => false

/-- The outbox, the relays, and two logs: what was ever claimed and what was
ever sent. -/
structure OutboxWorld where
  outbox : Outbox
  relays : Nat → Relay
  claims : List OutboxMessage
  sends : List OutboxMessage

/-- A move of the producer's application, of a relay, or of fate. -/
inductive OutboxMove where
  | enqueue (now : Time) (q : EnqueueCall)
  | claim (i : Nat) (now : Time) (skipped : List Uuid) (draws : Nat → Uuid)
  | send (i : Nat)
  | settle (i : Nat) (now : Time) (result : SendResult) (jitter : Jitter)
  | crash (i : Nat)

namespace OutboxWorld

/-- An empty outbox, and relays that have not begun. -/
def start : OutboxWorld := ⟨Outbox.empty, fun _ => .idle, [], []⟩

/-- The relays with relay `i` at `r`. -/
def at_ (w : OutboxWorld) (i : Nat) (r : Relay) : Nat → Relay :=
  fun j => if j = i then r else w.relays j

/-- The tokens are new: `uuid4` never returns one twice. -/
def freshTokens (w : OutboxWorld) (new : List OutboxMessage) : Bool :=
  decide ((new.map OutboxMessage.leaseToken).Nodup)
    && new.all fun m => decide (m.leaseToken ∉ w.claims.map OutboxMessage.leaseToken)

/-- One move; `none` when it is not possible. -/
def step (cfg : Nat → RelayConfig) (w : OutboxWorld) : OutboxMove → Option OutboxWorld
  | .enqueue now q => (enqueueOutbox now q w.outbox).map fun o => { w with outbox := o }
  | .claim i now skipped draws =>
    let r := w.outbox.claim (cfg i) now skipped draws
    if (w.relays i).resting && w.freshTokens r.2 then
      some { w with
        outbox := r.1
        relays := w.at_ i (.working r.2)
        claims := w.claims ++ r.2 }
    else none
  | .send i =>
    match w.relays i with
    | .working (m :: rest) =>
      some { w with relays := w.at_ i (.sending m rest), sends := w.sends ++ [m] }
    | _ => none
  | .settle i now result jitter =>
    match w.relays i with
    | .sending m rest =>
      match (cfg i).settle now jitter m result with
      | .error _ => some { w with relays := w.at_ i .idle }
      | .ok c =>
        some { w with
          outbox := w.outbox.finish now m c
          relays := w.at_ i (.working rest) }
    | _ => none
  | .crash i => some { w with relays := w.at_ i .idle }

end OutboxWorld

end WebhookPlatform
