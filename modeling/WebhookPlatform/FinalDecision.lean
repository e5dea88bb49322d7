/-
  WebhookPlatform.FinalDecision
  **WHAT BECOMES OF A DELIVERY AFTER AN ATTEMPT** (`_finalize`).

  Three limits meet in one decision: the attempts, the age now and the age at
  the next attempt, after a delay that is drawn and one that the receiver asks
  for.  `FinalDecision` says which outcome follows from which of them, and
  what the row then holds; `finalize_decision` says that it holds of every
  result that `_perform_attempt` returns.
-/
import WebhookPlatform.Attempt

namespace WebhookPlatform

open Relational Classes

variable {s : Settings} {f : Finalization}

/-! ## §1. What `_perform_attempt` returns. -/

/-- The attempt was refused for the age of the delivery. -/
def RefusedForAge (s : Settings) (now : Time) (c : ClaimedDelivery) : Prop :=
  s.webhookMaxDeliveryAgeSeconds ≤ now - c.createdAt

/-- No exception class of the exchange is named like a reason of the row. -/
def Exchange.PlainNames (A : AttemptPrimitives) (s : Settings) (x : Exchange) : Prop :=
  ∀ e, (exchanged A s x).2 = some e →
    e.cls.name ≠ "max_delivery_age" ∧ e.cls.name ≠ "max_attempts"

theorem parseRetryAfter_bounds {a : ℚ} (h : parseRetryAfter A value now maximumSeconds = some a) :
    0 ≤ a ∧ a ≤ maximumSeconds := by
  obtain ⟨text, -, h⟩ := Option.bind_eq_some_iff.mp h
  dsimp only at h
  split at h
  · cases h
  obtain ⟨delay, hdelay, rfl⟩ := Option.map_eq_some_iff.mp h
  refine ⟨le_min (Nat.cast_nonneg _) ?_, min_le_left _ _⟩
  split at hdelay
  · unfold deltaSeconds at hdelay
    split at hdelay
    · cases hdelay
    · rw [← Option.some.inj hdelay]
      exact Nat.cast_nonneg _
  · obtain ⟨target, -, rfl⟩ := Option.map_eq_some_iff.mp hdelay
    exact le_max_left _ _

theorem exchanged_retryAfter {a : ℚ} (h : (exchanged A s x).1.retryAfterSeconds = some a) :
    0 ≤ a ∧ a ≤ s.webhookRetryAfterMaxSeconds := by
  cases x with
  | raised => cases h
  | responded =>
    unfold exchanged at h
    dsimp only at h
    split at h
    · exact parseRetryAfter_bounds h
    · exact parseRetryAfter_bounds h

/-- The text of a caught exception is a fixed one, or the name of its class. -/
theorem handleException_error (h : handleException e = some (retryable, error))
    (hname : e.cls.name ≠ "max_delivery_age" ∧ e.cls.name ≠ "max_attempts") :
    error ≠ "max_delivery_age" ∧ error ≠ "max_attempts" := by
  unfold handleException at h
  split at h
  · cases h
    decide
  split at h
  · cases h
    decide
  split at h
  · cases h
    exact hname
  split at h
  · obtain ⟨-, rfl⟩ := Prod.mk.inj (Option.some.inj h)
    generalize e.reason.get _ = reason
    cases reason <;> decide
  split at h
  · cases h
    exact hname
  · cases h

/-- What the decision uses of a result. -/
structure AttemptResult.Returned (s : Settings) (now : Time) (c : ClaimedDelivery)
    (r : AttemptResult) : Prop where
  retryAfter : ∀ a ∈ r.retryAfterSeconds, 0 ≤ a ∧ a ≤ s.webhookRetryAfterMaxSeconds
  aged : r.error = some "max_delivery_age" ↔ RefusedForAge s now c
  refused : RefusedForAge s now c → r.retryable = false
  error : r.error ≠ some "max_attempts"

theorem performAttempt_returned (hnames : x.PlainNames A s)
    (h : performAttempt A s now c x = .ok r) : r.Returned s now c := by
  unfold performAttempt at h
  split at h
  next hage =>
    cases h
    exact ⟨fun a ha => (by cases ha), iff_of_true rfl hage, fun _ => rfl, by simp [attemptResult]⟩
  next hage =>
    split at h
    · cases h
      refine ⟨fun a ha => (by cases ha), iff_of_false ?_ hage, fun hold => absurd hold hage, ?_⟩
      all_goals simp [attemptResult]
    · -- the request goes out
      unfold tryExchange at h
      split at h
      next l hx =>
        cases h
        have hretry : ∀ a ∈ l.retryAfterSeconds, _ := fun a ha =>
          exchanged_retryAfter (A := A) (s := s) (x := x) (by rw [hx]; exact ha)
        refine ⟨hretry, iff_of_false ?_ hage, fun hold => absurd hold hage, ?_⟩
        all_goals
          show statusError l.statusCode ≠ _
          unfold statusError
          cases l.statusCode with
          | none => simp
          | some =>
            simp only [Option.bind_some]
            split_ifs <;> simp
      next l e hx =>
        have hretry : ∀ a ∈ l.retryAfterSeconds, _ := fun a ha =>
          exchanged_retryAfter (A := A) (s := s) (x := x) (by rw [hx]; exact ha)
        split at h
        · cases h
        next retryable error hhandled =>
          cases h
          have herror := handleException_error hhandled (hnames e (by rw [hx]))
          refine ⟨hretry, iff_of_false ?_ hage, fun hold => absurd hold hage, ?_⟩
          · exact fun heq => herror.1 (Option.some.inj heq)
          · exact fun heq => herror.2 (Option.some.inj heq)

/-! ## §2. The delay. -/

theorem Settings.accepted_backoff (h : s.accepted = true) :
    0 ≤ s.webhookBackoffBaseSeconds ∧ 0 ≤ s.webhookBackoffCapSeconds := by
  have hbounds := ((Bool.and_eq_true _ _).mp h).1
  simp only [Settings.fieldBounds, Settings.positive, Bool.and_eq_true, decide_eq_true_eq]
    at hbounds
  constructor
  · have h : 0 < s.webhookBackoffBaseSeconds := by tauto
    exact h.le
  · have h : 0 < s.webhookBackoffCapSeconds := by tauto
    exact h.le

/-- **The delay** is at least what the receiver asks for, and below the larger
of the two caps. -/
theorem retryDelay_bounds (hs : s.accepted = true)
    (hr : ∀ a ∈ f.result.retryAfterSeconds, 0 ≤ a ∧ a ≤ s.webhookRetryAfterMaxSeconds) :
    0 ≤ retryDelay s c f ∧ f.result.retryAfterSeconds.getD 0 ≤ retryDelay s c f ∧ retryDelay s c f
        ≤ max s.webhookBackoffCapSeconds (s.webhookRetryAfterMaxSeconds : ℚ) := by
  obtain ⟨hbase, hcap⟩ := Settings.accepted_backoff hs
  have hceiling : 0 ≤ min s.webhookBackoffCapSeconds
      (s.webhookBackoffBaseSeconds * 2 ^ (c.attemptNumber - 1)) :=
    le_min hcap (mul_nonneg hbase (by positivity))
  have hjitter : jitteredBackoff f.jitter c.attemptNumber s.webhookBackoffBaseSeconds
      s.webhookBackoffCapSeconds ≤ s.webhookBackoffCapSeconds :=
    (mul_le_of_le_one_left hceiling f.jitter.le_one).trans (min_le_left _ _)
  have hasked : f.result.retryAfterSeconds.getD 0 ≤ (s.webhookRetryAfterMaxSeconds : ℚ) := by
    cases hafter : f.result.retryAfterSeconds with
    | none => exact Nat.cast_nonneg _
    | some a => exact (hr a hafter).2
  refine ⟨?_, le_max_right _ _, max_le_max hjitter hasked⟩
  exact le_max_of_le_left (mul_nonneg f.jitter.nonneg hceiling)

/-! ## §3. The decision. -/

/-- Attempts are left for a failure that may be retried. -/
def RetryLeft (s : Settings) (c : ClaimedDelivery) (r : AttemptResult) : Prop :=
  r.retryable = true ∧ c.attemptNumber < s.webhookMaxAttempts

/-- **What `_finalize` makes of the row** `d`, by the result, the delay and the
deadline. -/
structure FinalDecision (s : Settings) (now finished : Time) (c : ClaimedDelivery)
    (f : Finalization) (d row : Delivery) : Prop where
  succeeded : row.status = .succeeded ↔ f.result.succeeded = true
  retried : row.status = .retryScheduled ↔ f.result.succeeded = false ∧ RetryLeft s c f.result
    ∧ finished + retryDelay s c f < deliveryDeadline s d
  dead : row.status = .dead ↔ f.result.succeeded = false
    ∧ ¬ (RetryLeft s c f.result ∧ finished + retryDelay s c f < deliveryDeadline s d)
  next : row.status = .retryScheduled → finished ≤ row.nextAttemptAt
    ∧ row.nextAttemptAt < deliveryDeadline s d
    ∧ f.result.retryAfterSeconds.getD 0 ≤ row.nextAttemptAt - finished
    ∧ row.nextAttemptAt - finished
      ≤ max s.webhookBackoffCapSeconds (s.webhookRetryAfterMaxSeconds : ℚ)
  aged : row.status = .dead → (row.deadReason = some "max_delivery_age"
    ↔ deliveryDeadline s d ≤ finished ∨ RefusedForAge s now c
      ∨ (RetryLeft s c f.result ∧ deliveryDeadline s d ≤ finished + retryDelay s c f))
  exhausted : row.status = .dead → (row.deadReason = some "max_attempts"
    ↔ finished < deliveryDeadline s d ∧ f.result.retryable = true
      ∧ s.webhookMaxAttempts ≤ c.attemptNumber)

/-- The column takes a reason of the program as it stands. -/
theorem cut_eq (h : reason.toList.length < 64) :
    String.ofList (text.toList.take 64) = reason ↔ text = reason := by
  constructor
  · intro heq
    have hlist : text.toList.take 64 = reason.toList := by
      rw [← heq, String.toList_ofList]
    have hlength := congrArg List.length hlist
    rw [List.length_take] at hlength
    rw [List.take_of_length_le (by omega)] at hlist
    exact String.toList_injective hlist
  · rintro rfl
    rw [List.take_of_length_le h.le, String.ofList_toList]

theorem neither_reason {text : String} {A B : Prop}
    (h : ∀ reason ∈ ["max_delivery_age", "max_attempts"], text ≠ reason) (hA : ¬ A) (hB : ¬ B) :
    (text = "max_delivery_age" ↔ A) ∧ (text = "max_attempts" ↔ B) :=
  ⟨iff_of_false (h _ (by simp)) hA, iff_of_false (h _ (by simp)) hB⟩

/-- The reasons of the last branch. -/
theorem deadReason_eq (hr : r.Returned s now c) (finished : Time) :
    (deadReason s finished c r d = "max_delivery_age"
        ↔ deliveryDeadline s d ≤ finished ∨ RefusedForAge s now c)
      ∧ (deadReason s finished c r d = "max_attempts"
        ↔ finished < deliveryDeadline s d ∧ r.retryable = true
          ∧ s.webhookMaxAttempts ≤ c.attemptNumber) := by
  unfold deadReason
  dsimp only
  rw [cut_eq (by decide), cut_eq (by decide), ← hr.aged]
  by_cases hage : deliveryDeadline s d ≤ finished ∨ r.error = some "max_delivery_age"
  · rw [if_pos hage]
    refine ⟨iff_of_true rfl hage, iff_of_false (by decide) ?_⟩
    rintro ⟨hearly, hretryable, -⟩
    rw [hr.refused (hr.aged.mp (hage.resolve_left (not_le.mpr hearly)))] at hretryable
    cases hretryable
  · rw [if_neg hage]
    have hearly : finished < deliveryDeadline s d := not_le.mp fun h => hage (Or.inl h)
    by_cases hspent : r.retryable = true ∧ s.webhookMaxAttempts ≤ c.attemptNumber
    · rw [if_pos hspent]
      exact ⟨iff_of_false (by decide) hage, iff_of_true rfl ⟨hearly, hspent⟩⟩
    · rw [if_neg hspent]
      -- the texts that are left are other ones
      refine neither_reason ?_ hage fun h => hspent h.2
      intro reason hreason
      have hne : r.error ≠ some reason := by
        rcases List.mem_cons.mp hreason with rfl | hreason
        · exact fun h => hage (Or.inr h)
        · exact List.mem_singleton.mp hreason ▸ hr.error
      have hfixed : "non_retryable_http" ≠ reason ∧ "non_retryable_failure" ≠ reason :=
        (by decide : ∀ reason ∈ ["max_delivery_age", "max_attempts"],
          "non_retryable_http" ≠ reason ∧ "non_retryable_failure" ≠ reason) reason hreason
      split
      · exact hfixed.1
      split
      · exact hfixed.2
      · exact hfixed.2
      next e _ herror => exact fun h => hne (herror.trans (congrArg some h))

/-- **Each branch of the row function** decides as it should. -/
theorem finalizeRow_decided (hs : s.accepted = true) (hr : f.result.Returned s now c) :
    FinalDecision s now finished c f d (finalizeRow s finished c f d) := by
  obtain ⟨hnonneg, hasked, hcapped⟩ := retryDelay_bounds (c := c) hs hr.retryAfter
  have hreason := deadReason_eq (d := d) hr finished
  unfold finalizeRow outcomeRow
  by_cases hsucceeded : f.result.succeeded = true
  · rw [if_pos hsucceeded]
    constructor <;> simp [hsucceeded]
  rw [if_neg hsucceeded]
  rw [Bool.not_eq_true] at hsucceeded
  have hmay : mayRetry s finished c f.result d = true
      ↔ RetryLeft s c f.result ∧ finished < deliveryDeadline s d := by
    simp [mayRetry, RetryLeft]
  by_cases hleft : mayRetry s finished c f.result d = true
  · rw [if_pos hleft]
    obtain ⟨hretry, hearly⟩ := hmay.mp hleft
    by_cases hnext : finished + retryDelay s c f < deliveryDeadline s d
    · rw [if_pos hnext]
      constructor
      case next =>
        intro _
        refine ⟨by dsimp only; linarith, hnext, ?_, ?_⟩
        · show _ ≤ finished + retryDelay s c f - finished
          linarith
        · show finished + retryDelay s c f - finished ≤ _
          linarith
      all_goals simp [hsucceeded, hretry, hnext]
    · rw [if_neg hnext]
      have hlate := not_lt.mp hnext
      constructor <;> simp [hsucceeded, hretry, hnext, hlate, not_le.mpr hearly]
      exact fun _ _ => hretry.2
  · rw [if_neg hleft]
    -- the delay only makes it later
    have hnone : ¬ (RetryLeft s c f.result ∧ finished + retryDelay s c f < deliveryDeadline s d) :=
      fun h => hleft (hmay.mpr ⟨h.1, lt_of_le_of_lt (le_add_of_nonneg_right hnonneg) h.2⟩)
    constructor
    case aged =>
      intro _
      show some (deadReason s finished c f.result d) = _ ↔ _
      rw [Option.some.injEq, hreason.1]
      constructor
      · rintro (hlate | hrefused)
        · exact Or.inl hlate
        · exact Or.inr (Or.inl hrefused)
      · rintro (hlate | hrefused | ⟨hretry, -⟩)
        · exact Or.inl hlate
        · exact Or.inr hrefused
        · exact Or.inl (not_lt.mp fun hearly => hleft (hmay.mpr ⟨hretry, hearly⟩))
    case exhausted =>
      intro _
      show some (deadReason s finished c f.result d) = _ ↔ _
      rw [Option.some.injEq, hreason.2]
    all_goals simp_all

/-- **THE FINAL DECISION.**  For a claim that still holds its row, and every
result of `_perform_attempt`, `_finalize` commits and leaves the row as
`FinalDecision` says, whatever the backoff draws. -/
theorem finalize_decision (A : AttemptPrimitives) (s : Settings) (hs : s.accepted = true)
    (now finished started : Time) (jitter : Jitter) (c : ClaimedDelivery) (x : Exchange)
    (hnames : x.PlainNames A s) (r : AttemptResult) (hr : performAttempt A s now c x = .ok r)
    (db : Db) (d : Delivery) (e : EndpointQuotaState)
    (hlive : guardedRow db c.id (c.holds finished) = some d)
    (hstate : db.endpointStates.find? d.endpointId = some e)
    (hnew : recorded db d.id c.attemptNumber = false) :
    ∃ db' row, finalize s finished c ⟨started, r, jitter⟩ db = .ok (db', true)
      ∧ db'.deliveries.find? c.id = some row
      ∧ FinalDecision s now finished c ⟨started, r, jitter⟩ d row := by
  have hreturned := performAttempt_returned hnames hr
  obtain ⟨hfind, -⟩ := Option.filter_eq_some_iff.mp hlive
  refine ⟨_, finalizeRow s finished c ⟨started, r, jitter⟩ d, finalize_live hlive hstate hnew, ?_,
    finalizeRow_decided hs hreturned⟩
  exact Table.find?_put_self hfind
    ((finalizeRow_same _ _ _ _ _).id.trans (Table.key_of_find? hfind))

/-- The stalled body leaves the delivery for a retry, with the attempts and the
age that the defaults allow. -/
theorem finalize_decision_stalled :
    ∃ d r db' row, guardedRow heldDb 1 ((smallClaim "token-1" 1).holds 1) = some d
      ∧ performAttempt plainPrimitives {} 1 (smallClaim "token-1" 1) stalledNotFound = .ok r
      ∧ finalize {} 1 (smallClaim "token-1" 1) ⟨0, r, Jitter.zero⟩ heldDb = .ok (db', true)
      ∧ db'.deliveries.find? 1 = some row
      ∧ FinalDecision {} 1 1 (smallClaim "token-1" 1) ⟨0, r, Jitter.zero⟩ d row := by
  have hnames : stalledNotFound.PlainNames plainPrimitives {} := by
    intro e he
    cases he
    decide
  obtain ⟨d, hd, hendpoint, hnew⟩ : ∃ d,
      guardedRow heldDb 1 ((smallClaim "token-1" 1).holds 1) = some d
      ∧ d.endpointId = 1 ∧ recorded heldDb d.id 1 = false := by
    decide +kernel
  obtain ⟨e, he⟩ : ∃ e, heldDb.endpointStates.find? 1 = some e :=
    Option.isSome_iff_exists.mp (by decide +kernel)
  have hsent : performAttempt plainPrimitives {} 1 (smallClaim "token-1" 1) stalledNotFound
      = tryExchange plainPrimitives {} stalledNotFound := by
    unfold performAttempt
    rw [if_neg (by decide +kernel), if_neg (by decide)]
  obtain ⟨db', row, hfinal, hrow, hdecision⟩ :=
    finalize_decision plainPrimitives {} (by decide +kernel) 1 1 0 Jitter.zero
      (smallClaim "token-1" 1) stalledNotFound hnames _ hsent heldDb d e hd (hendpoint ▸ he) hnew
  exact ⟨d, _, db', row, hd, hsent, hfinal, hrow, hdecision⟩

end WebhookPlatform
