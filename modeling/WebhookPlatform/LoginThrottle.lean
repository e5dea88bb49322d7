/-
  WebhookPlatform.LoginThrottle
  **THE LOGIN LOCK OF AN ACCOUNT.**

  A login request looks at the throttle row of its account without a lock,
  evaluates the password (slow), and counts a failure under the row lock.  All
  three see the time at which the request STARTED, so a failure may be counted
  long after its own time:

      request      start ──── check ──────── evaluate ──────── record
      row                                 ▲ another failure locks the account

  `LoginThrottle.counted` is what a failure does to the row, and
  `counted_keeps_iff` says exactly when it leaves an active lock at least as
  long: the request started no earlier than the one that set the lock, and
  before the end of the failure window.  Otherwise the lock is shortened or
  cleared (`late_failures_lift_lock`).
-/
import WebhookPlatform.PyText
import WebhookPlatform.Models
import WebhookPlatform.Lib.Runs

namespace WebhookPlatform

open Relational Transition

/-! ## §1. The row and the functions of the throttle. -/

/-- The login settings of `Settings`. -/
structure LoginSettings where
  loginThrottleMaxFailures : Nat := 10
  loginThrottleWindowSeconds : Nat := 900
  loginThrottleLockoutSeconds : Nat := 300
  deriving DecidableEq, Repr

/-- The bounds of the three fields. -/
def LoginSettings.accepted (s : LoginSettings) : Bool :=
  decide (1 ≤ s.loginThrottleMaxFailures ∧ s.loginThrottleMaxFailures ≤ 1000)
    && decide (60 ≤ s.loginThrottleWindowSeconds ∧ s.loginThrottleWindowSeconds ≤ 86400)
    && decide (1 ≤ s.loginThrottleLockoutSeconds ∧ s.loginThrottleLockoutSeconds ≤ 86400)

/-- A row of `login_throttles`. -/
structure LoginThrottle where
  scope : PyStr
  failureCount : Nat
  windowStartedAt : Time
  lockedUntil : Option Time
  updatedAt : Time
  deriving DecidableEq

/-- `_SCOPE_MAX`. -/
def scopeMax : Nat := 340

/-- `login_scope`. -/
def loginScope (U : Unicode) (email : PyStr) : PyStr :=
  (pyStr "email:" ++ U.lower (stripSpace email)).take scopeMax

/-- `_retry_after`. -/
def loginRetryAfter (now lockedUntil : Time) : Nat :=
  max 1 (lockedUntil - now).ceil.toNat

/-- `check_login_allowed`: the error it raises, if it does. -/
def checkLoginAllowed (throttles : Table LoginThrottle LoginThrottle.scope) (scope : PyStr)
    (now : Time) : Option AppError :=
  match (throttles.find? scope).bind LoginThrottle.lockedUntil with
  | none => none
  | some lockedUntil =>
    if now < lockedUntil then
      some (.quotaExceeded "login_attempts" (loginRetryAfter now lockedUntil))
    else none

namespace LoginThrottle

/-- `expired_lock`. -/
def expiredLock (row : LoginThrottle) (now : Time) : Bool :=
  match row.lockedUntil with
  | none => false
  | some lockedUntil => decide (lockedUntil ≤ now)

/-- A new window starts with this failure, or it is one more. -/
def windowed (s : LoginSettings) (now : Time) (row : LoginThrottle) : LoginThrottle :=
  if row.windowStartedAt + s.loginThrottleWindowSeconds ≤ now ∨ row.expiredLock now = true then
    { row with failureCount := 1, windowStartedAt := now, lockedUntil := none }
  else { row with failureCount := row.failureCount + 1 }

/-- What `record_login_failure` does to the locked row. -/
def counted (s : LoginSettings) (now : Time) (row : LoginThrottle) : LoginThrottle :=
  if s.loginThrottleMaxFailures ≤ (row.windowed s now).failureCount then
    { row.windowed s now with
      lockedUntil := some (now + s.loginThrottleLockoutSeconds), updatedAt := now }
  else { row.windowed s now with updatedAt := now }

/-- A locked row has spent its budget. -/
def Spent (s : LoginSettings) (row : LoginThrottle) : Prop :=
  row.lockedUntil ≠ none → s.loginThrottleMaxFailures ≤ row.failureCount

variable {row : LoginThrottle}

@[simp] theorem windowed_scope : (row.windowed s now).scope = row.scope := by
  unfold windowed
  split <;> rfl

@[simp] theorem counted_scope : (row.counted s now).scope = row.scope := by
  unfold counted
  split <;> exact windowed_scope

theorem counted_spent (hrow : row.Spent s) : (row.counted s now).Spent s := by
  intro hlocked
  unfold counted at hlocked ⊢
  split at hlocked
  · rename_i hbudget
    rw [if_pos hbudget]
    exact hbudget
  · -- below the budget the row keeps a lock of its old window only
    rename_i hbudget
    rw [if_neg hbudget]
    show _ ≤ (row.windowed s now).failureCount
    unfold windowed at hlocked ⊢
    split at hlocked
    · exact absurd rfl hlocked
    · rename_i hsame
      rw [if_neg hsame]
      have hcount := hrow hlocked
      show _ ≤ row.failureCount + 1
      omega

/-- The failure is of no earlier time than the one that set the lock, and of
the row's window (with a budget of one failure any window will do). -/
def Timely (s : LoginSettings) (now : Time) (row : LoginThrottle) (lockedUntil : Time) : Prop :=
  lockedUntil - s.loginThrottleLockoutSeconds ≤ now
    ∧ (now < row.windowStartedAt + s.loginThrottleWindowSeconds ∨ s.loginThrottleMaxFailures ≤ 1)

instance (s : LoginSettings) (now : Time) (row : LoginThrottle) (lockedUntil : Time) :
    Decidable (row.Timely s now lockedUntil) :=
  inferInstanceAs (Decidable (_ ∧ _))

/-- **Exactly the timely failures leave an active lock at least as long.** -/
theorem counted_keeps_iff {lockedUntil : Time} (hrow : row.Spent s)
    (hlock : row.lockedUntil = some lockedUntil) (hactive : now < lockedUntil) :
    (∃ l, (row.counted s now).lockedUntil = some l ∧ lockedUntil ≤ l)
      ↔ row.Timely s now lockedUntil := by
  have hbudget : s.loginThrottleMaxFailures ≤ row.failureCount :=
    hrow (by rw [hlock]; exact Option.some_ne_none _)
  have hnotExpired : row.expiredLock now ≠ true := by
    unfold expiredLock
    rw [hlock]
    exact fun h => absurd (of_decide_eq_true h) (not_le.mpr hactive)
  -- a failure that locks the account again locks it from its own time on
  have hagain (hspent : s.loginThrottleMaxFailures ≤ (row.windowed s now).failureCount) :
      (∃ l, (row.counted s now).lockedUntil = some l ∧ lockedUntil ≤ l)
        ↔ lockedUntil - s.loginThrottleLockoutSeconds ≤ now := by
    unfold counted
    rw [if_pos hspent]
    constructor
    · rintro ⟨l, hl, hle⟩
      have hl : now + s.loginThrottleLockoutSeconds = l := Option.some.inj hl
      linarith
    · intro hle
      exact ⟨_, rfl, by linarith⟩
  by_cases hwindow : row.windowStartedAt + s.loginThrottleWindowSeconds ≤ now
  · -- the window has lapsed: the count starts again
    have hwindowed : row.windowed s now
        = { row with failureCount := 1, windowStartedAt := now, lockedUntil := none } :=
      if_pos (Or.inl hwindow)
    by_cases hone : s.loginThrottleMaxFailures ≤ 1
    · rw [hagain (by rw [hwindowed]; exact hone)]
      exact ⟨fun h => ⟨h, Or.inr hone⟩, fun h => h.1⟩
    · have hcleared : (row.counted s now).lockedUntil = none := by
        unfold counted
        rw [hwindowed, if_neg hone]
      rw [hcleared]
      constructor
      · rintro ⟨l, hl, -⟩
        cases hl
      · rintro ⟨-, hearly | hbudget⟩
        · exact absurd hearly (not_lt.mpr hwindow)
        · exact absurd hbudget hone
  · have hwindowed : row.windowed s now = { row with failureCount := row.failureCount + 1 } :=
      if_neg (not_or.mpr ⟨hwindow, hnotExpired⟩)
    rw [hagain (by rw [hwindowed]; exact Nat.le_succ_of_le hbudget)]
    exact ⟨fun h => ⟨h, Or.inl (not_le.mp hwindow)⟩, fun h => h.1⟩

end LoginThrottle

/-- The row that `record_login_failure` inserts if there is none. -/
def LoginThrottle.first (scope : PyStr) (now : Time) : LoginThrottle where
  scope := scope
  failureCount := 0
  windowStartedAt := now
  lockedUntil := none
  updatedAt := now

/-- `record_login_failure`. -/
def recordLoginFailure (s : LoginSettings) (scope : PyStr) (now : Time)
    (throttles : Table LoginThrottle LoginThrottle.scope) :
    Table LoginThrottle LoginThrottle.scope :=
  let ensured := throttles.insert (.first scope now)
  match ensured.find? scope with
  | none => throttles
  | some row => ensured.put (row.counted s now)

/-- `record_login_success`. -/
def recordLoginSuccess (scope : PyStr) (throttles : Table LoginThrottle LoginThrottle.scope) :
    Table LoginThrottle LoginThrottle.scope :=
  throttles.delete fun row => decide (row.scope = scope)

section Ensured

variable (s : LoginSettings) (scope : PyStr) (now : Time)
  (throttles : Table LoginThrottle LoginThrottle.scope)

theorem find?_ensured : (throttles.insert (.first scope now)).find? scope
    = some ((throttles.find? scope).getD (.first scope now)) := by
  rw [Table.find?_insert, if_pos (show (LoginThrottle.first scope now).scope = scope from rfl)]
  cases throttles.find? scope <;> rfl

theorem scope_ensured : ((throttles.find? scope).getD (.first scope now)).scope = scope :=
  Table.key_of_find? (find?_ensured scope now throttles)

/-- The row is there when it is locked. -/
theorem recordLoginFailure_eq : recordLoginFailure s scope now throttles
    = (throttles.insert (.first scope now)).put
        (((throttles.find? scope).getD (.first scope now)).counted s now) := by
  unfold recordLoginFailure
  dsimp only
  rw [find?_ensured]

/-- The row that a failure leaves: the one that was there, counted, or the
first one of the account. -/
theorem find?_recordLoginFailure : (recordLoginFailure s scope now throttles).find? scope
    = some (((throttles.find? scope).getD (.first scope now)).counted s now) := by
  rw [recordLoginFailure_eq]
  exact Table.find?_put_self (find?_ensured scope now throttles)
    (LoginThrottle.counted_scope.trans (scope_ensured scope now throttles))

/-- A failure is counted in its own row. -/
theorem find?_recordLoginFailure_ne (hne : scope ≠ other) :
    (recordLoginFailure s scope now throttles).find? other = throttles.find? other := by
  rw [recordLoginFailure_eq, Table.find?_put_ne, Table.find?_insert_ne]
  · exact hne
  · rw [LoginThrottle.counted_scope, scope_ensured]
    exact hne

end Ensured

/-! ## §2. Login requests. -/

/-- What `login` answers. -/
inductive LoginAnswer where
  | refused (error : AppError)
  | unauthorized (message : String)
  | forbidden (message : String)
  | token (userId : Nat)
  deriving DecidableEq, Repr

/-- Where a request is in `login`. -/
inductive LoginStage where
  | arrived
  | allowed
  /-- `user is None`, and the failure is not counted yet. -/
  | failed
  | authenticated (userId : Nat)
  | answered (answer : LoginAnswer)
  deriving DecidableEq, Repr

structure LoginRequest where
  email : PyStr
  /-- The time of its transaction: when the request started. -/
  now : Time
  stage : LoginStage
  deriving DecidableEq

/-- The throttle rows, and the requests by number. -/
structure LoginDesk where
  clock : Time
  throttles : Table LoginThrottle LoginThrottle.scope
  requests : Nat → Option LoginRequest

/-- The steps of login requests. -/
inductive LoginMove where
  | tick (now : Time)
  | arrive (request : Nat) (email : PyStr)
  | check (request : Nat)
  /-- `authenticate`: no user, or a user who is active or not. -/
  | evaluate (request : Nat) (user : Option (Nat × Bool))
  | recordFailure (request : Nat)
  | recordSuccess (request : Nat)
  deriving DecidableEq

namespace LoginDesk

/-- The request goes on to the stage. -/
def advance (d : LoginDesk) (request : Nat) (r : LoginRequest) (stage : LoginStage) : LoginDesk :=
  { d with requests := Function.update d.requests request (some { r with stage := stage }) }

/-- What `login` does with the outcome of `authenticate`. -/
def evaluated : Option (Nat × Bool) → LoginStage
  | none => .failed
  | some (_, false) => .answered (.forbidden "Account is deactivated")
  | some (userId, true) => .authenticated userId

/-- One step of one request, or the clock. -/
def step (U : Unicode) (s : LoginSettings) (d : LoginDesk) : LoginMove → Option LoginDesk
  | .tick now => if d.clock ≤ now then some { d with clock := now } else none
  | .arrive request email =>
    match d.requests request with
    | some _ => none
    | none =>
      some { d with
        requests := Function.update d.requests request (some ⟨email, d.clock, .arrived⟩) }
  | .check request =>
    match d.requests request with
    | some ⟨email, now, .arrived⟩ =>
      match checkLoginAllowed d.throttles (loginScope U email) now with
      | some error =>
        some (d.advance request ⟨email, now, .arrived⟩ (.answered (.refused error)))
      | none => some (d.advance request ⟨email, now, .arrived⟩ .allowed)
    | _ => none
  | .evaluate request user =>
    match d.requests request with
    | some ⟨email, now, .allowed⟩ =>
      some (d.advance request ⟨email, now, .allowed⟩ (evaluated user))
    | _ => none
  | .recordFailure request =>
    match d.requests request with
    | some ⟨email, now, .failed⟩ =>
      some { d.advance request ⟨email, now, .failed⟩
          (.answered (.unauthorized "Incorrect email or password")) with
        throttles := recordLoginFailure s (loginScope U email) now d.throttles }
    | _ => none
  | .recordSuccess request =>
    match d.requests request with
    | some ⟨email, now, .authenticated userId⟩ =>
      some { d.advance request ⟨email, now, .authenticated userId⟩ (.answered (.token userId))
        with throttles := recordLoginSuccess (loginScope U email) d.throttles }
    | _ => none

/-- No failure was counted yet and no request has arrived. -/
def fresh : LoginDesk := ⟨0, Table.empty, fun _ => none⟩

/-- `locked_until` of the account. -/
def lockedUntil (d : LoginDesk) (scope : PyStr) : Option Time :=
  (d.throttles.find? scope).bind LoginThrottle.lockedUntil

/-- The move lets a login for the account succeed. -/
def Succeeds (U : Unicode) (scope : PyStr) (d : LoginDesk) : LoginMove → Prop
  | .recordSuccess request => (d.requests request).any fun r => loginScope U r.email = scope
  | _ => False

/-- A failure that is counted while the account is locked is timely. -/
def InTime (U : Unicode) (s : LoginSettings) (scope : PyStr) (d : LoginDesk) : LoginMove → Prop
  | .recordFailure request => ∀ r ∈ d.requests request, loginScope U r.email = scope →
      ∀ row ∈ d.throttles.find? scope, ∀ lockedUntil ∈ row.lockedUntil, d.clock < lockedUntil →
        row.Timely s r.now lockedUntil
  | _ => True

instance (U : Unicode) (scope : PyStr) (d : LoginDesk) :
    (a : LoginMove) → Decidable (d.Succeeds U scope a)
  | .recordSuccess request =>
    inferInstanceAs (Decidable
      ((d.requests request).any (fun r => loginScope U r.email = scope) = true))
  | .tick _ | .arrive _ _ | .check _ | .evaluate _ _ | .recordFailure _ => .isFalse id

instance (U : Unicode) (s : LoginSettings) (scope : PyStr) (d : LoginDesk) :
    (a : LoginMove) → Decidable (d.InTime U s scope a)
  | .recordFailure request =>
    inferInstanceAs (Decidable (∀ r ∈ d.requests request, loginScope U r.email = scope →
      ∀ row ∈ d.throttles.find? scope, ∀ lockedUntil ∈ row.lockedUntil, d.clock < lockedUntil →
        row.Timely s r.now lockedUntil))
  | .tick _ | .arrive _ _ | .check _ | .evaluate _ _ | .recordSuccess _ => .isTrue trivial

/-! ## §3. What a step does. -/

/-- What a step does, by what it writes. -/
inductive Moved (U : Unicode) (s : LoginSettings) (d : LoginDesk) :
    LoginMove → LoginDesk → Prop where
  | ticked (now : Time) (later : d.clock ≤ now) : Moved U s d (.tick now) { d with clock := now }
  | arrived (request : Nat) (email : PyStr) : Moved U s d (.arrive request email)
      { d with
        requests := Function.update d.requests request (some ⟨email, d.clock, .arrived⟩) }
  | advanced (a : LoginMove) (request : Nat) (r : LoginRequest) (stage : LoginStage)
      (known : d.requests request = some r) : Moved U s d a (d.advance request r stage)
  | failed (request : Nat) (r : LoginRequest) (answer : LoginAnswer)
      (known : d.requests request = some r) : Moved U s d (.recordFailure request)
      { d.advance request r (.answered answer) with
        throttles := recordLoginFailure s (loginScope U r.email) r.now d.throttles }
  | succeeded (request : Nat) (r : LoginRequest) (answer : LoginAnswer)
      (known : d.requests request = some r) : Moved U s d (.recordSuccess request)
      { d.advance request r (.answered answer) with
        throttles := recordLoginSuccess (loginScope U r.email) d.throttles }

variable {d d' : LoginDesk}

theorem step_moved (h : d.step U s a = some d') : Moved U s d a d' := by
  cases a with
  | tick now =>
    obtain ⟨hlater, h⟩ := Option.ite_none_right_eq_some.mp h
    cases h
    exact .ticked now hlater
  | arrive request email =>
    simp only [step] at h
    split at h <;> cases h
    exact .arrived request email
  | check request =>
    simp only [step] at h
    split at h
    · rename_i hknown
      split at h <;> cases h <;> exact .advanced _ request _ _ hknown
    · cases h
  | evaluate request =>
    simp only [step] at h
    split at h <;> cases h
    rename_i hknown
    exact .advanced _ request _ _ hknown
  | recordFailure request =>
    simp only [step] at h
    split at h <;> cases h
    rename_i hknown
    exact .failed request _ _ hknown
  | recordSuccess request =>
    simp only [step] at h
    split at h <;> cases h
    rename_i hknown
    exact .succeeded request _ _ hknown

theorem find?_recordLoginSuccess_ne (hne : scope ≠ other)
    (throttles : Table LoginThrottle LoginThrottle.scope) :
    (recordLoginSuccess scope throttles).find? other = throttles.find? other := by
  apply Table.find?_delete
  intro row _ hrow
  exact decide_eq_false fun h => hne (h.symm.trans hrow)

/-! ## §4. What every run keeps. -/

/-- The invariant of the desk: requests started in the past, and the locked
rows have spent their budget. -/
structure Sound (s : LoginSettings) (d : LoginDesk) : Prop where
  started : ∀ request r, d.requests request = some r → r.now ≤ d.clock
  spent : ∀ row ∈ d.throttles.rows, row.Spent s

theorem fresh_sound : fresh.Sound s where
  started := by
    intro request r hr
    cases hr
  spent := by
    intro row hrow
    cases hrow

/-- A request in the new state was there, or it is the one that was written. -/
theorem known_of_update {requests : Nat → Option LoginRequest}
    (h : Function.update requests request (some r) other = some q) :
    q = r ∨ requests other = some q := by
  by_cases hother : other = request
  · subst hother
    rw [Function.update_self] at h
    exact Or.inl (Option.some.inj h).symm
  · rw [Function.update_of_ne hother] at h
    exact Or.inr h

theorem advance_started (hd : d.Sound s) {request : Nat} (hknown : d.requests request = some r)
    (stage : LoginStage) :
    ∀ other q, (d.advance request r stage).requests other = some q → q.now ≤ d.clock := by
  intro other q hq
  rcases known_of_update hq with rfl | hq
  · exact hd.started request r hknown
  · exact hd.started other q hq

theorem recordLoginFailure_spent {throttles : Table LoginThrottle LoginThrottle.scope} {now : Time}
    (hspent : ∀ row ∈ throttles.rows, row.Spent s) :
    ∀ row ∈ (recordLoginFailure s scope now throttles).rows, row.Spent s := by
  intro row hrow
  have hfirst : (LoginThrottle.first scope now).Spent s := fun h => absurd rfl h
  rw [recordLoginFailure_eq] at hrow
  rcases Table.mem_of_mem_put hrow with rfl | hrow
  · apply LoginThrottle.counted_spent
    cases hfound : throttles.find? scope with
    | none => exact hfirst
    | some row => exact hspent row (Table.mem_of_find? hfound)
  · rcases Table.mem_insert hrow with rfl | hrow
    · exact hfirst
    · exact hspent row hrow

theorem step_sound (hd : d.Sound s) (h : d.step U s a = some d') : d'.Sound s := by
  cases step_moved h with
  | ticked _ later =>
    exact ⟨fun request r hr => (hd.started request r hr).trans later, hd.spent⟩
  | arrived =>
    refine ⟨fun other q hq => ?_, hd.spent⟩
    rcases known_of_update hq with rfl | hq
    · exact le_refl _
    · exact hd.started other q hq
  | advanced _ _ _ stage known => exact ⟨advance_started hd known stage, hd.spent⟩
  | failed _ _ _ known =>
    exact ⟨advance_started hd known _, recordLoginFailure_spent hd.spent⟩
  | succeeded _ _ _ known =>
    exact ⟨advance_started hd known _, fun row hrow => hd.spent row (Table.mem_delete.mp hrow).1⟩

theorem step_clock (h : d.step U s a = some d') : d.clock ≤ d'.clock := by
  cases step_moved h with
  | ticked _ later => exact later
  | _ => exact le_refl _

/-- The account is locked at least until `l`. -/
def LockedPast (scope : PyStr) (l : Time) (d : LoginDesk) : Prop :=
  ∃ lockedUntil, d.lockedUntil scope = some lockedUntil ∧ l ≤ lockedUntil

/-- **One step**: while a lock is active, a step that is no success for the
account and no untimely failure keeps it. -/
theorem step_locked {l : Time} (hd : d.Sound s) (hlocked : d.LockedPast scope l)
    (h : d.step U s a = some d') (hsuccess : ¬ d.Succeeds U scope a) (htime : d.InTime U s scope a)
    (hactive : d.clock < l) : d'.LockedPast scope l := by
  cases step_moved h with
  | failed request r _ known =>
    by_cases haccount : loginScope U r.email = scope
    · obtain ⟨lockedUntil, hlock, hle⟩ := hlocked
      obtain ⟨row, hrow, hlock⟩ := Option.bind_eq_some_iff.mp hlock
      have hclock : d.clock < lockedUntil := lt_of_lt_of_le hactive hle
      have hnow : r.now < lockedUntil := lt_of_le_of_lt (hd.started request r known) hclock
      obtain ⟨later, hlater, hkept⟩ := (LoginThrottle.counted_keeps_iff
        (hd.spent row (Table.mem_of_find? hrow)) hlock hnow).mpr
          (htime r known haccount row hrow lockedUntil hlock hclock)
      refine ⟨later, ?_, hle.trans hkept⟩
      show ((recordLoginFailure s (loginScope U r.email) r.now d.throttles).find? scope).bind _ = _
      rw [haccount, find?_recordLoginFailure, hrow]
      exact hlater
    · unfold LockedPast lockedUntil
      dsimp only
      rw [find?_recordLoginFailure_ne s _ _ _ haccount]
      exact hlocked
  | succeeded request r _ known =>
    have hother : loginScope U r.email ≠ scope := by
      intro haccount
      apply hsuccess
      show (d.requests request).any _ = true
      rw [known]
      exact decide_eq_true haccount
    unfold LockedPast lockedUntil
    dsimp only
    rw [find?_recordLoginSuccess_ne hother]
    exact hlocked
  | _ => exact hlocked

end LoginDesk

open LoginDesk

/-- **AN ACTIVE LOCK OUTLIVES TIMELY FAILURES.**  In every run of login
requests in which no login for the account succeeds and the failures that
are counted under a lock are timely, an account that is locked until `l`
stays locked at least until `l` as long as `l` has not come. -/
theorem login_lock_kept (U : Unicode) (s : LoginSettings) (d d' : LoginDesk)
    (before later : List LoginMove) (hbefore : run (step U s) fresh before = some d)
    (hlater : run (step U s) d later = some d') (scope : PyStr) (l : Time)
    (hlock : d.lockedUntil scope = some l)
    (hmoves : Along (step U s) (fun u a _ => ¬ u.Succeeds U scope a ∧ u.InTime U s scope a) d later)
    (hactive : d'.clock < l) :
    ∃ lockedUntil, d'.lockedUntil scope = some lockedUntil ∧ l ≤ lockedUntil := by
  have hsound : d.Sound s := run_inv (fun u a v hu huv => step_sound hu huv) fresh_sound hbefore
  -- the clock does not go back, so it was before `l` at every step
  have hstep : ∀ (u : LoginDesk) (a : LoginMove) (v : LoginDesk),
      (u.Sound s ∧ (u.clock < l → u.LockedPast scope l)) →
      u.step U s a = some v → (¬ u.Succeeds U scope a ∧ u.InTime U s scope a) →
      (v.Sound s ∧ (v.clock < l → v.LockedPast scope l)) := by
    intro u a v hu huv hmove
    refine ⟨step_sound hu.1 huv, fun hv => ?_⟩
    have hclock : u.clock < l := lt_of_le_of_lt (step_clock huv) hv
    exact step_locked hu.1 (hu.2 hclock) huv hmove.1 hmove.2 hclock
  have hstart : d.Sound s ∧ (d.clock < l → d.LockedPast scope l) :=
    ⟨hsound, fun _ => ⟨l, hlock, le_refl l⟩⟩
  exact (run_inv_of_along hstep later d d' hstart hmoves hlater).2 hactive

/-- The steps of a request with a wrong password, up to the record. -/
def wrongPassword (request : Nat) : List LoginMove :=
  [.arrive request (pyStr "a@b"), .check request, .evaluate request none]

/-- Nine failures, one below the budget. -/
def nineFailures : List LoginMove :=
  (List.range 9).flatMap fun request => wrongPassword request ++ [.recordFailure request]

/-- A tenth failure locks the account for 300 s, while an eleventh is on its
way; the lock is extended. -/
theorem login_lock_kept_extended :
    ∃ d d', run (step asciiTables ⟨10, 900, 300⟩) fresh
        (nineFailures ++ [.tick 10] ++ wrongPassword 9 ++ [.tick 20] ++ wrongPassword 10
          ++ [.recordFailure 9]) = some d
      ∧ run (step asciiTables ⟨10, 900, 300⟩) d [.tick 30, .recordFailure 10] = some d'
      ∧ d.lockedUntil (pyStr "email:a@b") = some 310
      ∧ ∃ lockedUntil, d'.lockedUntil (pyStr "email:a@b") = some lockedUntil
        ∧ 310 ≤ lockedUntil := by
  obtain ⟨d, d', hd, hd', hlock, hmoves, hactive⟩ : ∃ d d',
      run (step asciiTables ⟨10, 900, 300⟩) fresh
        (nineFailures ++ [.tick 10] ++ wrongPassword 9 ++ [.tick 20] ++ wrongPassword 10
          ++ [.recordFailure 9]) = some d
      ∧ run (step asciiTables ⟨10, 900, 300⟩) d [.tick 30, .recordFailure 10] = some d'
      ∧ d.lockedUntil (pyStr "email:a@b") = some 310
      ∧ Along (step asciiTables ⟨10, 900, 300⟩)
          (fun u a _ => ¬ u.Succeeds asciiTables (pyStr "email:a@b") a
            ∧ u.InTime asciiTables ⟨10, 900, 300⟩ (pyStr "email:a@b") a)
          d [.tick 30, .recordFailure 10]
      ∧ d'.clock < 310 := by
    decide +kernel
  exact ⟨d, d', hd, hd', hlock, login_lock_kept asciiTables ⟨10, 900, 300⟩ d d' _ _ hd hd' _ _
    hlock hmoves hactive⟩

/-- **A LATE FAILURE LIFTS THE LOCK.**  The tenth failure, of a request that
started at 800, locks the account until 1100.  An eleventh, of a request that
started at 905, is counted at 907 in a new window and clears the lock; of a
request that started at 700, it shortens it. -/
theorem late_failures_lift_lock :
    (∃ d d', run (step asciiTables ⟨10, 900, 300⟩) fresh
        (nineFailures ++ [.tick 800] ++ wrongPassword 9 ++ [.tick 905] ++ wrongPassword 10
          ++ [.tick 906, .recordFailure 9]) = some d
      ∧ run (step asciiTables ⟨10, 900, 300⟩) d [.tick 907, .recordFailure 10] = some d'
      ∧ d.lockedUntil (pyStr "email:a@b") = some 1100
      ∧ d'.clock < 1100 ∧ d'.lockedUntil (pyStr "email:a@b") = none)
    ∧ ∃ d d', run (step asciiTables ⟨10, 900, 300⟩) fresh
        (nineFailures ++ [.tick 700] ++ wrongPassword 10 ++ [.tick 800] ++ wrongPassword 9
          ++ [.tick 801, .recordFailure 9]) = some d
      ∧ run (step asciiTables ⟨10, 900, 300⟩) d [.tick 802, .recordFailure 10] = some d'
      ∧ d.lockedUntil (pyStr "email:a@b") = some 1100
      ∧ d'.clock < 1100 ∧ d'.lockedUntil (pyStr "email:a@b") = some 1000 := by
  constructor <;> decide +kernel

end WebhookPlatform
