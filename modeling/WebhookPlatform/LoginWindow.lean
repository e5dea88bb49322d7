/-
  WebhookPlatform.LoginWindow
  **ONE WINDOW START IN PLACE OF THE FAILURE TIMES.**

  The throttle row keeps when its window started and how many failures it
  has counted, and no failure times.  Two things follow.

  A burst of `login_throttle_max_failures` failures within one window length
  locks the account EXACTLY WHEN the row's old window does not end between
  the first and the last of them (`burst_locks_iff`); if it does, the count
  starts again in the middle of the burst (`burst_across_windows`).

  A row whose window and lock have lapsed is as good as no row: the next
  failure starts a new window either way.  So its deletion by
  `_purge_stale_login_throttles` is seen by no later call
  (`throttle_cleanup_unobservable`).
-/
import WebhookPlatform.LoginThrottle

namespace WebhookPlatform

open Relational List

/-- The table `login_throttles`. -/
abbrev Throttles := Table LoginThrottle LoginThrottle.scope

/-! ## §1. A failure, by what it finds. -/

theorem LoginSettings.accepted_pos {s : LoginSettings} (h : s.accepted = true) :
    0 < (s.loginThrottleWindowSeconds : Time) ∧ 0 < (s.loginThrottleLockoutSeconds : Time) := by
  simp only [LoginSettings.accepted, Bool.and_eq_true, decide_eq_true_eq] at h
  constructor
  · exact Nat.cast_pos.mpr (by omega)
  · exact Nat.cast_pos.mpr (by omega)

namespace LoginThrottle

variable {now first last : Time} {row : LoginThrottle}

/-- `window_started_at + window`. -/
def windowEnd (s : LoginSettings) (row : LoginThrottle) : Time :=
  row.windowStartedAt + s.loginThrottleWindowSeconds

/-- This failure starts a new window. -/
def Restarts (s : LoginSettings) (now : Time) (row : LoginThrottle) : Prop :=
  row.windowEnd s ≤ now ∨ row.expiredLock now = true

/-- The lock that a failure sets when `count` reaches the budget. -/
def lockAt (s : LoginSettings) (now : Time) (count : Nat) (old : Option Time) : Option Time :=
  if s.loginThrottleMaxFailures ≤ count then some (now + s.loginThrottleLockoutSeconds) else old

theorem counted_restart (h : row.Restarts s now) : row.counted s now =
    ⟨row.scope, 1, now, lockAt s now 1 none, now⟩ := by
  have hwindowed : row.windowed s now
      = { row with failureCount := 1, windowStartedAt := now, lockedUntil := none } := if_pos h
  unfold counted lockAt
  rw [hwindowed]
  split <;> rfl

theorem counted_more (h : ¬ row.Restarts s now) : row.counted s now =
    ⟨row.scope, row.failureCount + 1, row.windowStartedAt,
      lockAt s now (row.failureCount + 1) row.lockedUntil, now⟩ := by
  have hwindowed : row.windowed s now = { row with failureCount := row.failureCount + 1 } :=
    if_neg h
  unfold counted lockAt
  rw [hwindowed]
  split <;> rfl

/-- Without a lock a failure within the window is one more. -/
theorem not_restarts (hlock : row.lockedUntil = none) (hnow : now < row.windowEnd s) :
    ¬ row.Restarts s now := by
  unfold Restarts expiredLock
  simp [hlock, hnow]

/-! ## §2. A burst of failures. -/

/-- The row after failures at these times. -/
def countedAll (s : LoginSettings) (row : LoginThrottle) (times : List Time) : LoginThrottle :=
  times.foldl (fun row now => row.counted s now) row

/-- No failure but the last leaves a lock. -/
def Quiet (s : LoginSettings) (row : LoginThrottle) : List Time → Prop
  | [] => True
  | now :: times => (times ≠ [] → (row.counted s now).lockedUntil = none)
      ∧ Quiet s (row.counted s now) times

instance Quiet.decidable : ∀ row times, Decidable (Quiet s row times)
  | _, [] => .isTrue trivial
  | row, now :: times =>
    have : Decidable (Quiet s (row.counted s now) times) := Quiet.decidable _ times
    inferInstanceAs (Decidable (_ ∧ _))

/-- **Within one window** the last failure of a burst locks, from its own time
on, exactly when the budget is spent. -/
theorem lockedUntil_window (times : List Time) (row : LoginThrottle)
    (hlock : row.lockedUntil = none) (hin : ∀ t ∈ times, t < row.windowEnd s)
    (hquiet : row.Quiet s times) (hlast : times.getLast? = some last) :
    (row.countedAll s times).lockedUntil
      = lockAt s last (row.failureCount + times.length) none := by
  induction times generalizing row with
  | nil => cases hlast
  | cons now times ih =>
    have hmore := counted_more (not_restarts hlock (hin now mem_cons_self))
    show ((row.counted s now).countedAll s times).lockedUntil = _
    by_cases hnil : times = []
    · subst hnil
      cases hlast
      show (row.counted s now).lockedUntil = _
      rw [hmore, hlock]
      rfl
    · have hend : (row.counted s now).windowEnd s = row.windowEnd s := by rw [hmore]; rfl
      rw [ih _ (hquiet.1 hnil) (by
        rw [hend]
        exact fun t ht => hin t (mem_cons_of_mem _ ht)) hquiet.2 (by
        rwa [List.getLast?_cons_of_ne_nil hnil] at hlast), hmore, length_cons]
      show lockAt s last (row.failureCount + 1 + times.length) none = _
      rw [Nat.add_right_comm, Nat.add_assoc]

/-- **A burst that starts a window** counts its own failures only. -/
theorem lockedUntil_restart (hrestart : row.Restarts s first)
    (hin : ∀ t ∈ rest, t < first + s.loginThrottleWindowSeconds)
    (hquiet : row.Quiet s (first :: rest)) (hlast : (first :: rest).getLast? = some last) :
    (row.countedAll s (first :: rest)).lockedUntil = lockAt s last (1 + rest.length) none := by
  have hcounted := counted_restart hrestart
  show ((row.counted s first).countedAll s rest).lockedUntil = _
  by_cases hnil : rest = []
  · subst hnil
    cases hlast
    show (row.counted s first).lockedUntil = _
    rw [hcounted]
    rfl
  · rw [lockedUntil_window rest _ (hquiet.1 hnil) (by rw [hcounted]; exact hin) hquiet.2 (by
      rwa [List.getLast?_cons_of_ne_nil hnil] at hlast), hcounted]

/-- The old window of the row ends between the first and the last failure. -/
def EndsWithin (s : LoginSettings) (first last : Time) (row : LoginThrottle) : Prop :=
  row.lockedUntil = none ∧ first < row.windowEnd s ∧ row.windowEnd s ≤ last

instance : Decidable (row.EndsWithin s first last) := inferInstanceAs (Decidable (_ ∧ _))

theorem le_last {times : List Time} (hsorted : times.Pairwise (· ≤ ·))
    (hlast : times.getLast? = some last) {t : Time} (ht : t ∈ times) : t ≤ last := by
  obtain ⟨before, rfl⟩ := List.getLast?_eq_some_iff.mp hlast
  rcases mem_append.mp ht with ht | ht
  · exact (pairwise_append.mp hsorted).2.2 t ht last mem_cons_self
  · rw [mem_singleton.mp ht]

/-- **The count starts again** with the failure at which the window has ended:
what is left of the burst is below the budget. -/
theorem lockedUntil_endsWithin (rest : List Time) (first : Time) (row : LoginThrottle)
    (hends : row.EndsWithin s first last) (hquiet : row.Quiet s (first :: rest))
    (hsorted : (first :: rest).Pairwise (· ≤ ·)) (hlast : (first :: rest).getLast? = some last)
    (hspan : last < first + s.loginThrottleWindowSeconds)
    (hbudget : rest.length < s.loginThrottleMaxFailures) :
    (row.countedAll s (first :: rest)).lockedUntil = none := by
  obtain ⟨hlock, hfirst, hend⟩ := hends
  induction rest generalizing row first with
  | nil =>
    cases hlast
    exact absurd hend (not_le.mpr hfirst)
  | cons next rest ih =>
    have hcounted := counted_more (not_restarts hlock hfirst)
    have hwindow : (row.counted s first).windowEnd s = row.windowEnd s := by
      rw [hcounted]
      rfl
    have hnext : first ≤ next := rel_of_pairwise_cons hsorted mem_cons_self
    have hlast' : (next :: rest).getLast? = some last := by
      rwa [List.getLast?_cons_of_ne_nil (cons_ne_nil _ _)] at hlast
    rw [length_cons] at hbudget
    show ((row.counted s first).countedAll s (next :: rest)).lockedUntil = none
    by_cases hin : next < row.windowEnd s
    · exact ih next _ hquiet.2 hsorted.of_cons hlast' (by linarith) (by omega)
        (hquiet.1 (cons_ne_nil _ _)) (by rwa [hwindow]) (by rwa [hwindow])
    · rw [lockedUntil_restart (Or.inl (by rw [hwindow]; exact not_lt.mp hin)) _ hquiet.2 hlast']
      · exact if_neg (by omega)
      · intro t ht
        have := le_last hsorted hlast (mem_cons_of_mem _ (mem_cons_of_mem _ ht))
        linarith

/-- **The burst at its row.** -/
theorem lockedUntil_burst (hbudget : rest.length + 1 = s.loginThrottleMaxFailures)
    (hquiet : row.Quiet s (first :: rest)) (hsorted : (first :: rest).Pairwise (· ≤ ·))
    (hlast : (first :: rest).getLast? = some last)
    (hspan : last < first + s.loginThrottleWindowSeconds)
    (hallowed : row.lockedUntil = none ∨ row.expiredLock first = true)
    (hends : ¬ row.EndsWithin s first last) :
    (row.countedAll s (first :: rest)).lockedUntil
      = some (last + s.loginThrottleLockoutSeconds) := by
  have hle : ∀ t ∈ first :: rest, t ≤ last := fun t ht => le_last hsorted hlast ht
  by_cases hrestart : row.Restarts s first
  · rw [lockedUntil_restart hrestart (fun t ht => ?_) hquiet hlast]
    · exact if_pos (by omega)
    · exact (hle t (mem_cons_of_mem _ ht)).trans_lt hspan
  · obtain ⟨hwindow, hexpired⟩ := not_or.mp hrestart
    have hlock := hallowed.resolve_right hexpired
    rw [lockedUntil_window _ _ hlock (fun t ht => ?_) hquiet hlast, length_cons]
    · exact if_pos (by omega)
    · by_contra hout
      exact hends ⟨hlock, not_le.mp hwindow, (not_lt.mp hout).trans (hle t ht)⟩

end LoginThrottle

/-- `record_login_failure` at these times. -/
def recordLoginFailures (s : LoginSettings) (scope : PyStr) (throttles : Throttles)
    (times : List Time) : Throttles :=
  times.foldl (fun t now => recordLoginFailure s scope now t) throttles

/-- The row that a failure at `now` counts in. -/
def rowFor (throttles : Throttles) (scope : PyStr) (now : Time) : LoginThrottle :=
  (throttles.find? scope).getD (.first scope now)

section Burst

theorem find?_recordLoginFailures (now : Time) (times : List Time) :
    (recordLoginFailures s scope throttles (now :: times)).find? scope
      = some ((rowFor throttles scope now).countedAll s (now :: times)) := by
  induction times generalizing throttles now with
  | nil => exact find?_recordLoginFailure s scope now throttles
  | cons next _ ih =>
    refine (ih next).trans ?_
    unfold rowFor
    rw [find?_recordLoginFailure]
    rfl

/-- The refusal of a locked account. -/
theorem checkLoginAllowed_eq_none : checkLoginAllowed throttles scope now = none
    ↔ ∀ row ∈ throttles.find? scope, ∀ l ∈ row.lockedUntil, l ≤ now := by
  unfold checkLoginAllowed
  cases throttles.find? scope with
  | none => simp
  | some row => cases hlock : row.lockedUntil <;> simp [hlock]

end Burst

open LoginThrottle in
/-- **WHEN A BURST LOCKS THE ACCOUNT.**  Whatever happened before: as many
failures as the budget allows, in order, within less than a window length,
the first of them allowed and no lock in between, leave the account locked
after the last EXACTLY WHEN the window of the row that they found does not
end between the first and the last of them. -/
theorem burst_locks_iff (s : LoginSettings) (haccepted : s.accepted = true) (scope : PyStr)
    (throttles : Throttles) (first last : Time) (rest : List Time)
    (hbudget : (first :: rest).length = s.loginThrottleMaxFailures)
    (hsorted : (first :: rest).Pairwise (· ≤ ·)) (hlast : (first :: rest).getLast? = some last)
    (hspan : last - first < s.loginThrottleWindowSeconds)
    (hallowed : checkLoginAllowed throttles scope first = none)
    (hquiet : (rowFor throttles scope first).Quiet s (first :: rest)) :
    checkLoginAllowed (recordLoginFailures s scope throttles (first :: rest)) scope last ≠ none
      ↔ ∀ row ∈ throttles.find? scope, ¬ row.EndsWithin s first last := by
  have hspan' : last < first + s.loginThrottleWindowSeconds := by linarith
  have hrow : (∀ row ∈ throttles.find? scope, ¬ row.EndsWithin s first last)
      ↔ ¬ (rowFor throttles scope first).EndsWithin s first last := by
    unfold rowFor
    cases throttles.find? scope with
    | some => simp
    | none =>
      refine iff_of_true (fun row hrow => by cases hrow) ?_
      exact fun hends => absurd hends.2.2 (not_le.mpr hspan')
  have hfree : (rowFor throttles scope first).lockedUntil = none
      ∨ (rowFor throttles scope first).expiredLock first = true := by
    rw [checkLoginAllowed_eq_none] at hallowed
    unfold rowFor
    cases hfound : throttles.find? scope with
    | none => exact Or.inl rfl
    | some row =>
      have hlapsed := hallowed row hfound
      unfold expiredLock
      cases hlock : row.lockedUntil <;> simp_all
  rw [hrow, ne_eq, checkLoginAllowed_eq_none, find?_recordLoginFailures]
  constructor
  · intro hlocked hends
    apply hlocked
    intro row hrow l hl
    cases hrow
    rw [lockedUntil_endsWithin rest first _ hends hquiet hsorted hlast hspan'
      (by rw [← hbudget]; exact Nat.lt_succ_self _)] at hl
    cases hl
  · intro hends hfree'
    have hlocked := lockedUntil_burst hbudget hquiet hsorted hlast hspan' hfree hends
    have := hfree' _ rfl _ hlocked
    have := (LoginSettings.accepted_pos haccepted).2
    linarith

/-- A failure at time 0 has opened a window until 900. -/
def openWindow : Throttles :=
  recordLoginFailures ⟨3, 900, 300⟩ (pyStr "email:a@b") Table.empty [0]

/-- Where three failures are the budget: a burst in which that window ends does
not lock the account, and one that begins when it has ended does. -/
theorem burst_locks_iff_open :
    checkLoginAllowed (recordLoginFailures ⟨3, 900, 300⟩ (pyStr "email:a@b") openWindow
        [899, 900, 901]) (pyStr "email:a@b") 901 = none
      ∧ checkLoginAllowed (recordLoginFailures ⟨3, 900, 300⟩ (pyStr "email:a@b") openWindow
        [900, 901, 902]) (pyStr "email:a@b") 902 ≠ none := by
  constructor
  · by_contra hlocked
    have hends := (burst_locks_iff ⟨3, 900, 300⟩ (by decide) (pyStr "email:a@b") openWindow 899 901
      [900, 901] rfl (by decide +kernel) rfl (by decide +kernel) (by decide +kernel)
      (by decide +kernel)).mp hlocked
    exact absurd hends (by decide +kernel)
  · exact (burst_locks_iff ⟨3, 900, 300⟩ (by decide) (pyStr "email:a@b") openWindow 900 902
      [901, 902] rfl (by decide +kernel) rfl (by decide +kernel) (by decide +kernel)
      (by decide +kernel)).mpr (by decide +kernel)

/-- **TEN FAILURES WITHIN ONE SECOND AND NO LOCK.**  An earlier failure at
time 0 started the window that ends at 900: five failures at 899 and five at
900 are counted up to six, and from one up to five. -/
theorem burst_across_windows :
    (List.replicate 5 899 ++ List.replicate 5 900 : List Nat).length = 10
      ∧ ∀ k ≤ 10, ∃ row ∈ (recordLoginFailures ⟨10, 900, 300⟩ (pyStr "email:a@b") Table.empty
          (0 :: (List.replicate 5 899 ++ List.replicate 5 900).take k)).find? (pyStr "email:a@b"),
        row.lockedUntil = none ∧ row.failureCount = if k ≤ 5 then k + 1 else k - 5 := by
  decide +kernel

/-! ## §3. The cleanup of stale rows. -/

/-- The condition of `_purge_stale_login_throttles`. -/
def LoginThrottle.stale (s : LoginSettings) (now : Time) (row : LoginThrottle) : Bool :=
  decide (row.updatedAt ≤ now - s.loginThrottleWindowSeconds)
    && row.lockedUntil.all fun l => decide (l ≤ now)

/-- `_purge_stale_login_throttles`; the batch size and the rows that others
have locked decide which of the stale rows are `chosen`. -/
def purgeStaleLoginThrottles (s : LoginSettings) (now : Time) (chosen : List PyStr)
    (throttles : Throttles) : Throttles :=
  throttles.delete fun row => decide (row.scope ∈ chosen) && row.stale s now

/-- The operations on the throttle rows. -/
inductive ThrottleOp where
  | check (scope : PyStr)
  | failure (scope : PyStr)
  | success (scope : PyStr)
  | purge (chosen : List PyStr)

namespace ThrottleOp

def apply (s : LoginSettings) (now : Time) (throttles : Throttles) : ThrottleOp → Throttles
  | .check _ => throttles
  | .failure scope => recordLoginFailure s scope now throttles
  | .success scope => recordLoginSuccess scope throttles
  | .purge chosen => purgeStaleLoginThrottles s now chosen throttles

/-- The answer: a refusal with its `Retry-After`, or none. -/
def answer (now : Time) (throttles : Throttles) : ThrottleOp → Option AppError
  | .check scope => checkLoginAllowed throttles scope now
  | _ => none

/-- What the operation does to the row of one account. -/
def onRow (s : LoginSettings) (now : Time) (scope : PyStr) (row : Option LoginThrottle) :
    ThrottleOp → Option LoginThrottle
  | .check _ => row
  | .failure other =>
    if other = scope then some ((row.getD (.first scope now)).counted s now) else row
  | .success other => if other = scope then none else row
  | .purge chosen => row.filter fun r => !(decide (scope ∈ chosen) && r.stale s now)

/-- **An operation acts on each row by itself.** -/
theorem find?_apply (s : LoginSettings) (now : Time) (scope : PyStr) (throttles : Throttles)
    (op : ThrottleOp) :
    (op.apply s now throttles).find? scope = op.onRow s now scope (throttles.find? scope) := by
  have hkey : ∀ row, throttles.find? scope = some row → row.scope = scope :=
    fun row hrow => Table.key_of_find? hrow
  cases op with
  | check => rfl
  | failure other =>
    by_cases hscope : other = scope
    · subst hscope
      exact (find?_recordLoginFailure s other now throttles).trans (if_pos rfl).symm
    · exact (find?_recordLoginFailure_ne s other now throttles hscope).trans (if_neg hscope).symm
  | success other =>
    refine Table.find?_delete_eq.trans ?_
    show _ = if other = scope then none else throttles.find? scope
    cases hrow : throttles.find? scope with
    | none => simp
    | some row =>
      by_cases hscope : other = scope
      · simp [Option.filter, hkey row hrow, hscope]
      · simp [Option.filter, hkey row hrow, hscope, Ne.symm hscope]
  | purge =>
    refine Table.find?_delete_eq.trans ?_
    show _ = (throttles.find? scope).filter _
    cases hrow : throttles.find? scope with
    | none => rfl
    | some row => simp [Option.filter, hkey row hrow]

end ThrottleOp

/-- The table after operations at their times. -/
def throttleRun (s : LoginSettings) (throttles : Throttles) (ops : List (Time × ThrottleOp)) :
    Throttles :=
  ops.foldl (fun t x => x.2.apply s x.1 t) throttles

/-- The answers of the operations. -/
def throttleAnswers (s : LoginSettings) (throttles : Throttles) :
    List (Time × ThrottleOp) → List (Option AppError)
  | [] => []
  | x :: ops => x.2.answer x.1 throttles :: throttleAnswers s (x.2.apply s x.1 throttles) ops

section Cleanup

variable {op : ThrottleOp}

/-- The row's window and its lock are over. -/
def LoginThrottle.Lapsed (s : LoginSettings) (now : Time) (row : LoginThrottle) : Prop :=
  row.windowEnd s ≤ now ∧ ∀ l ∈ row.lockedUntil, l ≤ now

/-- **A failure counts in a lapsed row as in none.** -/
theorem LoginThrottle.Lapsed.counted_eq {row : LoginThrottle} (h : row.Lapsed s now)
    (hwindow : 0 < (s.loginThrottleWindowSeconds : Time)) :
    row.counted s now = (LoginThrottle.first row.scope now).counted s now := by
  have hmore : ¬ (LoginThrottle.first row.scope now).Restarts s now :=
    LoginThrottle.not_restarts rfl (lt_add_of_pos_right now hwindow)
  rw [LoginThrottle.counted_restart (Or.inl h.1), LoginThrottle.counted_more hmore]
  rfl

/-- The rows of one account in the two runs: the same, or a lapsed row and
none. -/
def Agrees (s : LoginSettings) (now : Time) (scope : PyStr) (kept purged : Option LoginThrottle) :
    Prop :=
  kept = purged ∨ purged = none ∧ ∃ row, kept = some row ∧ row.scope = scope ∧ row.Lapsed s now

theorem Agrees.later (h : Agrees s t scope kept purged) (hle : t ≤ now) :
    Agrees s now scope kept purged := by
  rcases h with heq | ⟨hnone, row, hrow, hscope, hwindow, hlock⟩
  · exact Or.inl heq
  · exact Or.inr ⟨hnone, row, hrow, hscope, hwindow.trans hle, fun l hl => (hlock l hl).trans hle⟩

/-- **One operation keeps the agreement**, and a failure of the account makes
the rows equal. -/
theorem Agrees.onRow (hwindow : 0 < (s.loginThrottleWindowSeconds : Time))
    (h : Agrees s now scope kept purged) (op : ThrottleOp) :
    Agrees s now scope (op.onRow s now scope kept) (op.onRow s now scope purged)
      ∧ (op = .failure scope → op.onRow s now scope kept = op.onRow s now scope purged) := by
  rcases h with rfl | ⟨rfl, row, rfl, hscope, hlapsed⟩
  · exact ⟨Or.inl rfl, fun _ => rfl⟩
  have hsame : Agrees s now scope (some row) none := Or.inr ⟨rfl, row, rfl, hscope, hlapsed⟩
  cases op with
  | check => exact ⟨hsame, fun hop => by cases hop⟩
  | failure other =>
    have hfirst : row.counted s now = (LoginThrottle.first scope now).counted s now :=
      hscope ▸ hlapsed.counted_eq hwindow
    by_cases hother : other = scope
    · simp [ThrottleOp.onRow, hother, hfirst, Agrees]
    · simpa [ThrottleOp.onRow, hother] using hsame
  | success other =>
    by_cases hother : other = scope
    · simp [ThrottleOp.onRow, hother, Agrees]
    · simpa [ThrottleOp.onRow, hother] using hsame
  | purge =>
    -- this purge may take the row as well
    refine ⟨?_, fun hop => by cases hop⟩
    simp only [ThrottleOp.onRow, Option.filter_none, Option.filter_some]
    split
    · exact hsame
    · exact Or.inl rfl

theorem answer_eq (h : ∀ scope, Agrees s now scope (a.find? scope) (b.find? scope)) :
    op.answer now a = op.answer now b := by
  cases op with
  | check scope =>
    show checkLoginAllowed a scope now = checkLoginAllowed b scope now
    rcases h scope with heq | ⟨hnone, row, hrow, -, -, hlock⟩
    · unfold checkLoginAllowed
      rw [heq]
    · rw [checkLoginAllowed_eq_none.mpr, checkLoginAllowed_eq_none.mpr]
      · simp [hnone]
      · simpa [hrow] using hlock
  | _ => rfl

/-- **A whole run**: the answers are the same, and the rows of an account are
the same at the end if they were at the start or a failure was recorded. -/
theorem throttleRun_agrees (hwindow : 0 < (s.loginThrottleWindowSeconds : Time))
    (htimes : (t :: ops.map Prod.fst).Pairwise (· ≤ ·))
    (h : ∀ scope, Agrees s t scope (a.find? scope) (b.find? scope)) :
    throttleAnswers s a ops = throttleAnswers s b ops
      ∧ ∀ scope, (a.find? scope = b.find? scope ∨ ∃ x ∈ ops, x.2 = .failure scope) →
        (throttleRun s a ops).find? scope = (throttleRun s b ops).find? scope := by
  induction ops generalizing t a b with
  | nil => exact ⟨rfl, fun scope hscope => hscope.resolve_right (by simp)⟩
  | cons x _ ih =>
    obtain ⟨now, op⟩ := x
    rw [map_cons, pairwise_cons] at htimes
    have hnow : ∀ scope, Agrees s now scope (a.find? scope) (b.find? scope) :=
      fun scope => (h scope).later (htimes.1 now mem_cons_self)
    have hop := fun scope => (hnow scope).onRow hwindow op
    simp only [← ThrottleOp.find?_apply] at hop
    obtain ⟨hanswers, hrows⟩ := ih htimes.2 fun scope => (hop scope).1
    refine ⟨congrArg₂ List.cons (answer_eq hnow) hanswers, fun scope hscope => hrows scope ?_⟩
    rcases hscope with heq | ⟨y, hy, hfailure⟩
    · rw [ThrottleOp.find?_apply, ThrottleOp.find?_apply, heq]
      exact Or.inl rfl
    · rcases mem_cons.mp hy with rfl | hy
      · exact Or.inl ((hop scope).2 hfailure)
      · exact Or.inr ⟨y, hy, hfailure⟩

/-- Every row was updated in or after its window's start, and in the past. -/
def Dated (t : Time) (throttles : Throttles) : Prop :=
  ∀ scope, ∀ row ∈ throttles.find? scope, row.windowStartedAt ≤ row.updatedAt ∧ row.updatedAt ≤ t

theorem dated_apply (hle : t ≤ now) (h : Dated t a) : Dated now (op.apply s now a) := by
  intro scope row hrow
  rw [ThrottleOp.find?_apply] at hrow
  have hold : ∀ row ∈ a.find? scope, row.windowStartedAt ≤ row.updatedAt ∧ row.updatedAt ≤ now :=
    fun row hrow => ⟨(h scope row hrow).1, (h scope row hrow).2.trans hle⟩
  cases op with
  | check => exact hold row hrow
  | failure other =>
    by_cases hother : other = scope
    · have hfound : ((a.find? scope).getD (.first scope now)).windowStartedAt ≤ now := by
        cases hrow : a.find? scope with
        | none => exact le_refl now
        | some row => exact (hold row hrow).1.trans (hold row hrow).2
      simp only [ThrottleOp.onRow, if_pos hother, Option.mem_def, Option.some.injEq] at hrow
      rw [← hrow]
      by_cases hrestart : ((a.find? scope).getD (.first scope now)).Restarts s now
      · rw [LoginThrottle.counted_restart hrestart]
        exact ⟨le_refl now, le_refl now⟩
      · rw [LoginThrottle.counted_more hrestart]
        exact ⟨hfound, le_refl now⟩
    · exact hold row (by simpa [ThrottleOp.onRow, hother] using hrow)
  | success =>
    exact hold row (Option.ite_none_left_eq_some.mp hrow).2
  | purge => exact hold row (Option.mem_filter_iff.mp hrow).1

theorem dated_run (htimes : (ops.map Prod.fst ++ [now]).Pairwise (· ≤ ·))
    (hle : ∀ x ∈ ops.map Prod.fst ++ [now], t ≤ x) (h : Dated t a) :
    Dated now (throttleRun s a ops) := by
  induction ops generalizing t a with
  | nil =>
    intro scope row hrow
    obtain ⟨hstarted, hupdated⟩ := h scope row hrow
    exact ⟨hstarted, hupdated.trans (hle now (by simp))⟩
  | cons x _ ih =>
    rw [map_cons, cons_append, pairwise_cons] at htimes
    exact ih htimes.2 htimes.1 (dated_apply (hle x.1 mem_cons_self) h)

end Cleanup

/-- **THE CLEANUP OF A STALE ROW IS NOT OBSERVABLE.**  After any operations
on an empty table, a row that the cleanup finds stale is deleted in one run
and left in the other: no later check or failure answers differently, and once
a failure of the account has been recorded all rows are the same. -/
theorem throttle_cleanup_unobservable (s : LoginSettings) (haccepted : s.accepted = true)
    (before later : List (Time × ThrottleOp)) (now : Time)
    (hbefore : (before.map Prod.fst ++ [now]).Pairwise (· ≤ ·))
    (hlater : (now :: later.map Prod.fst).Pairwise (· ≤ ·)) (row : LoginThrottle)
    (hrow : row ∈ (throttleRun s Table.empty before).rows) (hstale : row.stale s now = true) :
    let kept := throttleRun s Table.empty before
    let purged := purgeStaleLoginThrottles s now [row.scope] kept
    purged.find? row.scope = none
      ∧ throttleAnswers s kept later = throttleAnswers s purged later
      ∧ ((∃ x ∈ later, x.2 = .failure row.scope) → ∀ scope,
        (throttleRun s kept later).find? scope = (throttleRun s purged later).find? scope) := by
  intro kept purged
  have hfound : kept.find? row.scope = some row := Table.find?_key hrow
  have hpurged : purged.find? row.scope = none := by
    refine Table.find?_delete_eq.trans ?_
    rw [hfound]
    simp [hstale]
  have hothers : ∀ scope, scope ≠ row.scope → kept.find? scope = purged.find? scope := by
    intro scope hscope
    refine Eq.trans ?_ Table.find?_delete_eq.symm
    cases hother : kept.find? scope with
    | none => rfl
    | some => simp [Option.filter, Table.key_of_find? hother, hscope]
  have hlapsed : row.Lapsed s now := by
    have hdated : Dated now kept := by
      cases before with
      | nil => exact fun scope row hrow => by cases hrow
      | cons x =>
        refine dated_run (t := x.1) hbefore ?_ fun scope row hrow => by cases hrow
        exact forall_mem_cons.mpr ⟨le_refl x.1, fun _ => rel_of_pairwise_cons hbefore⟩
    simp only [LoginThrottle.stale, Bool.and_eq_true, decide_eq_true_eq, Option.all_eq_true]
      at hstale
    obtain ⟨hstart, -⟩ := hdated row.scope row hfound
    exact ⟨le_sub_iff_add_le.mp (hstart.trans hstale.1), fun l hl => hstale.2 l hl⟩
  obtain ⟨hanswers, hrows⟩ := throttleRun_agrees (LoginSettings.accepted_pos haccepted).1 hlater
    (s := s) (a := kept) (b := purged) fun scope => by
      by_cases hscope : scope = row.scope
      · subst hscope
        exact Or.inr ⟨hpurged, row, hfound, rfl, hlapsed⟩
      · exact Or.inl (hothers scope hscope)
  refine ⟨hpurged, hanswers, fun hfailure scope => hrows scope ?_⟩
  by_cases hscope : scope = row.scope
  · exact Or.inr (hscope ▸ hfailure)
  · exact Or.inl (hothers scope hscope)

/-- The row of one failure at time 0 is deleted at 900, when the next failure
comes. -/
theorem throttle_cleanup_unobservable_one :
    let s : LoginSettings := ⟨10, 900, 300⟩
    let kept := throttleRun s Table.empty [(0, .failure (pyStr "email:a@b"))]
    let purged := purgeStaleLoginThrottles s 900 [pyStr "email:a@b"] kept
    purged.find? (pyStr "email:a@b") = none
      ∧ ∀ scope, (throttleRun s kept [(900, .failure (pyStr "email:a@b"))]).find? scope
        = (throttleRun s purged [(900, .failure (pyStr "email:a@b"))]).find? scope := by
  have h := throttle_cleanup_unobservable ⟨10, 900, 300⟩ (by decide)
    [(0, .failure (pyStr "email:a@b"))] [(900, .failure (pyStr "email:a@b"))] 900
    (by decide +kernel) (by decide +kernel) ⟨pyStr "email:a@b", 1, 0, none, 0⟩
    (by decide +kernel) (by decide +kernel)
  exact ⟨h.1, h.2.2 ⟨_, mem_singleton_self _, rfl⟩⟩

end WebhookPlatform
