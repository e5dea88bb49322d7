/-
  WebhookPlatform.Attempt
  **ONE OUTBOUND ATTEMPT, AND WHAT THE WORKER MAKES OF IT**
  (`DeliveryService._perform_attempt` and `_deliver_with_heartbeat`,
  `retry_policy.parse_retry_after`, `worker._run_claim`).

  The exchange with the receiver is an ARGUMENT: an exception of any class
  before a status line arrives, or a status, its headers and a body stream
  that may break at any chunk.  The handlers see only the class of what was
  raised and the locals assigned before it:

      status_code, retry_after_seconds   — once the headers are in
      response_body                      — once the stream has been read
      retryable, error                   — after the blocks are left

  so an attempt is classified by a PAIR (status, later failure).
  `attempt_settled_iff` says for which exchanges the attempt comes back
  classified by its status alone; the others either escape, and the worker
  hands the row back without a record of the attempt, or come back with the
  retry flag of the later failure.
-/
import WebhookPlatform.Platform
import WebhookPlatform.Lib.Exceptions

namespace WebhookPlatform

open Relational Transition Exceptions

/-! ## §1. `Retry-After`. -/

/-- What the attempt takes from the standard library. -/
structure AttemptPrimitives where
  /-- `parsedate_to_datetime`; `none` when it raises `TypeError`,
  `ValueError` or `OverflowError`. -/
  parsedate : String → Option Time
  /-- `bytes.decode("utf-8", errors="replace")`. -/
  decode : Bytes → String

/-- `str.isspace` of one character. -/
def isPySpace (c : Char) : Bool :=
  let n := c.toNat
  decide (9 ≤ n ∧ n ≤ 13) || decide (28 ≤ n ∧ n ≤ 32) || decide (8192 ≤ n ∧ n ≤ 8202)
    || decide (n ∈ [133, 160, 5760, 8232, 8233, 8239, 8287, 12288])

/-- `str.strip`. -/
def pyStrip (text : List Char) : List Char :=
  ((text.dropWhile isPySpace).reverse.dropWhile isPySpace).reverse

/-- `int` of a text of ASCII digits. -/
def digitsValue (digits : List Char) : Nat :=
  digits.foldl (fun n c => 10 * n + (c.toNat - '0'.toNat)) 0

/-- `float(int(candidate))`: `int` takes at most 4300 digits, and the
largest doubles are below `2 ^ 1024`. -/
def deltaSeconds (digits : List Char) : Option ℚ :=
  if 4300 < digits.length ∨ 2 ^ 1024 - 2 ^ 970 ≤ digitsValue digits then none
  else some (digitsValue digits : ℚ)

/-- `parse_retry_after`. -/
def parseRetryAfter (A : AttemptPrimitives) (value : Option String) (now : Time)
    (maximumSeconds : Nat) : Option ℚ :=
  value.bind fun text =>
    let candidate := pyStrip text.toList
    if candidate = [] then none
    else
      let delay :=
        if candidate.all Char.isDigit then deltaSeconds candidate
        else (A.parsedate (String.ofList candidate)).map fun target => max 0 (target - now)
      delay.map fun d => min (maximumSeconds : ℚ) d

/-! ## §2. Exceptions of the exchange. -/

namespace Classes

/-- The builtin classes that a handler names. -/
def osError : ExceptionClass := .derived "OSError" .root
def timeoutError : ExceptionClass := .derived "TimeoutError" osError
def typeError : ExceptionClass := .derived "TypeError" .root
def valueError : ExceptionClass := .derived "ValueError" .root

/-- `app.webhook_security.UnsafeWebhookUrl`. -/
def unsafeWebhookUrl : ExceptionClass := .derived "UnsafeWebhookUrl" valueError

/-- The part of the hierarchy of `httpx` 0.28 above its transports. -/
def httpError : ExceptionClass := .derived "HTTPError" .root
def requestError : ExceptionClass := .derived "RequestError" httpError
def transportError : ExceptionClass := .derived "TransportError" requestError
def timeoutException : ExceptionClass := .derived "TimeoutException" transportError
def networkError : ExceptionClass := .derived "NetworkError" transportError
def proxyError : ExceptionClass := .derived "ProxyError" transportError
def protocolError : ExceptionClass := .derived "ProtocolError" transportError
def unsupportedProtocol : ExceptionClass := .derived "UnsupportedProtocol" transportError
def decodingError : ExceptionClass := .derived "DecodingError" requestError
def tooManyRedirects : ExceptionClass := .derived "TooManyRedirects" requestError

def readTimeout : ExceptionClass := .derived "ReadTimeout" timeoutException
def remoteProtocolError : ExceptionClass := .derived "RemoteProtocolError" protocolError

end Classes

open Classes ExceptionClass

/-- `SecurityDenyReason`. -/
inductive SecurityDenyReason where
  | urlTooLong | invalidUrl | schemeNotAllowed | credentialsForbidden | fragmentForbidden
  | portNotAllowed | localhostForbidden | dnsUnresolved | nonGlobalAddress | proxyConnectDenied
  deriving Repr, DecidableEq

/-- `SecurityDenyReason.value`. -/
def SecurityDenyReason.value : SecurityDenyReason → String
  | .urlTooLong => "url_too_long"
  | .invalidUrl => "invalid_url"
  | .schemeNotAllowed => "scheme_not_allowed"
  | .credentialsForbidden => "credentials_forbidden"
  | .fragmentForbidden => "fragment_forbidden"
  | .portNotAllowed => "port_not_allowed"
  | .localhostForbidden => "localhost_forbidden"
  | .dnsUnresolved => "dns_unresolved"
  | .nonGlobalAddress => "non_global_address"
  | .proxyConnectDenied => "proxy_connect_denied"

/-- An exception below `Exception`, so never the cancellation of the task:
its class, and the attribute that `UnsafeWebhookUrl` sets in its
constructor. -/
structure PyException where
  cls : ExceptionClass
  reason : Option SecurityDenyReason := none
  hasReason : cls.isSubclass unsafeWebhookUrl = true → reason.isSome = true := by decide

/-- `isinstance`. -/
def PyException.instanceOf (e : PyException) (cls : ExceptionClass) : Bool :=
  e.cls.isSubclass cls

/-- The `except` clauses of `_perform_attempt`, in order: the values of
`retryable` and `error` they leave; `none` when the exception escapes. -/
def handleException (e : PyException) : Option (Bool × String) :=
  if e.instanceOf timeoutError then some (true, "attempt_timeout")
  else if e.instanceOf proxyError then some (false, "egress_proxy_denied")
  else if e.instanceOf timeoutException || e.instanceOf networkError then
    some (true, e.cls.name)
  else if h : e.instanceOf unsafeWebhookUrl then
    some (false, "unsafe_webhook_url:" ++ (e.reason.get (e.hasReason h)).value)
  else if e.instanceOf typeError || e.instanceOf valueError then some (false, e.cls.name)
  else none

/-- The classes that some clause names. -/
def PyException.handled (e : PyException) : Bool :=
  [timeoutError, proxyError, timeoutException, networkError, typeError, valueError].any
    e.instanceOf

/-- The classes whose clause asks for a retry. -/
def PyException.transient (e : PyException) : Bool :=
  [timeoutError, timeoutException, networkError].any e.instanceOf

variable {e : PyException}

theorem PyException.handled_iff : e.handled = true ↔
      e.instanceOf timeoutError = true ∨ e.instanceOf proxyError = true
        ∨ e.instanceOf timeoutException = true ∨ e.instanceOf networkError = true
        ∨ e.instanceOf typeError = true ∨ e.instanceOf valueError = true := by
  unfold PyException.handled
  simp only [List.any_cons, List.any_nil, Bool.or_false, Bool.or_eq_true]

theorem PyException.transient_iff : e.transient = true ↔
      e.instanceOf timeoutError = true ∨ e.instanceOf timeoutException = true
        ∨ e.instanceOf networkError = true := by
  unfold PyException.transient
  simp only [List.any_cons, List.any_nil, Bool.or_false, Bool.or_eq_true]

/-- Only the classes of the clauses are handled: `UnsafeWebhookUrl` is among
them as a `ValueError`. -/
theorem handleException_none_iff : handleException e = none ↔ e.handled = false := by
  rw [← Bool.not_eq_true, PyException.handled_iff]
  unfold handleException
  by_cases htime : e.instanceOf timeoutError = true
  · simp [htime]
  by_cases hproxy : e.instanceOf proxyError = true
  · simp [htime, hproxy]
  by_cases htransport : (e.instanceOf timeoutException || e.instanceOf networkError) = true
  · rw [if_neg htime, if_neg hproxy, if_pos htransport]
    have hor := (Bool.or_eq_true _ _).mp htransport
    simp only [reduceCtorEq, false_iff, not_not]
    tauto
  -- an unsafe URL is a `ValueError`, which the last clause names
  by_cases hunsafe : e.instanceOf unsafeWebhookUrl = true
  · have hvalue : e.instanceOf valueError = true := isSubclass_trans hunsafe (by decide)
    simp [htime, hproxy, htransport, hunsafe, hvalue]
  · rw [Bool.or_eq_true, not_or] at htransport
    simp [htime, hproxy, htransport, hunsafe]

/-- A clause caught it, so its class is named. -/
theorem handled_of_handleException (h : handleException e = some verdict) : e.handled = true := by
  by_contra hno
  rw [handleException_none_iff.mpr (Bool.eq_false_iff.mpr hno)] at h
  cases h

/-- The retry flag depends on the class alone.  `ProxyError` stands before
the network errors, but it is none of them. -/
theorem retryable_of_handleException (h : handleException e = some (retryable, error)) :
    retryable = e.transient := by
  have hflag : ∀ {b : Bool}, (b = true ↔ e.transient = true) → b = e.transient :=
    fun hb => Bool.eq_iff_iff.mpr hb
  unfold handleException at h
  split at h
  next htime =>
    obtain ⟨rfl, -⟩ := Prod.mk.inj (Option.some.inj h)
    exact (PyException.transient_iff.mpr (Or.inl htime)).symm
  next htime =>
    split at h
    next hproxy =>
      obtain ⟨rfl, -⟩ := Prod.mk.inj (Option.some.inj h)
      have hexc : e.instanceOf timeoutException = false :=
        not_isSubclass_of_unrelated hproxy (by decide) (by decide)
      have hnet : e.instanceOf networkError = false :=
        not_isSubclass_of_unrelated hproxy (by decide) (by decide)
      refine hflag ?_
      rw [PyException.transient_iff, hexc, hnet]
      simp [htime]
    split at h
    next htransport =>
      obtain ⟨rfl, -⟩ := Prod.mk.inj (Option.some.inj h)
      exact (PyException.transient_iff.mpr (Or.inr ((Bool.or_eq_true _ _).mp htransport))).symm
    next htransport =>
      -- the two clauses left are terminal, and the transient classes are behind them
      rw [Bool.or_eq_true, not_or] at htransport
      have hnot : ¬ e.transient = true := by
        rw [PyException.transient_iff]
        tauto
      split at h
      · obtain ⟨rfl, -⟩ := Prod.mk.inj (Option.some.inj h)
        exact (Bool.eq_false_iff.mpr hnot).symm
      split at h
      · obtain ⟨rfl, -⟩ := Prod.mk.inj (Option.some.inj h)
        exact (Bool.eq_false_iff.mpr hnot).symm
      · cases h

/-- The branches of the client's hierarchy that no clause names. -/
def unnamedClasses : List ExceptionClass :=
  [protocolError, unsupportedProtocol, decodingError, tooManyRedirects]

/-- **A WHOLE BRANCH ESCAPES**: whatever class a transport derives from
`ProtocolError`, `UnsupportedProtocol`, `DecodingError` or
`TooManyRedirects`, no clause catches it. -/
theorem unnamed_escapes (hcls : cls ∈ unnamedClasses) (h : e.instanceOf cls = true) :
    handleException e = none := by
  rw [handleException_none_iff, ← Bool.not_eq_true, PyException.handled_iff]
  have hapart : ∀ d ∈ [timeoutError, proxyError, timeoutException, networkError, typeError,
      valueError], e.instanceOf d = false := by
    intro d hd
    have hunrelated : ∀ c ∈ unnamedClasses, ∀ d ∈ [timeoutError, proxyError, timeoutException,
        networkError, typeError, valueError], c.isSubclass d = false ∧ d.isSubclass c = false := by
      decide
    obtain ⟨hcd, hdc⟩ := hunrelated cls hcls d hd
    exact not_isSubclass_of_unrelated h hcd hdc
  simp only [List.forall_mem_cons] at hapart
  simp [hapart]

/-! ## §3. The exchange. -/

/-- A response as the attempt sees it. -/
structure Response where
  statusCode : Nat
  /-- The header `Retry-After`. -/
  retryAfter : Option String := none
  /-- `utcnow()` when the header is read. -/
  received : Time := 0
  /-- The chunks `aiter_bytes` yields. -/
  chunks : List Bytes := []
  /-- What leaves the blocks when `aiter_bytes` fails after these chunks, or
  the attempt times out there. -/
  streamError : Option PyException := none
  /-- What closing the response raises once the body has been read, or the
  timeout that strikes there. -/
  closeError : Option PyException := none

/-- The outbound exchange: URL check, signature, connection and request, up
to the status line or the exception that came first. -/
inductive Exchange where
  | raised (e : PyException)
  | responded (r : Response)

/-- The loop over `aiter_bytes`: at most `remaining` bytes are captured, and
a chunk that finds none remaining ends the loop. -/
def captureBody : Nat → Bytes → List Bytes → Option PyException → Except PyException Bytes
  | _, body, [], none => .ok body
  | _, _, [], some e => .error e
  | remaining, body, chunk :: chunks, streamError =>
    if remaining = 0 then .ok body
    else
      captureBody (remaining - (chunk.take remaining).length) (body ++ chunk.take remaining)
        chunks streamError

/-- The stream is read to its end: when a chunk arrives, the ones before it
have not filled the capture. -/
def Drained (maxBytes : Nat) (chunks : List Bytes) : Prop :=
  chunks = [] ∨ (chunks.dropLast.map List.length).sum < maxBytes

instance (maxBytes : Nat) (chunks : List Bytes) : Decidable (Drained maxBytes chunks) :=
  inferInstanceAs (Decidable (_ ∨ _))

theorem drained_cons : Drained maxBytes (chunk :: chunks) ↔
      0 < maxBytes ∧ Drained (maxBytes - (chunk.take maxBytes).length) chunks := by
  unfold Drained
  cases chunks with
  | nil => simp
  | cons =>
    rw [List.dropLast_cons_of_ne_nil (by simp), List.map_cons, List.sum_cons, List.length_take]
    simp only [reduceCtorEq, false_or]
    omega

/-- The loop fails exactly with the failure of a stream it drains. -/
theorem captureBody_error_iff (e : PyException) (streamError : Option PyException)
    (chunks : List Bytes) :
    ∀ (remaining : Nat) (body : Bytes), captureBody remaining body chunks streamError = .error e ↔
        streamError = some e ∧ Drained remaining chunks := by
  induction chunks with
  | nil =>
    intro remaining body
    cases streamError with
    | none => simp [captureBody]
    | some => simp [captureBody, Drained]
  | cons _ _ ih =>
    intro remaining body
    rw [drained_cons]
    unfold captureBody
    by_cases hr : remaining = 0
    · simp [hr]
    · rw [if_neg hr, ih]
      have hpos : 0 < remaining := Nat.pos_of_ne_zero hr
      tauto

/-- The exception that a response ends with, if any. -/
def Response.failure (s : Settings) (r : Response) : Option PyException :=
  if Drained s.webhookResponseMaxBytes r.chunks then r.streamError.or r.closeError
  else r.closeError

/-- The locals of `_perform_attempt` that the exchange assigns. -/
structure AttemptLocals where
  statusCode : Option Nat := none
  responseBody : Option String := none
  retryAfterSeconds : Option ℚ := none

/-- The blocks under `asyncio.timeout`: the locals, and what was raised. -/
def exchanged (A : AttemptPrimitives) (s : Settings) :
    Exchange → AttemptLocals × Option PyException
  | .raised e => ({}, some e)
  | .responded r =>
    let head : AttemptLocals :=
      { statusCode := some r.statusCode
        retryAfterSeconds :=
          parseRetryAfter A r.retryAfter r.received s.webhookRetryAfterMaxSeconds }
    match captureBody s.webhookResponseMaxBytes [] r.chunks r.streamError with
    | .error e => (head, some e)
    | .ok body => ({ head with responseBody := some (A.decode body) }, r.closeError)

theorem exchanged_raised (A : AttemptPrimitives) (s : Settings) (e : PyException) :
    exchanged A s (.raised e) = ({}, some e) := rfl

/-- A response leaves its status in the locals and raises its failure. -/
theorem exchanged_responded (A : AttemptPrimitives) (s : Settings) (r : Response) :
    (exchanged A s (.responded r)).1.statusCode = some r.statusCode
      ∧ (exchanged A s (.responded r)).2 = r.failure s := by
  have herr := fun e => captureBody_error_iff e r.streamError r.chunks s.webhookResponseMaxBytes []
  unfold exchanged Response.failure
  dsimp only
  cases hbody : captureBody s.webhookResponseMaxBytes [] r.chunks r.streamError with
  | error e =>
    obtain ⟨hstream, hdrained⟩ := (herr e).mp hbody
    rw [if_pos hdrained, hstream]
    exact ⟨rfl, rfl⟩
  | ok =>
    refine ⟨rfl, ?_⟩
    dsimp only
    by_cases hdrained : Drained s.webhookResponseMaxBytes r.chunks
    · rw [if_pos hdrained]
      cases hstream : r.streamError with
      | none => rfl
      | some e => exact absurd ((herr e).mpr ⟨hstream, hdrained⟩) (by rw [hbody]; simp)
    · rw [if_neg hdrained]

/-! ## §4. The attempt. -/

/-- `200 <= status_code < 300`. -/
def isSuccessStatus (statusCode : Nat) : Bool :=
  decide (200 ≤ statusCode ∧ statusCode < 300)

/-- The result returned at the end of `_perform_attempt`. -/
def attemptResult (l : AttemptLocals) (retryable : Bool) (error : Option String) :
    AttemptResult where
  succeeded := l.statusCode.any isSuccessStatus
  retryable := retryable
  statusCode := l.statusCode
  error := error
  responseBody := l.responseBody
  retryAfterSeconds := l.retryAfterSeconds

/-- `error` of an exchange that raised nothing. -/
def statusError (statusCode : Option Nat) : Option String :=
  statusCode.bind fun code =>
    if isSuccessStatus code then none
    else some (if isRetryableStatus code then "retryable_http_status" else "http_status")

/-- The `try` statement: the blocks, then the handlers. -/
def tryExchange (A : AttemptPrimitives) (s : Settings) (x : Exchange) :
    Except PyException AttemptResult :=
  match exchanged A s x with
  | (l, none) =>
    .ok (attemptResult l (l.statusCode.any isRetryableStatus) (statusError l.statusCode))
  | (l, some e) =>
    match handleException e with
    | none => .error e
    | some (retryable, error) => .ok (attemptResult l retryable (some error))

/-- The request goes out: the delivery is young enough and its endpoint was
active at acceptance. -/
def Attempted (s : Settings) (now : Time) (c : ClaimedDelivery) : Prop :=
  now - c.createdAt < s.webhookMaxDeliveryAgeSeconds ∧ c.endpointActive = true

/-- `_perform_attempt`. -/
def performAttempt (A : AttemptPrimitives) (s : Settings) (now : Time) (c : ClaimedDelivery)
    (x : Exchange) : Except PyException AttemptResult :=
  if s.webhookMaxDeliveryAgeSeconds ≤ now - c.createdAt then
    .ok (attemptResult {} false (some "max_delivery_age"))
  else if c.endpointActive = false then
    .ok (attemptResult {} false (some "endpoint_inactive_at_acceptance"))
  else tryExchange A s x

/-- `succeeded` and `retryable` are what the status alone says. -/
def AttemptResult.StatusDecides (r : AttemptResult) : Prop :=
  ∀ code, r.statusCode = some code →
    r.succeeded = isSuccessStatus code ∧ r.retryable = isRetryableStatus code

/-- The exchange raises nothing; or it raises an exception of a class that a
clause names and, when a status came before, a retryable status before a
transient failure and another status before another failure. -/
def Exchange.Benign (s : Settings) : Exchange → Prop
  | .raised e => e.handled = true
  | .responded r =>
    ∀ e, r.failure s = some e →
      e.handled = true ∧ e.transient = isRetryableStatus r.statusCode

theorem attemptResult_statusDecides_iff (h : l.statusCode = some code) (retryable : Bool)
    (error : Option String) :
    (attemptResult l retryable error).StatusDecides ↔ retryable = isRetryableStatus code := by
  unfold AttemptResult.StatusDecides attemptResult
  simp [h]

/-- Without a status there is nothing to decide. -/
theorem attemptResult_statusDecides_of_none (h : l.statusCode = none)
    (retryable : Bool) (error : Option String) :
    (attemptResult l retryable error).StatusDecides := by
  intro code hcode
  have hnone : (attemptResult l retryable error).statusCode = none := h
  rw [hnone] at hcode
  cases hcode

/-- The `try` statement after an exception. -/
theorem tryExchange_failed (h : exchanged A s x = (l, some e)) :
    (∃ r, tryExchange A s x = .ok r ∧ r.StatusDecides) ↔ e.handled = true
        ∧ ∀ code, l.statusCode = some code → e.transient = isRetryableStatus code := by
  unfold tryExchange
  rw [h]
  dsimp only
  cases hhandle : handleException e with
  | none =>
    have hnot : e.handled = false := handleException_none_iff.mp hhandle
    simp [hnot]
  | some verdict =>
    obtain ⟨retryable, error⟩ := verdict
    have hhandled : e.handled = true := handled_of_handleException hhandle
    have hflag : retryable = e.transient := retryable_of_handleException hhandle
    simp only [Except.ok.injEq, exists_eq_left', hhandled, true_and]
    cases hcode : l.statusCode with
    | none =>
      have hdecides := attemptResult_statusDecides_of_none hcode retryable (some error)
      simp [hdecides]
    | some =>
      rw [attemptResult_statusDecides_iff hcode, hflag]
      simp

/-- **The exchanges that are classified by their status alone.** -/
theorem tryExchange_iff (A : AttemptPrimitives) (s : Settings) (x : Exchange) :
    (∃ r, tryExchange A s x = .ok r ∧ r.StatusDecides) ↔ x.Benign s := by
  cases x with
  | raised e =>
    rw [tryExchange_failed (exchanged_raised A s e)]
    show _ ↔ e.handled = true
    simp
  | responded r =>
    obtain ⟨hstatus, hfailure⟩ := exchanged_responded A s r
    cases hraised : r.failure s with
    | none =>
      rw [hraised] at hfailure
      have hx : exchanged A s (.responded r)
          = ((exchanged A s (.responded r)).1, none) := Prod.ext rfl hfailure
      -- nothing was raised: the status is all there is
      have hok : tryExchange A s (.responded r)
          = .ok (attemptResult (exchanged A s (.responded r)).1
              (isRetryableStatus r.statusCode) (statusError (some r.statusCode))) := by
        unfold tryExchange
        rw [hx]
        dsimp only
        rw [hstatus]
        rfl
      have hdecides := (attemptResult_statusDecides_iff hstatus
        (isRetryableStatus r.statusCode) (statusError (some r.statusCode))).mpr rfl
      simp [hok, hdecides, Exchange.Benign, hraised]
    | some =>
      rw [hraised] at hfailure
      rw [tryExchange_failed (Prod.ext rfl hfailure), hstatus]
      simp [Exchange.Benign, hraised]

/-! ## §5. The worker. -/

/-- How the heartbeat task ended: `First` while the attempt was running, which
is then canceled, the others with the attempt or after it; `lost` when a
renewal found the lease gone, `failed` when one raised. -/
inductive Heartbeat where
  | lostFirst
  | failedFirst
  | lost
  | failed
  | kept
  deriving Repr, DecidableEq

/-- What a worker's handling of one claim draws from its environment. -/
structure WorkerRun where
  started : Time
  /-- The time of the transaction of `_finalize`. -/
  finished : Time
  /-- The time of the transaction of `release_claim`. -/
  released : Time
  jitter : Jitter
  heartbeat : Heartbeat := .kept

/-- `_deliver_with_heartbeat` after the attempt; `none` when an exception
leaves it, and then its transaction has been rolled back. -/
def deliver (s : Settings) (run : WorkerRun) (c : ClaimedDelivery)
    (attempt : Except PyException AttemptResult) (db : Db) : Option Db :=
  match run.heartbeat, attempt with
  | .lostFirst, _ => some db
  | .failedFirst, _ => none
  | _, .error _ => none
  | .lost, .ok _ => some db
  | .failed, .ok _ => none
  | .kept, .ok result =>
    match finalize s run.finished c ⟨run.started, result, run.jitter⟩ db with
    | .error _ => none
    | .ok (db', _) => some db'

/-- `_run_claim`: any exception hands the row back. -/
def runClaim (s : Settings) (run : WorkerRun) (c : ClaimedDelivery)
    (attempt : Except PyException AttemptResult) (db : Db) : Db :=
  (deliver s run c attempt db).getD (releaseClaim run.released c db).1

variable {run : WorkerRun}

/-- **An attempt that escapes leaves no trace but a released row**: due at
once, with no record and no word to the circuit. -/
theorem runClaim_escaped (hfirst : run.heartbeat ≠ .lostFirst)
    (hrow : guardedRow db c.id c.owns = some d) :
    runClaim s run c (.error e) db
      = { db with deliveries := db.deliveries.put (releaseRow run.released d) } := by
  have hnone : deliver s run c (.error e) db = none := by
    unfold deliver
    cases hbeat : run.heartbeat <;> simp_all
  unfold runClaim
  rw [hnone]
  show (releaseClaim run.released c db).1 = _
  unfold releaseClaim
  rw [hrow]

/-- The moves of the platform that a worker's handling of a claim amounts
to: `_finalize`, then `release_claim` where an exception was raised. -/
def runClaimOps (s : Settings) (run : WorkerRun) (c : ClaimedDelivery)
    (attempt : Except PyException AttemptResult) (db : Db) : List Op :=
  (match run.heartbeat, attempt with
    | .kept, .ok result => [.tick run.finished, .finalize c ⟨run.started, result, run.jitter⟩]
    | _, _ => []) ++
  (match deliver s run c attempt db with
    | some _ => []
    | none => [.tick run.released, .release c])

theorem run_release (P : Primitives) (hc : c ∈ w.issued) (hnow : w.clock ≤ now) :
    Transition.run (World.step P s) w [.tick now, .release c]
      = some { w with clock := now, db := (releaseClaim now c w.db).1 } := by
  rw [run_cons]
  refine ⟨{ w with clock := now }, if_pos hnow, ?_⟩
  rw [run_cons]
  exact ⟨_, if_pos hc, rfl⟩

theorem run_finalize (P : Primitives)
    (f : Finalization) (hc : c ∈ w.issued) (hnow : w.clock ≤ now) :
    Transition.run (World.step P s) w [.tick now, .finalize c f]
      = some (World.commit { w with clock := now } ((finalize s now c f w.db).map Prod.fst)) := by
  rw [run_cons]
  refine ⟨{ w with clock := now }, if_pos hnow, ?_⟩
  rw [run_cons]
  exact ⟨_, if_pos hc, rfl⟩

/-- **The worker stays within the platform**: what it makes of a claim that
was handed to it is a run of the state machine. -/
theorem runClaim_run (P : Primitives) (hc : c ∈ w.issued) (hfinished : w.clock ≤ run.finished)
    (hreleased : run.finished ≤ run.released) :
    ∃ w', Transition.run (World.step P s) w (runClaimOps s run c attempt w.db) = some w'
      ∧ w'.db = runClaim s run c attempt w.db := by
  have hrelease : ∃ w', Transition.run (World.step P s) w [.tick run.released, .release c] = some w'
      ∧ w'.db = (releaseClaim run.released c w.db).1 :=
    ⟨_, run_release P hc (le_trans hfinished hreleased), rfl⟩
  unfold runClaimOps runClaim deliver
  cases hbeat : run.heartbeat with
  | lostFirst => exact ⟨w, rfl, rfl⟩
  | failedFirst => exact hrelease
  | lost =>
    cases attempt with
    | error => exact hrelease
    | ok => exact ⟨w, rfl, rfl⟩
  | failed =>
    cases attempt with
    | error => exact hrelease
    | ok => exact hrelease
  | kept =>
    cases attempt with
    | error => exact hrelease
    | ok result =>
      dsimp only
      have hrun := run_finalize P ⟨run.started, result, run.jitter⟩ (s := s) hc hfinished
      cases hfin : finalize s run.finished c ⟨run.started, result, run.jitter⟩ w.db with
      | error =>
        -- the finalization rolls back, and the release follows it
        rw [hfin] at hrun
        exact ⟨_, run_append.mpr ⟨_, hrun,
          run_release P (w := { w with clock := run.finished }) hc hreleased⟩, rfl⟩
      | ok =>
        rw [hfin] at hrun
        exact ⟨_, run_append.mpr ⟨_, hrun, rfl⟩, rfl⟩

/-! ## §6. Which attempts are settled. -/

/-- The attempt comes back with a result, which the worker finalizes while it
holds the lease, and a status that was received decides it alone; the database
takes the response text, whatever it is (`finalize`). -/
def AttemptSettled (A : AttemptPrimitives) (s : Settings) (now : Time) (c : ClaimedDelivery)
    (x : Exchange) : Prop :=
  ∃ r, performAttempt A s now c x = .ok r ∧ r.StatusDecides
    ∧ ∀ (run : WorkerRun) (db : Db) (d : Delivery) (e : EndpointQuotaState),
      run.heartbeat = .kept → guardedRow db c.id (c.holds run.finished) = some d →
      db.endpointStates.find? d.endpointId = some e →
      recorded db d.id c.attemptNumber = false →
      runClaim s run c (performAttempt A s now c x) db
        = finalizeWrite s run.finished c ⟨run.started, r, run.jitter⟩ d e db

theorem attemptSettled_of_result (h : performAttempt A s now c x = .ok r) (hr : r.StatusDecides) :
    AttemptSettled A s now c x := by
  refine ⟨r, h, hr, ?_⟩
  intro run db d e hkept hrow hstate hnew
  rw [h]
  unfold runClaim deliver
  rw [hkept]
  dsimp only
  rw [finalize_live hrow hstate hnew]
  rfl

/-- **SETTLED ATTEMPTS.**  An attempt comes back with a result that its
status alone decides, and is finalized, exactly when no request goes out or
the exchange is benign. -/
theorem attempt_settled_iff (A : AttemptPrimitives) (s : Settings) (now : Time)
    (c : ClaimedDelivery) (x : Exchange) :
    AttemptSettled A s now c x ↔ (Attempted s now c → x.Benign s) := by
  by_cases hage : s.webhookMaxDeliveryAgeSeconds ≤ now - c.createdAt
  -- too old: refused before any request
  · have hout : ¬ Attempted s now c := fun h => absurd h.1 (not_lt.mpr hage)
    have hresult : performAttempt A s now c x
        = .ok (attemptResult {} false (some "max_delivery_age")) := if_pos hage
    have hsettled := attemptSettled_of_result hresult
      (attemptResult_statusDecides_of_none rfl false (some "max_delivery_age"))
    exact ⟨fun _ h => absurd h hout, fun _ => hsettled⟩
  · by_cases hactive : c.endpointActive = true
    · have hattempted : Attempted s now c := ⟨not_le.mp hage, hactive⟩
      have hresult : performAttempt A s now c x = tryExchange A s x := by
        unfold performAttempt
        rw [if_neg hage, hactive]
        rfl
      constructor
      · rintro ⟨r, hr, hdecides, -⟩ -
        exact (tryExchange_iff A s x).mp ⟨r, hresult ▸ hr, hdecides⟩
      · intro hbenign
        obtain ⟨r, hr, hdecides⟩ := (tryExchange_iff A s x).mpr (hbenign hattempted)
        exact attemptSettled_of_result (hresult.trans hr) hdecides
    -- the endpoint was inactive at acceptance
    · have hout : ¬ Attempted s now c := fun h => hactive h.2
      have hresult : performAttempt A s now c x
          = .ok (attemptResult {} false (some "endpoint_inactive_at_acceptance")) := by
        unfold performAttempt
        rw [if_neg hage, if_pos (Bool.eq_false_iff.mpr hactive)]
      have hsettled := attemptSettled_of_result hresult
        (attemptResult_statusDecides_of_none rfl false (some "endpoint_inactive_at_acceptance"))
      exact ⟨fun _ h => absurd h hout, fun _ => hsettled⟩

/-- The receiver answers 200 and then breaks the HTTP framing. -/
def brokenFraming : Exchange :=
  .responded { statusCode := 200, streamError := some { cls := remoteProtocolError } }

/-- The receiver answers 404 and then stalls in its body. -/
def stalledNotFound : Exchange :=
  .responded { statusCode := 404, streamError := some { cls := readTimeout } }

/-- The small database after a worker has claimed its only delivery. -/
def heldDb : Db :=
  match claimDue Settings.defaults 0 1 ["token-1"] smallDb with
  | .ok r => r.1
  | .error _ => smallDb

def plainPrimitives : AttemptPrimitives where
  parsedate := fun _ => none
  decode := fun _ => ""

def promptRun : WorkerRun where
  started := 0
  finished := 1
  released := 1
  jitter := Jitter.zero

/-- **A DELIVERED EVENT IS HANDED BACK, A 404 IS RETRIED.**  After a 200 with
broken framing the attempt escapes: the worker releases the row, due at
once, with no attempt record.  After a 404 with a stalled body the attempt
asks for a retry, which that status does not. -/
theorem attempt_not_settled :
    (performAttempt plainPrimitives {} 1 (smallClaim "token-1" 1) brokenFraming).toOption = none
      ∧ ((runClaim {} promptRun (smallClaim "token-1" 1)
            (performAttempt plainPrimitives {} 1 (smallClaim "token-1" 1) brokenFraming)
            heldDb).deliveries.find? 1).map (fun d => (d.status, d.nextAttemptAt, d.attemptCount))
          = some (.retryScheduled, 1, 1)
      ∧ (runClaim {} promptRun (smallClaim "token-1" 1)
            (performAttempt plainPrimitives {} 1 (smallClaim "token-1" 1) brokenFraming)
            heldDb).attempts = []
      ∧ (performAttempt plainPrimitives {} 1 (smallClaim "token-1" 1)
            stalledNotFound).toOption.map (fun r => (r.statusCode, r.retryable))
          = some (some 404, true)
      ∧ isRetryableStatus 404 = false := by
  refine ⟨by decide +kernel, by decide +kernel, by decide +kernel, by decide +kernel, by decide⟩

end WebhookPlatform
