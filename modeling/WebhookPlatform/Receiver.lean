/-
  WebhookPlatform.Receiver
  **THE RECEIVER'S VERIFICATION** (`webhook_platform_sdk/receiver.py`): from raw
  bytes, a mapping of headers and a secret to an event, or an exception.

      verify_request ─┬─ a legacy token in the header ── verify_signature
                      └─ otherwise ─────────────── verify_signature_standard
                      then the body is parsed, and compared with the headers

  Each function has one lemma that says when it succeeds, and with what:
  `verifySignature_ok_iff`, `verifySignatureStandard_ok_iff` and
  `verifyRequest_ok_iff`.
-/
import WebhookPlatform.JsonLoads
import WebhookPlatform.Lib.Exceptions
import WebhookPlatform.Signing

namespace WebhookPlatform

open Exceptions List

/-! ## §1. What is raised. -/

inductive ReceiverError where
  /-- `InvalidSignature`. -/
  | invalidSignature
  /-- `SignatureExpired`. -/
  | signatureExpired
  /-- `ReceiverVerificationError` itself. -/
  | verification (message : String)
  /-- A `ValueError` of the functions themselves. -/
  | valueError (message : String)
  /-- The `ValueError` of `int` or `str` for a number. -/
  | number
  /-- `UnicodeEncodeError`. -/
  | unicodeEncode
  deriving Repr, DecidableEq

/-- The value, or the exception. -/
def orRaise {α : Type} (e : ReceiverError) : Option α → Except ReceiverError α
  | none => .error e
  | some a => .ok a

@[simp] theorem orRaise_some {α : Type} (e : ReceiverError) (a : α) :
    orRaise e (some a) = .ok a := rfl

theorem orRaise_eq_ok {α : Type} {e : ReceiverError} {o : Option α} {a : α} :
    orRaise e o = .ok a ↔ o = some a := by
  cases o with
  | none => simp [orRaise]
  | some => simp [orRaise]

/-! ## §2. Headers. -/

/-- One item of a legacy token; the state is the timestamp and the
signatures so far. -/
def signatureItem (U : Unicode) (found : Option Int × List PyStr) (item : PyStr) :
    Except ReceiverError (Option Int × List PyStr) :=
  let (name, separator, value) := partitionAt 61 (stripSpace item)
  if separator = false ∨ value = [] then .error .invalidSignature
  else if name = pyStr "t" then
    if found.1.isSome ∨ U.isdigit value = false then .error .invalidSignature
    else do
      let timestamp ← orRaise .number (U.int value)
      .ok (some timestamp, found.2)
  else if name = pyStr "v1" then
    if value.length = 64 then
      if fromHexOk value then .ok (found.1, found.2 ++ [U.lower value])
      else .error .invalidSignature
    else .ok found
  else .ok found

/-- One token of the header. -/
def signatureToken (U : Unicode) (found : Option Int × List PyStr) (token : PyStr) :
    Except ReceiverError (Option Int × List PyStr) :=
  if 61 ∉ (partitionAt 44 token).1 then .ok found
  else (token.splitOn 44).foldlM (signatureItem U) found

/-- `_signature_parts`. -/
def signatureParts (U : Unicode) (header : PyStr) : Except ReceiverError (Int × List PyStr) := do
  let found ← (splitSpace header).foldlM (signatureToken U) (none, [])
  match found with
  | (some timestamp, signature :: signatures) => .ok (timestamp, signature :: signatures)
  | _ => .error .invalidSignature

/-- `_standard_signatures`. -/
def standardSignatures (header : PyStr) : List PyStr :=
  (splitSpace header).filterMap fun token =>
    let (version, separator, value) := partitionAt 44 token
    if separator ∧ version = pyStr "v1" ∧ value ≠ [] ∧ isAscii value then some value else none

/-- `_header_has_legacy_token`. -/
def headerHasLegacyToken (header : PyStr) : Bool :=
  (splitSpace header).any fun token => decide (61 ∈ (partitionAt 44 token).1)

/-- `{name.lower(): value for …}.get(key)`: the last of the headers that
share a lower-case name. -/
def normalizedGet (U : Unicode) (headers : List (PyStr × PyStr)) (key : PyStr) : Option PyStr :=
  (headers.reverse.find? fun h => decide (U.lower h.1 = key)).map Prod.snd

/-! ## §3. The key. -/

/-- `base64.b64decode(text, validate=True)`; `none` is `ValueError` or
`binascii.Error`. -/
def b64decode (text : PyStr) : Option Bytes :=
  if isAscii text then Base64.decode text else none

/-- `text.replace("-", "+").replace("_", "/")`, at one character. -/
def fromUrlsafePoint (c : Nat) : Nat := if c = 45 then 43 else if c = 95 then 47 else c

/-- `encoded + "=" * (-len(encoded) % 4)`. -/
def padBase64 (encoded : PyStr) : PyStr :=
  encoded ++ List.replicate ((4 - encoded.length % 4) % 4) Base64.pad

/-- `_secret_key_bytes`. -/
def secretKeyBytes (secret : PyStr) : Option Bytes :=
  if ¬ secretMark <+: secret then none
  else
    let padded := padBase64 (secret.drop secretMark.length)
    (b64decode padded).or (b64decode (padded.map fromUrlsafePoint))

theorem b64decode_encode (bytes : Bytes) : b64decode (b64Text bytes) = some bytes := by
  rw [b64decode, if_pos (isAscii_b64Text bytes)]
  exact Base64.decode_encode bytes

/-- A character outside the alphabet is refused. -/
theorem b64decode_none (hc : c ∈ text) (hpad : c ≠ Base64.pad) (hbits : Base64.bits c = none) :
    b64decode text = none := by
  unfold b64decode
  split
  · exact Base64.decode_none hc hpad hbits
  · rfl

theorem secretKeyBytes_mark (encoded : PyStr) : secretKeyBytes (secretMark ++ encoded)
      = (b64decode (padBase64 encoded)).or
          (b64decode ((padBase64 encoded).map fromUrlsafePoint)) := by
  rw [secretKeyBytes, if_neg (not_not.2 (prefix_append _ _)), drop_left]

/-- **The standard form decodes to the digest.** -/
theorem secretKeyBytes_standard (digest : Bytes) :
    secretKeyBytes (standardSecret digest) = some digest := by
  have hpad : padBase64 (b64Text digest) = b64Text digest := by
    have hlen : (b64Text digest).length % 4 = 0 := Base64.length_encode_mod digest
    simp [padBase64, hlen]
  rw [standardSecret, secretKeyBytes_mark, hpad, b64decode_encode]
  rfl

theorem urlsafePoint_pad : urlsafePoint Base64.pad = Base64.pad := by decide

/-- The characters of the alphabet go to characters other than the padding,
and come back. -/
theorem urlsafePoint_char (h : n < 64) : urlsafePoint (Base64.char n) ≠ Base64.pad
      ∧ fromUrlsafePoint (urlsafePoint (Base64.char n)) = Base64.char n
      ∧ (urlsafePoint (Base64.char n) = 45 ∨ urlsafePoint (Base64.char n) = 95
        ∨ urlsafePoint (Base64.char n) = Base64.char n) := by
  have hall : ∀ n, n < 64 → urlsafePoint (Base64.char n) ≠ Base64.pad
      ∧ fromUrlsafePoint (urlsafePoint (Base64.char n)) = Base64.char n
      ∧ (urlsafePoint (Base64.char n) = 45 ∨ urlsafePoint (Base64.char n) = 95
        ∨ urlsafePoint (Base64.char n) = Base64.char n) := by decide
  exact hall n h

/-- The legacy form loses all of the padding. -/
theorem urlsafeB64Text_unpadded (digest : Bytes) : ∃ k, k ≤ 2 ∧ urlsafeB64Text digest
        = rstripPad (urlsafeB64Text digest) ++ List.replicate k Base64.pad
      ∧ Base64.pad ∉ rstripPad (urlsafeB64Text digest) := by
  obtain ⟨body, k, heq, hk, hbody, -⟩ := Base64.encode_unpadded digest
  have htext : urlsafeB64Text digest = body.map urlsafePoint ++ List.replicate k Base64.pad := by
    rw [urlsafeB64Text, heq, map_append, map_replicate, urlsafePoint_pad]
  have hpoint : ∀ c ∈ body.map urlsafePoint, c ≠ Base64.pad := by
    intro c hc
    obtain ⟨x, hx, rfl⟩ := mem_map.1 hc
    obtain ⟨n, hn, rfl⟩ := hbody x hx
    exact (urlsafePoint_char hn).1
  -- the last character of the body is no padding
  have hstrip : rstripPad (urlsafeB64Text digest) = body.map urlsafePoint := by
    have hrest : (body.map urlsafePoint).reverse.dropWhile (· == Base64.pad)
        = (body.map urlsafePoint).reverse := by
      cases hrev : (body.map urlsafePoint).reverse with
      | nil => rfl
      | cons c =>
        have hmem : c ∈ body.map urlsafePoint := mem_reverse.1 (by rw [hrev]; exact mem_cons_self)
        simp [hpoint c hmem]
    rw [rstripPad, htext, reverse_append, reverse_replicate,
      dropWhile_append_of_pos (by simp), hrest, reverse_reverse]
  rw [hstrip]
  exact ⟨k, hk, htext, fun hmem => hpoint _ hmem rfl⟩

/-- `padBase64` gives the padding back. -/
theorem padBase64_rstripPad (digest : Bytes) :
    padBase64 (rstripPad (urlsafeB64Text digest)) = urlsafeB64Text digest := by
  obtain ⟨k, hk, htext, -⟩ := urlsafeB64Text_unpadded digest
  have hlen : (urlsafeB64Text digest).length % 4 = 0 := by
    rw [urlsafeB64Text, length_map]
    exact Base64.length_encode_mod digest
  have hcount : (4 - (rstripPad (urlsafeB64Text digest)).length % 4) % 4 = k := by
    rw [htext, length_append, length_replicate] at hlen
    omega
  rw [padBase64, hcount]
  exact htext.symm

/-- The two forms of a digest of 32 bytes differ: the standard one is padded. -/
theorem standardSecret_ne_legacySecret (h : digest.length = 32) :
    standardSecret digest ≠ legacySecret digest := by
  intro heq
  have htext : b64Text digest = rstripPad (urlsafeB64Text digest) := append_cancel_left heq
  obtain ⟨-, -, -, hpad⟩ := urlsafeB64Text_unpadded digest
  rw [← htext] at hpad
  exact hpad (Base64.pad_mem_encode (by rw [h]; decide))

/-- **The legacy form decodes to the digest** as well: through the second
alphabet when it has a character of that alphabet, through the first
otherwise. -/
theorem secretKeyBytes_legacy (digest : Bytes) :
    secretKeyBytes (legacySecret digest) = some digest := by
  have hback : (urlsafeB64Text digest).map fromUrlsafePoint = b64Text digest := by
    rw [urlsafeB64Text, map_map, b64Text]
    conv_rhs => rw [← map_id (Base64.encode digest)]
    refine map_congr_left fun c hc => ?_
    rcases Base64.mem_encode hc with rfl | ⟨n, hn, rfl⟩
    · decide
    · exact (urlsafePoint_char hn).2.1
  rw [legacySecret, secretKeyBytes_mark, padBase64_rstripPad, hback, b64decode_encode]
  by_cases hurl : 45 ∈ urlsafeB64Text digest ∨ 95 ∈ urlsafeB64Text digest
  · have hnone : b64decode (urlsafeB64Text digest) = none := by
      rcases hurl with h | h
      · exact b64decode_none h (by decide) (by decide)
      · exact b64decode_none h (by decide) (by decide)
    rw [hnone]
    rfl
  · have hsame : urlsafeB64Text digest = b64Text digest := by
      rw [not_or] at hurl
      rw [urlsafeB64Text, b64Text]
      conv_rhs => rw [← map_id (Base64.encode digest)]
      refine map_congr_left fun c hc => ?_
      have hmem : urlsafePoint c ∈ urlsafeB64Text digest := mem_map_of_mem hc
      rcases Base64.mem_encode hc with rfl | ⟨n, hn, rfl⟩
      · exact urlsafePoint_pad
      · rcases (urlsafePoint_char hn).2.2 with h | h | h
        · exact absurd (h ▸ hmem) hurl.1
        · exact absurd (h ▸ hmem) hurl.2
        · exact h
    rw [hsame, b64decode_encode]
    rfl

/-! ## §4. The two schemes. -/

/-- The keyword arguments, and the clock. -/
structure VerifyOptions where
  toleranceSeconds : Int := 300
  now : Option Int := none
  /-- `int(time.time())`. -/
  clock : Int := 0

/-- `current_time`. -/
def VerifyOptions.currentTime (o : VerifyOptions) : Int := o.now.getD o.clock

/-- The timestamp is within the tolerance. -/
def VerifyOptions.Fresh (o : VerifyOptions) (timestamp : Int) : Prop :=
  |o.currentTime - timestamp| ≤ o.toleranceSeconds

instance (o : VerifyOptions) (timestamp : Int) : Decidable (o.Fresh timestamp) :=
  inferInstanceAs (Decidable (_ ≤ _))

variable {o : VerifyOptions}

theorem VerifyOptions.Fresh.tolerance {timestamp : Int}
    (h : o.Fresh timestamp) : ¬ o.toleranceSeconds < 0 :=
  not_lt.2 (le_trans (abs_nonneg _) h)

/-- `verify_signature`. -/
def verifySignature (U : Unicode) (H : Hmac) (rawBody : Bytes) (signatureHeader secret : PyStr)
    (o : VerifyOptions) : Except ReceiverError Int :=
  if o.toleranceSeconds < 0 then
    .error (.valueError "tolerance_seconds must be non-negative")
  else do
    let (timestamp, signatures) ← signatureParts U signatureHeader
    if ¬ o.Fresh timestamp then .error .signatureExpired
    else do
      let text ← orRaise .number (strInt timestamp)
      let head ← orRaise .unicodeEncode (encodeAscii text)
      let signed := head ++ [46] ++ rawBody
      let key ← orRaise .unicodeEncode (encodeUtf8 secret)
      let expected := hexText (H.digest key signed)
      if expected ∉ signatures then .error .invalidSignature else .ok timestamp

/-- `verify_signature_standard`. -/
def verifySignatureStandard (U : Unicode) (H : Hmac) (rawBody : Bytes) (eventId : PyStr)
    (timestampHeader : Option PyStr) (signatureHeader secret : PyStr) (o : VerifyOptions) :
    Except ReceiverError Int :=
  if o.toleranceSeconds < 0 then
    .error (.valueError "tolerance_seconds must be non-negative")
  else
    let digits := timestampHeader.getD []
    if U.isdigit digits = false then .error .invalidSignature
    else do
      let timestamp ← orRaise .number (U.int digits)
      if ¬ o.Fresh timestamp then .error .signatureExpired
      else
        let signatures := standardSignatures signatureHeader
        match secretKeyBytes secret with
        | none => .error .invalidSignature
        | some key =>
          if signatures = [] then .error .invalidSignature
          else do
            let text ← orRaise .number (strInt timestamp)
            let head ← orRaise .unicodeEncode (encodeAscii (eventId ++ [46] ++ text ++ [46]))
            let signed := head ++ rawBody
            let expected := b64Text (H.digest key signed)
            if expected ∉ signatures then .error .invalidSignature else .ok timestamp

/-- **`verify_signature` succeeds** when the tag of the body is among the
presented ones. -/
theorem verifySignature_ok_iff {signatureHeader : PyStr} {t : Int} :
    verifySignature U H rawBody signatureHeader secret o = .ok t ↔
      ∃ signatures text head key, signatureParts U signatureHeader = .ok (t, signatures)
        ∧ o.Fresh t ∧ strInt t = some text ∧ encodeAscii text = some head
        ∧ encodeUtf8 secret = some key
        ∧ hexText (H.digest key (head ++ [46] ++ rawBody)) ∈ signatures := by
  unfold verifySignature
  rw [guard_eq_ok, bind_eq_ok]
  constructor
  · rintro ⟨-, ⟨timestamp, signatures⟩, hparts, h⟩
    rw [guard_eq_ok, not_not] at h
    obtain ⟨hfresh, h⟩ := h
    simp only [bind_eq_ok, orRaise_eq_ok, guard_eq_ok, not_not, Except.ok.injEq] at h
    obtain ⟨text, htext, head, hhead, key, hkey, htag, rfl⟩ := h
    exact ⟨signatures, text, head, key, hparts, hfresh, htext, hhead, hkey, htag⟩
  · rintro ⟨signatures, text, head, key, hparts, hfresh, htext, hhead, hkey, htag⟩
    refine ⟨hfresh.tolerance, (t, signatures), hparts, ?_⟩
    rw [guard_eq_ok, not_not]
    refine ⟨hfresh, ?_⟩
    simp only [bind_eq_ok, orRaise_eq_ok, guard_eq_ok, not_not]
    exact ⟨text, htext, head, hhead, key, hkey, htag, trivial⟩

/-- **`verify_signature_standard` succeeds** when the tag of the identifier,
the timestamp and the body is among the presented ones. -/
theorem verifySignatureStandard_ok_iff
    {eventId : PyStr} {timestampHeader : Option PyStr} {signatureHeader : PyStr}
    {t : Int} :
    verifySignatureStandard U H rawBody eventId timestampHeader signatureHeader secret o = .ok t ↔
      U.isdigit (timestampHeader.getD []) = true
        ∧ U.int (timestampHeader.getD []) = some t ∧ o.Fresh t
        ∧ ∃ key text head, secretKeyBytes secret = some key ∧ strInt t = some text
        ∧ encodeAscii (eventId ++ [46] ++ text ++ [46]) = some head
        ∧ b64Text (H.digest key (head ++ rawBody)) ∈ standardSignatures signatureHeader := by
  unfold verifySignatureStandard
  simp only [guard_eq_ok, bind_eq_ok, orRaise_eq_ok, not_not, Bool.not_eq_false]
  constructor
  · rintro ⟨-, hdigit, timestamp, hint, hfresh, h⟩
    cases hkey : secretKeyBytes secret with
    | none =>
      rw [hkey] at h
      cases h
    | some key =>
      rw [hkey] at h
      simp only [guard_eq_ok, bind_eq_ok, orRaise_eq_ok, not_not, Except.ok.injEq] at h
      obtain ⟨-, text, htext, head, hhead, htag, rfl⟩ := h
      exact ⟨hdigit, hint, hfresh, key, text, head, rfl, htext, hhead, htag⟩
  · rintro ⟨hdigit, hint, hfresh, key, text, head, hkey, htext, hhead, htag⟩
    refine ⟨hfresh.tolerance, hdigit, t, hint, hfresh, ?_⟩
    rw [hkey]
    simp only [guard_eq_ok, bind_eq_ok, orRaise_eq_ok, not_not]
    exact ⟨ne_nil_of_mem htag, text, htext, head, hhead, htag, trivial⟩

/-! ## §5. `verify_request`. -/

/-- `ReceiverEvent`. -/
structure ReceiverEvent where
  eventId : PyStr
  eventType : PyStr
  timestamp : Int
  body : List (PyStr × Json)
  rawBody : Bytes

/-- A header that is there and not empty. -/
def present (header : Option PyStr) : Option PyStr :=
  header.bind fun value => if value = [] then none else some value

/-- `document.get(key) == text`. -/
def fieldIs (document : List (PyStr × Json)) (key text : PyStr) : Bool :=
  match dictGet document key with
  | some (.str value) => decide (value = text)
  | _ => false

/-- The signature, by the scheme the header shows. -/
def verifyScheme (U : Unicode) (H : Hmac) (rawBody : Bytes) (signature eventId : PyStr)
    (timestampHeader : Option PyStr) (secret : PyStr) (o : VerifyOptions) :
    Except ReceiverError Int :=
  if headerHasLegacyToken signature then do
    let timestamp ← verifySignature U H rawBody signature secret o
    let text ← orRaise .number (strInt timestamp)
    if timestampHeader ≠ some text then .error .invalidSignature else .ok timestamp
  else verifySignatureStandard U H rawBody eventId timestampHeader signature secret o

/-- The body, once its signature has been verified. -/
def parseBody (F : FloatOf) (rawBody : Bytes) (eventId eventType : PyStr) (timestamp : Int) :
    Except ReceiverError ReceiverEvent :=
  match loads F rawBody with
  | .error .tooManyDigits => .error .number
  -- `exhausted` never comes up: `loads_fuel`
  | .error _ => .error (.verification "Webhook body is not valid JSON")
  | .ok (.obj document) =>
    if fieldIs document (pyStr "id") eventId = false
        ∨ fieldIs document (pyStr "type") eventType = false then
      .error (.verification "Webhook headers do not match the signed body")
    else .ok ⟨eventId, eventType, timestamp, document, rawBody⟩
  | .ok _ => .error (.verification "Webhook body must be a JSON object")

/-- **`verify_request`**. -/
def verifyRequest (U : Unicode) (H : Hmac) (F : FloatOf) (rawBody : Bytes)
    (headers : List (PyStr × PyStr)) (secret : PyStr) (o : VerifyOptions) :
    Except ReceiverError ReceiverEvent :=
  match present (normalizedGet U headers (pyStr "webhook-signature")),
    present (normalizedGet U headers (pyStr "webhook-id")),
    present (normalizedGet U headers (pyStr "webhook-event")) with
  | some signature, some eventId, some eventType => do
      let timestampHeader := normalizedGet U headers (pyStr "webhook-timestamp")
      let timestamp ← verifyScheme U H rawBody signature eventId timestampHeader secret o
      parseBody F rawBody eventId eventType timestamp
  | _, _, _ => .error .invalidSignature

theorem present_eq_some : present header = some value ↔ header = some value ∧ value ≠ [] := by
  unfold present
  cases header with
  | none => simp
  | some text =>
    rw [Option.bind_some]
    by_cases hnil : text = []
    · rw [if_pos hnil]
      simp only [reduceCtorEq, Option.some.injEq, false_iff, not_and, not_not]
      exact fun h => h ▸ hnil
    · rw [if_neg hnil]
      constructor
      · exact fun h => ⟨h, Option.some.inj h ▸ hnil⟩
      · exact fun h => h.1

theorem fieldIs_iff :
    fieldIs document key text = true ↔ dictGet document key = some (.str text) := by
  unfold fieldIs
  split
  next value hget => simp [hget]
  next hother =>
    constructor
    · exact fun h => absurd h (by simp)
    · exact fun h => absurd h (hother text)

theorem parseBody_ok_iff {eventId eventType : PyStr} {timestamp : Int} :
    parseBody F rawBody eventId eventType timestamp = .ok event ↔
      loads F rawBody = .ok (.obj event.body)
        ∧ dictGet event.body (pyStr "id") = some (.str eventId)
        ∧ dictGet event.body (pyStr "type") = some (.str eventType)
        ∧ event = ⟨eventId, eventType, timestamp, event.body, rawBody⟩ := by
  unfold parseBody
  split
  next h => simp [h]
  next h => simp [h]
  next document h =>
    rw [guard_eq_ok, not_or, Bool.not_eq_false, Bool.not_eq_false, fieldIs_iff, fieldIs_iff, h]
    constructor
    · rintro ⟨⟨hid, htype⟩, hevent⟩
      cases hevent
      exact ⟨rfl, hid, htype, rfl⟩
    · rintro ⟨hbody, hid, htype, hevent⟩
      injection hbody with hbody
      injection hbody with hbody
      rw [← hbody] at hid htype hevent
      exact ⟨⟨hid, htype⟩, by rw [hevent]⟩
  next hother h =>
    constructor
    · exact fun h => absurd h (by simp)
    · rintro ⟨hbody, -⟩
      rw [h] at hbody
      injection hbody with hbody
      exact absurd hbody (hother event.body)

/-- **`verify_request` returns an event** when the three headers are there,
the scheme of the header verifies, and the body is an object that names the
same identifier and type. -/
theorem verifyRequest_ok_iff : verifyRequest U H F rawBody headers secret o = .ok event ↔
      ∃ signature, normalizedGet U headers (pyStr "webhook-signature") = some signature
        ∧ signature ≠ []
        ∧ normalizedGet U headers (pyStr "webhook-id") = some event.eventId
        ∧ event.eventId ≠ []
        ∧ normalizedGet U headers (pyStr "webhook-event") = some event.eventType
        ∧ event.eventType ≠ []
        ∧ verifyScheme U H rawBody signature event.eventId
            (normalizedGet U headers (pyStr "webhook-timestamp")) secret o = .ok event.timestamp
        ∧ loads F rawBody = .ok (.obj event.body)
        ∧ dictGet event.body (pyStr "id") = some (.str event.eventId)
        ∧ dictGet event.body (pyStr "type") = some (.str event.eventType)
        ∧ event.rawBody = rawBody := by
  constructor
  · intro h
    unfold verifyRequest at h
    split at h
    next signature eventId eventType hsignature hid htype =>
      rw [present_eq_some] at hsignature hid htype
      rw [bind_eq_ok] at h
      obtain ⟨timestamp, hscheme, h⟩ := h
      obtain ⟨hloads, hgetId, hgetType, hevent⟩ := parseBody_ok_iff.1 h
      rw [hevent]
      exact ⟨signature, hsignature.1, hsignature.2, hid.1, hid.2, htype.1, htype.2, hscheme,
        hloads, hgetId, hgetType, rfl⟩
    · cases h
  · rintro ⟨signature, hsignature, hne, hid, hidne, htype, htypene, hscheme, hloads, hgetId,
      hgetType, hraw⟩
    have hpresent : ∀ {x : Option PyStr} {v : PyStr}, x = some v → v ≠ [] → present x = some v :=
      fun hx hv => present_eq_some.2 ⟨hx, hv⟩
    rw [verifyRequest, hpresent hsignature hne, hpresent hid hidne, hpresent htype htypene]
    dsimp only
    rw [bind_eq_ok]
    exact ⟨event.timestamp, hscheme, parseBody_ok_iff.2 ⟨hloads, hgetId, hgetType, by rw [← hraw]⟩⟩

end WebhookPlatform
