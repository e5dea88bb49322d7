/-
  WebhookPlatform.Deliverable
  **WHAT IS ACCEPTED, WHAT CAN BE SENT, AND WHAT THE RECEIVER MAKES OF IT.**

  Three places put conditions on one event type:

      EventCreate         1 to 150 characters
      _perform_attempt    the value of the header `Webhook-Event`, and the
                          client encodes header values as ASCII
      verify_request      not empty, and equal to the field of the body

  `accepted_deliverable_iff`: over every run, the request of a delivery's
  first attempt can be built exactly when the type is ASCII; and then a
  receiver with the endpoint's secret accepts it, in both envelope modes and
  both schemes.  A type with an accent is accepted, raises
  `UnicodeEncodeError` at its first attempt, and is never retried.
-/
import WebhookPlatform.Attempt
import WebhookPlatform.ReceiverSchemes
import WebhookPlatform.SecretRetirement
import WebhookPlatform.Snapshots

namespace WebhookPlatform

open Relational Transition Exceptions Option

/-! ## §1. The request of an attempt. -/

namespace Classes

def unicodeError : ExceptionClass := .derived "UnicodeError" valueError
def unicodeEncodeError : ExceptionClass := .derived "UnicodeEncodeError" unicodeError

end Classes

/-- The arguments of `client.stream("POST", …)`. -/
structure HttpRequest where
  url : String
  headers : List (PyStr × PyStr)
  content : Bytes

/-- The signature of an attempt; `clock` is `int(time.time())`. -/
def ClaimedDelivery.sign (H : Hmac) (signingKey : PyStr) (clock : Int) (c : ClaimedDelivery) :
    Option (Int × PyStr) :=
  match c.signatureScheme with
  | .standard => do
      let key ← endpointSecretDigest H signingKey (pyStr c.endpointPublicId)
        c.endpointSecretVersion
      signPayloadStandard H (pyStr c.eventPublicId) c.canonicalEnvelope key none clock
  | .legacy => do
      let secret ← endpointSecret H signingKey (pyStr c.endpointPublicId) c.endpointSecretVersion
      signPayload H c.canonicalEnvelope secret none clock

/-- The headers of an attempt. -/
def ClaimedDelivery.headers (c : ClaimedDelivery) (timestamp signature attempt : PyStr) :
    List (PyStr × PyStr) :=
  [ (pyStr "Content-Type",
      match c.envelopeMode with
      | .cloudevents => pyStr "application/cloudevents+json"
      | .native => pyStr "application/json"),
    (pyStr "User-Agent", pyStr "webhook-platform/1.0"),
    (pyStr "Webhook-Id", pyStr c.eventPublicId),
    (pyStr "Webhook-Timestamp", timestamp),
    (pyStr "Webhook-Signature", signature),
    (pyStr "Webhook-Event", pyStr c.eventType),
    (pyStr "Webhook-Attempt", attempt) ]

/-- The part of `_perform_attempt` between the check of the URL and the
network: sign, and hand the headers to the client, which encodes each value
as ASCII. -/
def buildRequest (H : Hmac) (signingKey : PyStr) (clock : Int) (c : ClaimedDelivery) :
    Except PyException HttpRequest :=
  match c.sign H signingKey clock with
  | none => .error { cls := Classes.valueError }
  | some (timestamp, signature) =>
    match strInt timestamp, strInt c.attemptNumber with
    | some timestamp, some attempt =>
      let headers := c.headers timestamp signature attempt
      if headers.all fun h => isAscii h.2 then
        .ok ⟨c.endpointUrl, headers, c.canonicalEnvelope⟩
      else .error { cls := Classes.unicodeEncodeError }
    | _, _ => .error { cls := Classes.valueError }

/-- `_endpoint_plaintext_secret`. -/
def endpointPlaintextSecret (H : Hmac) (signingKey : PyStr) (w : WebhookEndpoint) :
    Option PyStr :=
  match w.signatureScheme with
  | .standard => endpointSecretStandard H signingKey (pyStr w.publicId) w.secretVersion
  | .legacy => endpointSecret H signingKey (pyStr w.publicId) w.secretVersion

/-- `EventCreate.type`. -/
def AcceptedType (eventType : String) : Prop := 1 ≤ eventType.length ∧ eventType.length ≤ 150

instance (eventType : String) : Decidable (AcceptedType eventType) :=
  inferInstanceAs (Decidable (_ ∧ _))

theorem pyStr_ne_nil (h : 1 ≤ text.length) : pyStr text ≠ [] := by
  intro hnil
  have hlen : text.toList.length = 0 := by
    have := congrArg List.length hnil
    rwa [pyStr, List.length_map] at this
  rw [String.length_toList] at hlen
  omega

theorem ClaimedDelivery.carries_headers (U : Unicode) (c : ClaimedDelivery)
    (timestamp signature attempt : PyStr) :
    Carries U (c.headers timestamp signature attempt) signature (pyStr c.eventPublicId)
      (pyStr c.eventType) timestamp := by
  have hnames : ∀ x ∈ c.headers timestamp signature attempt, isAscii x.1 = true := by
    have hall : ∀ name ∈ [pyStr "Content-Type", pyStr "User-Agent", pyStr "Webhook-Id",
        pyStr "Webhook-Timestamp", pyStr "Webhook-Signature", pyStr "Webhook-Event",
        pyStr "Webhook-Attempt"], isAscii name = true := by decide
    intro x hx
    exact hall x.1 (List.mem_map_of_mem (f := Prod.fst) hx)
  constructor <;> (rw [normalizedGet_ascii U hnames]; rfl)

variable {c : ClaimedDelivery}

/-- The headers are ASCII when the texts that vary are. -/
theorem ClaimedDelivery.headers_ascii_iff (hid : isAscii (pyStr c.eventPublicId) = true)
    (htimestamp : isAscii timestamp = true) (hsignature : isAscii signature = true)
    (hattempt : isAscii attempt = true) :
    ((c.headers timestamp signature attempt).all fun h => isAscii h.2) = true
      ↔ isAscii (pyStr c.eventType) = true := by
  have hfixed : isAscii (pyStr "application/cloudevents+json") = true
      ∧ isAscii (pyStr "application/json") = true
      ∧ isAscii (pyStr "webhook-platform/1.0") = true := by decide
  unfold ClaimedDelivery.headers
  cases c.envelopeMode <;>
    simp [hfixed, hid, htimestamp, hsignature, hattempt]

/-! ## §2. The signature of a claim. -/

/-- The secret of an endpoint is one of the two forms of its digest. -/
theorem endpointPlaintextSecret_digest
    (h : endpointPlaintextSecret H signingKey w = some secret) :
    ∃ digest, endpointSecretDigest H signingKey (pyStr w.publicId) w.secretVersion = some digest
      ∧ secretKeyBytes secret = some digest := by
  unfold endpointPlaintextSecret at h
  cases hscheme : w.signatureScheme with
  | standard =>
    rw [hscheme] at h
    dsimp only at h
    rw [endpointSecretStandard, bind_eq_bind, bind_eq_some_iff] at h
    obtain ⟨digest, hdigest, hform⟩ := h
    rw [← Option.some.inj hform]
    exact ⟨digest, hdigest, secretKeyBytes_standard digest⟩
  | legacy =>
    rw [hscheme] at h
    dsimp only at h
    rw [endpointSecret_eq] at h
    obtain ⟨digest, hdigest, rfl⟩ := map_eq_some_iff.1 h
    exact ⟨digest, hdigest, secretKeyBytes_legacy digest⟩

/-- **The signature of a claim** is there, it is ASCII, and the receiver's
verification of the scheme accepts it with the endpoint's secret.  A standard
signature is of the digest, and both forms of the secret decode to it. -/
theorem ClaimedDelivery.sign_verified (U : Unicode) {clock : Int}
    (hpublicId : c.endpointPublicId = w.publicId)
    (hversion : c.endpointSecretVersion = w.secretVersion)
    (hscheme : c.signatureScheme = .legacy → w.signatureScheme = .legacy)
    (hsecret : endpointPlaintextSecret H signingKey w = some secret)
    (hid : isAscii (pyStr c.eventPublicId) = true) (hclock : 0 ≤ clock)
    (hsmall : clock.toNat < 10 ^ maxStrDigits) (hfresh : o.Fresh clock) :
    ∃ signature, c.sign H signingKey clock = some (clock, signature) ∧ signature ≠ []
      ∧ isAscii signature = true
      ∧ verifyScheme U H c.canonicalEnvelope signature (pyStr c.eventPublicId)
          (some (decimal clock.toNat)) secret o = .ok clock := by
  have hstr := strInt_of_nonneg hclock hsmall
  rw [ClaimedDelivery.sign, hpublicId, hversion]
  cases hc : c.signatureScheme with
  | standard =>
    dsimp only
    obtain ⟨digest, hdigest, hkey⟩ := endpointPlaintextSecret_digest hsecret
    obtain ⟨hnone, header, hsign, hascii⟩ :=
      signPayloadStandard_clock H c.canonicalEnvelope digest hid hclock hsmall
    obtain ⟨htoken, hne, hverify⟩ := verifySignatureStandard_signed U hclock hsign hfresh hkey
    refine ⟨header, ?_, hne, hascii, ?_⟩
    · rw [hdigest, bind_eq_bind, bind_some, hnone, hsign]
    · rw [verifyScheme, htoken, if_neg Bool.false_ne_true, ← hstr, hverify]
  | legacy =>
    rw [endpointPlaintextSecret, hscheme hc] at hsecret
    dsimp only at hsecret ⊢
    have hsecretAscii : isAscii secret = true := by
      rw [endpointSecret_eq] at hsecret
      obtain ⟨digest, -, rfl⟩ := map_eq_some_iff.1 hsecret
      exact isAscii_legacySecret digest
    obtain ⟨hnone, header, hsign, hascii⟩ :=
      signPayload_clock H c.canonicalEnvelope hsecretAscii hclock hsmall
    obtain ⟨hne, hverify⟩ := @verifyScheme_legacy U H c.canonicalEnvelope
      (pyStr c.eventPublicId) secret secret header (decimal clock.toNat) clock clock o
      hsecretAscii hsecretAscii hclock hsign hstr hfresh
    refine ⟨header, ?_, hne, hascii, ?_⟩
    · rw [hsecret, bind_eq_bind, bind_some, hnone, hsign]
    · rw [hverify, if_pos rfl]

/-- The request of a first attempt: what decides is the event's type. -/
theorem buildRequest_first {clock : Int}
    (hsign : c.sign H signingKey clock = some (clock, signature))
    (hid : isAscii (pyStr c.eventPublicId) = true) (hascii : isAscii signature = true)
    (hclock : 0 ≤ clock) (hsmall : clock.toNat < 10 ^ maxStrDigits) (hfirst : c.attemptNumber = 1) :
    buildRequest H signingKey clock c = if isAscii (pyStr c.eventType) = true then
          .ok ⟨c.endpointUrl, c.headers (decimal clock.toNat) signature [49], c.canonicalEnvelope⟩
        else .error { cls := Classes.unicodeEncodeError } := by
  have hattempt : strInt (c.attemptNumber : Int) = some [49] := by
    rw [hfirst]
    decide +kernel
  have hheaders := c.headers_ascii_iff hid (isAscii_decimal clock.toNat) hascii
    (by decide : isAscii [49] = true)
  rw [buildRequest, hsign]
  dsimp only
  rw [strInt_of_nonneg hclock hsmall, hattempt]
  dsimp only
  simp only [hheaders]

/-! ## §3. The envelope of an accepted event. -/

/-- In both modes the envelope is an object with distinct keys that names the
event's identifier and type. -/
theorem envelope_fields (P : Primitives) (project : Project) (call : IngestCall)
    (mode : EnvelopeMode) (now : Time) :
    ∃ fields, envelope P project call mode now = .obj fields ∧ (fields.map Prod.fst).Nodup
      ∧ (pyStr "id", .str (pyStr call.eventPublicId)) ∈ fields
      ∧ (pyStr "type", .str (pyStr call.eventType)) ∈ fields := by
  cases mode with
  | native =>
    have hnodup : [pyStr "id", pyStr "type", pyStr "created_at", pyStr "data"].Nodup := by decide
    exact ⟨_, rfl, hnodup, by simp, by simp⟩
  | cloudevents =>
    have hnodup : [pyStr "data", pyStr "datacontenttype", pyStr "id", pyStr "source",
      pyStr "specversion", pyStr "time", pyStr "type"].Nodup := by decide
    exact ⟨_, rfl, hnodup, by simp, by simp⟩

/-- **The event a request created** holds the canonical text of its
envelope. -/
theorem accepted_envelope {d u : Deployment} {now : Time}
    (haccept : d.stepAt P s (now, .op (.ingest projectId call)) = some u)
    (hevent : event ∈ u.db.events.rows) (hnew : event.id = d.db.events.next) :
    event.publicId = call.eventPublicId ∧ event.eventType = call.eventType
      ∧ ∃ project mode bytes, event.canonicalEnvelope = some bytes
        ∧ canonicalJson (envelope P project call mode now) = some bytes := by
  -- an event that was there before has a smaller id
  have hold : event ∉ d.db.events.rows := by
    intro hmem
    have := d.db.events.lt_next event hmem
    omega
  replace haccept : (if ({ d with clock := now } : Deployment).permits (.ingest projectId call) then
      (World.step P s { d.toWorld with clock := now } (.ingest projectId call)).map
        fun w => { d with toWorld := w }
    else none) = some u := haccept
  split at haccept
  · obtain ⟨world, hworld, rfl⟩ := map_eq_some_iff.1 haccept
    obtain ⟨project, -, rfl⟩ := map_eq_some_iff.1 hworld
    replace hevent : event ∈ (World.commit { d.toWorld with clock := now }
      ((ingestEvent P s now project call d.db).map Prod.fst)).db.events.rows := hevent
    cases hingest : ingestEvent P s now project call d.db with
    | error =>
      rw [hingest] at hevent
      exact absurd hevent hold
    | ok r =>
      rw [hingest] at hevent
      replace hevent : event ∈ r.1.events.rows := hevent
      have hok : ingestEvent P s now project call d.db = .ok (r.1, r.2) := hingest
      obtain ⟨content, -, hcase⟩ := ingestEvent_ok hok
      rcases hcase with ⟨hsame, -⟩ | ⟨bytes, tenant, -, hbytes, -, hdb, -⟩
      · rw [hsame] at hevent
        exact absurd hevent hold
      · rw [hdb] at hevent
        replace hevent : event ∈ (d.db.events.append
          (newEvent P project call content bytes now)).rows := hevent
        rw [Serial.rows_append rfl] at hevent
        rcases List.mem_append.1 hevent with hmem | hmem
        · exact absurd hmem hold
        · rw [List.mem_singleton.1 hmem]
          exact ⟨rfl, rfl, project, content.mode, bytes, rfl, hbytes⟩
  · cases haccept

/-! ## §4. From the request of a producer to the receiver's event. -/

/-- An endpoint keeps its public id. -/
theorem endpoint_publicId_run (hd : d.Secrets) (hw : w ∈ d.db.endpoints.rows)
    (hrun : run (Deployment.stepAt P s) d xs = some v) (hw' : w' ∈ v.db.endpoints.rows)
    (hid : w'.id = w.id) : w'.publicId = w.publicId := by
  have hkept : w.id < v.endpointIds
      ∧ ∀ x ∈ v.db.endpoints.rows, x.id = w.id → x.publicId = w.publicId := by
    -- ids are drawn upwards, so no later endpoint is taken for this one
    refine run_inv (I := fun v : Deployment => w.id < v.endpointIds
      ∧ ∀ x ∈ v.db.endpoints.rows, x.id = w.id → x.publicId = w.publicId) ?_ ?_ hrun
    · intro u a u' hu hstep
      have heffect := Deployment.stepAt_effect hstep
      refine ⟨hu.1.trans_le heffect.later.2, fun x hx hxid => ?_⟩
      rcases heffect.endpoint hx with ⟨y, hy, hsame, hpublic, -⟩ | hnew
      · exact hpublic.trans (hu.2 y hy (hsame.symm.trans hxid))
      · exact absurd (hxid.symm.trans hnew) hu.1.ne
    · refine ⟨hd.endpointIds w hw, fun x hx hxid => ?_⟩
      rw [d.db.endpoints.eq_of_key_eq hx hw hxid]
  exact hkept.2 w' hw' hid

/-- The row `w'` of the endpoint hands out a secret for what is signed for its
row `w`: it has not been rotated, and has not gone from legacy to standard. -/
structure SameSecret (w w' : WebhookEndpoint) : Prop where
  secretVersion : w'.secretVersion = w.secretVersion
  signatureScheme : w.signatureScheme = .legacy → w'.signatureScheme = .legacy

/-- **WHAT IS ACCEPTED IS DELIVERED EXACTLY WHEN ITS TYPE IS ASCII.**  An event
is accepted somewhere in a run, and in any continuation a worker claims its
delivery to an endpoint for the first time.  The request of that attempt can
be built if and only if the event's type is ASCII; and a receiver that gets
its headers and body, and holds the endpoint's secret as of any state `v` after
the acceptance (such as that of the attempt), accepts them. -/
theorem accepted_deliverable_iff (U : Unicode) (H : Hmac) (F : FloatOf) (P : Primitives)
    (s : Settings) (d₀ d u v : Deployment) (xs ys : List (Time × Action)) (now : Time)
    (projectId : Nat) (call : IngestCall) (event : Event) (w w' : WebhookEndpoint)
    (c : ClaimedDelivery) (signingKey secret : PyStr) (clock : Int) (o : VerifyOptions)
    (hfresh : d₀.Fresh) (hrun : run (Deployment.stepAt P s) d₀ xs = some d)
    (htype : AcceptedType call.eventType)
    (hid : isAscii (pyStr call.eventPublicId) = true) (hidne : 1 ≤ call.eventPublicId.length)
    (haccept : d.stepAt P s (now, .op (.ingest projectId call)) = some u)
    (hevent : event ∈ u.db.events.rows) (hnew : event.id = d.db.events.next)
    (hw : w ∈ d.db.endpoints.rows) (hc : Produced P s u event.id w.id c)
    (hfirst : c.attemptNumber = 1) (hlater : run (Deployment.stepAt P s) u ys = some v)
    (hw' : w' ∈ v.db.endpoints.rows) (hwid : w'.id = w.id) (hsame : SameSecret w w')
    (hsecret : endpointPlaintextSecret H signingKey w' = some secret)
    (hclock : 0 ≤ clock) (hsmall : clock.toNat < 10 ^ maxStrDigits) (hnow : o.Fresh clock) :
    ((∃ request, buildRequest H signingKey clock c = .ok request)
        ↔ isAscii (pyStr call.eventType) = true)
      ∧ ∀ request, buildRequest H signingKey clock c = .ok request →
        ∃ document, verifyRequest U H F request.content request.headers secret o
          = .ok ⟨pyStr call.eventPublicId, pyStr call.eventType, clock, document,
              request.content⟩ := by
  -- the claim carries what the endpoint and the event said at the acceptance
  have hbelongs : Belongs d.db := belongs_run hfresh hrun
  have hlinked : d.Linked := linked_run hfresh hrun
  have hsecrets : d.Secrets := run_inv (I := Deployment.Secrets)
    (fun _ _ _ hd hstep => (Deployment.stepAt_effect hstep).secrets hd) hfresh.secrets hrun
  have hpublicId : w'.publicId = w.publicId :=
    endpoint_publicId_run hsecrets hw (run_cons.mpr ⟨u, haccept, hlater⟩) hw' hwid
  have hfixed := fixed_of_ingest (Deployment.stepAt_effect haccept) hbelongs hlinked hevent hnew
  have hsaid : c.Says w event :=
    says_of_fixed hfixed (fun x hx hxid => d.db.endpoints.eq_of_key_eq hx hw hxid) hc
  obtain ⟨hpublic, htypeEq, project, mode, bytes, henvelope, hbytes⟩ :=
    accepted_envelope haccept hevent hnew
  have hcid : c.eventPublicId = call.eventPublicId := hsaid.eventPublicId.trans hpublic
  have hctype : c.eventType = call.eventType := hsaid.eventType.trans htypeEq
  have hcontent : bytes = c.canonicalEnvelope :=
    Option.some.inj (henvelope.symm.trans hsaid.canonicalEnvelope)
  have hcidAscii : isAscii (pyStr c.eventPublicId) = true := by rw [hcid]; exact hid
  obtain ⟨signature, hsign, hne, hascii, hverify⟩ := ClaimedDelivery.sign_verified U
    (hsaid.endpointPublicId.trans hpublicId.symm)
    (hsaid.secretVersion.trans hsame.secretVersion.symm)
    (fun hlegacy => hsame.signatureScheme (hsaid.signatureScheme.symm.trans hlegacy)) hsecret
    hcidAscii hclock hsmall hnow
  have hbuild := buildRequest_first hsign hcidAscii hascii hclock hsmall hfirst
  rw [hctype] at hbuild
  rw [hbuild]
  refine ⟨?_, fun request hrequest => ?_⟩
  · by_cases hok : isAscii (pyStr call.eventType) = true
    · simp [hok]
    · simp [hok]
  · split at hrequest
    · injection hrequest with hrequest
      rw [← hrequest]
      obtain ⟨fields, hfields, hnodup, hidMem, htypeMem⟩ :=
        envelope_fields P project call mode now
      rw [hfields, hcontent] at hbytes
      have hnames := names_canonicalJson F hbytes hnodup hidMem htypeMem
      have hcarries := c.carries_headers U (decimal clock.toNat) signature [49]
      rw [hcid] at hverify hcarries
      rw [hctype] at hcarries
      refine ⟨readBack F fields, ?_⟩
      rw [verifyRequest_of_carries hcarries hnames hne (pyStr_ne_nil hidne)
        (pyStr_ne_nil htype.1), hverify]
      rfl
    · cases hrequest

/-- The secret of the small deployment's endpoint. -/
def firstSecret : PyStr :=
  (endpointSecret hmacSha256 (pyStr "signing-key") (pyStr "endpoint-1") 1).getD []

/-- The first event of the small deployment reaches its receiver. -/
theorem accepted_deliverable_first :
    ∃ request document, buildRequest hmacSha256 (pyStr "signing-key") 1700000000
        (firstClaim "token-2" 1) = .ok request
      ∧ verifyRequest asciiTables hmacSha256 noFloats request.content request.headers firstSecret
          { now := some 1700000300 }
        = .ok ⟨pyStr "event-1", pyStr "order.created", 1700000000, document, request.content⟩ := by
  obtain ⟨d, u, hd, hu, ⟨event, hevent, hid⟩, hnext,
      ⟨w, hw, w', hw', hwid, hwid', hversion, hscheme, hsecret⟩, hplain⟩ :
      ∃ d u, freshRun Settings.defaults [(0, registerEndpoint)] = some d
        ∧ d.stepAt smallPrimitives Settings.defaults (0, .op (.ingest 1 firstEvent)) = some u
        ∧ (∃ e ∈ u.db.events.rows, e.id = 1) ∧ d.db.events.next = 1
        ∧ (∃ w ∈ d.db.endpoints.rows, ∃ w' ∈ u.db.endpoints.rows, w.id = 1 ∧ w'.id = 1
          ∧ w'.secretVersion = w.secretVersion ∧ w'.signatureScheme = .legacy
          ∧ endpointPlaintextSecret hmacSha256 (pyStr "signing-key") w' = some firstSecret)
        ∧ HandsOut u [] "token-2" := by
    decide +kernel
  have hproduced : Produced smallPrimitives Settings.defaults u event.id w.id
      (firstClaim "token-2" 1) := by
    rw [hid, hwid]
    exact hplain.produced
  obtain ⟨hbuild, hverify⟩ := accepted_deliverable_iff asciiTables hmacSha256 noFloats
    smallPrimitives Settings.defaults freshDeployment d u u _ [] 0 1 firstEvent event w w'
    (firstClaim "token-2" 1) (pyStr "signing-key") firstSecret 1700000000
    { now := some 1700000300 } freshDeployment_fresh hd (by decide) (by decide) (by decide) hu
    hevent (hid.trans hnext.symm) hw hproduced rfl rfl hw' (hwid'.trans hwid.symm)
    ⟨hversion, fun _ => hscheme⟩ hsecret (by decide) (by decide +kernel) (by decide)
  obtain ⟨request, hrequest⟩ := hbuild.2 (by decide)
  obtain ⟨document, hdocument⟩ := hverify request hrequest
  exact ⟨request, document, hrequest, hdocument⟩

/-- An attempt whose headers do not encode ends without a retry. -/
theorem performAttempt_unencodable (A : AttemptPrimitives) {now : Time} (h : Attempted s now c) :
    performAttempt A s now c (.raised { cls := Classes.unicodeEncodeError })
      = .ok (attemptResult {} false (some "UnicodeEncodeError")) := by
  have hactive : ¬ c.endpointActive = false := by simp [h.2]
  rw [performAttempt, if_neg (not_le.2 h.1), if_neg hactive]
  rfl

/-- An event whose type has an accent. -/
def accentedEvent : IngestCall := { firstEvent with eventType := "commande.payée" }

/-- The claim of its delivery. -/
def accentedClaim : ClaimedDelivery :=
  { smallClaim "token-1" 1 with
    eventType := "commande.payée"
    canonicalEnvelope := (canonicalJson
      (envelope smallPrimitives smallProject accentedEvent .native 0)).getD [] }

/-- **A type with an accent is accepted and never delivered**: the event is
stored and its delivery claimed, the first attempt raises `UnicodeEncodeError`
before anything is sent, and the attempt asks for no retry. -/
theorem accented_type_undeliverable :
    AcceptedType accentedEvent.eventType
      ∧ (freshRun Settings.defaults [(0, registerEndpoint)]).any (fun d =>
          (d.stepAt smallPrimitives Settings.defaults (0, .op (.ingest 1 accentedEvent))).any
            fun u => decide (u.db.events.rows.map Event.eventType = [accentedEvent.eventType])
              && (u.stepAt smallPrimitives Settings.defaults (1, .op (.claim 1 ["token-1"]))).any
                fun v => decide (v.issued = [accentedClaim])) = true
      ∧ buildRequest hmacSha256 (pyStr "signing-key") 1700000000 accentedClaim
        = .error { cls := Classes.unicodeEncodeError }
      ∧ ∀ A, ∃ r, performAttempt A Settings.defaults 1 accentedClaim
          (.raised { cls := Classes.unicodeEncodeError }) = .ok r
        ∧ r.succeeded = false ∧ r.retryable = false := by
  have hsign : ∃ signature, accentedClaim.sign hmacSha256 (pyStr "signing-key") 1700000000
      = some (1700000000, signature) ∧ isAscii signature = true := by
    have hsome : (accentedClaim.sign hmacSha256 (pyStr "signing-key") 1700000000).any
        (fun r => decide (r.1 = 1700000000) && isAscii r.2) = true := by decide +kernel
    obtain ⟨r, hr, hfacts⟩ := (any_eq_true _ _).mp hsome
    rw [Bool.and_eq_true, decide_eq_true_eq] at hfacts
    exact ⟨r.2, by rw [hr, ← hfacts.1], hfacts.2⟩
  obtain ⟨signature, hsign, hascii⟩ := hsign
  refine ⟨by decide, by decide +kernel, ?_, fun A => ?_⟩
  · rw [buildRequest_first hsign (by decide) hascii (by decide) (by decide +kernel) rfl,
      if_neg (by decide)]
  · exact ⟨_, performAttempt_unencodable A ⟨by decide +kernel, rfl⟩, rfl, rfl⟩

end WebhookPlatform
