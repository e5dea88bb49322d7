/-
  WebhookPlatform.ReceiverSchemes
  **WHAT THE PLATFORM SIGNS AND THE RECEIVER ACCEPTS**, over the grid of scheme
  and serialisation of the secret:

                        secret: legacy form     secret: standard form
      scheme legacy     accepted                accepted only if the two keys
                                                 give ONE tag
      scheme standard   accepted                accepted

  The standard scheme decodes the secret, and both forms decode to the digest
  (`standard_round_trip`).  The legacy scheme keys on the string of the secret
  as it was handed over, and the two strings differ (`legacy_round_trip`).
-/
import WebhookPlatform.JsonRoundTrip
import WebhookPlatform.Receiver

namespace WebhookPlatform

open Exceptions List

/-! ## §1. The headers of the two schemes, taken apart. -/

theorem solid_of_ascii (h : ∀ c ∈ text, 33 ≤ c ∧ c < 128) : Solid text := by
  intro c hc
  have := h c hc
  unfold isSpacePoint
  have hmem : c ∉ [133, 160, 5760, 8232, 8233, 8239, 8287, 12288] := by
    simp only [mem_cons, not_mem_nil, or_false]
    omega
  rw [decide_eq_false hmem, decide_eq_false (by omega), decide_eq_false (by omega),
    decide_eq_false (by omega)]
  rfl

theorem mem_decimal_bounds (h : c ∈ decimal n) : 48 ≤ c ∧ c ≤ 57 :=
  of_decide_eq_true (isDigit_of_mem_decimal h)

theorem mem_b64Text_bounds (h : c ∈ b64Text bytes) : 33 ≤ c ∧ c < 128 := by
  have hall : ∀ n, n < 64 → 33 ≤ Base64.char n ∧ Base64.char n < 128 := by decide
  rcases Base64.mem_encode h with rfl | ⟨n, hn, rfl⟩
  · decide
  · exact hall n hn

/-- `v1,<base64>`. -/
def standardHeader (tag : Bytes) : PyStr := pyStr "v1," ++ b64Text tag

/-- `t=<seconds>,v1=<hex>`. -/
def legacyHeader (seconds : Nat) (tag : Bytes) : PyStr :=
  pyStr "t=" ++ decimal seconds ++ pyStr ",v1=" ++ hexText tag

theorem splitSpace_standardHeader (tag : Bytes) :
    splitSpace (standardHeader tag) = [standardHeader tag] := by
  refine splitSpace_solid (solid_of_ascii fun c hc => ?_) (cons_ne_nil _ _)
  have hmark : ∀ c ∈ pyStr "v1,", 33 ≤ c ∧ c < 128 := by decide
  rcases mem_append.1 hc with hc | hc
  · exact hmark c hc
  · exact mem_b64Text_bounds hc

theorem partitionAt_standardHeader (tag : Bytes) :
    partitionAt 44 (standardHeader tag) = (pyStr "v1", true, b64Text tag) :=
  @partitionAt_append 44 (pyStr "v1") (by decide) (b64Text tag)

theorem headerHasLegacyToken_standard (tag : Bytes) :
    headerHasLegacyToken (standardHeader tag) = false := by
  have hmark : 61 ∉ pyStr "v1" := by decide
  rw [headerHasLegacyToken, splitSpace_standardHeader]
  simp [partitionAt_standardHeader, hmark]

/-- **The standard header** presents its tag. -/
theorem standardSignatures_standardHeader (h : tag ≠ []) :
    standardSignatures (standardHeader tag) = [b64Text tag] := by
  have hne : b64Text tag ≠ [] := by
    intro hnil
    have hdecode := Base64.decode_encode tag
    rw [show Base64.encode tag = [] from hnil] at hdecode
    exact h (Option.some.inj hdecode).symm
  rw [standardSignatures, splitSpace_standardHeader]
  simp [partitionAt_standardHeader, hne, isAscii_b64Text]

theorem splitSpace_legacyHeader (seconds : Nat) (tag : Bytes) :
    splitSpace (legacyHeader seconds tag) = [legacyHeader seconds tag] := by
  refine splitSpace_solid (solid_of_ascii fun c hc => ?_) (cons_ne_nil _ _)
  have hmarks : ∀ c ∈ pyStr "t=" ++ pyStr ",v1=", 33 ≤ c ∧ c < 128 := by decide
  simp only [legacyHeader, mem_append] at hc
  rcases hc with ((hc | hc) | hc) | hc
  · exact hmarks c (mem_append_left _ hc)
  · have := mem_decimal_bounds hc
    omega
  · exact hmarks c (mem_append_right _ hc)
  · have := mem_hexText hc
    omega

theorem fromHexOk_hexText (bytes : Bytes) : fromHexOk (hexText bytes) = true := by
  induction bytes with
  | nil => rfl
  | cons b bytes ih =>
    have hb := b.toNat_lt
    have hdigit : ∀ {d : Nat}, d < 16 → fromHexOk.isHexDigit (hexPoint d) = true
        ∧ fromHexOk.isHexSpace (hexPoint d) = false := by decide
    have hhigh := hdigit (d := b.toNat / 16) (by omega)
    have hlow := hdigit (d := b.toNat % 16) (by omega)
    show fromHexOk (hexPoint (b.toNat / 16) :: hexPoint (b.toNat % 16) :: hexText bytes) = true
    rw [fromHexOk, hhigh.1, hlow.1, hhigh.2, ih]
    rfl

theorem lower_hexText (U : Unicode) (bytes : Bytes) : U.lower (hexText bytes) = hexText bytes := by
  have hascii : isAscii (hexText bytes) = true := by
    refine isAscii_iff.2 fun c hc => ?_
    have := mem_hexText hc
    omega
  rw [U.lower_ascii _ hascii]
  conv_rhs => rw [← map_id (hexText bytes)]
  refine map_congr_left fun c hc => ?_
  have := mem_hexText hc
  rw [asciiLower, if_neg (by omega)]
  rfl

/-- The item `t=<seconds>` sets the timestamp. -/
theorem signatureItem_timestamp (U : Unicode) (h : seconds < 10 ^ maxStrDigits)
    (signatures : List PyStr) :
    signatureItem U (none, signatures) (pyStr "t=" ++ decimal seconds)
      = .ok (some (seconds : Int), signatures) := by
  have hsolid : Solid (pyStr "t=" ++ decimal seconds) := by
    refine solid_of_ascii fun c hc => ?_
    have hmark : ∀ c ∈ pyStr "t=", 33 ≤ c ∧ c < 128 := by decide
    rcases mem_append.1 hc with hc | hc
    · exact hmark c hc
    · have := mem_decimal_bounds hc
      omega
  have hpart : partitionAt 61 (pyStr "t=" ++ decimal seconds)
      = (pyStr "t", true, decimal seconds) :=
    @partitionAt_append 61 (pyStr "t") (by decide) (decimal seconds)
  unfold signatureItem
  rw [stripSpace_solid hsolid, hpart]
  simp only [Bool.true_eq_false, decimal_ne_nil, or_self, if_false, if_true, Option.isSome_none,
    Bool.false_eq_true, U.isdigit_decimal, U.int_decimal h]
  rfl

/-- The item `v1=<hex>` adds a signature. -/
theorem signatureItem_tag (U : Unicode) (h : tag.length = 32) (timestamp : Option Int)
    (signatures : List PyStr) :
    signatureItem U (timestamp, signatures) (pyStr "v1=" ++ hexText tag)
      = .ok (timestamp, signatures ++ [hexText tag]) := by
  have hsolid : Solid (pyStr "v1=" ++ hexText tag) := by
    refine solid_of_ascii fun c hc => ?_
    have hmark : ∀ c ∈ pyStr "v1=", 33 ≤ c ∧ c < 128 := by decide
    rcases mem_append.1 hc with hc | hc
    · exact hmark c hc
    · have := mem_hexText hc
      omega
  have hpart : partitionAt 61 (pyStr "v1=" ++ hexText tag) = (pyStr "v1", true, hexText tag) :=
    @partitionAt_append 61 (pyStr "v1") (by decide) (hexText tag)
  have hlen : (hexText tag).length = 64 := by rw [length_hexText, h]
  have hne : hexText tag ≠ [] := by
    intro hnil
    rw [hnil] at hlen
    exact absurd hlen (by decide)
  have hname : pyStr "v1" ≠ pyStr "t" := by decide
  unfold signatureItem
  rw [stripSpace_solid hsolid, hpart]
  simp only [Bool.true_eq_false, hne, or_self, if_false, hname, if_true, hlen,
    fromHexOk_hexText, lower_hexText]

/-- The header is two items with one comma between them. -/
theorem legacyHeader_items (seconds : Nat) (tag : Bytes) : legacyHeader seconds tag
        = (pyStr "t=" ++ decimal seconds) ++ 44 :: (pyStr "v1=" ++ hexText tag)
      ∧ 44 ∉ pyStr "t=" ++ decimal seconds ∧ 44 ∉ pyStr "v1=" ++ hexText tag := by
  refine ⟨?_, fun hmem => ?_, fun hmem => ?_⟩
  · have hmark : pyStr ",v1=" = 44 :: pyStr "v1=" := by decide
    rw [legacyHeader, hmark, append_assoc]
    rfl
  · rcases mem_append.1 hmem with hmem | hmem
    · exact absurd hmem (by decide)
    · have := mem_decimal_bounds hmem
      omega
  · rcases mem_append.1 hmem with hmem | hmem
    · exact absurd hmem (by decide)
    · have := mem_hexText hmem
      omega

theorem partitionAt_legacyHeader (seconds : Nat) (tag : Bytes) :
    partitionAt 44 (legacyHeader seconds tag)
      = (pyStr "t=" ++ decimal seconds, true, pyStr "v1=" ++ hexText tag) := by
  obtain ⟨heq, hcomma, -⟩ := legacyHeader_items seconds tag
  rw [heq]
  exact partitionAt_append hcomma _

theorem splitOn_legacyHeader (seconds : Nat) (tag : Bytes) : (legacyHeader seconds tag).splitOn 44
      = [pyStr "t=" ++ decimal seconds, pyStr "v1=" ++ hexText tag] := by
  obtain ⟨heq, hfirst, hsecond⟩ := legacyHeader_items seconds tag
  have hno : ∀ {text : PyStr}, 44 ∉ text → ∀ c ∈ text, (c == 44) = false := by
    intro text h c hc
    rw [beq_eq_false_iff_ne]
    rintro rfl
    exact h hc
  rw [heq]
  show List.splitOnP (· == 44) _ = _
  rw [splitOnP_append_cons_of_forall_mem (hno hfirst) 44 rfl, splitOnP_eq_singleton (hno hsecond)]

theorem headerHasLegacyToken_legacy (seconds : Nat) (tag : Bytes) :
    headerHasLegacyToken (legacyHeader seconds tag) = true := by
  have hmark : 61 ∈ pyStr "t=" ++ decimal seconds := mem_append_left _ (by decide)
  rw [headerHasLegacyToken, splitSpace_legacyHeader]
  simp only [any_cons, any_nil, Bool.or_false, partitionAt_legacyHeader, decide_eq_true hmark]

/-- **The legacy header** gives its timestamp and its tag. -/
theorem signatureParts_legacyHeader (U : Unicode) (h : seconds < 10 ^ maxStrDigits)
    (htag : tag.length = 32) :
    signatureParts U (legacyHeader seconds tag) = .ok ((seconds : Int), [hexText tag]) := by
  have hmark : 61 ∈ pyStr "t=" ++ decimal seconds := mem_append_left _ (by decide)
  have htoken : signatureToken U (none, []) (legacyHeader seconds tag)
      = .ok (some (seconds : Int), [hexText tag]) := by
    rw [signatureToken, partitionAt_legacyHeader, if_neg (not_not.2 hmark),
      splitOn_legacyHeader, foldlM_cons, signatureItem_timestamp U h]
    show [pyStr "v1=" ++ hexText tag].foldlM (signatureItem U) (some (seconds : Int), []) = _
    rw [foldlM_cons, signatureItem_tag U htag]
    rfl
  rw [signatureParts, splitSpace_legacyHeader, foldlM_cons, htoken]
  rfl

/-! ## §2. A signed delivery at the receiver. -/

/-- What the receiver's mapping of headers holds. -/
structure Carries (U : Unicode) (headers : List (PyStr × PyStr))
    (signature eventId eventType timestamp : PyStr) : Prop where
  signature : normalizedGet U headers (pyStr "webhook-signature") = some signature
  eventId : normalizedGet U headers (pyStr "webhook-id") = some eventId
  eventType : normalizedGet U headers (pyStr "webhook-event") = some eventType
  timestamp : normalizedGet U headers (pyStr "webhook-timestamp") = some timestamp

/-- The four headers the verification reads, as the platform names them. -/
def signedHeaders (signature eventId eventType timestamp : PyStr) : List (PyStr × PyStr) :=
  [ (pyStr "Webhook-Id", eventId), (pyStr "Webhook-Timestamp", timestamp),
    (pyStr "Webhook-Signature", signature), (pyStr "Webhook-Event", eventType) ]

/-- Names of ASCII are lowered alike under all tables. -/
theorem normalizedGet_ascii (U : Unicode) (h : ∀ x ∈ headers, isAscii x.1 = true) (key : PyStr) :
    normalizedGet U headers key = normalizedGet asciiTables headers key := by
  have hfind : ∀ L : List (PyStr × PyStr), (∀ x ∈ L, isAscii x.1 = true) →
      L.find? (fun x => decide (U.lower x.1 = key))
        = L.find? (fun x => decide (asciiTables.lower x.1 = key)) := by
    intro L hL
    induction L with
    | nil => rfl
    | cons x L ih =>
      rw [List.find?_cons, List.find?_cons, ih fun y hy => hL y (mem_cons_of_mem x hy),
        U.lower_ascii _ (hL x mem_cons_self)]
      rfl
  rw [normalizedGet, normalizedGet, hfind _ fun x hx => h x (mem_reverse.1 hx)]

theorem carries_signedHeaders (U : Unicode) (signature eventId eventType timestamp : PyStr) :
    Carries U (signedHeaders signature eventId eventType timestamp) signature eventId eventType
      timestamp := by
  have hnames : ∀ x ∈ signedHeaders signature eventId eventType timestamp, isAscii x.1 = true := by
    have hall : ∀ name ∈ [pyStr "Webhook-Id", pyStr "Webhook-Timestamp",
        pyStr "Webhook-Signature", pyStr "Webhook-Event"], isAscii name = true := by decide
    intro x hx
    exact hall x.1 (mem_map_of_mem (f := Prod.fst) hx)
  constructor <;> (rw [normalizedGet_ascii U hnames]; rfl)

/-- The body is a JSON object that names the identifier and the type. -/
structure Names (F : FloatOf) (rawBody : Bytes) (document : List (PyStr × Json))
    (eventId eventType : PyStr) : Prop where
  loads : loads F rawBody = .ok (.obj document)
  eventId : dictGet document (pyStr "id") = some (.str eventId)
  eventType : dictGet document (pyStr "type") = some (.str eventType)

/-- The canonical text of an object with these two fields is such a body. -/
theorem names_canonicalJson (F : FloatOf) {eventId eventType : PyStr}
    (h : canonicalJson (.obj fields) = some bytes) (hnodup : (fields.map Prod.fst).Nodup)
    (hid : (pyStr "id", .str eventId) ∈ fields) (htype : (pyStr "type", .str eventType) ∈ fields) :
    Names F bytes (readBack F fields) eventId eventType where
  loads := loads_canonicalObject F h
  eventId := by rw [dictGet_readBack F hnodup hid, Json.reread]
  eventType := by rw [dictGet_readBack F hnodup htype, Json.reread]

/-- `verify_request` comes down to the verification of the scheme. -/
theorem verifyRequest_of_carries {U : Unicode} {H : Hmac} {F : FloatOf} {rawBody : Bytes}
    {headers : List (PyStr × PyStr)} {secret : PyStr} {o : VerifyOptions}
    {document : List (PyStr × Json)} {signature eventId eventType timestamp : PyStr}
    (hcarries : Carries U headers signature eventId eventType timestamp)
    (hnames : Names F rawBody document eventId eventType) (hsignature : signature ≠ [])
    (hid : eventId ≠ []) (htype : eventType ≠ []) :
    verifyRequest U H F rawBody headers secret o
      = (verifyScheme U H rawBody signature eventId (some timestamp) secret o).map
          fun t => ⟨eventId, eventType, t, document, rawBody⟩ := by
  have hpresent : ∀ {x : Option PyStr} {v : PyStr}, x = some v → v ≠ [] → present x = some v :=
    fun hx hv => present_eq_some.2 ⟨hx, hv⟩
  have hparse : ∀ t, parseBody F rawBody eventId eventType t
      = .ok ⟨eventId, eventType, t, document, rawBody⟩ :=
    fun t => parseBody_ok_iff.2 ⟨hnames.loads, hnames.eventId, hnames.eventType, rfl⟩
  rw [verifyRequest, hpresent hcarries.signature hsignature, hpresent hcarries.eventId hid,
    hpresent hcarries.eventType htype, hcarries.timestamp]
  dsimp only
  cases verifyScheme U H rawBody signature eventId (some timestamp) secret o with
  | error => rfl
  | ok t => exact hparse t

/-! ## §3. The standard scheme. -/

/-- The header that `sign_payload_standard` wrote verifies with every secret
that decodes to the key. -/
theorem verifySignatureStandard_signed (U : Unicode) {ts clock : Int} (hts : 0 ≤ ts)
    (hsign : signPayloadStandard H eventId rawBody digest (some ts) clock = some (ts, header))
    (hfresh : o.Fresh ts) (hsecret : secretKeyBytes secret = some digest) :
    headerHasLegacyToken header = false ∧ header ≠ []
      ∧ verifySignatureStandard U H rawBody eventId (strInt ts) header secret o = .ok ts := by
  obtain ⟨hsmall, head, hhead, hresult⟩ := signPayloadStandard_eq_some hts hsign
  have hstr : strInt ts = some (decimal ts.toNat) := strInt_of_nonneg hts hsmall
  have htag : H.digest digest (head ++ rawBody) ≠ [] := by
    intro hnil
    have hlen := H.length_digest digest (head ++ rawBody)
    rw [hnil] at hlen
    exact absurd hlen (by decide)
  have hheader : header = standardHeader (H.digest digest (head ++ rawBody)) :=
    (Prod.mk.inj hresult).2
  have hint : U.int (decimal ts.toNat) = some ts := by
    rw [U.int_decimal hsmall, Int.toNat_of_nonneg hts]
  rw [hheader]
  refine ⟨headerHasLegacyToken_standard _, cons_ne_nil _ _, verifySignatureStandard_ok_iff.2 ?_⟩
  rw [hstr, Option.getD_some]
  refine ⟨U.isdigit_decimal _, hint, hfresh, digest, decimal ts.toNat, head, hsecret, rfl,
    hhead, ?_⟩
  rw [standardSignatures_standardHeader htag]
  exact mem_singleton_self _

/-- **THE STANDARD SCHEME ROUND-TRIPS WITH EITHER SECRET FORM.**  Both
serialisations of a digest decode to it; and what `sign_payload_standard`
signed with the digest is accepted with both, for a nonempty identifier and
type, and a timestamp that is not negative. -/
theorem standard_round_trip (U : Unicode) (H : Hmac) (F : FloatOf) (digest rawBody : Bytes)
    (headers : List (PyStr × PyStr)) (document : List (PyStr × Json))
    (eventId eventType header timestamp : PyStr) (ts clock : Int) (o : VerifyOptions)
    (hid : eventId ≠ []) (htype : eventType ≠ []) (hts : 0 ≤ ts)
    (hsign : signPayloadStandard H eventId rawBody digest (some ts) clock = some (ts, header))
    (htimestamp : strInt ts = some timestamp) (hfresh : o.Fresh ts)
    (hcarries : Carries U headers header eventId eventType timestamp)
    (hnames : Names F rawBody document eventId eventType) :
    ∀ secret ∈ [standardSecret digest, legacySecret digest],
      secretKeyBytes secret = some digest
        ∧ verifyRequest U H F rawBody headers secret o
          = .ok ⟨eventId, eventType, ts, document, rawBody⟩ := by
  intro secret hsecret
  have hkey : secretKeyBytes secret = some digest := by
    rcases mem_cons.1 hsecret with rfl | hsecret
    · exact secretKeyBytes_standard digest
    · rw [mem_singleton.1 hsecret]
      exact secretKeyBytes_legacy digest
  obtain ⟨hscheme, hne, hverify⟩ := verifySignatureStandard_signed U hts hsign hfresh hkey
  refine ⟨hkey, ?_⟩
  rw [verifyRequest_of_carries hcarries hnames hne hid htype, verifyScheme, hscheme, ← htimestamp,
    if_neg Bool.false_ne_true, hverify]
  rfl

/-- A timestamp below zero is signed, and then refused: its sign is no digit. -/
theorem verifySignatureStandard_negative {U : Unicode} {H : Hmac} {rawBody : Bytes}
    {eventId header secret timestamp : PyStr} {ts : Int} {o : VerifyOptions} (hts : ts < 0)
    (htimestamp : strInt ts = some timestamp) (hfresh : o.Fresh ts) :
    verifySignatureStandard U H rawBody eventId (some timestamp) header secret o
      = .error .invalidSignature := by
  have hminus : ∃ digits, timestamp = 45 :: digits := by
    unfold strInt at htimestamp
    split at htimestamp
    · cases htimestamp
    · exact ⟨_, (Option.some.inj htimestamp).symm⟩
  obtain ⟨digits, rfl⟩ := hminus
  have hdigit : U.isdigit (45 :: digits) = false := by
    have hpoint : U.digit 45 = false := U.digit_ascii 45 (by decide)
    simp [Unicode.isdigit, hpoint]
  rw [verifySignatureStandard, if_neg hfresh.tolerance, Option.getD_some, if_pos hdigit]

/-- An object with an identifier and a type. -/
def smallFields (eventId : String) (eventType : String := "order.paid") : List (PyStr × Json) :=
  [(pyStr "id", .str (pyStr eventId)), (pyStr "type", .str (pyStr eventType))]

/-- Its canonical text. -/
def smallBody (eventId : String) (eventType : String := "order.paid") : Bytes :=
  (canonicalJson (.obj (smallFields eventId eventType))).getD []

/-- Every float is taken for `nan`. -/
def noFloats : FloatOf := fun _ => .nan

/-- A digest whose text is full of characters that differ between the two
alphabets. -/
def smallDigest : Bytes := List.replicate 32 255

/-- The header signed at `ts`. -/
def smallStandardHeader (eventId : String) (ts : Int) (eventType : String := "order.paid") :
    PyStr :=
  ((signPayloadStandard hmacSha256 (pyStr eventId) (smallBody eventId eventType) smallDigest
    (some ts) 0).getD (0, [])).2

theorem names_smallBody (eventId eventType : String)
    (h : canonicalJson (.obj (smallFields eventId eventType))
      = some (smallBody eventId eventType)) :
    Names noFloats (smallBody eventId eventType) (readBack noFloats (smallFields eventId eventType))
      (pyStr eventId) (pyStr eventType) := by
  have hnodup : [pyStr "id", pyStr "type"].Nodup := by decide
  exact names_canonicalJson noFloats h hnodup mem_cons_self (mem_cons_of_mem _ mem_cons_self)

theorem standard_round_trip_small :
    smallDigest.length = 32 ∧ ∀ secret ∈ [standardSecret smallDigest, legacySecret smallDigest],
      secretKeyBytes secret = some smallDigest
        ∧ verifyRequest asciiTables hmacSha256 noFloats (smallBody "e1")
            (signedHeaders (smallStandardHeader "e1" 1700000000) (pyStr "e1")
              (pyStr "order.paid") (pyStr "1700000000"))
            secret { now := some 1700000300 }
          = .ok ⟨pyStr "e1", pyStr "order.paid", 1700000000,
              readBack noFloats (smallFields "e1"), smallBody "e1"⟩ :=
  ⟨by decide, standard_round_trip asciiTables hmacSha256 noFloats smallDigest (smallBody "e1")
    _ _ _ _ _ (pyStr "1700000000") 1700000000 0 _ (by decide) (by decide) (by decide)
    (by decide +kernel) (by decide +kernel) (by decide)
    (carries_signedHeaders asciiTables _ _ _ _) (names_smallBody "e1" _ (by decide +kernel))⟩

/-- A delivery that is signed, carried and named as the others, and refused at
the time of its signature with both forms of the secret. -/
structure SignedAndRefused (eventId eventType : String) (ts : Int) (timestamp : PyStr) : Prop where
  signed : signPayloadStandard hmacSha256 (pyStr eventId) (smallBody eventId eventType) smallDigest
    (some ts) 0 = some (ts, smallStandardHeader eventId ts eventType)
  stamped : strInt ts = some timestamp
  named : Names noFloats (smallBody eventId eventType)
    (readBack noFloats (smallFields eventId eventType)) (pyStr eventId) (pyStr eventType)
  refused : ∀ secret ∈ [standardSecret smallDigest, legacySecret smallDigest],
    verifyRequest asciiTables hmacSha256 noFloats (smallBody eventId eventType)
      (signedHeaders (smallStandardHeader eventId ts eventType) (pyStr eventId) (pyStr eventType)
        timestamp) secret { now := some ts } = .error .invalidSignature

/-- **What the round trip leaves out**: the empty identifier, the empty type,
and a timestamp before the epoch. -/
theorem empty_fields_and_negative_timestamp_refused :
    SignedAndRefused "" "order.paid" 1700000000 (pyStr "1700000000")
      ∧ SignedAndRefused "e1" "" 1700000000 (pyStr "1700000000")
      ∧ SignedAndRefused "e1" "order.paid" (-1) (pyStr "-1") := by
  refine ⟨⟨by decide +kernel, by decide +kernel, names_smallBody "" _ (by decide +kernel), ?_⟩,
    ⟨by decide +kernel, by decide +kernel, names_smallBody "e1" _ (by decide +kernel), ?_⟩,
    by decide +kernel, by decide +kernel, names_smallBody "e1" _ (by decide +kernel), ?_⟩
  all_goals intro secret _
  -- an empty header counts as a missing one
  · rw [verifyRequest, (carries_signedHeaders asciiTables _ _ _ _).eventId]
    split
    next heq _ => cases heq
    · rfl
  · rw [verifyRequest, (carries_signedHeaders asciiTables _ _ _ _).eventType]
    split
    next heq => cases heq
    · rfl
  · have hstandard : headerHasLegacyToken (smallStandardHeader "e1" (-1)) = false := by
      decide +kernel
    rw [verifyRequest_of_carries (carries_signedHeaders asciiTables _ _ _ _)
        (names_smallBody "e1" _ (by decide +kernel)) (by decide +kernel) (by decide) (by decide),
      verifyScheme, hstandard, if_neg Bool.false_ne_true,
      @verifySignatureStandard_negative asciiTables hmacSha256 _ _ _ _ _ (-1) _ (by decide)
        (by decide +kernel) (by decide)]
    rfl

/-! ## §4. The legacy scheme. -/

theorem isAscii_standardSecret (digest : Bytes) : isAscii (standardSecret digest) = true := by
  have hmark : isAscii secretMark = true := by decide
  exact isAscii_append.2 ⟨hmark, isAscii_b64Text digest⟩

theorem isAscii_legacySecret (digest : Bytes) : isAscii (legacySecret digest) = true := by
  have hmark : isAscii secretMark = true := by decide
  refine isAscii_append.2 ⟨hmark, isAscii_iff.2 fun c hc => ?_⟩
  have hmem : c ∈ urlsafeB64Text digest := by
    rw [rstripPad, mem_reverse] at hc
    exact mem_reverse.1 ((dropWhile_sublist _).subset hc)
  obtain ⟨x, hx, rfl⟩ := mem_map.1 hmem
  have := mem_b64Text_bounds hx
  unfold urlsafePoint
  split_ifs <;> omega

/-- The tag of the legacy scheme under an ASCII string. -/
def legacyTag (H : Hmac) (secret : PyStr) (ts : Int) (rawBody : Bytes) : Bytes :=
  H.digest (secret.map UInt8.ofNat) ((decimal ts.toNat).map UInt8.ofNat ++ [46] ++ rawBody)

/-- A legacy header signed under one secret string and verified under
another: it is accepted when the two strings give one tag. -/
theorem verifyScheme_legacy (U : Unicode) {H : Hmac} {rawBody : Bytes}
    {eventId signer verifier header timestamp : PyStr} {ts clock : Int} {o : VerifyOptions}
    (hsigner : isAscii signer = true) (hverifier : isAscii verifier = true) (hts : 0 ≤ ts)
    (hsign : signPayload H rawBody signer (some ts) clock = some (ts, header))
    (htimestamp : strInt ts = some timestamp) (hfresh : o.Fresh ts) :
    header ≠ [] ∧ verifyScheme U H rawBody header eventId (some timestamp) verifier o
      = if legacyTag H verifier ts rawBody = legacyTag H signer ts rawBody then .ok ts
        else .error .invalidSignature := by
  obtain ⟨hsmall, key, hkey, hresult⟩ := signPayload_eq_some hts hsign
  have hdecimal := strInt_eq_some htimestamp hts
  rw [encodeUtf8_of_isAscii hsigner, Option.some.injEq] at hkey
  have hheader : header = legacyHeader ts.toNat (legacyTag H signer ts rawBody) := by
    rw [legacyTag, hkey]
    exact (Prod.mk.inj hresult).2
  have hparts : signatureParts U header = .ok (ts, [hexText (legacyTag H signer ts rawBody)]) := by
    have h := signatureParts_legacyHeader U hsmall (H.length_digest (signer.map UInt8.ofNat)
        ((decimal ts.toNat).map UInt8.ofNat ++ [46] ++ rawBody))
    rw [Int.toNat_of_nonneg hts] at h
    rw [hheader]
    exact h
  -- the tag that the verifier expects is compared as text
  have hverify : verifySignature U H rawBody header verifier o
      = if legacyTag H verifier ts rawBody = legacyTag H signer ts rawBody then .ok ts
        else .error .invalidSignature := by
    rw [verifySignature, if_neg hfresh.tolerance, hparts, ok_bind]
    dsimp only
    rw [if_neg (not_not.2 hfresh), htimestamp, hdecimal.1, orRaise_some, ok_bind,
      encodeAscii_of_isAscii (isAscii_decimal _), orRaise_some, ok_bind,
      encodeUtf8_of_isAscii hverifier, orRaise_some, ok_bind]
    show (if hexText (legacyTag H verifier ts rawBody)
        ∉ [hexText (legacyTag H signer ts rawBody)] then _ else _) = _
    by_cases htag : legacyTag H verifier ts rawBody = legacyTag H signer ts rawBody
    · rw [htag, if_neg (by simp), if_pos rfl]
    · rw [if_pos (by simpa using fun h => htag (hexText_injective h)), if_neg htag]
  refine ⟨by rw [hheader]; exact cons_ne_nil _ _, ?_⟩
  have htoken : headerHasLegacyToken header = true := by
    rw [hheader]
    exact headerHasLegacyToken_legacy _ _
  rw [verifyScheme, htoken, if_pos rfl, hverify]
  by_cases htag : legacyTag H verifier ts rawBody = legacyTag H signer ts rawBody
  · rw [if_pos htag, ok_bind, htimestamp, orRaise_some, ok_bind, if_neg (not_not.2 rfl)]
  · rw [if_neg htag, error_bind]

/-- **THE LEGACY SCHEME TAKES THE LEGACY FORM ALONE.**  What `sign_payload`
signed with `endpoint_secret` is accepted with that string.  With the standard
form of the same version it is accepted when the two strings, which differ,
happen to give one tag, and `InvalidSignature` is raised otherwise. -/
theorem legacy_round_trip (U : Unicode) (H : Hmac) (F : FloatOf)
    (signingKey endpointPublicId : PyStr) (secretVersion : Int) (rawBody : Bytes)
    (headers : List (PyStr × PyStr)) (document : List (PyStr × Json))
    (legacy standard eventId eventType header timestamp : PyStr) (ts clock : Int)
    (o : VerifyOptions) (hid : eventId ≠ []) (htype : eventType ≠ []) (hts : 0 ≤ ts)
    (hlegacy : endpointSecret H signingKey endpointPublicId secretVersion = some legacy)
    (hstandard : endpointSecretStandard H signingKey endpointPublicId secretVersion
      = some standard)
    (hsign : signPayload H rawBody legacy (some ts) clock = some (ts, header))
    (htimestamp : strInt ts = some timestamp) (hfresh : o.Fresh ts)
    (hcarries : Carries U headers header eventId eventType timestamp)
    (hnames : Names F rawBody document eventId eventType) :
    verifyRequest U H F rawBody headers legacy o
        = .ok ⟨eventId, eventType, ts, document, rawBody⟩
      ∧ standard ≠ legacy
      ∧ verifyRequest U H F rawBody headers standard o
        = if legacyTag H standard ts rawBody = legacyTag H legacy ts rawBody then
            .ok ⟨eventId, eventType, ts, document, rawBody⟩
          else .error .invalidSignature := by
  rw [endpointSecret_eq, Option.map_eq_some_iff] at hlegacy
  obtain ⟨digest, hdigest, rfl⟩ := hlegacy
  have hform : standard = standardSecret digest := by
    rw [endpointSecretStandard, hdigest] at hstandard
    exact (Option.some.inj hstandard).symm
  subst hform
  have hascii := isAscii_legacySecret digest
  have hscheme : ∀ {verifier : PyStr}, isAscii verifier = true → _ := fun hverifier =>
    @verifyScheme_legacy U H rawBody eventId _ _ _ _ _ _ _ hascii hverifier hts hsign htimestamp
      hfresh
  have hrequest : ∀ verifier, verifyRequest U H F rawBody headers verifier o = _ := fun verifier =>
    verifyRequest_of_carries hcarries hnames (hscheme hascii).1 hid htype
  refine ⟨?_, ?_, ?_⟩
  · rw [hrequest, (hscheme hascii).2, if_pos rfl]
    rfl
  · exact standardSecret_ne_legacySecret (length_endpointSecretDigest hdigest)
  · rw [hrequest, (hscheme (isAscii_standardSecret digest)).2]
    split
    · rfl
    · rfl

/-- The two forms of the secret of one endpoint. -/
def smallLegacySecret : PyStr :=
  (endpointSecret hmacSha256 (pyStr "signing-key") (pyStr "ep1") 1).getD []

def smallStandardSecret : PyStr :=
  (endpointSecretStandard hmacSha256 (pyStr "signing-key") (pyStr "ep1") 1).getD []

/-- A delivery of the legacy scheme. -/
def smallLegacyHeader : PyStr :=
  ((signPayload hmacSha256 (smallBody "e1") smallLegacySecret (some 1700000000) 0).getD (0, [])).2

theorem smallSecrets :
    endpointSecret hmacSha256 (pyStr "signing-key") (pyStr "ep1") 1 = some smallLegacySecret
      ∧ endpointSecretStandard hmacSha256 (pyStr "signing-key") (pyStr "ep1") 1
        = some smallStandardSecret
      ∧ signPayload hmacSha256 (smallBody "e1") smallLegacySecret (some 1700000000) 0
        = some (1700000000, smallLegacyHeader) := by
  decide +kernel

theorem legacy_round_trip_small :
    verifyRequest asciiTables hmacSha256 noFloats (smallBody "e1")
        (signedHeaders smallLegacyHeader (pyStr "e1") (pyStr "order.paid") (pyStr "1700000000"))
        smallLegacySecret { now := some 1700000300 }
      = .ok ⟨pyStr "e1", pyStr "order.paid", 1700000000, readBack noFloats (smallFields "e1"),
          smallBody "e1"⟩ :=
  (legacy_round_trip asciiTables hmacSha256 noFloats (pyStr "signing-key") (pyStr "ep1") 1
    (smallBody "e1") _ _ smallLegacySecret smallStandardSecret _ _ smallLegacyHeader
    (pyStr "1700000000") 1700000000 0 _ (by decide) (by decide) (by decide) smallSecrets.1
    smallSecrets.2.1 smallSecrets.2.2 (by decide +kernel) (by decide)
    (carries_signedHeaders asciiTables _ _ _ _) (names_smallBody "e1" _ (by decide +kernel))).1

/-- **A receiver with the standard form refuses a legacy delivery**: the
secret that was handed out when the endpoint switched its scheme does not
verify what is still in flight. -/
theorem standard_form_refused :
    endpointSecret hmacSha256 (pyStr "signing-key") (pyStr "ep1") 1 = some smallLegacySecret
      ∧ endpointSecretStandard hmacSha256 (pyStr "signing-key") (pyStr "ep1") 1
        = some smallStandardSecret
      ∧ signPayload hmacSha256 (smallBody "e1") smallLegacySecret (some 1700000000) 0
        = some (1700000000, smallLegacyHeader)
      ∧ Names noFloats (smallBody "e1") (readBack noFloats (smallFields "e1")) (pyStr "e1")
        (pyStr "order.paid")
      ∧ verifyRequest asciiTables hmacSha256 noFloats (smallBody "e1")
          (signedHeaders smallLegacyHeader (pyStr "e1") (pyStr "order.paid") (pyStr "1700000000"))
          smallStandardSecret { now := some 1700000000 } = .error .invalidSignature := by
  have hnames := names_smallBody "e1" "order.paid" (by decide +kernel)
  have hdiffer : legacyTag hmacSha256 smallStandardSecret 1700000000 (smallBody "e1")
      ≠ legacyTag hmacSha256 smallLegacySecret 1700000000 (smallBody "e1") := by decide +kernel
  obtain ⟨hne, hscheme⟩ := @verifyScheme_legacy asciiTables hmacSha256 (smallBody "e1")
    (pyStr "e1") smallLegacySecret smallStandardSecret smallLegacyHeader (pyStr "1700000000")
    1700000000 0 { now := some 1700000000 } (by decide +kernel) (by decide +kernel) (by decide)
    smallSecrets.2.2 (by decide +kernel) (by decide)
  refine ⟨smallSecrets.1, smallSecrets.2.1, smallSecrets.2.2, hnames, ?_⟩
  rw [verifyRequest_of_carries (carries_signedHeaders asciiTables _ _ _ _) hnames hne (by decide)
    (by decide), hscheme, if_neg hdiffer]
  rfl

end WebhookPlatform
