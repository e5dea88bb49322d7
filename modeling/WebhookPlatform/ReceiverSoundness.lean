/-
  WebhookPlatform.ReceiverSoundness
  **WHAT THE STANDARD PATH ACCEPTS WAS SIGNED AS IT STANDS.**

  The signed bytes are `id.timestamp.body`, and the verifier does not refuse an
  identifier with dots, so one signed string has as many readings as it has
  pairs of dots:

      platform   id . 1700000000 . {"data":"x.17.{…}", …}
      attacker   id.1700000000.{"data":"x . 17 . {…}", …}

  With an ideal keyed hash (`IdealHmac`) a reading verifies.  But the shorter
  body must be a JSON object in its own right, and a canonical text has no dot
  behind which one follows: outside strings a digit follows a dot, and what is
  complete from inside a string is not complete from outside
  (`Lex.not_both_out`).  So `standard_path_sound`: the accepted identifier,
  timestamp and body are a triple that was signed.
-/
import WebhookPlatform.Deliverable

namespace WebhookPlatform

open List

/-! ## §1. Readings of a dotted string. -/

/-- Where the first dot of one reading is known, another reading has the same
first part, or goes on behind that dot. -/
theorem split_at_dot (ha : 46 ∉ a) (h : x ++ 46 :: y = a ++ 46 :: b) :
    (x = a ∧ y = b) ∨ ∃ p, x = a ++ 46 :: p ∧ p ++ 46 :: y = b := by
  induction a generalizing x with
  | nil =>
    cases x with
    | nil =>
      injection h with _ h
      exact Or.inl ⟨rfl, h⟩
    | cons _ x =>
      injection h with hc h
      exact Or.inr ⟨x, by rw [hc]; rfl, h⟩
  | cons _ _ ih =>
    rw [mem_cons, not_or] at ha
    cases x with
    | nil =>
      injection h with hc _
      exact absurd hc ha.1
    | cons =>
      injection h with hc h
      rcases ih ha.2 h with ⟨rfl, rfl⟩ | ⟨p, rfl, rfl⟩
      · exact Or.inl ⟨by rw [hc], rfl⟩
      · exact Or.inr ⟨p, by rw [hc]; rfl, rfl⟩

theorem dot_notMem_decimal (n : Nat) : 46 ∉ decimal n := by
  intro h
  have := mem_decimal_bounds h
  omega

theorem decimal_injective (h : decimal m = decimal n) : m = n := by
  rw [← digitsNat_decimal m, h, digitsNat_decimal]

/-- From inside a string, dots and digits stay inside; from outside, a dot,
digits and a dot leave the automaton behind a dot; and otherwise the text is
refused. -/
theorem run_dotted (q : Lex) (n : Nat) :
    Lex.run q (46 :: (decimal n ++ [46])) = .dot ∨ Lex.run q (46 :: (decimal n ++ [46])) = .str
      ∨ Lex.run q (46 :: (decimal n ++ [46])) = .bad := by
  have hdigits : ∀ c ∈ decimal n, c ≠ 0 ∧ c ≠ 34 ∧ c ≠ 92 ∧ c ≠ 46 := by
    intro c hc
    have := mem_decimal_bounds hc
    omega
  have hstr : ∀ text : List Nat, (∀ c ∈ text, c ≠ 0 ∧ c ≠ 34 ∧ c ≠ 92 ∧ c ≠ 46) →
      Lex.run .str text = .str := by
    intro text htext
    induction text with
    | nil => rfl
    | cons c _ ih =>
      have hc := htext c mem_cons_self
      rw [Lex.run_cons, Lex.step_str ⟨hc.1, hc.2.1, hc.2.2.1⟩]
      exact ih fun d hd => htext d (mem_cons_of_mem c hd)
  have hinside : Lex.run .str (decimal n ++ [46]) = .str := by
    rw [Lex.run_append, hstr _ hdigits]
    rfl
  rw [Lex.run_cons]
  cases q with
  | out =>
    -- the first digit takes the automaton outside again
    obtain ⟨c, cs, hcs⟩ := exists_cons_of_ne_nil (decimal_ne_nil n)
    have hmem : c ∈ decimal n := by rw [hcs]; exact mem_cons_self
    have hc : isDigit c = true := isDigit_of_mem_decimal hmem
    have hfirst : Lex.step .dot c = .out := by
      have := of_decide_eq_true hc
      unfold Lex.step
      rw [if_neg (by omega)]
      simp [hc]
    have hrest : Lex.run .out cs = .out :=
      Lex.run_out fun d hd => hdigits d (by rw [hcs]; exact mem_cons_of_mem c hd)
    left
    show Lex.run .dot (decimal n ++ [46]) = .dot
    rw [hcs, cons_append, Lex.run_cons, hfirst, Lex.run_append, hrest]
    rfl
  | dot | bad =>
    right; right
    exact Lex.run_bad _
  | str | esc =>
    right; left
    exact hinside

/-! ## §2. What was signed. -/

/-- What the platform signed with one key. -/
structure SignedTriple where
  eventId : PyStr
  timestamp : Int
  body : Bytes

/-- The platform signs under dot-free ASCII identifiers, at timestamps that are
not negative, the canonical text of an envelope with that identifier. -/
structure SignedTriple.Genuine (P : Primitives) (t : SignedTriple) : Prop where
  ascii : isAscii t.eventId = true
  dotFree : 46 ∉ t.eventId
  timestamp : 0 ≤ t.timestamp
  envelope : ∃ project call mode now, pyStr call.eventPublicId = t.eventId
    ∧ canonicalJson (envelope P project call mode now) = some t.body

/-- `f"{event_id}.{timestamp}.".encode("ascii") + body`. -/
def signedBytes (eventId : PyStr) (timestamp : Int) (body : Bytes) : Bytes :=
  (eventId ++ [46] ++ decimal timestamp.toNat ++ [46]).map UInt8.ofNat ++ body

/-- **An ideal keyed hash**: a byte string whose tag is among the signatures
that a header presents is one that was signed with the key. -/
def IdealHmac (H : Hmac) (key : Bytes) (signed : Set SignedTriple) (signature : PyStr) : Prop :=
  ∀ message, b64Text (H.digest key message) ∈ standardSignatures signature →
    ∃ t ∈ signed, message = signedBytes t.eventId t.timestamp t.body

/-- The signed bytes as numbers. -/
theorem toNat_signedBytes (h : isAscii eventId = true) (timestamp : Int) (body : Bytes) :
    (signedBytes eventId timestamp body).map UInt8.toNat
      = eventId ++ 46 :: (decimal timestamp.toNat ++ 46 :: body.map UInt8.toNat) := by
  have hascii : isAscii (eventId ++ [46] ++ decimal timestamp.toNat ++ [46]) = true :=
    isAscii_append.2 ⟨isAscii_append.2 ⟨isAscii_append.2 ⟨h, rfl⟩, isAscii_decimal _⟩, rfl⟩
  have hback : ((eventId ++ [46] ++ decimal timestamp.toNat ++ [46]).map UInt8.ofNat).map
      UInt8.toNat = eventId ++ [46] ++ decimal timestamp.toNat ++ [46] := by
    rw [map_map]
    conv_rhs => rw [← map_id (eventId ++ [46] ++ decimal timestamp.toNat ++ [46])]
    refine map_congr_left fun c hc => ?_
    have := isAscii_iff.1 hascii c hc
    exact toNat_ofNat_byte (by omega)
  rw [signedBytes, map_append, hback]
  simp

/-! ## §3. No second reading. -/

/-- **A canonical body has no shorter reading**: what stands behind two dots
with digits between them is not a JSON object. -/
theorem no_object_behind_dots (hbody : canonicalJson v = some body)
    (hsplit : p ++ 46 :: (decimal n ++ 46 :: rawBody.map UInt8.toNat) = body.map UInt8.toNat) :
    loads F rawBody ≠ .ok (.obj d) := by
  intro hloads
  obtain ⟨hrun, hzero, hlow⟩ := canonicalJson_plain hbody
  -- the shorter body is a part of the plain one
  have hpart : ∀ b ∈ rawBody, b ∈ body := by
    intro b hb
    have hmem : b.toNat ∈ body.map UInt8.toNat := by
      rw [← hsplit]
      have hb' : b.toNat ∈ rawBody.map UInt8.toNat := mem_map_of_mem hb
      simp only [mem_append, mem_cons]
      exact Or.inr (Or.inr (Or.inr (Or.inr hb')))
    obtain ⟨b', hb', heq⟩ := mem_map.1 hmem
    rwa [← UInt8.toNat_inj.1 heq]
  have hzero' : (0 : UInt8) ∉ rawBody := fun h => hzero (hpart 0 h)
  have hlow' : ∀ b ∈ rawBody, b.toNat < 0xFE := fun b hb => hlow b (hpart b hb)
  have hout := run_of_loads hzero' hlow' hloads
  have hdot := run_dot_of_loads hzero' hlow' hloads
  have hshape : p ++ 46 :: (decimal n ++ 46 :: rawBody.map UInt8.toNat)
      = p ++ (46 :: (decimal n ++ [46])) ++ rawBody.map UInt8.toNat := by simp
  rw [← hsplit, hshape, Lex.run_append, Lex.run_append] at hrun
  rcases run_dotted (Lex.run .out p) n with hstate | hstate | hstate
  · rw [hstate] at hrun
    exact hdot hrun
  · rw [hstate] at hrun
    exact Lex.not_both_out (Or.inr ⟨rfl, Or.inl rfl⟩) _ ⟨hrun, hout⟩
  · rw [hstate, Lex.run_bad] at hrun
    exact absurd hrun (by decide)

/-- **Two readings of one signed string agree** when the second body is a JSON
object: the identifier may hold dots, and still nothing can be moved. -/
theorem signedBytes_reading {t : SignedTriple} (ht : t.Genuine P) {timestamp : Int}
    (hascii : isAscii eventId = true) (hts : 0 ≤ timestamp)
    (hloads : loads F rawBody = .ok (.obj d))
    (h : signedBytes eventId timestamp rawBody = signedBytes t.eventId t.timestamp t.body) :
    eventId = t.eventId ∧ timestamp = t.timestamp ∧ rawBody = t.body := by
  obtain ⟨project, call, mode, now, -, hbody⟩ := ht.envelope
  obtain ⟨fields, hfields, -⟩ := envelope_fields P project call mode now
  have hnat := congrArg (List.map UInt8.toNat) h
  rw [toNat_signedBytes hascii, toNat_signedBytes ht.ascii] at hnat
  rcases split_at_dot ht.dotFree hnat with ⟨hid, hrest⟩ | ⟨x, -, hrest⟩
  · -- the same identifier
    rcases split_at_dot (dot_notMem_decimal _) hrest with ⟨hdigits, hbytes⟩ | ⟨y, hdigits, -⟩
    · have htime : timestamp.toNat = t.timestamp.toNat := decimal_injective hdigits
      have htimeEq : timestamp = t.timestamp := by
        have := ht.timestamp
        omega
      have hraw : rawBody = t.body := map_injective_iff.2 (fun _ _ h => UInt8.toNat_inj.1 h) hbytes
      exact ⟨hid, htimeEq, hraw⟩
    · exact absurd (by rw [hdigits]; simp) (dot_notMem_decimal timestamp.toNat)
  · -- a longer one
    rcases split_at_dot (dot_notMem_decimal _) hrest with ⟨-, hbytes⟩ | ⟨p, -, hbytes⟩
    · -- it ends with the timestamp: then the body starts with a digit
      rw [hfields] at hbody
      obtain ⟨rest, hbrace⟩ := canonicalObject_head hbody
      obtain ⟨c, cs, hcs⟩ := exists_cons_of_ne_nil (decimal_ne_nil timestamp.toNat)
      have hc : c ∈ decimal timestamp.toNat := by rw [hcs]; exact mem_cons_self
      have hdigit := mem_decimal_bounds hc
      rw [hcs, hbrace] at hbytes
      injection hbytes with hhead _
      have : (123 : UInt8).toNat = 123 := rfl
      omega
    · exact absurd hloads (no_object_behind_dots hbody hbytes)

/-- **THE STANDARD PATH IS SOUND.**  The platform has signed some genuine
triples with the key of the receiver's secret, and the keyed hash is ideal for
what the header presents.  Then whatever body and headers arrive, an event that
`verify_request` returns through the standard path has the identifier, the
timestamp and the raw body of one of those triples. -/
theorem standard_path_sound (U : Unicode) (H : Hmac) (F : FloatOf) (P : Primitives)
    (signed : Set SignedTriple) (rawBody key : Bytes) (headers : List (PyStr × PyStr))
    (secret signature : PyStr) (o : VerifyOptions) (event : ReceiverEvent)
    (hsigned : ∀ t ∈ signed, t.Genuine P) (hkey : secretKeyBytes secret = some key)
    (hsignature : normalizedGet U headers (pyStr "webhook-signature") = some signature)
    (hpath : headerHasLegacyToken signature = false) (hideal : IdealHmac H key signed signature)
    (hverify : verifyRequest U H F rawBody headers secret o = .ok event) :
    ∃ t ∈ signed, event.eventId = t.eventId ∧ event.timestamp = t.timestamp
      ∧ event.rawBody = t.body := by
  obtain ⟨signature', hsignature', -, -, -, -, -, hscheme, hloads, -, -, hraw⟩ :=
    verifyRequest_ok_iff.1 hverify
  obtain rfl : signature' = signature := Option.some.inj (hsignature'.symm.trans hsignature)
  rw [verifyScheme, hpath, if_neg Bool.false_ne_true] at hscheme
  obtain ⟨-, hint, -, key', text, head, hkey', htext, hhead, htag⟩ :=
    verifySignatureStandard_ok_iff.1 hscheme
  obtain rfl : key' = key := Option.some.inj (hkey'.symm.trans hkey)
  have hts : 0 ≤ event.timestamp := U.int_nonneg hint
  obtain ⟨rfl, -⟩ := strInt_eq_some htext hts
  obtain ⟨hascii, rfl⟩ := encodeAscii_eq_some.1 hhead
  -- what was verified was signed, and can be read in one way only
  obtain ⟨t, ht, hmessage⟩ := hideal _ htag
  have hid : isAscii event.eventId = true := by
    rw [isAscii_append, isAscii_append, isAscii_append] at hascii
    exact hascii.1.1.1
  rw [hraw]
  exact ⟨t, ht, signedBytes_reading (hsigned t ht) hid hts hloads hmessage⟩

/-- A hash that tells one message from all others. -/
def markingHmac (message : Bytes) : Hmac where
  digest _ m := if m = message then List.replicate 32 1 else List.replicate 32 0
  length_digest _ m := by
    split
    · rfl
    · rfl

/-- The first event of the small deployment, as it was signed. -/
def firstTriple : SignedTriple :=
  ⟨pyStr "event-1", 1700000000,
    (canonicalJson (envelope smallPrimitives smallProject firstEvent .native 0)).getD []⟩

theorem firstTriple_genuine : firstTriple.Genuine smallPrimitives where
  ascii := by decide
  dotFree := by decide
  timestamp := by decide
  envelope := ⟨smallProject, firstEvent, .native, 0, rfl, by decide +kernel⟩

/-- The hash under which the first triple was signed. -/
def firstHmac : Hmac :=
  markingHmac (signedBytes firstTriple.eventId firstTriple.timestamp firstTriple.body)

theorem firstHmac_ideal : IdealHmac firstHmac smallDigest {firstTriple}
    (standardHeader (List.replicate 32 1)) := by
  intro message hmem
  refine ⟨firstTriple, rfl, ?_⟩
  rw [standardSignatures_standardHeader (by decide), mem_singleton] at hmem
  by_contra hother
  have hzero : firstHmac.digest smallDigest message = List.replicate 32 0 := if_neg hother
  rw [hzero] at hmem
  exact absurd hmem (by decide)

/-- The first event is accepted, and it is the one that was signed. -/
theorem standard_path_sound_first :
    ∃ event, verifyRequest asciiTables firstHmac noFloats firstTriple.body
        (signedHeaders (standardHeader (List.replicate 32 1)) (pyStr "event-1")
          (pyStr "order.created") (pyStr "1700000000"))
        (standardSecret smallDigest) { now := some 1700000000 } = .ok event
      ∧ ∃ t ∈ ({firstTriple} : Set SignedTriple), event.eventId = t.eventId
        ∧ event.timestamp = t.timestamp ∧ event.rawBody = t.body := by
  have hbody : canonicalJson (envelope smallPrimitives smallProject firstEvent .native 0)
      = some firstTriple.body := by decide +kernel
  obtain ⟨fields, hfields, hnodup, hid, htype⟩ :=
    envelope_fields smallPrimitives smallProject firstEvent .native 0
  rw [hfields] at hbody
  have hnames := names_canonicalJson noFloats hbody hnodup hid htype
  have hsign : signPayloadStandard firstHmac (pyStr "event-1") firstTriple.body smallDigest
      (some 1700000000) 0 = some (1700000000, standardHeader (List.replicate 32 1)) := by
    decide +kernel
  obtain ⟨hpath, hne, hverify⟩ := verifySignatureStandard_signed asciiTables
    (o := { now := some 1700000000 }) (by decide) hsign (by decide)
    (secretKeyBytes_standard smallDigest)
  have htimestamp : strInt 1700000000 = some (pyStr "1700000000") := by decide +kernel
  have hcarries := carries_signedHeaders asciiTables (standardHeader (List.replicate 32 1))
    (pyStr "event-1") (pyStr "order.created") (pyStr "1700000000")
  have haccept := @verifyRequest_of_carries asciiTables firstHmac noFloats firstTriple.body _
    (standardSecret smallDigest) { now := some 1700000000 } _ _ _ _ _ hcarries hnames hne
    (by decide) (by decide)
  rw [verifyScheme, hpath, if_neg Bool.false_ne_true, ← htimestamp, hverify] at haccept
  refine ⟨_, haccept, ?_⟩
  exact standard_path_sound asciiTables firstHmac noFloats smallPrimitives {firstTriple}
    firstTriple.body smallDigest _ (standardSecret smallDigest) _ _ _
    (fun t ht => by rw [Set.mem_singleton_iff.1 ht]; exact firstTriple_genuine)
    (secretKeyBytes_standard smallDigest) hcarries.signature hpath firstHmac_ideal haccept

end WebhookPlatform
