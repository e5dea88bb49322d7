/-
  WebhookPlatform.ReceiverHeaders
  **WHAT AN UNAUTHENTICATED HEADER MAKES THE RECEIVER RAISE.**

  Header parsing and signature verification raise a
  `ReceiverVerificationError`, or succeed, EXCEPT in four cases: a digit that
  `int` refuses in a `t=` item or in the timestamp header, a secret that has
  no UTF-8, and an identifier that is not ASCII (`receiver_fails_closed_iff`).

  Tokens that the receiver does not know are ignored if no `=` stands before
  their first comma.  Any other is parsed as a legacy token: it has to be well
  formed, and it switches a standard header to the legacy scheme
  (`unknown_token_ignored_iff`).
-/
import WebhookPlatform.ReceiverSchemes

namespace WebhookPlatform

open Exceptions List

/-! ## §1. A header as a list of items. -/

/-- The items that `_signature_parts` takes from a token. -/
def tokenItems (token : PyStr) : List PyStr :=
  if 61 ∉ (partitionAt 44 token).1 then [] else token.splitOn 44

/-- The items of a header. -/
def legacyItems (header : PyStr) : List PyStr := (splitSpace header).flatMap tokenItems

/-- The parser goes through the items one by one. -/
theorem foldlM_signatureToken (tokens : List PyStr) (found : Option Int × List PyStr) :
    tokens.foldlM (signatureToken U) found
      = (tokens.flatMap tokenItems).foldlM (signatureItem U) found := by
  have htoken : ∀ token found,
      signatureToken U found token = (tokenItems token).foldlM (signatureItem U) found := by
    intro token found
    unfold signatureToken tokenItems
    split <;> rfl
  induction tokens generalizing found with
  | nil => rfl
  | cons _ _ ih =>
    rw [foldlM_cons, flatMap_cons, foldlM_append, htoken]
    exact congrArg _ (funext fun found => ih found)

/-! ## §2. What escapes. -/

/-- `ReceiverVerificationError` and its subclasses. -/
def ReceiverError.bounded : ReceiverError → Bool
  | .invalidSignature | .signatureExpired | .verification _ => true
  | .valueError _ | .number | .unicodeEncode => false

/-- The computation raises something else. -/
def Escaped {α : Type} (x : Except ReceiverError α) : Prop :=
  ∃ e, x = .error e ∧ e.bounded = false

theorem escaped_bind {α β : Type} {x : Except ReceiverError α} {f : α → Except ReceiverError β} :
    Escaped (x >>= f) ↔ Escaped x ∨ ∃ a, x = .ok a ∧ Escaped (f a) := by
  cases x <;> simp [Escaped]

theorem escaped_guard {α : Type} {p : Prop} [Decidable p] {e : ReceiverError}
    {x : Except ReceiverError α} (he : e.bounded = true) :
    Escaped (if p then .error e else x) ↔ ¬ p ∧ Escaped x := by
  by_cases h : p
  · simp [Escaped, h, he]
  · simp [Escaped, h]

theorem escaped_orRaise {α : Type} {e : ReceiverError} {x : Option α} (he : e.bounded = false) :
    Escaped (orRaise e x) ↔ x = none := by
  cases x <;> simp [Escaped, orRaise, he]

@[simp] theorem not_escaped_ok {α : Type} {a : α} : ¬ Escaped (.ok a) := by simp [Escaped]

/-- A `t=` item of digits that `int` refuses. -/
def Unicode.Trap (U : Unicode) (item : PyStr) : Prop :=
  (partitionAt 61 (stripSpace item)).1 = pyStr "t" ∧ (partitionAt 61 (stripSpace item)).2.1 = true
    ∧ U.isdigit (partitionAt 61 (stripSpace item)).2.2 = true
    ∧ U.int (partitionAt 61 (stripSpace item)).2.2 = none

theorem signatureItem_escaped :
    Escaped (signatureItem U found item) ↔ found.1 = none ∧ U.Trap item := by
  unfold signatureItem Unicode.Trap
  generalize partitionAt 61 (stripSpace item) = p
  obtain ⟨name, separator, value⟩ := p
  dsimp only
  have hdigit : U.isdigit value = true → value ≠ [] := by
    rintro h rfl
    cases h
  rw [escaped_guard rfl]
  by_cases hname : name = pyStr "t"
  · rw [if_pos hname, escaped_guard rfl, escaped_bind, escaped_orRaise rfl]
    simp [hname]
    grind
  · rw [if_neg hname]
    have hrest : ¬ Escaped (if name = pyStr "v1" then
        if value.length = 64 then
          if fromHexOk value then Except.ok (found.1, found.2 ++ [U.lower value])
          else .error .invalidSignature
        else .ok found
      else .ok found) := by
      split_ifs <;> simp [Escaped, ReceiverError.bounded]
    simp [hname, hrest]

/-- The parser raises another exception at the first trap that it reaches
without a timestamp. -/
theorem signatureParts_escaped :
    Escaped (signatureParts U signature) ↔ ∃ before item after signatures,
      legacyItems signature = before ++ item :: after
        ∧ before.foldlM (signatureItem U) (none, []) = .ok (none, signatures) ∧ U.Trap item := by
  unfold signatureParts
  rw [escaped_bind, foldlM_signatureToken, or_iff_left]
  rotate_left
  · rintro ⟨⟨_ | timestamp, _ | ⟨signature, signatures⟩⟩, -, h⟩
    all_goals simp [Escaped, ReceiverError.bounded] at h
  constructor
  · rintro ⟨e, he, hbounded⟩
    obtain ⟨before, item, after, found, hitems, hbefore, hitem⟩ := foldlM_eq_error.mp he
    obtain ⟨hnone, htrap⟩ := signatureItem_escaped.mp ⟨e, hitem, hbounded⟩
    exact ⟨before, item, after, found.2, hitems, hnone ▸ hbefore, htrap⟩
  · rintro ⟨before, item, after, signatures, hitems, hbefore, htrap⟩
    obtain ⟨e, hitem, hbounded⟩ := signatureItem_escaped.mpr
      (⟨rfl, htrap⟩ : (none, signatures).1 = none ∧ U.Trap item)
    exact ⟨e, foldlM_eq_error.mpr ⟨before, item, after, _, hitems, hbefore, hitem⟩, hbounded⟩

theorem isAscii_strInt {n : Int} {text : PyStr} (h : strInt n = some text) :
    isAscii text = true := by
  unfold strInt at h
  split at h
  · cases h
  · rw [← Option.some.inj h]
    split
    · show isAscii ([45] ++ decimal n.natAbs) = true
      exact isAscii_append.mpr ⟨rfl, isAscii_decimal n.natAbs⟩
    · exact isAscii_decimal n.natAbs

theorem encodeAscii_eq_none {text : PyStr} : encodeAscii text = none ↔ isAscii text = false := by
  unfold encodeAscii
  split <;> simp_all

theorem verifySignature_escaped (htolerance : 0 ≤ o.toleranceSeconds) :
    Escaped (verifySignature U H rawBody signature secret o) ↔ Escaped (signatureParts U signature)
      ∨ ∃ t signatures, signatureParts U signature = .ok (t, signatures) ∧ o.Fresh t
        ∧ (strInt t = none ∨ encodeUtf8 secret = none) := by
  unfold verifySignature
  rw [if_neg (not_lt.mpr htolerance), escaped_bind]
  refine or_congr_right ?_
  simp only [Prod.exists, escaped_guard (e := .signatureExpired) rfl, not_not, escaped_bind,
    escaped_orRaise (e := .number) rfl, escaped_orRaise (e := .unicodeEncode) rfl, orRaise_eq_ok,
    escaped_guard (e := .invalidSignature) rfl, not_escaped_ok, and_false, exists_false, or_false,
    encodeAscii_eq_none]
  refine exists_congr fun t => exists_congr fun signatures => and_congr_right fun _ =>
    and_congr_right fun _ => ?_
  cases htext : strInt t with
  | none => simp
  | some =>
    have hascii := isAscii_strInt htext
    simp [hascii, encodeAscii_of_isAscii hascii]

theorem verifySignatureStandard_escaped (htolerance : 0 ≤ o.toleranceSeconds) :
    Escaped (verifySignatureStandard U H rawBody eventId timestampHeader signature secret o)
      ↔ U.isdigit (timestampHeader.getD []) = true ∧ (U.int (timestampHeader.getD []) = none
          ∨ ∃ t, U.int (timestampHeader.getD []) = some t ∧ o.Fresh t
            ∧ secretKeyBytes secret ≠ none ∧ standardSignatures signature ≠ []
            ∧ (strInt t = none ∨ isAscii eventId = false)) := by
  unfold verifySignatureStandard
  rw [if_neg (not_lt.mpr htolerance)]
  simp only [escaped_guard (e := .invalidSignature) rfl, Bool.not_eq_false, escaped_bind,
    escaped_orRaise (e := .number) rfl, orRaise_eq_ok, escaped_guard (e := .signatureExpired) rfl,
    not_not]
  refine and_congr_right fun _ => or_congr_right (exists_congr fun t => and_congr_right fun _ =>
    and_congr_right fun _ => ?_)
  cases hkey : secretKeyBytes secret with
  | none => simp [Escaped, ReceiverError.bounded]
  | some =>
    simp only [escaped_guard (e := .invalidSignature) rfl, escaped_bind,
      escaped_orRaise (e := .number) rfl, escaped_orRaise (e := .unicodeEncode) rfl,
      orRaise_eq_ok, not_escaped_ok, and_false, exists_false, or_false, encodeAscii_eq_none]
    cases htext : strInt t with
    | none => simp
    | some text =>
      have hhead : isAscii (eventId ++ [46] ++ text ++ [46]) = isAscii eventId := by
        rw [Bool.eq_iff_iff, isAscii_append, isAscii_append, isAscii_append]
        simp [isAscii_strInt htext, show isAscii [46] = true from rfl]
      simp [← hhead]

/-- What escapes from `verify_request` before the body is parsed. -/
inductive Escapes (U : Unicode) (o : VerifyOptions) (secret signature eventId : PyStr)
    (timestampHeader : Option PyStr) : Prop where
  /-- The parser reaches a `t=` item whose digits `int` refuses. -/
  | item {before item after signatures} (hlegacy : headerHasLegacyToken signature = true)
      (hitems : legacyItems signature = before ++ item :: after)
      (hbefore : before.foldlM (signatureItem U) (none, []) = .ok (none, signatures))
      (htrap : U.Trap item)
  /-- The secret has no UTF-8, or `str` refuses the timestamp. -/
  | secret {t signatures} (hlegacy : headerHasLegacyToken signature = true)
      (hparts : signatureParts U signature = .ok (t, signatures)) (hfresh : o.Fresh t)
      (hencode : strInt t = none ∨ encodeUtf8 secret = none)
  /-- `int` refuses the digits of the timestamp header. -/
  | timestamp (hstandard : headerHasLegacyToken signature = false)
      (hdigit : U.isdigit (timestampHeader.getD []) = true)
      (hint : U.int (timestampHeader.getD []) = none)
  /-- The identifier is not ASCII, or `str` refuses the timestamp. -/
  | eventId {t} (hstandard : headerHasLegacyToken signature = false)
      (hdigit : U.isdigit (timestampHeader.getD []) = true)
      (hint : U.int (timestampHeader.getD []) = some t) (hfresh : o.Fresh t)
      (hkey : secretKeyBytes secret ≠ none) (hsignatures : standardSignatures signature ≠ [])
      (hencode : strInt t = none ∨ isAscii eventId = false)

theorem verifyScheme_escaped (htolerance : 0 ≤ o.toleranceSeconds) :
    Escaped (verifyScheme U H rawBody signature eventId timestampHeader secret o)
      ↔ Escapes U o secret signature eventId timestampHeader := by
  unfold verifyScheme
  cases hscheme : headerHasLegacyToken signature with
  | true =>
    rw [if_pos rfl, escaped_bind, or_iff_left, verifySignature_escaped htolerance,
      signatureParts_escaped]
    rotate_left
    · -- what was verified has a text
      rintro ⟨t, ht, h⟩
      obtain ⟨-, text, -, -, -, -, htext, -⟩ := verifySignature_ok_iff.mp ht
      rw [htext, orRaise_some, ok_bind, escaped_guard rfl] at h
      exact not_escaped_ok h.2
    constructor
    · rintro (⟨before, item, after, signatures, hitems, hbefore, htrap⟩
        | ⟨t, signatures, hparts, hfresh, hencode⟩)
      · exact .item hscheme hitems hbefore htrap
      · exact .secret hscheme hparts hfresh hencode
    · rintro (⟨-, hitems, hbefore, htrap⟩ | ⟨-, hparts, hfresh, hencode⟩ | ⟨h⟩ | ⟨h⟩)
      · exact Or.inl ⟨_, _, _, _, hitems, hbefore, htrap⟩
      · exact Or.inr ⟨_, _, hparts, hfresh, hencode⟩
      all_goals rw [hscheme] at h; cases h
  | false =>
    rw [if_neg Bool.false_ne_true, verifySignatureStandard_escaped htolerance]
    constructor
    · rintro ⟨hdigit, hint | ⟨t, hint, hfresh, hkey, hsignatures, hencode⟩⟩
      · exact .timestamp hscheme hdigit hint
      · exact .eventId hscheme hdigit hint hfresh hkey hsignatures hencode
    · rintro (⟨h⟩ | ⟨h⟩ | ⟨-, hdigit, hint⟩
        | ⟨-, hdigit, hint, hfresh, hkey, hsignatures, hencode⟩)
      · rw [hscheme] at h; cases h
      · rw [hscheme] at h; cases h
      · exact ⟨hdigit, Or.inl hint⟩
      · exact ⟨hdigit, Or.inr ⟨_, hint, hfresh, hkey, hsignatures, hencode⟩⟩

/-- Header parsing and signature verification of `verify_request`. -/
def verifyHeaders (U : Unicode) (H : Hmac) (rawBody : Bytes) (headers : List (PyStr × PyStr))
    (secret : PyStr) (o : VerifyOptions) : Except ReceiverError (PyStr × PyStr × Int) :=
  match present (normalizedGet U headers (pyStr "webhook-signature")),
    present (normalizedGet U headers (pyStr "webhook-id")),
    present (normalizedGet U headers (pyStr "webhook-event")) with
  | some signature, some eventId, some eventType => do
      let timestampHeader := normalizedGet U headers (pyStr "webhook-timestamp")
      let timestamp ← verifyScheme U H rawBody signature eventId timestampHeader secret o
      return (eventId, eventType, timestamp)
  | _, _, _ => .error .invalidSignature

/-- The rest of `verify_request` is about the body. -/
theorem verifyRequest_eq (F : FloatOf) (headers : List (PyStr × PyStr)) :
    verifyRequest U H F rawBody headers secret o
      = verifyHeaders U H rawBody headers secret o >>= fun x =>
        parseBody F rawBody x.1 x.2.1 x.2.2 := by
  unfold verifyRequest verifyHeaders
  generalize present (normalizedGet U headers (pyStr "webhook-signature")) = a
  generalize present (normalizedGet U headers (pyStr "webhook-id")) = b
  generalize present (normalizedGet U headers (pyStr "webhook-event")) = c
  rcases a, b, c with ⟨_ | signature, _ | eventId, _ | eventType⟩
  case some.some.some =>
    cases hscheme : verifyScheme U H rawBody signature eventId
        (normalizedGet U headers (pyStr "webhook-timestamp")) secret o <;> simp [hscheme]
  all_goals rfl

/-- **THE RECEIVER FAILS CLOSED, EXCEPT IN FOUR CASES.**  For every body, every
mapping of headers and every secret, header parsing and signature verification
succeed or raise a `ReceiverVerificationError`, exactly if the headers are
incomplete or none of `Escapes` applies. -/
theorem receiver_fails_closed_iff (U : Unicode) (H : Hmac) (rawBody : Bytes)
    (headers : List (PyStr × PyStr)) (secret : PyStr) (o : VerifyOptions)
    (htolerance : 0 ≤ o.toleranceSeconds) :
    (∀ e, verifyHeaders U H rawBody headers secret o = .error e → e.bounded = true)
      ↔ ∀ signature eventId eventType,
        present (normalizedGet U headers (pyStr "webhook-signature")) = some signature →
        present (normalizedGet U headers (pyStr "webhook-id")) = some eventId →
        present (normalizedGet U headers (pyStr "webhook-event")) = some eventType →
        ¬ Escapes U o secret signature eventId
          (normalizedGet U headers (pyStr "webhook-timestamp")) := by
  have hescaped : (∀ e, verifyHeaders U H rawBody headers secret o = .error e → e.bounded = true)
      ↔ ¬ Escaped (verifyHeaders U H rawBody headers secret o) := by
    simp [Escaped]
  rw [hescaped]
  unfold verifyHeaders
  split
  next signature eventId eventType hsignature hid htype =>
    rw [escaped_bind, verifyScheme_escaped htolerance, or_iff_left]
    · rw [hsignature, hid, htype]
      simp
    · rintro ⟨t, -, h⟩
      exact not_escaped_ok h
  next hmissing =>
    constructor
    · exact fun _ signature eventId eventType hsignature hid htype =>
        absurd htype (hmissing signature eventId eventType hsignature hid)
    · rintro - ⟨e, he, hbounded⟩
      cases he
      cases hbounded

/-- A header without a signature that the receiver knows. -/
theorem receiver_fails_closed_iff_unknown :
    0 ≤ ({} : VerifyOptions).toleranceSeconds
      ∧ ∀ e, verifyHeaders asciiTables hmacSha256 [] (signedHeaders (pyStr "v2,x") (pyStr "e1")
        (pyStr "order.paid") (pyStr "17")) [] {} = .error e → e.bounded = true := by
  refine ⟨by decide, ?_⟩
  refine (receiver_fails_closed_iff asciiTables hmacSha256 [] _ [] {} (by decide)).mpr ?_
  intro signature eventId eventType hsignature hid htype hescapes
  have hsignature : signature = pyStr "v2,x" := (Option.some.inj hsignature).symm
  subst hsignature
  cases hescapes with
  | item hlegacy => exact absurd hlegacy (by decide)
  | secret hlegacy => exact absurd hlegacy (by decide)
  | timestamp _ _ hint => exact absurd hint (by decide)
  | eventId _ _ _ _ _ hsignatures => exact hsignatures (by decide)

/-- The ASCII tables and the superscript two, a digit without a decimal value. -/
def superscriptTables : Unicode :=
  { asciiTables with
    digit := fun c => isDigit c || decide (c = 178)
    digit_ascii := fun c hc => by rw [decide_eq_false (by omega), Bool.or_false] }

/-- **TWO HEADERS WITHOUT A SIGNATURE THAT ESCAPE**: `t=²` raises the
`ValueError` of `int`, and an accented identifier a `UnicodeEncodeError`. -/
theorem superscript_and_accent_escape :
    verifyHeaders superscriptTables hmacSha256 [] (signedHeaders (pyStr "t=²") (pyStr "e1")
        (pyStr "order.paid") (pyStr "17")) [] {} = .error .number
      ∧ verifyHeaders asciiTables hmacSha256 [] (signedHeaders (pyStr "v1,x") (pyStr "é")
        (pyStr "order.paid") (pyStr "17")) (standardSecret smallDigest) { now := some 17 }
        = .error .unicodeEncode := by
  decide +kernel

/-! ## §3. What is ignored. -/

/-- A token in which no item is named `t` or `v1`, and that is no `v1,` token. -/
structure UnknownToken (token : PyStr) : Prop where
  solid : Solid token
  nonempty : token ≠ []
  items : ∀ item ∈ token.splitOn 44, ∀ name ∈ [pyStr "t", pyStr "v1"], ¬ name ++ [61] <+: item
  version : ¬ pyStr "v1," <+: token

/-- Every item is `name=value`, with a value. -/
def WellFormedItems (token : PyStr) : Prop :=
  ∀ item ∈ token.splitOn 44, 61 ∈ item ∧ (partitionAt 61 item).2.2 ≠ []

theorem partitionAt_spec (h : sep ∈ text) :
    text = (partitionAt sep text).1 ++ sep :: (partitionAt sep text).2.2 := by
  obtain ⟨front, back, rfl, hfront⟩ := eq_append_cons_of_mem h
  rw [partitionAt_append hfront]

theorem mem_of_mem_splitOn {text : PyStr} (hitem : item ∈ text.splitOn sep) (hc : c ∈ item) :
    c ∈ text := by
  induction text generalizing item with
  | nil =>
    rw [splitOn_nil, mem_singleton] at hitem
    rw [hitem] at hc
    cases hc
  | cons a text ih =>
    rw [splitOn_cons_eq_if_modifyHead] at hitem
    split at hitem
    · rcases mem_cons.mp hitem with rfl | hitem
      · cases hc
      · exact mem_cons_of_mem a (ih hitem hc)
    · obtain ⟨head, rest, hsplit⟩ := exists_cons_of_ne_nil (splitOn_ne_nil sep text)
      rw [hsplit] at hitem ih
      rcases mem_cons.mp hitem with rfl | hitem
      · rcases mem_cons.mp hc with rfl | hc
        · exact mem_cons_self
        · exact mem_cons_of_mem a (ih mem_cons_self hc)
      · exact mem_cons_of_mem a (ih (mem_cons_of_mem _ hitem) hc)

/-- An item with another name is refused if it is malformed, and skipped
otherwise. -/
theorem signatureItem_unknown (hsolid : Solid item)
    (hname : ∀ name ∈ [pyStr "t", pyStr "v1"], ¬ name ++ [61] <+: item) :
    signatureItem U found item = if 61 ∈ item ∧ (partitionAt 61 item).2.2 ≠ [] then .ok found
      else .error .invalidSignature := by
  unfold signatureItem
  rw [stripSpace_solid hsolid]
  by_cases hsep : 61 ∈ item
  · have hother : ∀ name ∈ [pyStr "t", pyStr "v1"], (partitionAt 61 item).1 ≠ name := by
      rintro name hmem rfl
      refine hname _ hmem ⟨(partitionAt 61 item).2.2, ?_⟩
      rw [append_assoc]
      exact (partitionAt_spec hsep).symm
    have ht := hother (pyStr "t") (by simp)
    have hv1 := hother (pyStr "v1") (by simp)
    by_cases hvalue : (partitionAt 61 item).2.2 = []
    · simp [hvalue]
    · simp [hsep, hvalue, ht, hv1, show (partitionAt 61 item).2.1 = true from decide_eq_true hsep]
  · simp [hsep, show (partitionAt 61 item).2.1 = false from decide_eq_false hsep]

/-- A run over unknown items changes nothing, or fails at a malformed one. -/
theorem foldlM_unknown {items : List PyStr} (found : Option Int × List PyStr)
    (h : ∀ item ∈ items, ∀ found,
      signatureItem U found item = if 61 ∈ item ∧ (partitionAt 61 item).2.2 ≠ [] then .ok found
        else .error .invalidSignature) :
    ((∀ item ∈ items, 61 ∈ item ∧ (partitionAt 61 item).2.2 ≠ []) →
        items.foldlM (signatureItem U) found = .ok found)
      ∧ ((∃ item ∈ items, ¬ (61 ∈ item ∧ (partitionAt 61 item).2.2 ≠ [])) →
        items.foldlM (signatureItem U) found = .error .invalidSignature) := by
  induction items with
  | nil => exact ⟨fun _ => rfl, fun h => by simp at h⟩
  | cons item _ ih =>
    rw [forall_mem_cons] at h
    rw [foldlM_cons, h.1]
    by_cases hitem : 61 ∈ item ∧ (partitionAt 61 item).2.2 ≠ []
    · rw [if_pos hitem, ok_bind]
      simpa [hitem] using ih h.2
    · rw [if_neg hitem, error_bind]
      exact ⟨fun hall => absurd (hall item mem_cons_self) hitem, fun _ => rfl⟩

section Insertion

variable {before after : List PyStr}

theorem signatureParts_congr (h : (legacyItems signature').foldlM (signatureItem U) (none, [])
      = (legacyItems signature).foldlM (signatureItem U) (none, [])) :
    signatureParts U signature' = signatureParts U signature := by
  unfold signatureParts
  rw [foldlM_signatureToken, foldlM_signatureToken]
  exact congrArg (· >>= _) h

theorem verifySignature_congr (h : signatureParts U signature' = signatureParts U signature) :
    verifySignature U H rawBody signature' secret o
      = verifySignature U H rawBody signature secret o := by
  unfold verifySignature
  rw [h]

/-- **A token without `=` before its first comma** is not seen. -/
theorem verifyScheme_skipped (hunknown : UnknownToken token)
    (htokens : splitSpace signature = before ++ after)
    (htokens' : splitSpace signature' = before ++ token :: after)
    (hskipped : 61 ∉ (partitionAt 44 token).1) :
    verifyScheme U H rawBody signature' eventId timestampHeader secret o
      = verifyScheme U H rawBody signature eventId timestampHeader secret o := by
  have hlegacy : headerHasLegacyToken signature' = headerHasLegacyToken signature := by
    unfold headerHasLegacyToken
    rw [htokens, htokens']
    simp [hskipped]
  have hitems : legacyItems signature' = legacyItems signature := by
    unfold legacyItems
    rw [htokens, htokens']
    simp [tokenItems, hskipped]
  have hstandard : standardSignatures signature' = standardSignatures signature := by
    unfold standardSignatures
    rw [htokens, htokens', filterMap_append, filterMap_append, filterMap_cons_none]
    refine if_neg ?_
    rintro ⟨hsep, hversion, -⟩
    have hspec := partitionAt_spec (of_decide_eq_true hsep)
    rw [show (partitionAt 44 token).1 = pyStr "v1" from hversion] at hspec
    exact hunknown.version ⟨_, hspec.symm⟩
  have hparts : signatureParts U signature' = signatureParts U signature :=
    signatureParts_congr (by rw [hitems])
  unfold verifyScheme verifySignatureStandard
  rw [hlegacy, hstandard, verifySignature_congr hparts]

/-- A header without a legacy token has no timestamp. -/
theorem signatureParts_standard (h : headerHasLegacyToken signature = false) :
    signatureParts U signature = .error .invalidSignature := by
  have hitems : legacyItems signature = [] := by
    refine flatMap_eq_nil_iff.mpr fun token htoken => if_pos ?_
    simpa using any_eq_false.mp h token htoken
  unfold signatureParts
  rw [foldlM_signatureToken, show (splitSpace signature).flatMap tokenItems = [] from hitems]
  rfl

theorem headerHasLegacyToken_inserted (htokens' : splitSpace signature' = before ++ token :: after)
    (hparsed : 61 ∈ (partitionAt 44 token).1) : headerHasLegacyToken signature' = true := by
  unfold headerHasLegacyToken
  rw [htokens']
  simp [hparsed]

/-- **A token with `=` before its first comma** is parsed: well formed it adds
nothing, malformed it fails the header. -/
theorem signatureParts_inserted (hunknown : UnknownToken token)
    (htokens : splitSpace signature = before ++ after)
    (htokens' : splitSpace signature' = before ++ token :: after)
    (hparsed : 61 ∈ (partitionAt 44 token).1) :
    (WellFormedItems token → signatureParts U signature' = signatureParts U signature)
      ∧ (¬ WellFormedItems token → ∀ x, signatureParts U signature' ≠ .ok x) := by
  have hitems : tokenItems token = token.splitOn 44 := if_neg (not_not.mpr hparsed)
  have hsplit : legacyItems signature'
      = before.flatMap tokenItems ++ (token.splitOn 44 ++ after.flatMap tokenItems) := by
    unfold legacyItems
    rw [htokens', flatMap_append, flatMap_cons, hitems]
  have hrun := fun found : Option Int × List PyStr => foldlM_unknown (U := U) found
    fun item hitem found => signatureItem_unknown (U := U)
      (fun c hc => hunknown.solid c (mem_of_mem_splitOn hitem hc)) (hunknown.items item hitem)
  constructor
  · intro hwell
    refine signatureParts_congr ?_
    rw [hsplit, legacyItems, htokens, flatMap_append, foldlM_append, foldlM_append]
    congr 1
    funext found
    rw [foldlM_append, (hrun found).1 hwell, ok_bind]
  · intro hmalformed x hparts
    unfold signatureParts at hparts
    obtain ⟨final, hfinal, -⟩ := bind_eq_ok.mp hparts
    rw [foldlM_signatureToken] at hfinal
    change (legacyItems signature').foldlM (signatureItem U) (none, []) = _ at hfinal
    rw [hsplit, foldlM_append] at hfinal
    obtain ⟨found, -, hfinal⟩ := bind_eq_ok.mp hfinal
    rw [foldlM_append, (hrun found).2 (by simpa [WellFormedItems] using hmalformed)] at hfinal
    cases hfinal

end Insertion

/-- **UNKNOWN TOKENS ARE IGNORED, EXCEPT THOSE THAT LOOK LIKE LEGACY ONES.**
The header of an accepted request has an unknown token inserted anywhere: the
result is the same exactly if no `=` stands before the token's first comma, or
if the header is a legacy one and every item of the token has a value. -/
theorem unknown_token_ignored_iff (U : Unicode) (H : Hmac) (F : FloatOf) (rawBody : Bytes)
    (secret : PyStr) (o : VerifyOptions) (headers headers' : List (PyStr × PyStr))
    (signature signature' token : PyStr) (before after : List PyStr) (event : ReceiverEvent)
    (haccepted : verifyRequest U H F rawBody headers secret o = .ok event)
    (hsignature : normalizedGet U headers (pyStr "webhook-signature") = some signature)
    (hsignature' : normalizedGet U headers' (pyStr "webhook-signature") = some signature')
    (hothers : ∀ key ∈ [pyStr "webhook-id", pyStr "webhook-event", pyStr "webhook-timestamp"],
      normalizedGet U headers' key = normalizedGet U headers key)
    (hunknown : UnknownToken token) (htokens : splitSpace signature = before ++ after)
    (htokens' : splitSpace signature' = before ++ token :: after) :
    verifyRequest U H F rawBody headers' secret o = .ok event
      ↔ 61 ∉ (partitionAt 44 token).1
        ∨ (headerHasLegacyToken signature = true ∧ WellFormedItems token) := by
  obtain ⟨signature₀, hsignature₀, -, hid, hidne, htype, htypene, hscheme, hbody, hbodyId,
    hbodyType, hraw⟩ := verifyRequest_ok_iff.mp haccepted
  cases hsignature.symm.trans hsignature₀
  have hne : signature' ≠ [] := by
    rintro rfl
    exact absurd htokens' (by simp [splitSpace])
  -- the other headers and the body are the same, so the scheme decides
  have hdecides : verifyRequest U H F rawBody headers' secret o = .ok event
      ↔ verifyScheme U H rawBody signature' event.eventId
        (normalizedGet U headers (pyStr "webhook-timestamp")) secret o = .ok event.timestamp := by
    rw [verifyRequest_ok_iff, hothers (pyStr "webhook-id") (by simp),
      hothers (pyStr "webhook-event") (by simp), hothers (pyStr "webhook-timestamp") (by simp),
      hsignature']
    constructor
    · rintro ⟨x, hx, -, -, -, -, -, h, -⟩
      cases hx
      exact h
    · exact fun h => ⟨signature', rfl, hne, hid, hidne, htype, htypene, h, hbody, hbodyId,
        hbodyType, hraw⟩
  rw [hdecides]
  by_cases hskipped : 61 ∉ (partitionAt 44 token).1
  · rw [verifyScheme_skipped hunknown htokens htokens' hskipped]
    exact iff_of_true hscheme (Or.inl hskipped)
  have hparsed := not_not.mp hskipped
  obtain ⟨hwell, hmalformed⟩ := signatureParts_inserted (U := U) hunknown htokens htokens' hparsed
  rw [or_iff_right hskipped, verifyScheme, if_pos (headerHasLegacyToken_inserted htokens' hparsed)]
  constructor
  · intro h
    obtain ⟨t, hverified, -⟩ := bind_eq_ok.mp h
    obtain ⟨signatures, -, -, -, hparts, -⟩ := verifySignature_ok_iff.mp hverified
    by_cases hitems : WellFormedItems token
    · refine ⟨?_, hitems⟩
      -- a standard header has no timestamp of its own
      by_contra hstandard
      rw [hwell hitems, signatureParts_standard (Bool.eq_false_iff.mpr hstandard)] at hparts
      cases hparts
    · exact absurd hparts (hmalformed hitems _)
  · rintro ⟨hlegacy, hitems⟩
    rw [verifyScheme, if_pos hlegacy] at hscheme
    rw [verifySignature_congr (hwell hitems)]
    exact hscheme

/-- The headers of a small delivery, with this signature. -/
def smallHeaders (signature : PyStr) : List (PyStr × PyStr) :=
  signedHeaders signature (pyStr "e1") (pyStr "order.paid") (pyStr "1700000000")

/-- The event that its body is. -/
def smallReceived : ReceiverEvent :=
  ⟨pyStr "e1", pyStr "order.paid", 1700000000, readBack noFloats (smallFields "e1"),
    smallBody "e1"⟩

theorem small_accepted : verifyRequest asciiTables hmacSha256 noFloats (smallBody "e1")
      (smallHeaders (smallStandardHeader "e1" 1700000000)) (standardSecret smallDigest)
      { now := some 1700000000 } = .ok smallReceived := by
  rw [smallHeaders, verifyRequest_of_carries (carries_signedHeaders asciiTables _ _ _ _)
    (names_smallBody "e1" _ (by decide +kernel)) (by decide +kernel) (by decide) (by decide),
    show verifyScheme asciiTables hmacSha256 (smallBody "e1")
      (smallStandardHeader "e1" 1700000000) (pyStr "e1") (some (pyStr "1700000000"))
      (standardSecret smallDigest) { now := some 1700000000 } = .ok 1700000000 by decide +kernel]
  rfl

/-- `v2,x` in front of a standard signature. -/
theorem unknown_token_ignored_iff_v2 :
    verifyRequest asciiTables hmacSha256 noFloats (smallBody "e1")
      (smallHeaders (pyStr "v2,x " ++ smallStandardHeader "e1" 1700000000))
      (standardSecret smallDigest) { now := some 1700000000 } = .ok smallReceived :=
  (unknown_token_ignored_iff asciiTables hmacSha256 noFloats (smallBody "e1")
    (standardSecret smallDigest) { now := some 1700000000 } _ _ _ _ (pyStr "v2,x") []
    [smallStandardHeader "e1" 1700000000] smallReceived small_accepted
    (carries_signedHeaders asciiTables _ _ _ _).signature
    (carries_signedHeaders asciiTables _ _ _ _).signature
    (by decide +kernel) ⟨by unfold Solid; decide, by decide, by decide, by decide⟩
    (by decide +kernel) (by decide +kernel)).mpr (Or.inl (by decide))

/-- **`x=1` IN FRONT OF A STANDARD SIGNATURE** has the request refused. -/
theorem legacy_lookalike_refused :
    UnknownToken (pyStr "x=1")
      ∧ verifyRequest asciiTables hmacSha256 noFloats (smallBody "e1")
        (smallHeaders (smallStandardHeader "e1" 1700000000)) (standardSecret smallDigest)
        { now := some 1700000000 } = .ok smallReceived
      ∧ verifyHeaders asciiTables hmacSha256 (smallBody "e1")
        (smallHeaders (pyStr "x=1 " ++ smallStandardHeader "e1" 1700000000))
        (standardSecret smallDigest) { now := some 1700000000 } = .error .invalidSignature :=
  ⟨⟨by unfold Solid; decide, by decide, by decide, by decide⟩, small_accepted, by decide +kernel⟩

end WebhookPlatform
