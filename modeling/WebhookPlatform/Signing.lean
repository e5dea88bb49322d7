/-
  WebhookPlatform.Signing
  **Endpoint secrets and signatures** (`app/webhook_security.py`).

  Both serialisations of a secret carry the same derived digest, under the
  same mark, and they never coincide as strings.  They are used differently:

      scheme     signature header       signed bytes      key
      legacy     t=<T>,v1=<hex>         T.body            the secret string
      standard   v1,<base64>            id.T.body         the digest

  The hash is an argument (`Hmac`); `hmacSha256` is the one the code names.
-/
import WebhookPlatform.PyText
import WebhookPlatform.Lib.Base64
import WebhookPlatform.Lib.Sha256

namespace WebhookPlatform

open Option

/-! ## §1. The keyed hash. -/

/-- `hmac.new(key, message, hashlib.sha256).digest()`. -/
structure Hmac where
  digest : Bytes → Bytes → Bytes
  length_digest : ∀ key message, (digest key message).length = 32

/-- HMAC over SHA-256. -/
def hmacSha256 : Hmac := ⟨Sha256.hmac, Sha256.length_hmac⟩

/-- A hexadecimal digit, in lower case. -/
def hexPoint (d : Nat) : Nat := if d < 10 then 48 + d else 87 + d

/-- `bytes.hex()`, which `hexdigest` returns. -/
def hexText (bytes : Bytes) : PyStr :=
  bytes.flatMap fun b => [hexPoint (b.toNat / 16), hexPoint (b.toNat % 16)]

theorem length_hexText (bytes : Bytes) : (hexText bytes).length = 2 * bytes.length := by
  induction bytes with
  | nil => rfl
  | cons _ _ ih =>
    rw [hexText, List.flatMap_cons, List.length_append, ← hexText, ih]
    simp only [List.length_cons, List.length_nil]
    omega

theorem hexPoint_cases (h : d < 16) :
    (48 ≤ hexPoint d ∧ hexPoint d ≤ 57) ∨ (97 ≤ hexPoint d ∧ hexPoint d ≤ 102) := by
  unfold hexPoint
  split <;> omega

/-- A hexadecimal text is lower-case ASCII letters and digits. -/
theorem mem_hexText (h : c ∈ hexText bytes) : (48 ≤ c ∧ c ≤ 57) ∨ (97 ≤ c ∧ c ≤ 102) := by
  obtain ⟨b, -, hc⟩ := List.mem_flatMap.1 h
  have hb := b.toNat_lt
  rcases List.mem_cons.1 hc with rfl | hc
  · exact hexPoint_cases (by omega)
  · rw [List.mem_singleton] at hc
    rw [hc]
    exact hexPoint_cases (by omega)

/-- Two digits a byte: the text determines the bytes. -/
theorem hexText_injective (h : hexText a = hexText b) : a = b := by
  have hpoint : ∀ {d e : Nat}, d < 16 → e < 16 → hexPoint d = hexPoint e → d = e := by
    intro d e hd he heq
    unfold hexPoint at heq
    split at heq <;> split at heq <;> omega
  induction a generalizing b with
  | nil =>
    cases b with
    | nil => rfl
    | cons => exact absurd h (by simp [hexText])
  | cons x _ ih =>
    cases b with
    | nil => exact absurd h (by simp [hexText])
    | cons y =>
      have hx := x.toNat_lt
      have hy := y.toNat_lt
      injection h with hhigh h
      injection h with hlow hrest
      have h₁ := hpoint (by omega) (by omega) hhigh
      have h₂ := hpoint (by omega) (by omega) hlow
      have hxy : x = y := UInt8.toNat_inj.1 (by omega)
      rw [hxy, ih hrest]

/-! ## §2. Secrets. -/

/-- `"whsec_"`. -/
def secretMark : PyStr := pyStr "whsec_"

/-- `b64encode(digest).decode()`. -/
def b64Text (bytes : Bytes) : PyStr := Base64.encode bytes

theorem isAscii_b64Text (bytes : Bytes) : isAscii (b64Text bytes) = true := by
  refine isAscii_iff.2 fun c hc => ?_
  rcases Base64.mem_encode hc with rfl | ⟨n, hn, rfl⟩
  · decide
  · exact Base64.char_lt n hn

/-- The translation of `urlsafe_b64encode`. -/
def urlsafePoint (c : Nat) : Nat := if c = 43 then 45 else if c = 47 then 95 else c

/-- `urlsafe_b64encode(digest).decode()`. -/
def urlsafeB64Text (bytes : Bytes) : PyStr := (Base64.encode bytes).map urlsafePoint

/-- `text.rstrip("=")`. -/
def rstripPad (text : PyStr) : PyStr := (text.reverse.dropWhile (· == Base64.pad)).reverse

/-- The legacy serialisation of a digest. -/
def legacySecret (digest : Bytes) : PyStr := secretMark ++ rstripPad (urlsafeB64Text digest)

/-- The standard serialisation of a digest. -/
def standardSecret (digest : Bytes) : PyStr := secretMark ++ b64Text digest

/-- `endpoint_secret_digest`; `none` is a `ValueError`, of a version without
a `str` or of a lone surrogate. -/
def endpointSecretDigest (H : Hmac) (signingKey endpointPublicId : PyStr) (secretVersion : Int) :
    Option Bytes := do
  let version ← strInt secretVersion
  let material ← encodeUtf8 (pyStr "endpoint:" ++ endpointPublicId ++ pyStr ":v" ++ version)
  let key ← encodeUtf8 signingKey
  some (H.digest key material)

/-- `endpoint_secret`. -/
def endpointSecret (H : Hmac) (signingKey endpointPublicId : PyStr) (secretVersion : Int) :
    Option PyStr := do
  let version ← strInt secretVersion
  let material ← encodeUtf8 (pyStr "endpoint:" ++ endpointPublicId ++ pyStr ":v" ++ version)
  let key ← encodeUtf8 signingKey
  some (legacySecret (H.digest key material))

/-- `endpoint_secret_standard`. -/
def endpointSecretStandard (H : Hmac) (signingKey endpointPublicId : PyStr)
    (secretVersion : Int) : Option PyStr := do
  let digest ← endpointSecretDigest H signingKey endpointPublicId secretVersion
  some (standardSecret digest)

/-- Both serialisations are of one digest. -/
theorem endpointSecret_eq (H : Hmac) (signingKey endpointPublicId : PyStr) (secretVersion : Int) :
    endpointSecret H signingKey endpointPublicId secretVersion
      = (endpointSecretDigest H signingKey endpointPublicId secretVersion).map legacySecret := by
  unfold endpointSecret endpointSecretDigest
  generalize strInt secretVersion = version
  cases version with
  | none => rfl
  | some =>
    simp only [bind_eq_bind, bind_some, map_bind, Function.comp_def, map_some]

theorem length_endpointSecretDigest {secretVersion : Int}
    (h : endpointSecretDigest H signingKey endpointPublicId secretVersion = some digest) :
    digest.length = 32 := by
  simp only [endpointSecretDigest, bind_eq_bind, bind_eq_some_iff] at h
  obtain ⟨version, -, material, -, key, -, hdigest⟩ := h
  rw [← Option.some.inj hdigest]
  exact H.length_digest key material

/-! ## §3. Signatures. -/

/-- `sign_payload`; `clock` is `int(time.time())`. -/
def signPayload (H : Hmac) (payloadBytes : Bytes) (secret : PyStr) (timestamp : Option Int)
    (clock : Int) : Option (Int × PyStr) := do
  let timestamp := timestamp.getD clock
  let text ← strInt timestamp
  let head ← encodeAscii text
  let signed := head ++ [46] ++ payloadBytes
  let key ← encodeUtf8 secret
  let digest := hexText (H.digest key signed)
  some (timestamp, pyStr "t=" ++ text ++ pyStr ",v1=" ++ digest)

/-- `sign_payload_standard`. -/
def signPayloadStandard (H : Hmac) (eventId : PyStr) (payloadBytes key : Bytes)
    (timestamp : Option Int) (clock : Int) : Option (Int × PyStr) := do
  let timestamp := timestamp.getD clock
  let text ← strInt timestamp
  let head ← encodeAscii (eventId ++ [46] ++ text ++ [46])
  let signed := head ++ payloadBytes
  let digest := H.digest key signed
  some (timestamp, pyStr "v1," ++ b64Text digest)

theorem strInt_eq_some {n : Int} (h : strInt n = some text) (hn : 0 ≤ n) :
    text = decimal n.toNat ∧ n.toNat < 10 ^ maxStrDigits := by
  unfold strInt at h
  split at h
  · cases h
  next hsmall =>
    have habs : n.natAbs = n.toNat := by omega
    rw [if_neg (by omega), habs] at h
    rw [habs] at hsmall
    exact ⟨(Option.some.inj h).symm, Nat.lt_of_not_le hsmall⟩

theorem strInt_of_nonneg {n : Int} (hn : 0 ≤ n) (hsmall : n.toNat < 10 ^ maxStrDigits) :
    strInt n = some (decimal n.toNat) := by
  rw [strInt, show n.natAbs = n.toNat by omega, if_neg (by omega), if_neg (by omega)]

/-- **The legacy signature** of a timestamp that is not negative. -/
theorem signPayload_eq_some {ts : Int} {result : Int × PyStr} (hts : 0 ≤ ts)
    (h : signPayload H payloadBytes secret (some ts) clock = some result) :
    ts.toNat < 10 ^ maxStrDigits ∧ ∃ key, encodeUtf8 secret = some key
      ∧ result = (ts, pyStr "t=" ++ decimal ts.toNat ++ pyStr ",v1=" ++ hexText (H.digest key
            ((decimal ts.toNat).map UInt8.ofNat ++ [46] ++ payloadBytes))) := by
  simp only [signPayload, getD_some, bind_eq_bind, bind_eq_some_iff] at h
  obtain ⟨text, htext, head, hhead, key, hkey, hresult⟩ := h
  obtain ⟨rfl, hsmall⟩ := strInt_eq_some htext hts
  obtain ⟨-, rfl⟩ := encodeAscii_eq_some.1 hhead
  exact ⟨hsmall, key, hkey, (Option.some.inj hresult).symm⟩

/-- **The standard signature** of a timestamp that is not negative. -/
theorem signPayloadStandard_eq_some {ts : Int} {result : Int × PyStr} (hts : 0 ≤ ts)
    (h : signPayloadStandard H eventId payloadBytes key (some ts) clock = some result) :
    ts.toNat < 10 ^ maxStrDigits
      ∧ ∃ head, encodeAscii (eventId ++ [46] ++ decimal ts.toNat ++ [46]) = some head
      ∧ result = (ts, pyStr "v1," ++ b64Text (H.digest key (head ++ payloadBytes))) := by
  simp only [signPayloadStandard, getD_some, bind_eq_bind, bind_eq_some_iff] at h
  obtain ⟨text, htext, head, hhead, hresult⟩ := h
  obtain ⟨rfl, hsmall⟩ := strInt_eq_some htext hts
  exact ⟨hsmall, head, hhead, (Option.some.inj hresult).symm⟩

/-- Without a timestamp it is signed at the clock; and the signing succeeds. -/
theorem signPayload_clock (H : Hmac) (payloadBytes : Bytes) (hsecret : isAscii secret = true)
    (hclock : 0 ≤ clock) (hsmall : clock.toNat < 10 ^ maxStrDigits) :
    signPayload H payloadBytes secret none clock
        = signPayload H payloadBytes secret (some clock) clock
      ∧ ∃ header, signPayload H payloadBytes secret (some clock) clock = some (clock, header)
        ∧ isAscii header = true := by
  refine ⟨by simp only [signPayload, getD_none, getD_some],
    pyStr "t=" ++ decimal clock.toNat ++ pyStr ",v1=" ++ hexText (H.digest
      (secret.map UInt8.ofNat) ((decimal clock.toNat).map UInt8.ofNat ++ [46] ++ payloadBytes)),
    ?_, ?_⟩
  · simp only [signPayload, getD_some, strInt_of_nonneg hclock hsmall, bind_eq_bind,
      bind_some, encodeAscii_of_isAscii (isAscii_decimal _),
      encodeUtf8_of_isAscii hsecret]
  · refine isAscii_append.2 ⟨isAscii_append.2 ⟨isAscii_append.2 ⟨by decide, isAscii_decimal _⟩,
      by decide⟩, isAscii_iff.2 fun x hx => ?_⟩
    have := mem_hexText hx
    omega

theorem signPayloadStandard_clock (H : Hmac) (payloadBytes key : Bytes)
    (hid : isAscii eventId = true) (hclock : 0 ≤ clock) (hsmall : clock.toNat < 10 ^ maxStrDigits) :
    signPayloadStandard H eventId payloadBytes key none clock
        = signPayloadStandard H eventId payloadBytes key (some clock) clock
      ∧ ∃ header, signPayloadStandard H eventId payloadBytes key (some clock) clock
          = some (clock, header) ∧ isAscii header = true := by
  have hhead : isAscii (eventId ++ [46] ++ decimal clock.toNat ++ [46]) = true :=
    isAscii_append.2 ⟨isAscii_append.2 ⟨isAscii_append.2 ⟨hid, rfl⟩, isAscii_decimal _⟩, rfl⟩
  refine ⟨by simp only [signPayloadStandard, getD_none, getD_some],
    pyStr "v1," ++ b64Text (H.digest key
      ((eventId ++ [46] ++ decimal clock.toNat ++ [46]).map UInt8.ofNat ++ payloadBytes)),
    ?_, ?_⟩
  · simp only [signPayloadStandard, getD_some, strInt_of_nonneg hclock hsmall,
      bind_eq_bind, bind_some, encodeAscii_of_isAscii hhead]
  · exact isAscii_append.2 ⟨by decide, isAscii_b64Text _⟩

end WebhookPlatform
