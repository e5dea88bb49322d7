/-
  WebhookPlatform.Encodings
  **BYTES TO TEXT**, as `json.loads` does it before it parses: the encoding
  is guessed from the first bytes (`json.detect_encoding`), and the text is
  decoded with the error handler `surrogatepass`, so that surrogates go
  through as code points.

  The UTF-8 of `Json` is decoded to what was encoded (`decodeUtf8_encode`);
  and bytes that hold no zero and no mark of another encoding are taken for
  UTF-8 (`decodeDetected_plain`).
-/
import WebhookPlatform.Json

namespace WebhookPlatform

open List

/-! ## §1. UTF-8. -/

/-- A continuation byte. -/
def isTail (b : UInt8) : Bool := decide (0x80 ≤ b.toNat ∧ b.toNat < 0xC0)

/-- The six bits of a continuation byte. -/
def tailBits (b : UInt8) : Nat := b.toNat % 0x40

/-- The code points of two, three and four bytes. -/
def point₂ (a b : UInt8) : Nat := a.toNat % 0x20 * 0x40 + tailBits b
def point₃ (a b c : UInt8) : Nat := (a.toNat % 0x10 * 0x40 + tailBits b) * 0x40 + tailBits c
def point₄ (a b c d : UInt8) : Nat :=
  ((a.toNat % 0x08 * 0x40 + tailBits b) * 0x40 + tailBits c) * 0x40 + tailBits d

/-- The first code point of UTF-8, and how many bytes after its first byte
belong to it: no code point in more bytes than it needs, none above
`0x10FFFF`. -/
def utf8Head (a : UInt8) (rest : Bytes) : Option (Nat × Nat) :=
  if a.toNat < 0x80 then some (a.toNat, 0)
  else if a.toNat < 0xC2 then none
  else if a.toNat < 0xE0 then
    match rest with
    | b :: _ => if isTail b then some (point₂ a b, 1) else none
    | _ => none
  else if a.toNat < 0xF0 then
    match rest with
    | b :: c :: _ =>
      if isTail b && isTail c && decide (0x800 ≤ point₃ a b c) then some (point₃ a b c, 2)
      else none
    | _ => none
  else if a.toNat < 0xF5 then
    match rest with
    | b :: c :: d :: _ =>
      if isTail b && isTail c && isTail d
          && decide (0x10000 ≤ point₄ a b c d ∧ point₄ a b c d < 0x110000) then
        some (point₄ a b c d, 3)
      else none
    | _ => none
  else none

/-- The loop of the decoder; `skip` bytes have been read with the last code
point. -/
def decodeUtf8From : Nat → Bytes → Option PyStr
  | _, [] => some []
  | skip + 1, _ :: rest => decodeUtf8From skip rest
  | 0, a :: rest =>
    match utf8Head a rest with
    | none => none
    | some (c, skip) => (decodeUtf8From skip rest).map (c :: ·)

/-- `bytes.decode("utf-8", "surrogatepass")`; `none` is `UnicodeDecodeError`. -/
def decodeUtf8 (bytes : Bytes) : Option PyStr := decodeUtf8From 0 bytes

theorem isTail_high (h : isTail b = true) : 0x80 ≤ b.toNat := by
  unfold isTail at h
  exact (of_decide_eq_true h).1

/-- **One character of UTF-8**: ASCII is one byte, the others are bytes above
ASCII only. -/
theorem utf8Head_some (h : utf8Head a rest = some (c, k)) : (k = 0 ∧ c = a.toNat ∧ a.toNat < 0x80)
      ∨ (0x80 ≤ a.toNat ∧ 0x80 ≤ c ∧ k ≤ rest.length ∧ ∀ b ∈ rest.take k, 0x80 ≤ b.toNat) := by
  unfold utf8Head at h
  split at h
  next hascii =>
    injection h with h
    injection h with hc hk
    exact Or.inl ⟨hk.symm, hc.symm, hascii⟩
  next hascii =>
    refine Or.inr ⟨by omega, ?_⟩
    split at h
    · cases h
    split at h
    · split at h
      next b rest =>
        obtain ⟨hb, h⟩ := Option.ite_none_right_eq_some.mp h
        injection h with h
        injection h with hc hk
        subst hc hk
        refine ⟨by unfold point₂; omega, by simp, fun x hx => ?_⟩
        rw [take_succ_cons, take_zero, mem_singleton] at hx
        rw [hx]
        exact isTail_high hb
      · cases h
    split at h
    · split at h
      next b c rest =>
        obtain ⟨hb, h⟩ := Option.ite_none_right_eq_some.mp h
        simp only [Bool.and_eq_true, decide_eq_true_eq] at hb
        injection h with h
        injection h with hc hk
        subst hc hk
        refine ⟨by omega, by simp, fun x hx => ?_⟩
        simp only [take_succ_cons, take_zero, mem_cons, not_mem_nil, or_false] at hx
        rcases hx with rfl | rfl
        · exact isTail_high hb.1.1
        · exact isTail_high hb.1.2
      · cases h
    split at h
    · split at h
      next b c d rest =>
        obtain ⟨hb, h⟩ := Option.ite_none_right_eq_some.mp h
        simp only [Bool.and_eq_true, decide_eq_true_eq] at hb
        injection h with h
        injection h with hc hk
        subst hc hk
        refine ⟨by omega, by simp, fun x hx => ?_⟩
        simp only [take_succ_cons, take_zero, mem_cons, not_mem_nil, or_false] at hx
        rcases hx with rfl | rfl | rfl
        · exact isTail_high hb.1.1.1
        · exact isTail_high hb.1.1.2
        · exact isTail_high hb.1.2
      · cases h
    · cases h

/-- Bytes that were read with a code point are passed over. -/
theorem decodeUtf8From_append (used rest : Bytes) :
    decodeUtf8From used.length (used ++ rest) = decodeUtf8 rest := by
  induction used with
  | nil => rfl
  | cons _ _ ih => exact ih

theorem toNat_ofNat_byte (h : n < 256) : (UInt8.ofNat n).toNat = n := UInt8.toNat_ofNat_of_lt' h

theorem isTail_ofNat (h : n < 0x40) : isTail (UInt8.ofNat (0x80 + n)) = true := by
  unfold isTail
  rw [toNat_ofNat_byte (by omega)]
  exact decide_eq_true (by omega)

theorem tailBits_ofNat (h : n < 0x40) : tailBits (UInt8.ofNat (0x80 + n)) = n := by
  unfold tailBits
  rw [toNat_ofNat_byte (by omega)]
  omega

/-! The bits of a code point, put together again. -/

theorem mod_64_lt (n : Nat) : n % 0x40 < 0x40 := Nat.mod_lt n (by omega)

theorem point₂_ofNat (h : c < 0x800) :
    point₂ (UInt8.ofNat (0xC0 + c / 0x40)) (UInt8.ofNat (0x80 + c % 0x40)) = c := by
  unfold point₂
  rw [tailBits_ofNat (mod_64_lt _), toNat_ofNat_byte (by omega)]
  omega

theorem point₃_ofNat (h : c < 0x10000) :
    point₃ (UInt8.ofNat (0xE0 + c / 0x1000)) (UInt8.ofNat (0x80 + c / 0x40 % 0x40))
      (UInt8.ofNat (0x80 + c % 0x40)) = c := by
  unfold point₃
  rw [tailBits_ofNat (mod_64_lt _), tailBits_ofNat (mod_64_lt _), toNat_ofNat_byte (by omega)]
  omega

theorem point₄_ofNat (h : c < 0x110000) :
    point₄ (UInt8.ofNat (0xF0 + c / 0x40000)) (UInt8.ofNat (0x80 + c / 0x1000 % 0x40))
      (UInt8.ofNat (0x80 + c / 0x40 % 0x40)) (UInt8.ofNat (0x80 + c % 0x40)) = c := by
  unfold point₄
  rw [tailBits_ofNat (mod_64_lt _), tailBits_ofNat (mod_64_lt _), tailBits_ofNat (mod_64_lt _),
    toNat_ofNat_byte (by omega)]
  omega

/-- The head of what one code point was encoded to. -/
theorem utf8Head_point {tail : Bytes} (h : utf8Point c = some (a :: tail)) (rest : Bytes) :
    utf8Head a (tail ++ rest) = some (c, tail.length) := by
  unfold utf8Point at h
  split at h
  next hc =>
    injection h with h
    injection h with ha htail
    subst ha htail
    unfold utf8Head
    rw [toNat_ofNat_byte (by omega), if_pos hc]
    rfl
  next hc =>
    split at h
    next hc₂ =>
      injection h with h
      injection h with ha htail
      subst ha htail
      unfold utf8Head
      rw [toNat_ofNat_byte (by omega), if_neg (by omega), if_neg (by omega), if_pos (by omega)]
      simp only [cons_append, isTail_ofNat (mod_64_lt _), point₂_ofNat hc₂, if_true]
      rfl
    next hc₂ =>
      split at h
      · cases h
      split at h
      next hc₃ =>
        injection h with h
        injection h with ha htail
        subst ha htail
        have hlow : 0x800 ≤ c := by omega
        unfold utf8Head
        rw [toNat_ofNat_byte (by omega), if_neg (by omega), if_neg (by omega),
          if_neg (by omega), if_pos (by omega)]
        simp only [cons_append, isTail_ofNat (mod_64_lt _), point₃_ofNat hc₃, hlow,
          decide_true, Bool.and_self, if_true]
        rfl
      next hc₃ =>
        split at h
        next hc₄ =>
          injection h with h
          injection h with ha htail
          subst ha htail
          have hrange : 0x10000 ≤ c ∧ c < 0x110000 := by omega
          unfold utf8Head
          rw [toNat_ofNat_byte (by omega), if_neg (by omega), if_neg (by omega),
            if_neg (by omega), if_neg (by omega), if_pos (by omega)]
          simp only [cons_append, isTail_ofNat (mod_64_lt _), point₄_ofNat hc₄, hrange,
            and_self, decide_true, Bool.and_self, if_true]
          rfl
        · cases h

theorem utf8Point_ne_nil : utf8Point c ≠ some [] := by
  unfold utf8Point
  split_ifs <;> simp

theorem utf8Point_lt (h : utf8Point c = some bytes) : ∀ b ∈ bytes, b.toNat < 0xF5 := by
  have hbyte : ∀ {b : UInt8} {n : Nat}, b = UInt8.ofNat n → n < 0xF5 → b.toNat < 0xF5 := by
    intro b n hb hn
    rw [hb, toNat_ofNat_byte (by omega)]
    exact hn
  intro b hb
  unfold utf8Point at h
  split_ifs at h <;> injection h with h <;> subst h <;>
    simp only [mem_cons, not_mem_nil, or_false] at hb
  · exact hbyte hb (by omega)
  · rcases hb with hb | hb <;> exact hbyte hb (by omega)
  · rcases hb with hb | hb | hb <;> exact hbyte hb (by omega)
  · rcases hb with hb | hb | hb | hb <;> exact hbyte hb (by omega)

theorem encodeUtf8_cons : encodeUtf8 (c :: text) = some bytes
      ↔ ∃ head tail, utf8Point c = some head ∧ encodeUtf8 text = some tail
        ∧ bytes = head ++ tail := by
  rw [encodeUtf8, Option.bind_eq_bind, Option.bind_eq_some_iff]
  constructor
  · rintro ⟨head, hhead, h⟩
    rw [Option.bind_eq_some_iff] at h
    obtain ⟨tail, htail, h⟩ := h
    exact ⟨head, tail, hhead, htail, (Option.some.inj h).symm⟩
  · rintro ⟨head, tail, hhead, htail, rfl⟩
    exact ⟨head, hhead, by rw [htail]; rfl⟩

/-- UTF-8 has no byte above `F4`. -/
theorem encodeUtf8_lt (h : encodeUtf8 text = some bytes) : ∀ b ∈ bytes, b.toNat < 0xF5 := by
  induction text generalizing bytes with
  | nil =>
    cases h
    exact fun b hb => absurd hb not_mem_nil
  | cons _ _ ih =>
    obtain ⟨head, tail, hhead, htail, rfl⟩ := encodeUtf8_cons.1 h
    intro b hb
    rcases mem_append.1 hb with hb | hb
    · exact utf8Point_lt hhead b hb
    · exact ih htail b hb

/-- **What was encoded is decoded.** -/
theorem decodeUtf8_encode (h : encodeUtf8 text = some bytes) : decodeUtf8 bytes = some text := by
  induction text generalizing bytes with
  | nil =>
    cases h
    rfl
  | cons c _ ih =>
    obtain ⟨point, rest, hpoint, hrest, rfl⟩ := encodeUtf8_cons.1 h
    cases point with
    | nil => exact absurd hpoint utf8Point_ne_nil
    | cons a tail =>
      show decodeUtf8From 0 (a :: (tail ++ rest)) = _
      rw [decodeUtf8From, utf8Head_point hpoint]
      show (decodeUtf8From tail.length (tail ++ rest)).map (c :: ·) = _
      rw [decodeUtf8From_append, ih hrest]
      rfl

/-! ## §2. UTF-16 and UTF-32. -/

/-- The order of the bytes of a unit. -/
inductive Endian where
  | little
  | big

/-- `(code - 0xD800) < 0x400`. -/
def isHighSurrogate (c : Nat) : Bool := decide (0xD800 ≤ c ∧ c < 0xDC00)
def isLowSurrogate (c : Nat) : Bool := decide (0xDC00 ≤ c ∧ c < 0xE000)

/-- The code point of a surrogate pair. -/
def joinSurrogates (high low : Nat) : Nat := 0x10000 + (high - 0xD800) * 0x400 + (low - 0xDC00)

/-- The units of two bytes; a byte too many is an error. -/
def units16 (order : Endian) : Bytes → Option (List Nat)
  | [] => some []
  | [_] => none
  | a :: b :: rest =>
    (units16 order rest).map ((match order with
      | .little => b.toNat * 0x100 + a.toNat
      | .big => a.toNat * 0x100 + b.toNat) :: ·)

/-- Pairs are joined; a surrogate on its own goes through. -/
def joinUnits : List Nat → PyStr
  | [] => []
  | [c] => [c]
  | c :: d :: rest =>
    if isHighSurrogate c && isLowSurrogate d then joinSurrogates c d :: joinUnits rest
    else c :: joinUnits (d :: rest)

/-- `bytes.decode("utf-16-le", "surrogatepass")`, and big endian. -/
def decodeUtf16 (order : Endian) (bytes : Bytes) : Option PyStr :=
  (units16 order bytes).map joinUnits

/-- `bytes.decode("utf-32-le", "surrogatepass")`, and big endian. -/
def decodeUtf32 (order : Endian) : Bytes → Option PyStr
  | [] => some []
  | a :: b :: c :: d :: rest =>
    let point := match order with
      | .little => ((d.toNat * 0x100 + c.toNat) * 0x100 + b.toNat) * 0x100 + a.toNat
      | .big => ((a.toNat * 0x100 + b.toNat) * 0x100 + c.toNat) * 0x100 + d.toNat
    if point < 0x110000 then (decodeUtf32 order rest).map (point :: ·) else none
  | _ => none

/-! ## §3. Guessing the encoding. -/

/-- The encodings that `detect_encoding` names; `utf16` and `utf32` take the
order from the byte order mark. -/
inductive Encoding where
  | utf8
  | utf8Sig
  | utf16
  | utf32
  | utf16Order (order : Endian)
  | utf32Order (order : Endian)

/-- The guess without a byte order mark. -/
def detectOrder : Bytes → Encoding
  | a :: b :: c :: d :: _ =>
    if a = 0 then if b = 0 then .utf32Order .big else .utf16Order .big
    else if b = 0 then if c = 0 ∧ d = 0 then .utf32Order .little else .utf16Order .little
    else .utf8
  | [a, b] => if a = 0 then .utf16Order .big else if b = 0 then .utf16Order .little else .utf8
  | _ => .utf8

/-- `detect_encoding`. -/
def detectEncoding (bytes : Bytes) : Encoding :=
  if [0x00, 0x00, 0xFE, 0xFF] <+: bytes ∨ [0xFF, 0xFE, 0x00, 0x00] <+: bytes then .utf32
  else if [0xFE, 0xFF] <+: bytes ∨ [0xFF, 0xFE] <+: bytes then .utf16
  else if [0xEF, 0xBB, 0xBF] <+: bytes then .utf8Sig
  else detectOrder bytes

/-- `s.decode(detect_encoding(s), "surrogatepass")`. -/
def decodeDetected (bytes : Bytes) : Option PyStr :=
  match detectEncoding bytes with
  | .utf8 => decodeUtf8 bytes
  | .utf8Sig => decodeUtf8 (bytes.drop 3)
  | .utf16 =>
    decodeUtf16 (if [0xFF, 0xFE] <+: bytes then .little else .big) (bytes.drop 2)
  | .utf32 =>
    decodeUtf32 (if [0xFF, 0xFE] <+: bytes then .little else .big) (bytes.drop 4)
  | .utf16Order order => decodeUtf16 order bytes
  | .utf32Order order => decodeUtf32 order bytes

/-- **Bytes without zero and without byte order marks of 16 and 32 bits** are
taken for UTF-8, with or without its own mark. -/
theorem decodeDetected_plain (hzero : (0 : UInt8) ∉ bytes) (hmark : ∀ b ∈ bytes, b.toNat < 0xFE) :
    decodeDetected bytes = if [0xEF, 0xBB, 0xBF] <+: bytes then decodeUtf8 (bytes.drop 3)
      else decodeUtf8 bytes := by
  have hfirst : ∀ {b : UInt8} {p : Bytes}, (b :: p) <+: bytes → b ∈ bytes := by
    intro b p h
    exact h.subset mem_cons_self
  have h32 : ¬ ([0x00, 0x00, 0xFE, 0xFF] <+: bytes ∨ [0xFF, 0xFE, 0x00, 0x00] <+: bytes) := by
    rintro (h | h)
    · exact hzero (hfirst h)
    · exact absurd (hmark _ (hfirst h)) (by decide)
  have h16 : ¬ ([0xFE, 0xFF] <+: bytes ∨ [0xFF, 0xFE] <+: bytes) := by
    rintro (h | h)
    · exact absurd (hmark _ (hfirst h)) (by decide)
    · exact absurd (hmark _ (hfirst h)) (by decide)
  have horder : detectOrder bytes = .utf8 := by
    unfold detectOrder
    split
    next a b c d rest =>
      rw [if_neg (fun h : a = 0 => hzero (by simp [h])),
        if_neg (fun h : b = 0 => hzero (by simp [h]))]
    next a b =>
      rw [if_neg (fun h : a = 0 => hzero (by simp [h])),
        if_neg (fun h : b = 0 => hzero (by simp [h]))]
    · rfl
  unfold decodeDetected detectEncoding
  rw [if_neg h32, if_neg h16]
  by_cases hsig : [0xEF, 0xBB, 0xBF] <+: bytes
  · rw [if_pos hsig, if_pos hsig]
  · rw [if_neg hsig, if_neg hsig, horder]

end WebhookPlatform
