/-
  WebhookPlatform.PyText
  **The methods of `str` on which a signature header is taken apart**:
  `split`, `partition`, `strip`, `lower`, `isdigit`, `isascii`, and
  `bytes.fromhex`.

  Whitespace is the whole Unicode table.  The tables of letters and digits are
  an argument (`Unicode`) that is fixed on ASCII: beyond it a header may hold
  a digit that is no decimal, such as a superscript, which `isdigit` takes and
  `int` refuses.
-/
import WebhookPlatform.Json

namespace WebhookPlatform

open List

/-! ## §1. Splitting. -/

/-- `str.isspace` of a code point. -/
def isSpacePoint (c : Nat) : Bool :=
  decide (9 ≤ c ∧ c ≤ 13) || decide (28 ≤ c ∧ c ≤ 32) || decide (8192 ≤ c ∧ c ≤ 8202)
    || decide (c ∈ [133, 160, 5760, 8232, 8233, 8239, 8287, 12288])

/-- `text.split()`. -/
def splitSpace (text : PyStr) : List PyStr :=
  (text.splitOnP isSpacePoint).filter fun word => decide (word ≠ [])

/-- `text.partition(sep)` for one character: what stands before the first
one, whether there is one, and what stands behind it. -/
def partitionAt (sep : Nat) (text : PyStr) : PyStr × Bool × PyStr :=
  (text.takeWhile (· != sep), decide (sep ∈ text), (text.dropWhile (· != sep)).tail)

/-- `text.strip()`. -/
def stripSpace (text : PyStr) : PyStr :=
  ((text.dropWhile isSpacePoint).reverse.dropWhile isSpacePoint).reverse

/-- A text without whitespace. -/
def Solid (text : PyStr) : Prop := ∀ c ∈ text, isSpacePoint c = false

variable {text : PyStr}

theorem splitSpace_solid (h : Solid text) (hne : text ≠ []) : splitSpace text = [text] := by
  rw [splitSpace, splitOnP_eq_singleton h]
  simp [hne]

theorem partitionAt_append {sep : Nat} {before : PyStr} (h : sep ∉ before) (behind : PyStr) :
    partitionAt sep (before ++ sep :: behind) = (before, true, behind) := by
  have hbefore : ∀ c ∈ before, (c != sep) = true := by
    intro c hc
    rw [bne_iff_ne]
    rintro rfl
    exact h hc
  unfold partitionAt
  rw [takeWhile_append_of_pos hbefore, dropWhile_append_of_pos hbefore]
  simp

theorem stripSpace_solid (h : Solid text) : stripSpace text = text := by
  have hdrop : ∀ {t : PyStr}, Solid t → t.dropWhile isSpacePoint = t := by
    intro t ht
    cases t with
    | nil => rfl
    | cons c => simp [ht c mem_cons_self]
  have hreverse : Solid text.reverse := fun c hc => h c (mem_reverse.1 hc)
  rw [stripSpace, hdrop h, hdrop hreverse, reverse_reverse]

/-! ## §2. ASCII. -/

/-- `text.isascii()`. -/
def isAscii (text : PyStr) : Bool := text.all fun c => decide (c < 128)

/-- `text.encode("ascii")`; `none` is the `UnicodeEncodeError`. -/
def encodeAscii (text : PyStr) : Option Bytes :=
  if isAscii text then some (text.map UInt8.ofNat) else none

theorem isAscii_iff : isAscii text = true ↔ ∀ c ∈ text, c < 128 := by
  simp [isAscii]

theorem isAscii_append : isAscii (s ++ t) = true ↔ isAscii s = true ∧ isAscii t = true := by
  simp [isAscii, all_append]

theorem encodeAscii_of_isAscii (h : isAscii text = true) :
    encodeAscii text = some (text.map UInt8.ofNat) := if_pos h

theorem encodeAscii_eq_some :
    encodeAscii text = some bytes ↔ isAscii text = true ∧ text.map UInt8.ofNat = bytes := by
  unfold encodeAscii
  split
  next h => simp [h]
  next h => simp [h]

/-- ASCII text is its own UTF-8. -/
theorem encodeUtf8_of_isAscii (h : isAscii text = true) :
    encodeUtf8 text = some (text.map UInt8.ofNat) := by
  induction text with
  | nil => rfl
  | cons c text ih =>
    have hc : c < 128 := isAscii_iff.1 h c mem_cons_self
    have htext : isAscii text = true :=
      isAscii_iff.2 fun d hd => isAscii_iff.1 h d (mem_cons_of_mem c hd)
    rw [encodeUtf8, utf8Point, if_pos hc, ih htext]
    rfl

theorem isAscii_decimal (n : Nat) : isAscii (decimal n) = true := by
  refine isAscii_iff.2 fun c hc => ?_
  have := of_decide_eq_true (isDigit_of_mem_decimal hc)
  omega

/-- `bytes.fromhex(text)` succeeds: pairs of hexadecimal digits, with spaces
between the pairs. -/
def fromHexOk : PyStr → Bool
  | [] => true
  | [c] => isHexSpace c
  | c :: d :: rest =>
    if isHexSpace c then fromHexOk (d :: rest)
    else isHexDigit c && isHexDigit d && fromHexOk rest
where
  isHexSpace (c : Nat) : Bool := decide (9 ≤ c ∧ c ≤ 13) || decide (c = 32)
  isHexDigit (c : Nat) : Bool :=
    decide (48 ≤ c ∧ c ≤ 57) || decide (65 ≤ c ∧ c ≤ 70) || decide (97 ≤ c ∧ c ≤ 102)

/-! ## §3. Letters and digits. -/

/-- `str.lower` of an ASCII character. -/
def asciiLower (c : Nat) : Nat := if 65 ≤ c ∧ c ≤ 90 then c + 32 else c

/-- The tables behind `str.lower`, `str.isdigit` and `int`. -/
structure Unicode where
  lower : PyStr → PyStr
  /-- The characters `isdigit` takes. -/
  digit : Nat → Bool
  /-- The value of a decimal digit. -/
  decimalValue : Nat → Option Nat
  lower_ascii : ∀ text, isAscii text = true → lower text = text.map asciiLower
  digit_ascii : ∀ c, c < 128 → digit c = isDigit c
  decimalValue_ascii : ∀ c, c < 128 →
    decimalValue c = if isDigit c then some (c - 48) else none

/-- `text.isdigit()`. -/
def Unicode.isdigit (U : Unicode) (text : PyStr) : Bool :=
  decide (text ≠ []) && text.all U.digit

/-- `int(text)` of a text that is all digits; `none` is the `ValueError` for
a digit without a decimal value, or for too many of them. -/
def Unicode.int (U : Unicode) (text : PyStr) : Option Int :=
  if maxStrDigits < text.length then none
  else
    (text.mapM U.decimalValue).map fun values =>
      ((values.foldl (fun n d => 10 * n + d) 0 : Nat) : Int)

/-- No letters and digits but the ASCII ones. -/
def asciiTables : Unicode where
  lower := List.map asciiLower
  digit := isDigit
  decimalValue c := if isDigit c then some (c - 48) else none
  lower_ascii _ _ := rfl
  digit_ascii _ _ := rfl
  decimalValue_ascii _ _ := rfl

theorem Unicode.isdigit_decimal (U : Unicode) (n : Nat) : U.isdigit (decimal n) = true := by
  unfold Unicode.isdigit
  rw [Bool.and_eq_true, decide_eq_true_eq, all_eq_true]
  refine ⟨decimal_ne_nil n, fun c hc => ?_⟩
  rw [U.digit_ascii c (isAscii_iff.1 (isAscii_decimal n) c hc)]
  exact isDigit_of_mem_decimal hc

/-- The values of ASCII digits. -/
theorem Unicode.mapM_decimalValue (U : Unicode) (h : ∀ c ∈ text, isDigit c = true) :
    text.mapM U.decimalValue = some (text.map (· - 48)) := by
  induction text with
  | nil => rfl
  | cons c _ ih =>
    have hc := h c mem_cons_self
    have hlt : c < 128 := by
      have := of_decide_eq_true hc
      omega
    rw [mapM_cons, ih fun d hd => h d (mem_cons_of_mem c hd), U.decimalValue_ascii c hlt, if_pos hc]
    rfl

/-- **`int(str(n)) == n`** for a number that has a `str`. -/
theorem Unicode.int_decimal (U : Unicode) (h : n < 10 ^ maxStrDigits) :
    U.int (decimal n) = some (n : Int) := by
  have hlen : (decimal n).length ≤ maxStrDigits := length_decimal_le (by decide) h
  rw [Unicode.int, if_neg (by omega),
    U.mapM_decimalValue fun c hc => isDigit_of_mem_decimal hc, Option.map_some, foldl_map]
  exact congrArg (fun n : Nat => some (n : Int)) (digitsNat_decimal n)

/-- `int` of digits is not negative. -/
theorem Unicode.int_nonneg {U : Unicode} {n : Int} (h : U.int text = some n) : 0 ≤ n := by
  unfold Unicode.int at h
  split at h
  · cases h
  obtain ⟨values, -, rfl⟩ := Option.map_eq_some_iff.1 h
  exact Int.natCast_nonneg _

end WebhookPlatform
