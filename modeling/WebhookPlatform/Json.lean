/-
  WebhookPlatform.Json
  **`canonical_json`** (`app/webhook_security.py`) — stable, compact UTF-8
  JSON with sorted keys, which rejects NaN and the infinities.

  A Python string is a list of code points and MAY hold lone surrogates
  (a JSON body can smuggle `"\ud800"` in); those serialise, but do not
  encode, so `canonicalJson` refuses them.  A finite float is carried by
  its shortest `repr`, which is what `json.dumps` prints.  An integer of more
  than 4300 digits has no `str`, so `json.dumps` refuses it as well.
-/
import Mathlib.Data.List.Sort
import Mathlib.Tactic

namespace WebhookPlatform

/-! ## §1. Python strings and bytes. -/

/-- A Python `str`: its code points, lone surrogates included. -/
abbrev PyStr := List Nat

instance : LawfulBEq PyStr := inferInstance

/-- A Python `bytes`. -/
abbrev Bytes := List UInt8

/-- The code points of a text without lone surrogates. -/
def pyStr (s : String) : PyStr := s.toList.map Char.toNat

/-- UTF-8 of one code point; a surrogate raises `UnicodeEncodeError`, and
there is no code point above `0x10FFFF`. -/
def utf8Point (c : Nat) : Option Bytes :=
  if c < 0x80 then some [UInt8.ofNat c]
  else if c < 0x800 then
    some [UInt8.ofNat (0xC0 + c / 0x40), UInt8.ofNat (0x80 + c % 0x40)]
  else if 0xD800 ≤ c ∧ c ≤ 0xDFFF then none
  else if c < 0x10000 then
    some [UInt8.ofNat (0xE0 + c / 0x1000), UInt8.ofNat (0x80 + c / 0x40 % 0x40),
      UInt8.ofNat (0x80 + c % 0x40)]
  else if c < 0x110000 then
    some [UInt8.ofNat (0xF0 + c / 0x40000), UInt8.ofNat (0x80 + c / 0x1000 % 0x40),
      UInt8.ofNat (0x80 + c / 0x40 % 0x40), UInt8.ofNat (0x80 + c % 0x40)]
  else none

/-- `str.encode("utf-8")`. -/
def encodeUtf8 : PyStr → Option Bytes
  | [] => some []
  | c :: cs => do
      let b ← utf8Point c
      let bs ← encodeUtf8 cs
      some (b ++ bs)

/-! ## §2. Numbers as text. -/

/-- The loop that writes decimal digits, last one first. -/
def decimalLoop : Nat → Nat → PyStr → PyStr
  | 0, _, digits => digits
  | fuel + 1, n, digits =>
    if n < 10 then (48 + n) :: digits
    else decimalLoop fuel (n / 10) ((48 + n % 10) :: digits)

/-- The decimal digits of a number, as code points. -/
def decimal (n : Nat) : PyStr := decimalLoop (n + 1) n []

/-- `sys.int_info.default_max_str_digits`. -/
def maxStrDigits : Nat := 4300

/-- `str(n)` of an `int`; `none` is the `ValueError` for too many digits. -/
def strInt (n : Int) : Option PyStr :=
  if 10 ^ maxStrDigits ≤ n.natAbs then none
  else some (if n < 0 then 45 :: decimal n.natAbs else decimal n.natAbs)

theorem decimalLoop_acc (fuel n : Nat) (digits : PyStr) :
    decimalLoop fuel n digits = decimalLoop fuel n [] ++ digits := by
  induction fuel generalizing n digits with
  | zero => rfl
  | succ _ ih =>
    unfold decimalLoop
    split
    · rfl
    · rw [ih (n / 10) ((48 + n % 10) :: digits), ih (n / 10) [48 + n % 10], List.append_assoc]
      rfl

/-- More fuel than the number has digits changes nothing. -/
theorem decimalLoop_fuel (fuel n : Nat) (h : n < fuel) : decimalLoop fuel n [] = decimal n := by
  have hstep : ∀ (n f g : Nat), n < f → n < g → decimalLoop f n [] = decimalLoop g n [] := by
    intro n
    induction n using Nat.strong_induction_on with
    | _ n ih =>
      intro f g hf hg
      obtain ⟨f, rfl⟩ := Nat.exists_eq_add_one_of_ne_zero (by omega : f ≠ 0)
      obtain ⟨g, rfl⟩ := Nat.exists_eq_add_one_of_ne_zero (by omega : g ≠ 0)
      unfold decimalLoop
      split
      · rfl
      · rw [decimalLoop_acc f, decimalLoop_acc g, ih (n / 10) (by omega) f g (by omega) (by omega)]
  exact hstep n fuel (n + 1) h (by omega)

theorem decimal_of_lt (h : n < 10) : decimal n = [48 + n] := by
  unfold decimal decimalLoop
  rw [if_pos h]

theorem decimal_of_ge (h : 10 ≤ n) : decimal n = decimal (n / 10) ++ [48 + n % 10] := by
  show decimalLoop (n + 1) n [] = _
  unfold decimalLoop
  rw [if_neg (by omega), decimalLoop_acc, decimalLoop_fuel n (n / 10) (by omega)]

/-- An ASCII digit. -/
def isDigit (c : Nat) : Bool := decide (48 ≤ c ∧ c ≤ 57)

/-- **Decimal digits**, by the last digit. -/
theorem decimal_induction {motive : Nat → Prop} (small : ∀ n, n < 10 → motive n)
    (step : ∀ n, 10 ≤ n → motive (n / 10) → motive n) (n : Nat) : motive n := by
  induction n using Nat.strong_induction_on with
  | _ n ih =>
    by_cases h : n < 10
    · exact small n h
    · exact step n (by omega) (ih (n / 10) (by omega))

theorem isDigit_of_mem_decimal (h : c ∈ decimal n) : isDigit c = true := by
  unfold isDigit
  induction n using decimal_induction with
  | small _ hn =>
    rw [decimal_of_lt hn, List.mem_singleton] at h
    exact decide_eq_true (by omega)
  | step _ hn ih =>
    rw [decimal_of_ge hn, List.mem_append, List.mem_singleton] at h
    rcases h with h | h
    · exact ih h
    · exact decide_eq_true (by omega)

theorem decimal_ne_nil (n : Nat) : decimal n ≠ [] := by
  induction n using decimal_induction with
  | small _ hn =>
    rw [decimal_of_lt hn]
    exact List.cons_ne_nil _ _
  | step _ hn =>
    rw [decimal_of_ge hn]
    exact List.append_ne_nil_of_right_ne_nil _ (List.cons_ne_nil _ _)

/-- The number that a text of ASCII digits names. -/
def digitsNat (digits : PyStr) : Nat := digits.foldl (fun n c => 10 * n + (c - 48)) 0

/-- `int(str(n)) == n`. -/
theorem digitsNat_decimal (n : Nat) : digitsNat (decimal n) = n := by
  induction n using decimal_induction with
  | small n hn =>
    rw [decimal_of_lt hn]
    show 10 * 0 + (48 + n - 48) = n
    omega
  | step n hn ih =>
    rw [decimal_of_ge hn]
    unfold digitsNat at ih ⊢
    rw [List.foldl_append, ih]
    show 10 * (n / 10) + (48 + n % 10 - 48) = n
    omega

/-- No leading zero, except for zero itself. -/
theorem decimal_head (h : 0 < n) : ∃ c cs, decimal n = c :: cs ∧ 49 ≤ c := by
  induction n using decimal_induction with
  | small n hn =>
    rw [decimal_of_lt hn]
    exact ⟨48 + n, [], rfl, by omega⟩
  | step n hn ih =>
    obtain ⟨c, cs, hc, hle⟩ := ih (by omega)
    rw [decimal_of_ge hn, hc]
    exact ⟨c, cs ++ [48 + n % 10], rfl, hle⟩

theorem length_decimal_le (hk : 0 < k) (h : n < 10 ^ k) : (decimal n).length ≤ k := by
  induction n using decimal_induction generalizing k with
  | small _ hn =>
    rw [decimal_of_lt hn]
    exact hk
  | step n hn ih =>
    obtain ⟨k, rfl⟩ := Nat.exists_eq_add_one_of_ne_zero (by omega : k ≠ 0)
    have hpos : 0 < k := by
      by_contra hzero
      rw [Nat.eq_zero_of_not_pos hzero] at h
      omega
    have hdiv : n / 10 < 10 ^ k := by
      rw [pow_succ] at h
      omega
    rw [decimal_of_ge hn, List.length_append, List.length_singleton]
    have := ih hpos hdiv
    omega

/-! ## §3. JSON values. -/

/-- The shortest `repr` of a finite float: digits, then a fraction or an
exponent, or both. -/
structure FloatRepr where
  negative : Bool
  whole : Nat
  fraction : List (Fin 10)
  /-- Its sign (`true` is `-`) and its digits. -/
  exponent : Option (Bool × List (Fin 10))
  shaped : fraction ≠ [] ∨ exponent.isSome = true
  exponentDigits : ∀ e, exponent = some e → e.2 ≠ []

/-- The digits as code points. -/
def digitPoints (digits : List (Fin 10)) : PyStr := digits.map fun d => 48 + d.val

namespace FloatRepr

/-- The fraction as text. -/
def fractionText (r : FloatRepr) : PyStr :=
  if r.fraction = [] then [] else 46 :: digitPoints r.fraction

/-- The exponent as text. -/
def exponentText (r : FloatRepr) : PyStr :=
  match r.exponent with
  | none => []
  | some (negative, digits) => 101 :: (if negative then 45 else 43) :: digitPoints digits

/-- `repr`. -/
def text (r : FloatRepr) : PyStr :=
  (if r.negative then [45] else []) ++ decimal r.whole ++ r.fractionText ++ r.exponentText

end FloatRepr

/-- A Python float, as `json.dumps` treats it. -/
inductive PyFloat where
  | finite (repr : FloatRepr)
  | nan
  | infinity (negative : Bool)

/-- The values `json.loads` produces; an object has distinct string keys. -/
inductive Json where
  | null
  | bool (b : Bool)
  | int (n : Int)
  | float (f : PyFloat)
  | str (s : PyStr)
  | arr (items : List Json)
  | obj (fields : List (PyStr × Json))

/-- Two lower-case hexadecimal digits. -/
def hexByte (n : Nat) : PyStr :=
  let digit := fun d : Nat => if d < 10 then 48 + d else 87 + d
  [digit (n / 16), digit (n % 16)]

/-- One code point of a string literal, with `ensure_ascii=False`. -/
def escapePoint (c : Nat) : PyStr :=
  if c = 34 then pyStr "\\\""
  else if c = 92 then pyStr "\\\\"
  else if c = 10 then pyStr "\\n"
  else if c = 13 then pyStr "\\r"
  else if c = 9 then pyStr "\\t"
  else if c = 8 then pyStr "\\b"
  else if c = 12 then pyStr "\\f"
  else if c < 0x20 then pyStr "\\u00" ++ hexByte c
  else [c]

/-- A JSON string literal. -/
def quote (s : PyStr) : PyStr := [34] ++ s.flatMap escapePoint ++ [34]

/-- Join with commas, as `separators=(",", ":")` does. -/
def joinComma : List PyStr → PyStr
  | [] => []
  | [x] => x
  | x :: xs => x ++ [44] ++ joinComma xs

mutual

/-- `json.dumps(value, sort_keys=True, …, allow_nan=False)`; `none` is the
`ValueError` for a float that is out of JSON's range or an integer that is too
long. -/
def dumps : Json → Option PyStr
  | .null => some (pyStr "null")
  | .bool b => some (pyStr (if b then "true" else "false"))
  | .int n => strInt n
  | .float (.finite r) => some r.text
  | .float _ => none
  | .str s => some (quote s)
  | .arr items => do
      let texts ← dumpsItems items
      some ([91] ++ joinComma texts ++ [93])
  | .obj fields => do
      let texts ← dumpsFields fields
      let sorted := texts.insertionSort fun a b => a.1 ≤ b.1
      some ([123] ++ joinComma (sorted.map fun f => quote f.1 ++ [58] ++ f.2) ++ [125])

def dumpsItems : List Json → Option (List PyStr)
  | [] => some []
  | v :: vs => do
      let t ← dumps v
      let ts ← dumpsItems vs
      some (t :: ts)

def dumpsFields : List (PyStr × Json) → Option (List (PyStr × PyStr))
  | [] => some []
  | (k, v) :: fs => do
      let t ← dumps v
      let ts ← dumpsFields fs
      some ((k, t) :: ts)

end

/-- **`canonical_json`**: `none` is the `TypeError` or `ValueError` that its
callers turn into a validation error. -/
def canonicalJson (value : Json) : Option Bytes := (dumps value).bind encodeUtf8

/-- Keys come out sorted, whatever the order of the fields. -/
example : canonicalJson (.obj [(pyStr "b", .int 2), (pyStr "a", .bool true)])
    = encodeUtf8 (pyStr "\x7b\"a\":true,\"b\":2\x7d") := by decide +kernel

end WebhookPlatform
