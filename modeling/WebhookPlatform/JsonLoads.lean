/-
  WebhookPlatform.JsonLoads
  **`json.loads`** of the standard library, on bytes: the encoding is guessed,
  the text decoded, and scanned by the C scanner with its defaults (strict
  strings, `NaN` and the infinities accepted, the last of two equal keys
  wins).

    • §1–§3  the scanner, function by function,
    • §4     the LEXICAL AUTOMATON: outside strings a backslash is refused,
             and a dot is followed by a digit; inside, a quote ends the
             string unless a backslash stands before it,
    • §5     soundness: what is accepted runs from outside to outside
             (`run_of_loadsText`), and the fuel never runs out (`loads_fuel`),
    • §6     the same for bytes that can only be UTF-8 (`run_of_loads`), and
             no object follows a dot (`run_dot_of_loads`).

  Left out: the limit on nested calls.
-/
import Mathlib.Data.List.TakeWhile
import WebhookPlatform.Encodings

namespace WebhookPlatform

open List

/-! ## §1. Strings. -/

/-- What `json.loads` raises. -/
inductive LoadsError where
  /-- `UnicodeDecodeError`. -/
  | undecodable
  /-- `json.JSONDecodeError`. -/
  | malformed
  /-- The `ValueError` of `int` for more than 4300 digits. -/
  | tooManyDigits
  /-- The model's fuel has run out. -/
  | exhausted
  deriving Repr, DecidableEq

/-- The value of a hexadecimal digit. -/
def hexValue (c : Nat) : Option Nat :=
  if 48 ≤ c ∧ c ≤ 57 then some (c - 48)
  else if 97 ≤ c ∧ c ≤ 102 then some (c - 87)
  else if 65 ≤ c ∧ c ≤ 70 then some (c - 55)
  else none

/-- Four hexadecimal digits. -/
def hex4 : PyStr → Option (Nat × PyStr)
  | a :: b :: c :: d :: rest => do
      let a ← hexValue a
      let b ← hexValue b
      let c ← hexValue c
      let d ← hexValue d
      some (((a * 16 + b) * 16 + c) * 16 + d, rest)
  | _ => none

/-- `\uXXXX`, and the low half of a pair if it follows. -/
def unicodeEscape (text : PyStr) : Option (Nat × PyStr) :=
  match hex4 text with
  | none => none
  | some (c, 92 :: 117 :: rest) =>
    if isHighSurrogate c then
      match hex4 rest with
      | none => none
      | some (d, rest') =>
        if isLowSurrogate d then some (joinSurrogates c d, rest')
        else some (c, 92 :: 117 :: rest)
    else some (c, 92 :: 117 :: rest)
  | some (c, rest) => some (c, rest)

/-- What a backslash stands in front of. -/
def escape (text : PyStr) : Option (Nat × PyStr) :=
  match text with
  | [] => none
  | c :: rest =>
    if c = 34 ∨ c = 92 ∨ c = 47 then some (c, rest)
    else if c = 98 then some (8, rest)
    else if c = 102 then some (12, rest)
    else if c = 110 then some (10, rest)
    else if c = 114 then some (13, rest)
    else if c = 116 then some (9, rest)
    else if c = 117 then unicodeEscape rest
    else none

/-- `scanstring`, behind the opening quote: the string and what follows the
closing quote. -/
def scanString : Nat → PyStr → Except LoadsError (PyStr × PyStr)
  | 0, _ => .error .exhausted
  | _ + 1, [] => .error .malformed
  | fuel + 1, c :: rest =>
    if c = 34 then .ok ([], rest)
    else if c = 92 then
      match escape rest with
      | none => .error .malformed
      | some (d, rest) => (scanString fuel rest).map fun r => (d :: r.1, r.2)
    else if c < 32 then .error .malformed
    else (scanString fuel rest).map fun r => (c :: r.1, r.2)

/-! ## §2. Numbers and whitespace. -/

/-- `[0-9]*`. -/
def digitRun (text : PyStr) : PyStr × PyStr := (text.takeWhile isDigit, text.dropWhile isDigit)

/-- `0|[1-9][0-9]*`. -/
def wholePart : PyStr → Option (PyStr × PyStr)
  | [] => none
  | c :: rest =>
    if c = 48 then some ([48], rest)
    else if isDigit c then some (c :: (digitRun rest).1, (digitRun rest).2)
    else none

/-- `(\.[0-9]+)?`. -/
def fractionPart (text : PyStr) : PyStr × PyStr :=
  match text with
  | 46 :: rest =>
    if (digitRun rest).1 = [] then ([], text) else (46 :: (digitRun rest).1, (digitRun rest).2)
  | _ => ([], text)

/-- `[+-]?`. -/
def signPart : PyStr → PyStr × PyStr
  | c :: rest => if c = 43 ∨ c = 45 then ([c], rest) else ([], c :: rest)
  | [] => ([], [])

/-- `([eE][+-]?[0-9]+)?`. -/
def exponentPart (text : PyStr) : PyStr × PyStr :=
  match text with
  | c :: rest =>
    if c = 101 ∨ c = 69 then
      if (digitRun (signPart rest).2).1 = [] then ([], text)
      else (c :: ((signPart rest).1 ++ (digitRun (signPart rest).2).1),
        (digitRun (signPart rest).2).2)
    else ([], text)
  | [] => ([], text)

/-- A number as it was matched. -/
structure Numeral where
  negative : Bool
  whole : PyStr
  fraction : PyStr
  exponent : PyStr

/-- `_match_number`. -/
def matchNumber (text : PyStr) : Option (Numeral × PyStr) :=
  match wholePart (if text.head? = some 45 then text.tail else text) with
  | none => none
  | some (whole, rest) =>
    some (⟨decide (text.head? = some 45), whole, (fractionPart rest).1,
        (exponentPart (fractionPart rest).2).1⟩, (exponentPart (fractionPart rest).2).2)

/-- What the scanner takes from the standard library: `float` of a numeral. -/
abbrev FloatOf := Numeral → PyFloat

/-- The value of a numeral. -/
def Numeral.value (F : FloatOf) (n : Numeral) : Except LoadsError Json :=
  if n.fraction ≠ [] ∨ n.exponent ≠ [] then .ok (.float (F n))
  else if maxStrDigits < n.whole.length then .error .tooManyDigits
  else .ok (.int (if n.negative then -(digitsNat n.whole : Int) else digitsNat n.whole))

/-- The whitespace of JSON. -/
def isJsonSpace (c : Nat) : Bool := decide (c = 32 ∨ c = 9 ∨ c = 10 ∨ c = 13)

def skipSpace (text : PyStr) : PyStr := text.dropWhile isJsonSpace

/-! ## §3. Values. -/

/-- `dict[key] = value`: a key that is there keeps its place. -/
def dictSet (fields : List (PyStr × Json)) (key : PyStr) (value : Json) : List (PyStr × Json) :=
  if key ∈ fields.map Prod.fst then
    fields.map fun f => if f.1 = key then (key, value) else f
  else fields ++ [(key, value)]

/-- `dict.get(key)`. -/
def dictGet (fields : List (PyStr × Json)) (key : PyStr) : Option Json :=
  (fields.find? fun f => decide (f.1 = key)).map Prod.snd

/-- The constants, by their text. -/
def constants : List (PyStr × Json) :=
  [ (pyStr "null", .null), (pyStr "true", .bool true), (pyStr "false", .bool false),
    (pyStr "NaN", .float .nan), (pyStr "Infinity", .float (.infinity false)),
    (pyStr "-Infinity", .float (.infinity true)) ]

/-- A value that is neither a string nor a container. -/
def scanAtom (F : FloatOf) (text : PyStr) : Except LoadsError (Json × PyStr) :=
  match constants.find? fun k => decide (k.1 <+: text) with
  | some k => .ok (k.2, text.drop k.1.length)
  | none =>
    match matchNumber text with
    | none => .error .malformed
    | some (n, rest) => (n.value F).map fun v => (v, rest)

mutual

/-- `scan_once`: a value, and what follows it. -/
def scanOnce (F : FloatOf) : Nat → PyStr → Except LoadsError (Json × PyStr)
  | 0, _ => .error .exhausted
  | _ + 1, [] => .error .malformed
  | fuel + 1, c :: rest =>
    if c = 34 then (scanString (rest.length + 1) rest).map fun r => (.str r.1, r.2)
    else if c = 123 then
      match skipSpace rest with
      | 125 :: rest => .ok (.obj [], rest)
      | text => parseObject F fuel [] text
    else if c = 91 then
      match skipSpace rest with
      | 93 :: rest => .ok (.arr [], rest)
      | text => parseArray F fuel [] text
    else scanAtom F (c :: rest)

/-- The loop of `_parse_object`. -/
def parseObject (F : FloatOf) : Nat → List (PyStr × Json) → PyStr →
    Except LoadsError (Json × PyStr)
  | 0, _, _ => .error .exhausted
  | fuel + 1, fields, 34 :: text =>
    match scanString (text.length + 1) text with
    | .error e => .error e
    | .ok (key, text) =>
      match skipSpace text with
      | 58 :: text =>
        match scanOnce F fuel (skipSpace text) with
        | .error e => .error e
        | .ok (value, text) =>
          match skipSpace text with
          | 125 :: rest => .ok (.obj (dictSet fields key value), rest)
          | 44 :: text => parseObject F fuel (dictSet fields key value) (skipSpace text)
          | _ => .error .malformed
      | _ => .error .malformed
  | _ + 1, _, _ => .error .malformed

/-- The loop of `_parse_array`. -/
def parseArray (F : FloatOf) : Nat → List Json → PyStr → Except LoadsError (Json × PyStr)
  | 0, _, _ => .error .exhausted
  | fuel + 1, items, text =>
    match scanOnce F fuel text with
    | .error e => .error e
    | .ok (value, text) =>
      match skipSpace text with
      | 93 :: rest => .ok (.arr (items ++ [value]), rest)
      | 44 :: text => parseArray F fuel (items ++ [value]) (skipSpace text)
      | _ => .error .malformed

end

/-- `JSONDecoder.decode`. -/
def loadsText (F : FloatOf) (text : PyStr) : Except LoadsError Json :=
  match scanOnce F (2 * text.length + 1) (skipSpace text) with
  | .error e => .error e
  | .ok (value, rest) => if skipSpace rest = [] then .ok value else .error .malformed

/-- **`json.loads`** of bytes. -/
def loads (F : FloatOf) (bytes : Bytes) : Except LoadsError Json :=
  match decodeDetected bytes with
  | none => .error .undecodable
  | some text => loadsText F text

/-! ## §4. The lexical automaton. -/

/-- Outside strings, behind a dot outside strings, inside a string, behind a
backslash in a string; and refused. -/
inductive Lex where
  | out
  | dot
  | str
  | esc
  | bad
  deriving Repr, DecidableEq

namespace Lex

/-- One character (or one byte). -/
def step (q : Lex) (c : Nat) : Lex :=
  if c = 0 then .bad
  else
    match q with
    | .out => if c = 34 then .str else if c = 92 then .bad else if c = 46 then .dot else .out
    | .dot => if isDigit c then .out else .bad
    | .str => if c = 34 then .out else if c = 92 then .esc else .str
    | .esc => .str
    | .bad => .bad

def run (q : Lex) (text : List Nat) : Lex := text.foldl step q

@[simp] theorem run_nil (q : Lex) : run q [] = q := rfl

@[simp] theorem run_cons (q : Lex) (c : Nat) (text : List Nat) :
    run q (c :: text) = run (q.step c) text := rfl

theorem run_append (q : Lex) (s t : List Nat) : run q (s ++ t) = run (run q s) t := foldl_append

theorem step_bad (c : Nat) : step .bad c = .bad := by
  unfold step
  split <;> rfl

/-- What is refused stays refused. -/
@[simp] theorem run_bad (text : List Nat) : run .bad text = .bad := by
  induction text with
  | nil => rfl
  | cons _ _ ih => rw [run_cons, step_bad, ih]

/-- What is accepted has no zero in it. -/
theorem zero_notMem (h : run q text ≠ .bad) : 0 ∉ text := by
  induction text generalizing q with
  | nil => exact not_mem_nil
  | cons _ text ih =>
    intro hmem
    rcases mem_cons.mp hmem with rfl | hmem
    · exact h (run_bad text)
    · exact ih h hmem

/-- Ordinary characters outside strings. -/
theorem step_out (h : c ≠ 0 ∧ c ≠ 34 ∧ c ≠ 92 ∧ c ≠ 46) : step .out c = .out := by
  unfold step
  rw [if_neg h.1]
  dsimp only
  rw [if_neg h.2.1, if_neg h.2.2.1, if_neg h.2.2.2]

/-- Ordinary characters inside strings. -/
theorem step_str (h : c ≠ 0 ∧ c ≠ 34 ∧ c ≠ 92) : step .str c = .str := by
  unfold step
  rw [if_neg h.1]
  dsimp only
  rw [if_neg h.2.1, if_neg h.2.2]

theorem step_esc (h : c ≠ 0) : step .esc c = .str := by
  unfold step
  rw [if_neg h]

theorem run_out (h : ∀ c ∈ text, c ≠ 0 ∧ c ≠ 34 ∧ c ≠ 92 ∧ c ≠ 46) : run .out text = .out := by
  induction text with
  | nil => rfl
  | cons c _ ih =>
    rw [run_cons, step_out (h c mem_cons_self)]
    exact ih fun d hd => h d (mem_cons_of_mem c hd)

/-- The two states are on different sides of a quote. -/
def Opposite (a b : Lex) : Prop :=
  (a = .out ∨ a = .dot) ∧ b = .str ∨ a = .str ∧ (b = .out ∨ b = .dot)

/-- Behind a backslash both sides cannot go on: it is refused outside. -/
theorem opposite_step (h : Opposite a b) (c : Nat) :
    Opposite (a.step c) (b.step c) ∨ a.step c = .bad ∨ b.step c = .bad := by
  have hside : ∀ x : Lex, x = .out ∨ x = .dot →
      Opposite (x.step c) (step .str c) ∨ x.step c = .bad := by
    rintro x (rfl | rfl)
    · unfold step Opposite
      split_ifs <;> simp
    · unfold step Opposite
      by_cases hzero : c = 0
      · simp [hzero]
      by_cases hdigit : isDigit c = true
      · have : c ≠ 34 ∧ c ≠ 92 := by
          unfold isDigit at hdigit
          have := of_decide_eq_true hdigit
          omega
        simp [hzero, hdigit, this]
      · simp [hzero, hdigit]
  rcases h with ⟨ha, rfl⟩ | ⟨rfl, hb⟩
  · rcases hside a ha with h | h
    · exact Or.inl h
    · exact Or.inr (Or.inl h)
  · rcases hside b hb with h | h
    · exact Or.inl (h.elim (fun h => Or.inr ⟨h.2, h.1⟩) fun h => Or.inl ⟨h.2, h.1⟩)
    · exact Or.inr (Or.inr h)

/-- **No text is complete both from outside and from inside a string.** -/
theorem not_both_out (h : Opposite a b) (text : List Nat) :
    ¬ (run a text = .out ∧ run b text = .out) := by
  induction text generalizing a b with
  | nil =>
    rintro ⟨ha, hb⟩
    rw [run_nil] at ha hb
    subst ha hb
    simp [Opposite] at h
  | cons c _ ih =>
    rintro ⟨ha, hb⟩
    rw [run_cons] at ha hb
    rcases opposite_step h c with hstep | hbad | hbad
    · exact ih hstep ⟨ha, hb⟩
    · rw [hbad, run_bad] at ha
      exact absurd ha (by decide)
    · rw [hbad, run_bad] at hb
      exact absurd hb (by decide)

/-- What any character above ASCII does. -/
def high : Lex → Lex
  | .out => .out
  | .dot => .bad
  | .str | .esc => .str
  | .bad => .bad

theorem step_of_high (q : Lex) (h : 0x80 ≤ c) : q.step c = q.high := by
  have hdigit : isDigit c = false := decide_eq_false (by omega)
  cases q with
  | out => exact step_out (by omega)
  | dot =>
    unfold step
    rw [if_neg (by omega)]
    dsimp only
    rw [hdigit]
    rfl
  | str => exact step_str (by omega)
  | esc => exact step_esc (by omega)
  | bad => exact step_bad c

theorem high_high (q : Lex) : q.high.high = q.high := by cases q <;> rfl

end Lex

/-- **The automaton does not see the encoding**: on the bytes of UTF-8 it runs
as on the text. -/
theorem run_decodeUtf8From (bytes : Bytes) : ∀ (skip : Nat) (q : Lex) (text : PyStr),
    decodeUtf8From skip bytes = some text → (∀ b ∈ bytes.take skip, 0x80 ≤ b.toNat) →
    (skip = 0 ∨ ∀ c, 0x80 ≤ c → q.step c = q) →
    Lex.run q (bytes.map UInt8.toNat) = Lex.run q text := by
  induction bytes with
  | nil =>
    intro skip q text h _ _
    cases skip <;> (injection h with h; subst h; rfl)
  | cons a _ ih =>
    intro skip q text h hskip hq
    cases skip with
    | succ skip =>
      -- inside a character: the state has settled
      have ha : 0x80 ≤ a.toNat := hskip a (by simp)
      have hstable := hq.resolve_left (Nat.succ_ne_zero skip)
      rw [map_cons, Lex.run_cons, hstable _ ha]
      exact ih skip q text h (fun b hb => hskip b (by simp [hb])) (Or.inr hstable)
    | zero =>
      rw [decodeUtf8From] at h
      split at h
      · cases h
      next c skip hhead =>
        obtain ⟨cs, hcs, rfl⟩ := Option.map_eq_some_iff.mp h
        rw [map_cons, Lex.run_cons, Lex.run_cons]
        rcases utf8Head_some hhead with ⟨rfl, rfl, -⟩ | ⟨ha, hc, -, htail⟩
        · exact ih 0 _ cs hcs (by simp) (Or.inl rfl)
        · rw [Lex.step_of_high q ha, Lex.step_of_high q hc]
          refine ih skip _ cs hcs htail (Or.inr fun d hd => ?_)
          rw [Lex.step_of_high _ hd, Lex.high_high]

theorem run_decodeUtf8 (h : decodeUtf8 bytes = some text)
    (q : Lex) : Lex.run q (bytes.map UInt8.toNat) = Lex.run q text :=
  run_decodeUtf8From bytes 0 q text h (by simp) (Or.inl rfl)

/-! ## §5. What is accepted. -/

/-- The text up to `rest` takes the automaton from `q` to `q'`. -/
def Passes (q q' : Lex) (text rest : PyStr) : Prop :=
  ∃ used, text = used ++ rest ∧ Lex.run q used = q'

namespace Passes

theorem refl (q : Lex) (text : PyStr) : Passes q q text text := ⟨[], rfl, rfl⟩

theorem trans {a b c : PyStr} (h : Passes q₁ q₂ a b) (h' : Passes q₂ q₃ b c) :
    Passes q₁ q₃ a c := by
  obtain ⟨u, rfl, hu⟩ := h
  obtain ⟨v, rfl, hv⟩ := h'
  refine ⟨u ++ v, (append_assoc _ _ _).symm, ?_⟩
  rw [Lex.run_append, hu, hv]

theorem cons (c : Nat) (h : Passes (q.step c) q' text rest) : Passes q q' (c :: text) rest := by
  obtain ⟨u, rfl, hu⟩ := h
  exact ⟨c :: u, rfl, hu⟩

theorem length_le (h : Passes q q' text rest) : rest.length ≤ text.length := by
  obtain ⟨u, rfl, -⟩ := h
  rw [length_append]
  omega

end Passes

/-- A value has been read: at least one character, back to the outside. -/
def Consumes (text rest : PyStr) : Prop :=
  ∃ c cs, text = c :: cs ∧ Passes (Lex.step .out c) .out cs rest

theorem Consumes.passes (h : Consumes text rest) : Passes .out .out text rest := by
  obtain ⟨c, cs, rfl, hcs⟩ := h
  exact hcs.cons c

theorem Consumes.length_lt (h : Consumes text rest) : rest.length < text.length := by
  obtain ⟨c, cs, rfl, hcs⟩ := h
  have := hcs.length_le
  rw [length_cons]
  omega

theorem passes_dropWhile (hp : ∀ c, p c = true → c ≠ 0 ∧ c ≠ 34 ∧ c ≠ 92 ∧ c ≠ 46) (text : PyStr) :
    Passes .out .out text (text.dropWhile p) := by
  refine ⟨text.takeWhile p, takeWhile_append_dropWhile.symm, Lex.run_out ?_⟩
  exact fun c hc => hp c (mem_takeWhile_imp hc)

theorem passes_skipSpace (text : PyStr) : Passes .out .out text (skipSpace text) := by
  refine passes_dropWhile (fun c hc => ?_) text
  unfold isJsonSpace at hc
  have := of_decide_eq_true hc
  omega

theorem isDigit_plain (h : isDigit c = true) : c ≠ 0 ∧ c ≠ 34 ∧ c ≠ 92 ∧ c ≠ 46 := by
  unfold isDigit at h
  have := of_decide_eq_true h
  omega

theorem passes_digitRun (text : PyStr) : Passes .out .out text (digitRun text).2 :=
  passes_dropWhile (fun _ hc => isDigit_plain hc) text

/-! Strings. -/

theorem hexValue_plain (h : hexValue c = some v) : c ≠ 0 ∧ c ≠ 34 ∧ c ≠ 92 := by
  unfold hexValue at h
  split_ifs at h <;> omega

theorem hex4_passes (h : hex4 text = some (v, rest)) : Passes .str .str text rest := by
  unfold hex4 at h
  split at h
  next a b c d tail =>
    simp only [Option.bind_eq_bind, Option.bind_eq_some_iff] at h
    obtain ⟨a', ha, b', hb, c', hc, d', hd, heq⟩ := h
    injection heq with heq
    injection heq with hv hrest
    subst hrest
    refine ⟨[a, b, c, d], rfl, ?_⟩
    simp only [Lex.run_cons, Lex.run_nil, Lex.step_str (hexValue_plain ha),
      Lex.step_str (hexValue_plain hb), Lex.step_str (hexValue_plain hc),
      Lex.step_str (hexValue_plain hd)]
  · cases h

theorem unicodeEscape_passes
    (h : unicodeEscape text = some (v, rest)) : Passes .str .str text rest := by
  unfold unicodeEscape at h
  split at h
  · cases h
  next c tail hfirst =>
    have hpass := hex4_passes hfirst
    split at h
    · split at h
      · cases h
      next d tail' hsecond =>
        split at h
        next =>
          -- the pair: a second backslash, `u` and four digits
          injection h with h
          injection h with hv hrest
          subst hrest
          exact hpass.trans (Passes.cons 92 (Passes.cons 117 (hex4_passes hsecond)))
        injection h with h
        injection h with hv hrest
        subst hrest
        exact hpass
    injection h with h
    injection h with hv hrest
    subst hrest
    exact hpass
  next c tail _ hfirst =>
    injection h with h
    injection h with hv hrest
    subst hrest
    exact hex4_passes hfirst

theorem escape_passes (h : escape text = some (v, rest)) : Passes .esc .str text rest := by
  unfold escape at h
  split at h
  · cases h
  next c tail =>
    have hnext : c ≠ 0 → Passes .str .str tail rest → Passes .esc .str (c :: tail) rest := by
      intro hc hpass
      refine Passes.cons c ?_
      rw [Lex.step_esc hc]
      exact hpass
    have hsame : ∀ {d : Nat}, some (d, tail) = some (v, rest) → Passes .str .str tail rest := by
      intro d heq
      injection heq with heq
      injection heq with _ hrest
      rw [hrest]
      exact Passes.refl _ _
    split_ifs at h
    next hc => exact hnext (by omega) (hsame h)
    next hc => exact hnext (by omega) (hsame h)
    next hc => exact hnext (by omega) (hsame h)
    next hc => exact hnext (by omega) (hsame h)
    next hc => exact hnext (by omega) (hsame h)
    next hc => exact hnext (by omega) (hsame h)
    next hc => exact hnext (by omega) (unicodeEscape_passes h)

theorem scanString_passes (h : scanString fuel text = .ok (s, rest)) :
    Passes .str .out text rest := by
  induction fuel generalizing text s with
  | zero => exact absurd h (by simp [scanString])
  | succ fuel ih =>
    cases text with
    | nil => exact absurd h (by simp [scanString])
    | cons c =>
      have hrest : ∀ {t : PyStr} {d : Nat},
          (scanString fuel t).map (fun r => (d :: r.1, r.2)) = .ok (s, rest) →
          Passes .str .out t rest := by
        intro t d hmap
        cases hscan : scanString fuel t with
        | error =>
          rw [hscan] at hmap
          exact absurd hmap (by simp [Except.map])
        | ok =>
          rw [hscan] at hmap
          injection hmap with hmap
          injection hmap with _ htail
          subst htail
          exact ih hscan
      rw [scanString] at h
      split_ifs at h with hquote hback hcontrol
      · injection h with h
        injection h with _ htail
        subst htail hquote
        exact ⟨[34], rfl, rfl⟩
      · subst hback
        split at h
        · cases h
        next d tail' hescape =>
          exact Passes.cons 92 ((escape_passes hescape).trans (hrest h))
      · refine Passes.cons c ?_
        rw [Lex.step_str (by omega)]
        exact hrest h

/-! Numbers and constants. -/

theorem wholePart_consumes (h : wholePart text = some (whole, rest)) : Consumes text rest := by
  unfold wholePart at h
  split at h
  · cases h
  next c tail =>
    split_ifs at h with hzero hdigit
    · injection h with h
      injection h with _ hrest
      subst hrest hzero
      exact ⟨48, tail, rfl, Passes.refl _ _⟩
    · injection h with h
      injection h with _ hrest
      subst hrest
      refine ⟨c, tail, rfl, ?_⟩
      rw [Lex.step_out (isDigit_plain hdigit)]
      exact passes_digitRun tail

/-- A run of digits that is not empty. -/
theorem digitRun_head (h : (digitRun text).1 ≠ []) :
    ∃ c cs, text = c :: cs ∧ isDigit c = true ∧ (digitRun text).2 = (digitRun cs).2 := by
  cases text with
  | nil => exact absurd rfl h
  | cons c cs =>
    by_cases hdigit : isDigit c = true
    · exact ⟨c, cs, rfl, hdigit, dropWhile_cons_of_pos hdigit⟩
    · exact absurd (takeWhile_cons_of_neg hdigit) h

theorem fractionPart_passes (text : PyStr) : Passes .out .out text (fractionPart text).2 := by
  unfold fractionPart
  split
  next rest =>
    split
    · exact Passes.refl _ _
    next hdigits =>
      -- the dot is followed by a digit
      obtain ⟨c, cs, rfl, hdigit, heq⟩ := digitRun_head hdigits
      refine Passes.cons 46 (Passes.cons c ?_)
      have hstep : (Lex.step .out 46).step c = .out := by
        show Lex.step .dot c = .out
        unfold Lex.step
        rw [if_neg (isDigit_plain hdigit).1]
        dsimp only
        rw [if_pos hdigit]
      rw [hstep]
      show Passes _ _ cs (digitRun (c :: cs)).2
      rw [heq]
      exact passes_digitRun cs
  · exact Passes.refl _ _

theorem signPart_passes (text : PyStr) : Passes .out .out text (signPart text).2 := by
  unfold signPart
  split
  next c rest =>
    split
    next hc =>
      refine Passes.cons c ?_
      rw [Lex.step_out (by omega)]
      exact Passes.refl _ _
    · exact Passes.refl _ _
  · exact Passes.refl _ _

theorem exponentPart_passes (text : PyStr) : Passes .out .out text (exponentPart text).2 := by
  unfold exponentPart
  split
  next c rest =>
    split
    next hc =>
      split
      · exact Passes.refl _ _
      refine Passes.cons c ?_
      rw [Lex.step_out (by omega)]
      exact (signPart_passes rest).trans (passes_digitRun _)
    · exact Passes.refl _ _
  · exact Passes.refl _ _

theorem matchNumber_consumes (h : matchNumber text = some (n, rest)) : Consumes text rest := by
  unfold matchNumber at h
  split at h
  · cases h
  next whole tail hwhole =>
    injection h with h
    injection h with _ hrest
    subst hrest
    have htail : Passes .out .out tail (exponentPart (fractionPart tail).2).2 :=
      (fractionPart_passes tail).trans (exponentPart_passes _)
    have hnumber := wholePart_consumes hwhole
    by_cases hsign : text.head? = some 45
    · -- a minus sign, then the digits
      rw [if_pos hsign] at hnumber
      cases text with
      | nil => cases hsign
      | cons _ cs =>
        rw [List.head?_cons, Option.some.injEq] at hsign
        subst hsign
        exact ⟨45, cs, rfl, hnumber.passes.trans htail⟩
    · rw [if_neg hsign] at hnumber
      obtain ⟨c, cs, rfl, hcs⟩ := hnumber
      exact ⟨c, cs, rfl, hcs.trans htail⟩

theorem scanAtom_consumes {v : Json}
    (h : scanAtom F text = .ok (v, rest)) : Consumes text rest := by
  unfold scanAtom at h
  split at h
  next k hk =>
    injection h with h
    injection h with _ hrest
    subst hrest
    have hmatch : k.1 <+: text := by simpa using List.find?_some hk
    obtain ⟨tail, rfl⟩ := hmatch
    -- each constant is a word of ordinary letters
    have hword : ∀ k ∈ constants, k.1 ≠ [] ∧ Lex.run .out k.1 = .out := by decide +kernel
    obtain ⟨hne, hrun⟩ := hword k (mem_of_find?_eq_some hk)
    obtain ⟨c, cs, hkey⟩ := exists_cons_of_ne_nil hne
    rw [hkey] at hrun
    rw [drop_left, hkey]
    exact ⟨c, cs ++ tail, rfl, cs, rfl, hrun⟩
  split at h
  · cases h
  next n tail hn =>
    cases hvalue : n.value F with
    | error =>
      rw [hvalue] at h
      exact absurd h (by simp [Except.map])
    | ok =>
      rw [hvalue] at h
      injection h with h
      injection h with _ hrest
      subst hrest
      exact matchNumber_consumes hn

/-! Values. -/

/-- Everything behind the first character of a container. -/
theorem consumes_container {tail : PyStr} (hc : c = 123 ∨ c = 91)
    (hspace : skipSpace tail = text) (h : Passes .out .out text rest) :
    Consumes (c :: tail) rest := by
  refine ⟨c, tail, rfl, ?_⟩
  rw [Lex.step_out (by omega)]
  rw [← hspace] at h
  exact (passes_skipSpace tail).trans h

/-- The closing bracket. -/
theorem passes_close (hc : c = 125 ∨ c = 93 ∨ c = 58 ∨ c = 44) :
    Passes .out .out (c :: rest) rest := by
  refine Passes.cons c ?_
  rw [Lex.step_out (by omega)]
  exact Passes.refl _ _

/-- What the function reads takes the automaton from outside to outside. -/
def Consuming (scan : PyStr → Except LoadsError (Json × PyStr)) : Prop :=
  ∀ text v rest, scan text = .ok (v, rest) → Consumes text rest

section Consuming

theorem scanOnce_consumes (hobject : ∀ fields, Consuming (parseObject F fuel fields))
    (harray : ∀ items, Consuming (parseArray F fuel items)) :
    Consuming (scanOnce F (fuel + 1)) := by
  intro text v rest h
  cases text with
  | nil => exact absurd h (by simp [scanOnce])
  | cons _ tail =>
    rw [scanOnce] at h
    split_ifs at h with hquote hbrace hbracket
    · -- a string
      subst hquote
      cases hscan : scanString (tail.length + 1) tail with
      | error =>
        rw [hscan] at h
        exact absurd h (by simp [Except.map])
      | ok =>
        rw [hscan] at h
        injection h with h
        injection h with _ hrest
        subst hrest
        exact ⟨34, tail, rfl, scanString_passes hscan⟩
    · -- an object
      split at h
      next rest' hspace =>
        injection h with h
        injection h with _ hrest
        subst hrest
        exact consumes_container (Or.inl hbrace) hspace (passes_close (Or.inl rfl))
      · exact consumes_container (Or.inl hbrace) rfl (hobject _ _ _ _ h).passes
    · -- an array
      split at h
      next rest' hspace =>
        injection h with h
        injection h with _ hrest
        subst hrest
        exact consumes_container (Or.inr hbracket) hspace (passes_close (Or.inr (Or.inl rfl)))
      · exact consumes_container (Or.inr hbracket) rfl (harray _ _ _ _ h).passes
    · exact scanAtom_consumes h

theorem parseObject_consumes (honce : Consuming (scanOnce F fuel))
    (hobject : ∀ fields, Consuming (parseObject F fuel fields)) (fields : List (PyStr × Json)) :
    Consuming (parseObject F (fuel + 1) fields) := by
  intro text v rest h
  rw [parseObject.eq_def] at h
  split at h
  · cases h
  next fuel' fields' text' heq =>
    cases heq
    split at h
    · cases h
    next key text₁ hkey =>
      have hstring := scanString_passes hkey
      split at h
      next text₂ hcolon =>
        have hcolon : Passes .out .out text₁ text₂ := by
          have := passes_skipSpace text₁
          rw [hcolon] at this
          exact this.trans (passes_close (Or.inr (Or.inr (Or.inl rfl))))
        split at h
        · cases h
        next value text₃ hvalue =>
          have hmember : Passes .str .out text' (skipSpace text₃) :=
            ((hstring.trans hcolon).trans (passes_skipSpace text₂)).trans
              ((honce _ _ _ hvalue).passes.trans (passes_skipSpace text₃))
          split at h
          next rest' hclose =>
            injection h with h
            injection h with _ hrest
            subst hrest
            rw [hclose] at hmember
            exact ⟨34, text', rfl, hmember.trans (passes_close (Or.inl rfl))⟩
          next text₄ hcomma =>
            rw [hcomma] at hmember
            refine ⟨34, text', rfl, hmember.trans ?_⟩
            exact (passes_close (Or.inr (Or.inr (Or.inr rfl)))).trans
              ((passes_skipSpace text₄).trans (hobject _ _ _ _ h).passes)
          · cases h
      · cases h
  · cases h

theorem parseArray_consumes (honce : Consuming (scanOnce F fuel))
    (harray : ∀ items, Consuming (parseArray F fuel items)) (items : List Json) :
    Consuming (parseArray F (fuel + 1) items) := by
  intro text v rest h
  rw [parseArray] at h
  split at h
  · cases h
  next value text₁ hvalue =>
    obtain ⟨c, cs, rfl, hcs⟩ := honce _ _ _ hvalue
    have hitem := hcs.trans (passes_skipSpace text₁)
    split at h
    next rest' hclose =>
      injection h with h
      injection h with _ hrest
      subst hrest
      rw [hclose] at hitem
      exact ⟨c, cs, rfl, hitem.trans (passes_close (Or.inr (Or.inl rfl)))⟩
    next text₂ hcomma =>
      rw [hcomma] at hitem
      refine ⟨c, cs, rfl, hitem.trans ?_⟩
      exact (passes_close (Or.inr (Or.inr (Or.inr rfl)))).trans
        ((passes_skipSpace text₂).trans (harray _ _ _ _ h).passes)
    · cases h

/-- **What the scanner reads takes the automaton from outside to outside.** -/
theorem scan_consumes (F : FloatOf) (fuel : Nat) :
    Consuming (scanOnce F fuel) ∧ (∀ fields, Consuming (parseObject F fuel fields))
      ∧ ∀ items, Consuming (parseArray F fuel items) := by
  induction fuel with
  | zero =>
    refine ⟨fun text v rest h => ?_, fun fields text v rest h => ?_, fun items text v rest h => ?_⟩
    · exact absurd h (by simp [scanOnce])
    · exact absurd h (by simp [parseObject])
    · exact absurd h (by simp [parseArray])
  | succ _ ih =>
    obtain ⟨honce, hobject, harray⟩ := ih
    exact ⟨scanOnce_consumes hobject harray, parseObject_consumes honce hobject,
      parseArray_consumes honce harray⟩

end Consuming

/-- **The lexical shape of accepted text.** -/
theorem run_of_loadsText {v : Json} (h : loadsText F text = .ok v) : Lex.run .out text = .out := by
  unfold loadsText at h
  split at h
  · cases h
  next value rest hscan =>
    split at h
    next hend =>
      have hvalue := ((scan_consumes F _).1 _ _ _ hscan).passes
      obtain ⟨used, heq, hrun⟩ :=
        (passes_skipSpace text).trans (hvalue.trans (passes_skipSpace rest))
      rw [hend, append_nil] at heq
      rw [heq]
      exact hrun
    · cases h

/-! The fuel. -/

theorem scanString_fuel (h : text.length < fuel) : scanString fuel text ≠ .error .exhausted := by
  induction fuel generalizing text with
  | zero => exact absurd h (by omega)
  | succ fuel ih =>
    cases text with
    | nil => simp [scanString]
    | cons _ tail =>
      have hrest : ∀ {t : PyStr} {d : Nat}, t.length ≤ tail.length →
          (scanString fuel t).map (fun r => (d :: r.1, r.2)) ≠ .error .exhausted := by
        intro t d hle hmap
        cases hscan : scanString fuel t with
        | error =>
          rw [hscan] at hmap
          cases hmap
          rw [length_cons] at h
          exact ih (by omega) hscan
        | ok =>
          rw [hscan] at hmap
          exact absurd hmap (by simp [Except.map])
      rw [scanString]
      split_ifs
      · simp
      · split
        · simp
        next d tail' hescape =>
          exact hrest (escape_passes hescape).length_le
      · simp
      · exact hrest (le_refl _)

theorem scanAtom_fuel (F : FloatOf) (text : PyStr) : scanAtom F text ≠ .error .exhausted := by
  unfold scanAtom
  split
  · simp
  split
  · simp
  next n rest hn =>
    unfold Numeral.value
    split_ifs <;> simp [Except.map]

theorem length_skipSpace (text : PyStr) : (skipSpace text).length ≤ text.length :=
  (passes_skipSpace text).length_le

section Fuel

/-- An error of a part that is not `exhausted` is not `exhausted` as an error of
the whole. -/
theorem error_fuel {α β : Type} {r : Except LoadsError α} (hr : r ≠ .error .exhausted)
    (he : r = .error e) : (.error e : Except LoadsError β) ≠ .error .exhausted := by
  intro h
  cases h
  exact hr he

theorem scanOnce_fuel (hobject : ∀ fields text, 2 * text.length + 1 ≤ fuel →
      parseObject F fuel fields text ≠ .error .exhausted)
    (harray : ∀ items text, 2 * text.length + 2 ≤ fuel →
      parseArray F fuel items text ≠ .error .exhausted)
    (hlen : 2 * text.length + 1 ≤ fuel + 1) : scanOnce F (fuel + 1) text ≠ .error .exhausted := by
  cases text with
  | nil => simp [scanOnce]
  | cons _ tail =>
    have hspace := length_skipSpace tail
    rw [length_cons] at hlen
    rw [scanOnce]
    split_ifs
    · cases hscan : scanString (tail.length + 1) tail with
      | error => exact error_fuel (scanString_fuel (Nat.lt_succ_self _)) hscan
      | ok => simp [Except.map]
    · split
      · simp
      · exact hobject _ _ (by omega)
    · split
      · simp
      · exact harray _ _ (by omega)
    · exact scanAtom_fuel F _

theorem parseObject_fuel
    (honce : ∀ text, 2 * text.length + 1 ≤ fuel → scanOnce F fuel text ≠ .error .exhausted)
    (hobject : ∀ fields text, 2 * text.length + 1 ≤ fuel →
      parseObject F fuel fields text ≠ .error .exhausted) {fields : List (PyStr × Json)}
    (hlen : 2 * text.length + 1 ≤ fuel + 1) :
    parseObject F (fuel + 1) fields text ≠ .error .exhausted := by
  rw [parseObject.eq_def]
  split
  next heq => exact absurd heq (by omega)
  next fuel' fields' text' heq =>
    cases heq
    rw [length_cons] at hlen
    split
    next e hkey => exact error_fuel (scanString_fuel (Nat.lt_succ_self _)) hkey
    next key text₁ hkey =>
      have h₁ := (scanString_passes hkey).length_le
      split
      next text₂ hcolon =>
        have h₂ := length_skipSpace text₁
        rw [hcolon, length_cons] at h₂
        have h₃ := length_skipSpace text₂
        split
        next e hvalue => exact error_fuel (honce _ (by omega)) hvalue
        next value text₃ hvalue =>
          -- the value took at least one character
          have h₄ := ((scan_consumes F fuel).1 _ _ _ hvalue).length_lt
          have h₅ := length_skipSpace text₃
          split
          · simp
          next text₄ hcomma =>
            rw [hcomma, length_cons] at h₅
            have h₆ := length_skipSpace text₄
            exact hobject _ _ (by omega)
          · simp
      · simp
  · simp

theorem parseArray_fuel
    (honce : ∀ text, 2 * text.length + 1 ≤ fuel → scanOnce F fuel text ≠ .error .exhausted)
    (harray : ∀ items text, 2 * text.length + 2 ≤ fuel →
      parseArray F fuel items text ≠ .error .exhausted) {items : List Json}
    (hlen : 2 * text.length + 2 ≤ fuel + 1) :
    parseArray F (fuel + 1) items text ≠ .error .exhausted := by
  rw [parseArray]
  split
  next e hvalue => exact error_fuel (honce _ (by omega)) hvalue
  next value text₁ hvalue =>
    have h₁ := ((scan_consumes F fuel).1 _ _ _ hvalue).length_lt
    have h₂ := length_skipSpace text₁
    split
    · simp
    next text₂ hcomma =>
      rw [hcomma, length_cons] at h₂
      have h₃ := length_skipSpace text₂
      exact harray _ _ (by omega)
    · simp

/-- **The fuel never runs out**: every call leaves less text. -/
theorem scan_fuel (F : FloatOf) (fuel : Nat) :
    (∀ text, 2 * text.length + 1 ≤ fuel → scanOnce F fuel text ≠ .error .exhausted)
    ∧ (∀ fields text, 2 * text.length + 1 ≤ fuel →
        parseObject F fuel fields text ≠ .error .exhausted)
    ∧ (∀ items text, 2 * text.length + 2 ≤ fuel →
        parseArray F fuel items text ≠ .error .exhausted) := by
  induction fuel with
  | zero =>
    refine ⟨fun text hlen => ?_, fun fields text hlen => ?_, fun items text hlen => ?_⟩ <;> omega
  | succ _ ih =>
    obtain ⟨honce, hobject, harray⟩ := ih
    exact ⟨fun _ hlen => scanOnce_fuel hobject harray hlen,
      fun _ _ hlen => parseObject_fuel honce hobject hlen,
      fun _ _ hlen => parseArray_fuel honce harray hlen⟩

end Fuel

theorem loads_fuel (F : FloatOf) (bytes : Bytes) : loads F bytes ≠ .error .exhausted := by
  unfold loads
  split
  · simp
  next text _ =>
    unfold loadsText
    split
    next e hscan =>
      intro h
      cases h
      have hlen := length_skipSpace text
      exact (scan_fuel F _).1 _ (by omega) hscan
    split
    · simp
    · simp

/-! ## §6. Plain bytes. -/

/-- Bytes without a zero and without the bytes of a UTF-16 mark are read as
UTF-8, after a mark or without one. -/
theorem loads_plain {v : Json} (hzero : (0 : UInt8) ∉ bytes)
    (hlow : ∀ b ∈ bytes, b.toNat < 0xFE) (h : loads F bytes = .ok v) :
    ∃ mark rest text, bytes = mark ++ rest ∧ (mark = [] ∨ mark = [0xEF, 0xBB, 0xBF])
      ∧ decodeUtf8 rest = some text ∧ loadsText F text = .ok v := by
  rw [loads, decodeDetected_plain hzero hlow] at h
  by_cases hmark : [0xEF, 0xBB, 0xBF] <+: bytes
  · rw [if_pos hmark] at h
    obtain ⟨rest, rfl⟩ := hmark
    cases hdecode : decodeUtf8 (List.drop 3 ([0xEF, 0xBB, 0xBF] ++ rest)) with
    | none =>
      rw [hdecode] at h
      cases h
    | some text =>
      rw [hdecode] at h
      exact ⟨[0xEF, 0xBB, 0xBF], rest, text, rfl, Or.inr rfl, hdecode, h⟩
  · rw [if_neg hmark] at h
    cases hdecode : decodeUtf8 bytes with
    | none =>
      rw [hdecode] at h
      cases h
    | some text =>
      rw [hdecode] at h
      exact ⟨[], bytes, text, rfl, Or.inl rfl, hdecode, h⟩

/-- **What is accepted runs from outside to outside**, byte by byte. -/
theorem run_of_loads {v : Json} (hzero : (0 : UInt8) ∉ bytes)
    (hlow : ∀ b ∈ bytes, b.toNat < 0xFE) (h : loads F bytes = .ok v) :
    Lex.run .out (bytes.map UInt8.toNat) = .out := by
  obtain ⟨mark, rest, text, rfl, hmark, hdecode, hloads⟩ := loads_plain hzero hlow h
  have hstay : Lex.run .out (mark.map UInt8.toNat) = .out := by
    rcases hmark with rfl | rfl
    · rfl
    · decide
  rw [map_append, Lex.run_append, hstay, run_decodeUtf8 hdecode, run_of_loadsText hloads]

/-- An object starts with its brace, and not with a digit. -/
theorem loadsText_digit (hc : isDigit c = true)
    (d : List (PyStr × Json)) : loadsText F (c :: text) ≠ .ok (.obj d) := by
  have hrange := of_decide_eq_true hc
  have hspace : skipSpace (c :: text) = c :: text := by
    have hno : isJsonSpace c = false := decide_eq_false (by omega)
    rw [skipSpace, dropWhile_cons, hno]
    rfl
  -- what starts with a digit is a constant or a number
  have hatom : ∀ rest, scanAtom F (c :: text) ≠ .ok (.obj d, rest) := by
    intro rest h
    unfold scanAtom at h
    split at h
    next k hk =>
      have hmem := mem_of_find?_eq_some hk
      injection h with h
      injection h with hvalue _
      simp only [constants, mem_cons, not_mem_nil, or_false] at hmem
      rcases hmem with rfl | rfl | rfl | rfl | rfl | rfl <;> simp at hvalue
    split at h
    · cases h
    next n rest' _ =>
      unfold Numeral.value at h
      split_ifs at h <;> simp [Except.map] at h
  intro h
  unfold loadsText at h
  rw [hspace, scanOnce, if_neg (by omega), if_neg (by omega), if_neg (by omega)] at h
  split at h
  · cases h
  next value rest hscan =>
    split at h
    · injection h with h
      rw [h] at hscan
      exact hatom rest hscan
    · cases h

/-- **No object follows a dot.** -/
theorem run_dot_of_loads (hzero : (0 : UInt8) ∉ bytes) (hlow : ∀ b ∈ bytes, b.toNat < 0xFE)
    (h : loads F bytes = .ok (.obj d)) : Lex.run .dot (bytes.map UInt8.toNat) ≠ .out := by
  obtain ⟨mark, rest, text, rfl, hmark, hdecode, hloads⟩ := loads_plain hzero hlow h
  intro hout
  rcases hmark with rfl | rfl
  · rw [nil_append, run_decodeUtf8 hdecode] at hout
    cases text with
    | nil => cases hout
    | cons c =>
      by_cases hc : isDigit c = true
      · exact loadsText_digit hc d hloads
      · have hbad : Lex.step .dot c = .bad := by
          unfold Lex.step
          split
          · rfl
          · simp
        rw [Lex.run_cons, hbad, Lex.run_bad] at hout
        cases hout
  · have hbad : Lex.run .dot (([0xEF, 0xBB, 0xBF] : Bytes).map UInt8.toNat) = .bad := by decide
    rw [map_append, Lex.run_append, hbad, Lex.run_bad] at hout
    cases hout

end WebhookPlatform
