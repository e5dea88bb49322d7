/-
  WebhookPlatform.JsonRoundTrip
  **`json.loads` reads back what `canonical_json` wrote**, for every value that
  has a canonical form (`loads_canonicalJson`): the keys come back sorted, a
  float as whatever the conversion makes of its digits.

    • §1  what a value comes back as, and what it is for a text to be scanned,
    • §2  strings and numbers,
    • §3  constants,
    • §4  arrays and objects, one item of the loop at a time,
    • §5  every value,
    • §6  the fields of an object that was read back.
-/
import WebhookPlatform.JsonLoads

namespace WebhookPlatform

open List Option

/-! ## §1. What is read back. -/

/-- The numeral that a float's `repr` is. -/
def FloatRepr.numeral (r : FloatRepr) : Numeral :=
  ⟨r.negative, decimal r.whole, r.fractionText, r.exponentText⟩

/-- A dictionary from its items, set one after the other. -/
def dictOf (fields : List (PyStr × Json)) : List (PyStr × Json) :=
  fields.foldl (fun d f => dictSet d f.1 f.2) []

mutual

/-- What `json.loads` makes of `json.dumps(value, sort_keys=True)`. -/
def Json.reread (F : FloatOf) : Json → Json
  | .null => .null
  | .bool b => .bool b
  | .int n => .int n
  | .float (.finite r) => .float (F r.numeral)
  | .float f => .float f
  | .str s => .str s
  | .arr items => .arr (rereadItems F items)
  | .obj fields => .obj (dictOf ((rereadFields F fields).insertionSort fun a b => a.1 ≤ b.1))

def rereadItems (F : FloatOf) : List Json → List Json
  | [] => []
  | v :: vs => v.reread F :: rereadItems F vs

def rereadFields (F : FloatOf) : List (PyStr × Json) → List (PyStr × Json)
  | [] => []
  | (k, v) :: fs => (k, v.reread F) :: rereadFields F fs

end

/-- What may follow a value in canonical text: nothing, a comma, a closing
bracket. -/
def Delimited (rest : PyStr) : Prop :=
  rest = [] ∨ ∃ c cs, rest = c :: cs ∧ (c = 44 ∨ c = 93 ∨ c = 125)

/-- The text is read as the value, whatever delimiter follows. -/
structure Scans (F : FloatOf) (v : Json) (text : PyStr) : Prop where
  head : ∃ c cs, text = c :: cs ∧ isJsonSpace c = false ∧ c ≠ 93 ∧ c < 0x80
  scan : ∀ rest, Delimited rest → ∀ fuel, 2 * text.length + 1 ≤ fuel →
    scanOnce F fuel (text ++ rest) = .ok (v, rest)

variable {F : FloatOf}

theorem skipSpace_cons (h : isJsonSpace c = false) (text : PyStr) :
    skipSpace (c :: text) = c :: text :=
  dropWhile_cons_of_neg (by rw [h]; exact Bool.false_ne_true)

theorem Scans.skipSpace (h : Scans F v text)
    (rest : PyStr) : WebhookPlatform.skipSpace (text ++ rest) = text ++ rest := by
  obtain ⟨c, cs, rfl, hspace, -⟩ := h.head
  exact skipSpace_cons hspace _

theorem Delimited.skipSpace (h : Delimited rest) : WebhookPlatform.skipSpace rest = rest := by
  rcases h with rfl | ⟨c, cs, rfl, hc⟩
  · rfl
  · refine skipSpace_cons ?_ cs
    unfold isJsonSpace
    exact decide_eq_false (by omega)

/-! ## §2. Strings and numbers. -/

theorem hexValue_digit (h : d < 16) : hexValue (if d < 10 then 48 + d else 87 + d) = some d := by
  unfold hexValue
  split_ifs <;> first | omega | (congr 1; omega)

/-- A control character comes back from its escape. -/
theorem unicodeEscape_control (h : c < 0x20) (rest : PyStr) :
    unicodeEscape (48 :: 48 :: (hexByte c ++ rest)) = some (c, rest) := by
  have hhex : hex4 (48 :: 48 :: (hexByte c ++ rest)) = some (c, rest) := by
    have hhigh : hexValue (if c / 16 < 10 then 48 + c / 16 else 87 + c / 16) = some (c / 16) :=
      hexValue_digit (by omega)
    have hlow : hexValue (if c % 16 < 10 then 48 + c % 16 else 87 + c % 16) = some (c % 16) :=
      hexValue_digit (by omega)
    have hzero : hexValue 48 = some 0 := rfl
    have hvalue : ((0 * 16 + 0) * 16 + c / 16) * 16 + c % 16 = c := by omega
    simp only [hexByte, cons_append, nil_append, hex4, hzero, hhigh, hlow,
      bind_eq_bind, bind_some, hvalue]
  have hsurrogate : isHighSurrogate c = false := decide_eq_false (by omega)
  unfold unicodeEscape
  rw [hhex]
  split
  next heq => cases heq
  next d tail heq =>
    injection heq with heq
    injection heq with hd htail
    subst hd htail
    rw [hsurrogate]
    rfl
  next d tail _ heq => exact heq.symm

/-- **One code point** of a string literal is read back. -/
theorem scanString_point (fuel c : Nat) (text : PyStr) :
    scanString (fuel + 1) (escapePoint c ++ text)
      = (scanString fuel text).map fun r => (c :: r.1, r.2) := by
  have hescape : ∀ {d e : Nat} {tail : PyStr}, escape (e :: tail) = some (d, text) →
      scanString (fuel + 1) (92 :: e :: tail)
        = (scanString fuel text).map fun r => (d :: r.1, r.2) := by
    intro d e tail h
    rw [scanString, if_neg (by omega), if_pos rfl, h]
  unfold escapePoint
  split_ifs with h34 h92 h10 h13 h9 h8 h12 hcontrol
  · subst h34
    exact hescape rfl
  · subst h92
    exact hescape rfl
  · subst h10
    exact hescape rfl
  · subst h13
    exact hescape rfl
  · subst h9
    exact hescape rfl
  · subst h8
    exact hescape rfl
  · subst h12
    exact hescape rfl
  · rw [append_assoc]
    exact hescape (unicodeEscape_control hcontrol text)
  · show scanString (fuel + 1) (c :: text) = _
    rw [scanString, if_neg h34, if_neg h92, if_neg hcontrol]

/-- **A string literal** is read back. -/
theorem scanString_quote (s rest : PyStr) : ∀ fuel, s.length < fuel →
    scanString fuel (s.flatMap escapePoint ++ 34 :: rest) = .ok (s, rest) := by
  induction s with
  | nil =>
    intro fuel h
    obtain ⟨fuel, rfl⟩ := Nat.exists_eq_add_one_of_ne_zero (Nat.ne_zero_of_lt h)
    rfl
  | cons _ _ ih =>
    intro fuel h
    obtain ⟨fuel, rfl⟩ := Nat.exists_eq_add_one_of_ne_zero (Nat.ne_zero_of_lt h)
    rw [length_cons] at h
    rw [flatMap_cons, append_assoc, scanString_point, ih fuel (by omega)]
    rfl

theorem length_le_flatMap_escapePoint (s : PyStr) : s.length ≤ (s.flatMap escapePoint).length := by
  induction s with
  | nil => exact le_refl 0
  | cons c =>
    have hpoint : 1 ≤ (escapePoint c).length := by
      unfold escapePoint
      split_ifs <;> simp [pyStr]
    rw [flatMap_cons, length_append, length_cons]
    omega

/-- The literal with its opening quote taken off. -/
theorem scanString_literal (s rest : PyStr) :
    scanString ((s.flatMap escapePoint ++ 34 :: rest).length + 1)
      (s.flatMap escapePoint ++ 34 :: rest) = .ok (s, rest) := by
  refine scanString_quote s rest _ ?_
  have := length_le_flatMap_escapePoint s
  rw [length_append]
  omega

theorem scans_str (F : FloatOf) (s : PyStr) : Scans F (.str s) (quote s) := by
  refine ⟨⟨34, s.flatMap escapePoint ++ [34], rfl, rfl, by decide, by decide⟩, ?_⟩
  intro rest _ fuel hfuel
  obtain ⟨fuel, rfl⟩ := Nat.exists_eq_add_one_of_ne_zero (by omega : fuel ≠ 0)
  have htext : quote s ++ rest = 34 :: (s.flatMap escapePoint ++ 34 :: rest) := by
    simp [quote]
  rw [htext, scanOnce, if_pos rfl, scanString_literal]
  rfl

/-! Numbers. -/

/-- The text does not go on with a digit. -/
def NoDigit (text : PyStr) : Prop := ∀ c cs, text = c :: cs → isDigit c = false

theorem digitRun_append (h : ∀ c ∈ digits, isDigit c = true) (hrest : NoDigit rest) :
    digitRun (digits ++ rest) = (digits, rest) := by
  have hstop : rest.takeWhile isDigit = [] ∧ rest.dropWhile isDigit = rest := by
    cases rest with
    | nil => exact ⟨rfl, rfl⟩
    | cons c cs =>
      have hc : ¬ isDigit c = true := by
        rw [hrest c cs rfl]
        exact Bool.false_ne_true
      exact ⟨takeWhile_cons_of_neg hc, dropWhile_cons_of_neg hc⟩
  unfold digitRun
  rw [takeWhile_append_of_pos h, dropWhile_append_of_pos h, hstop.1, hstop.2, append_nil]

theorem isDigit_digitPoints : ∀ c ∈ digitPoints digits, isDigit c = true := by
  intro c hc
  obtain ⟨d, -, rfl⟩ := mem_map.mp hc
  have := d.isLt
  exact decide_eq_true (by omega)

theorem wholePart_decimal (n : Nat) (hrest : NoDigit rest) :
    wholePart (decimal n ++ rest) = some (decimal n, rest) := by
  rcases Nat.eq_zero_or_pos n with rfl | hpos
  · rfl
  · obtain ⟨c, cs, heq, hc⟩ := decimal_head hpos
    have hdigits : ∀ d ∈ c :: cs, isDigit d = true := by
      rw [← heq]
      exact fun d hd => isDigit_of_mem_decimal hd
    rw [heq, cons_append, wholePart, if_neg (by omega), if_pos (hdigits c mem_cons_self),
      digitRun_append (fun d hd => hdigits d (mem_cons_of_mem c hd)) hrest]

theorem fractionPart_text (r : FloatRepr) (hdigit : NoDigit rest) (hdot : ∀ cs, rest ≠ 46 :: cs) :
    fractionPart (r.fractionText ++ rest) = (r.fractionText, rest) := by
  unfold FloatRepr.fractionText
  split
  · unfold fractionPart
    split
    next cs heq => exact absurd heq (hdot cs)
    · rfl
  next hne =>
    have hpoints : digitPoints r.fraction ≠ [] := by
      unfold digitPoints
      simpa using hne
    rw [cons_append, fractionPart, digitRun_append isDigit_digitPoints hdigit, if_neg hpoints]

theorem exponentPart_text (r : FloatRepr) (hdigit : NoDigit rest)
    (hletter : ∀ c cs, rest = c :: cs → c ≠ 101 ∧ c ≠ 69) :
    exponentPart (r.exponentText ++ rest) = (r.exponentText, rest) := by
  unfold FloatRepr.exponentText
  split
  · show exponentPart rest = ([], rest)
    unfold exponentPart
    split
    next c cs =>
      have := hletter c cs rfl
      rw [if_neg (by omega)]
    · rfl
  next negative digits hexponent =>
    have hne : digitPoints digits ≠ [] := by
      have := r.exponentDigits _ hexponent
      unfold digitPoints
      simpa using this
    have hsign : signPart ((if negative then 45 else 43) :: (digitPoints digits ++ rest))
        = ([if negative then 45 else 43], digitPoints digits ++ rest) := by
      unfold signPart
      cases negative <;> rfl
    rw [cons_append, cons_append, exponentPart, if_pos (Or.inl rfl), hsign]
    dsimp only
    rw [digitRun_append isDigit_digitPoints hdigit, if_neg hne]
    rfl

/-- No constant starts with a digit, nor with a minus sign and a digit. -/
theorem constants_none (h : ∃ c cs, text = c :: cs ∧ (isDigit c = true
    ∨ c = 45 ∧ ∃ d ds, cs = d :: ds ∧ isDigit d = true)) :
    constants.find? (fun k => decide (k.1 <+: text)) = none := by
  have hfirst : ∀ k ∈ constants, ∀ c cs, k.1 = c :: cs → isDigit c = false
      ∧ (c = 45 → ∀ d ds, cs = d :: ds → isDigit d = false) := by
    intro k hk
    simp only [constants, mem_cons, not_mem_nil, or_false] at hk
    rcases hk with rfl | rfl | rfl | rfl | rfl | rfl <;>
      (intro c cs heq; injection heq with hc hcs; subst hc hcs; refine ⟨rfl, ?_⟩
       first
       | (intro hminus; exact absurd hminus (by decide))
       | (intro _ d ds hds; injection hds with hd _; subst hd; rfl))
  have hnonempty : ∀ k ∈ constants, k.1 ≠ [] ∧ (k.1.head? = some 45 → k.1.tail ≠ []) := by
    decide +kernel
  rw [List.find?_eq_none]
  intro k hk hmatch
  have hmatch : k.1 <+: text := of_decide_eq_true hmatch
  obtain ⟨tail, htail⟩ := hmatch
  obtain ⟨hne, hlong⟩ := hnonempty k hk
  obtain ⟨a, as, ha⟩ := exists_cons_of_ne_nil hne
  obtain ⟨c, cs, rfl, hc⟩ := h
  rw [ha, cons_append, List.cons.injEq] at htail
  obtain ⟨rfl, hcs⟩ := htail
  obtain ⟨hdigit, hminus⟩ := hfirst k hk a as ha
  rcases hc with hc | ⟨rfl, d, ds, rfl, hd⟩
  · rw [hdigit] at hc
    exact absurd hc (by decide)
  · rw [ha] at hlong
    obtain ⟨b, bs, hb⟩ := exists_cons_of_ne_nil (hlong rfl)
    rw [tail_cons] at hb
    subst hb
    rw [cons_append, List.cons.injEq] at hcs
    rw [← hcs.1, hminus rfl b bs rfl] at hd
    exact absurd hd (by decide)

theorem Delimited.noDigit (h : Delimited rest) : NoDigit rest := by
  rintro c cs rfl
  rcases h with h | ⟨d, ds, heq, hd⟩
  · exact absurd h (cons_ne_nil _ _)
  · injection heq with heq _
    subst heq
    exact decide_eq_false (by omega)

theorem Delimited.head_ne (h : Delimited rest) (heq : rest = c :: cs) :
    c ≠ 46 ∧ c ≠ 101 ∧ c ≠ 69 := by
  rcases h with h | ⟨d, ds, h, hd⟩
  · rw [heq] at h
    exact absurd h (cons_ne_nil _ _)
  · rw [heq] at h
    injection h with h _
    omega

/-- **A numeral** is read back: its sign, its digits, and what comes after
them. -/
theorem matchNumber_text (negative : Bool) (whole : Nat) {tail : PyStr} (htail : NoDigit tail)
    (hfraction : fractionPart tail = (fraction, middle))
    (hexponent : exponentPart middle = (exponent, rest)) :
    matchNumber ((if negative then [45] else []) ++ decimal whole ++ tail)
      = some (⟨negative, decimal whole, fraction, exponent⟩, rest) := by
  have hwhole := wholePart_decimal whole htail
  obtain ⟨c, cs, hdecimal⟩ := exists_cons_of_ne_nil (decimal_ne_nil whole)
  have hdigit : isDigit c = true := by
    refine isDigit_of_mem_decimal (n := whole) ?_
    rw [hdecimal]
    exact mem_cons_self
  have hminus : c ≠ 45 := by
    unfold isDigit at hdigit
    have := of_decide_eq_true hdigit
    omega
  cases negative with
  | true =>
    show matchNumber (45 :: (decimal whole ++ tail)) = _
    unfold matchNumber
    rw [List.head?_cons, if_pos rfl, tail_cons, hwhole]
    dsimp only
    rw [hfraction, hexponent]
    rfl
  | false =>
    have hhead : (decimal whole ++ tail).head? ≠ some 45 := by
      rw [hdecimal, cons_append, List.head?_cons]
      simpa using hminus
    show matchNumber (decimal whole ++ tail) = _
    unfold matchNumber
    rw [if_neg hhead, hwhole, decide_eq_false hhead]
    dsimp only
    rw [hfraction, hexponent]

/-- A number starts with a digit, or with a minus sign and a digit. -/
theorem number_head (negative : Bool) (whole : Nat) (tail : PyStr) :
    ∃ c cs, (if negative then [45] else []) ++ decimal whole ++ tail = c :: cs
      ∧ (isDigit c = true ∨ c = 45 ∧ ∃ d ds, cs = d :: ds ∧ isDigit d = true) := by
  obtain ⟨c, cs, hdecimal⟩ := exists_cons_of_ne_nil (decimal_ne_nil whole)
  have hdigit : isDigit c = true := by
    refine isDigit_of_mem_decimal (n := whole) ?_
    rw [hdecimal]
    exact mem_cons_self
  rw [hdecimal]
  cases negative with
  | true => exact ⟨45, c :: (cs ++ tail), rfl, Or.inr ⟨rfl, c, cs ++ tail, rfl, hdigit⟩⟩
  | false => exact ⟨c, cs ++ tail, rfl, Or.inl hdigit⟩

/-- A number is scanned as one. -/
theorem scans_number (negative : Bool) (whole : Nat) (tail : PyStr) (hvalue : n.value F = .ok v)
    (hmatch : ∀ rest, Delimited rest →
      matchNumber ((if negative then [45] else []) ++ decimal whole ++ (tail ++ rest))
        = some (n, rest)) :
    Scans F v ((if negative then [45] else []) ++ decimal whole ++ tail) := by
  have hhead := number_head negative whole
  constructor
  · obtain ⟨c, cs, heq, hc⟩ := hhead tail
    refine ⟨c, cs, heq, ?_⟩
    have hrange : 48 ≤ c ∧ c ≤ 57 ∨ c = 45 := by
      rcases hc with hc | hc
      · exact Or.inl (of_decide_eq_true hc)
      · exact Or.inr hc.1
    refine ⟨decide_eq_false (by omega), by omega, by omega⟩
  · intro rest hrest fuel hfuel
    obtain ⟨fuel, rfl⟩ := Nat.exists_eq_add_one_of_ne_zero (by omega : fuel ≠ 0)
    rw [append_assoc]
    obtain ⟨c, cs, heq, hc⟩ := hhead (tail ++ rest)
    have hrange : 48 ≤ c ∧ c ≤ 57 ∨ c = 45 := by
      rcases hc with hc | hc
      · exact Or.inl (of_decide_eq_true hc)
      · exact Or.inr hc.1
    have hnumber := hmatch rest hrest
    rw [heq] at hnumber ⊢
    rw [scanOnce, if_neg (by omega), if_neg (by omega), if_neg (by omega), scanAtom,
      constants_none ⟨c, cs, rfl, hc⟩, hnumber]
    dsimp only
    rw [hvalue]
    rfl

theorem scans_float (F : FloatOf) (r : FloatRepr) : Scans F (.float (F r.numeral)) r.text := by
  have hnoDigit : ∀ rest, Delimited rest → NoDigit (r.fractionText ++ (r.exponentText ++ rest))
      ∧ NoDigit (r.exponentText ++ rest) ∧ ∀ cs, r.exponentText ++ rest ≠ 46 :: cs := by
    intro rest hrest
    have hexponent : NoDigit (r.exponentText ++ rest)
        ∧ ∀ cs, r.exponentText ++ rest ≠ 46 :: cs := by
      unfold FloatRepr.exponentText
      split
      · refine ⟨hrest.noDigit, fun cs heq => ?_⟩
        exact (hrest.head_ne heq).1 rfl
      refine ⟨fun c cs heq => ?_, fun cs heq => ?_⟩
      · injection heq with heq _
        subst heq
        rfl
      · injection heq with heq _
        exact absurd heq (by decide)
    refine ⟨?_, hexponent⟩
    unfold FloatRepr.fractionText
    split
    · exact hexponent.1
    intro c cs heq
    injection heq with heq _
    subst heq
    rfl
  have hvalue : r.numeral.value F = .ok (.float (F r.numeral)) := by
    have hshape : r.numeral.fraction ≠ [] ∨ r.numeral.exponent ≠ [] := by
      show r.fractionText ≠ [] ∨ r.exponentText ≠ []
      rcases r.shaped with h | h
      · left
        unfold FloatRepr.fractionText
        rw [if_neg h]
        exact cons_ne_nil _ _
      · right
        obtain ⟨e, he⟩ := isSome_iff_exists.mp h
        unfold FloatRepr.exponentText
        rw [he]
        exact cons_ne_nil _ _
    unfold Numeral.value
    rw [if_pos hshape]
  have htext : r.text = (if r.negative then [45] else []) ++ decimal r.whole
      ++ (r.fractionText ++ r.exponentText) := by
    unfold FloatRepr.text
    rw [append_assoc]
  rw [htext]
  refine scans_number r.negative r.whole _ hvalue fun rest hrest => ?_
  obtain ⟨hwhole, hdigit, hdot⟩ := hnoDigit rest hrest
  rw [append_assoc r.fractionText]
  exact matchNumber_text r.negative r.whole hwhole (fractionPart_text r hdigit hdot)
    (exponentPart_text r hrest.noDigit fun c cs heq => (hrest.head_ne heq).2)

theorem scans_int (F : FloatOf) {n : Int} (h : strInt n = some text) : Scans F (.int n) text := by
  unfold strInt at h
  split at h
  · cases h
  next hsmall =>
    have hshape : text = (if decide (n < 0) then [45] else []) ++ decimal n.natAbs ++ [] := by
      injection h with h
      rw [← h, append_nil]
      by_cases hn : n < 0
      · rw [if_pos hn, decide_eq_true hn]
        rfl
      · rw [if_neg hn, decide_eq_false hn]
        rfl
    rw [hshape]
    have hlength : (decimal n.natAbs).length ≤ maxStrDigits :=
      length_decimal_le (by decide) (by omega)
    have hvalue : Numeral.value F ⟨decide (n < 0), decimal n.natAbs, [], []⟩ = .ok (.int n) := by
      unfold Numeral.value
      rw [if_neg (by simp), if_neg (not_lt.mpr hlength)]
      dsimp only
      rw [digitsNat_decimal]
      by_cases hn : n < 0
      · rw [decide_eq_true hn, if_pos rfl]
        congr 2
        omega
      · rw [decide_eq_false hn, if_neg Bool.false_ne_true]
        congr 2
        omega
    refine scans_number _ _ _ hvalue fun rest hrest => ?_
    have hfraction : fractionPart rest = ([], rest) := by
      unfold fractionPart
      split
      next cs => exact absurd rfl (hrest.head_ne rfl).1
      · rfl
    have hexponent : exponentPart rest = ([], rest) := by
      unfold exponentPart
      split
      next c cs =>
        have := (hrest.head_ne rfl).2
        rw [if_neg (by omega)]
      · rfl
    exact matchNumber_text _ _ hrest.noDigit hfraction hexponent

/-! ## §3. Constants. -/

/-- A constant is scanned as one. -/
theorem scans_constant (h : k ∈ [(pyStr "null", Json.null), (pyStr "true", .bool true),
      (pyStr "false", .bool false)]) :
    Scans F k.2 k.1 := by
  have hscan : ∀ (c : Nat) (cs rest : PyStr) (v : Json) (fuel : Nat), c ≠ 34 → c ≠ 123 → c ≠ 91 →
      constants.find? (fun k => decide (k.1 <+: c :: (cs ++ rest))) = some (c :: cs, v) →
      scanOnce F (fuel + 1) (c :: cs ++ rest) = .ok (v, rest) := by
    intro c cs rest v fuel h34 h123 h91 hfind
    show scanOnce F (fuel + 1) (c :: (cs ++ rest)) = _
    rw [scanOnce, if_neg h34, if_neg h123, if_neg h91, scanAtom, hfind]
    simp
  simp only [mem_cons, not_mem_nil, or_false] at h
  rcases h with rfl | rfl | rfl <;>
    (refine ⟨⟨_, _, rfl, by decide, by decide, by decide⟩, fun rest _ fuel hfuel => ?_⟩
     obtain ⟨fuel, rfl⟩ := Nat.exists_eq_add_one_of_ne_zero (by omega : fuel ≠ 0)
     exact hscan _ _ rest _ fuel (by decide) (by decide) (by decide) rfl)

/-! ## §4. Arrays and objects. -/

theorem joinComma_cons (h : xs ≠ []) : joinComma (x :: xs) = x ++ 44 :: joinComma xs := by
  cases xs with
  | nil => exact absurd rfl h
  | cons y ys =>
    show x ++ [44] ++ joinComma (y :: ys) = _
    rw [append_assoc]
    rfl

/-- **The loop over an array** reads the items back. -/
theorem parseArray_scans (F : FloatOf) (items : List (Json × PyStr))
    (hitems : ∀ p ∈ items, Scans F p.1 p.2) (hne : items ≠ []) (rest : PyStr) :
    ∀ (done : List Json) (fuel : Nat), 2 * (joinComma (items.map Prod.snd)).length + 2 ≤ fuel →
      parseArray F fuel done (joinComma (items.map Prod.snd) ++ 93 :: rest)
        = .ok (.arr (done ++ items.map Prod.fst), rest) := by
  have hclose : Delimited (93 :: rest) := Or.inr ⟨93, rest, rfl, Or.inr (Or.inl rfl)⟩
  induction items with
  | nil => exact absurd rfl hne
  | cons p items ih =>
    intro done fuel hfuel
    obtain ⟨fuel, rfl⟩ := Nat.exists_eq_add_one_of_ne_zero (by omega : fuel ≠ 0)
    have hp := hitems p mem_cons_self
    rw [map_cons, map_cons] at *
    by_cases hlast : items = []
    · subst hlast
      show parseArray F (fuel + 1) done (p.2 ++ 93 :: rest) = _
      have hlen : 2 * p.2.length + 2 ≤ fuel + 1 := hfuel
      rw [parseArray, hp.scan _ hclose fuel (by omega)]
      dsimp only
      rw [hclose.skipSpace]
      rfl
    · have hmap : items.map Prod.snd ≠ [] := by simpa using hlast
      have hcomma : ∀ t, Delimited (44 :: t) := fun t => Or.inr ⟨44, t, rfl, Or.inl rfl⟩
      rw [joinComma_cons hmap] at hfuel ⊢
      rw [length_append, length_cons] at hfuel
      -- the text of the next item starts with no space
      obtain ⟨q, qs, rfl⟩ := exists_cons_of_ne_nil hlast
      have hq := hitems q (mem_cons_of_mem p mem_cons_self)
      have hspace : skipSpace (joinComma ((q :: qs).map Prod.snd) ++ 93 :: rest)
          = joinComma ((q :: qs).map Prod.snd) ++ 93 :: rest := by
        cases qs with
        | nil => exact hq.skipSpace _
        | cons =>
          rw [map_cons, joinComma_cons (by simp), append_assoc]
          exact hq.skipSpace _
      rw [append_assoc, cons_append, parseArray, hp.scan _ (hcomma _) fuel (by omega)]
      dsimp only
      rw [(hcomma _).skipSpace]
      show parseArray F fuel (done ++ [p.1]) (skipSpace _) = _
      rw [hspace, ih (fun x hx => hitems x (mem_cons_of_mem p hx)) hlast _ fuel (by omega),
        append_assoc]
      rfl

/-- A member of an object: its key, its value, and the text of the value. -/
structure Member where
  key : PyStr
  value : Json
  text : PyStr

/-- `"key":value`. -/
def Member.print (m : Member) : PyStr := quote m.key ++ [58] ++ m.text

/-- One member, up to the delimiter behind it. -/
theorem parseObject_member {m : Member} (hm : Scans F m.value m.text)
    (hfuel : 2 * m.text.length + 1 ≤ fuel) (done : List (PyStr × Json)) (rest : PyStr) :
    parseObject F (fuel + 1) done (m.print ++ 125 :: rest)
        = .ok (.obj (dictSet done m.key m.value), rest)
      ∧ parseObject F (fuel + 1) done (m.print ++ 44 :: rest)
        = parseObject F fuel (dictSet done m.key m.value) (skipSpace rest) := by
  have hprint : ∀ tail : PyStr, m.print ++ tail
      = 34 :: (m.key.flatMap escapePoint ++ 34 :: (58 :: (m.text ++ tail))) := by
    intro tail
    simp [Member.print, quote]
  have hcolon : ∀ tail : PyStr, skipSpace (58 :: (m.text ++ tail)) = 58 :: (m.text ++ tail) :=
    fun tail => skipSpace_cons (by decide) _
  have hend : Delimited (125 :: rest) := Or.inr ⟨125, rest, rfl, Or.inr (Or.inr rfl)⟩
  have hcomma : Delimited (44 :: rest) := Or.inr ⟨44, rest, rfl, Or.inl rfl⟩
  constructor
  · rw [hprint, parseObject, scanString_literal]
    dsimp only
    simp only [hcolon, hm.skipSpace, hm.scan _ hend fuel hfuel, hend.skipSpace]
  · rw [hprint, parseObject, scanString_literal]
    dsimp only
    simp only [hcolon, hm.skipSpace, hm.scan _ hcomma fuel hfuel, hcomma.skipSpace]

/-- **The loop over an object** reads the members back. -/
theorem parseObject_scans (F : FloatOf) (members : List Member)
    (hmembers : ∀ m ∈ members, Scans F m.value m.text) (hne : members ≠ []) (rest : PyStr) :
    ∀ (done : List (PyStr × Json)) (fuel : Nat),
      2 * (joinComma (members.map Member.print)).length + 1 ≤ fuel →
      parseObject F fuel done (joinComma (members.map Member.print) ++ 125 :: rest)
        = .ok (.obj (members.foldl (fun d m => dictSet d m.key m.value) done), rest) := by
  have hlong : ∀ m : Member, m.text.length + 3 ≤ m.print.length := by
    intro m
    simp only [Member.print, quote, length_append, length_cons, length_nil]
    omega
  induction members with
  | nil => exact absurd rfl hne
  | cons m members ih =>
    intro done fuel hfuel
    obtain ⟨fuel, rfl⟩ := Nat.exists_eq_add_one_of_ne_zero (by omega : fuel ≠ 0)
    have hm := hmembers m mem_cons_self
    have hlen := hlong m
    rw [map_cons] at hfuel ⊢
    by_cases hlast : members = []
    · subst hlast
      have hfuel : 2 * m.print.length + 1 ≤ fuel + 1 := hfuel
      show parseObject F (fuel + 1) done (m.print ++ 125 :: rest) = _
      rw [(parseObject_member hm (by omega) done rest).1]
      rfl
    · have hmap : members.map Member.print ≠ [] := by simpa using hlast
      rw [joinComma_cons hmap] at hfuel ⊢
      rw [length_append, length_cons] at hfuel
      -- the next member starts with a quote
      have hspace : skipSpace (joinComma (members.map Member.print) ++ 125 :: rest)
          = joinComma (members.map Member.print) ++ 125 :: rest := by
        obtain ⟨n, ns, rfl⟩ := exists_cons_of_ne_nil hlast
        cases ns with
        | nil => exact skipSpace_cons (by decide) _
        | cons =>
          rw [map_cons, joinComma_cons (by simp), append_assoc]
          exact skipSpace_cons (by decide) _
      rw [append_assoc, cons_append, (parseObject_member hm (by omega) done _).2, hspace,
        ih (fun x hx => hmembers x (mem_cons_of_mem m hx)) hlast _ fuel (by omega)]
      rfl

theorem scans_arr {items : List (Json × PyStr)} (h : ∀ p ∈ items, Scans F p.1 p.2) :
    Scans F (.arr (items.map Prod.fst)) ([91] ++ joinComma (items.map Prod.snd) ++ [93]) := by
  refine ⟨⟨91, _, rfl, by decide, by decide, by decide⟩, fun rest _ fuel hfuel => ?_⟩
  obtain ⟨fuel, rfl⟩ := Nat.exists_eq_add_one_of_ne_zero (by omega : fuel ≠ 0)
  have htext : [91] ++ joinComma (items.map Prod.snd) ++ [93] ++ rest
      = 91 :: (joinComma (items.map Prod.snd) ++ 93 :: rest) := by simp
  rw [htext, scanOnce, if_neg (by decide), if_neg (by decide), if_pos rfl]
  by_cases hnil : items = []
  · subst hnil
    rfl
  · have hloop := parseArray_scans F items h hnil rest [] fuel (by
      simp only [length_append, length_singleton] at hfuel
      omega)
    obtain ⟨p, ps, rfl⟩ := exists_cons_of_ne_nil hnil
    obtain ⟨c, cs, hc, hspace, hclose, -⟩ := (h p mem_cons_self).head
    -- the first item starts with neither a space nor the closing bracket
    have hstart : ∃ tail, joinComma ((p :: ps).map Prod.snd) ++ 93 :: rest = c :: tail := by
      cases ps with
      | nil => exact ⟨cs ++ 93 :: rest, by simp [joinComma, hc]⟩
      | cons =>
        rw [map_cons, joinComma_cons (by simp), hc]
        exact ⟨_, rfl⟩
    obtain ⟨tail, htail⟩ := hstart
    rw [htail] at hloop ⊢
    rw [skipSpace_cons hspace]
    split
    next heq =>
      injection heq with heq _
      exact absurd heq hclose
    · exact hloop

theorem scans_obj {members : List Member} (h : ∀ m ∈ members, Scans F m.value m.text) :
    Scans F (.obj (members.foldl (fun d m => dictSet d m.key m.value) []))
      ([123] ++ joinComma (members.map Member.print) ++ [125]) := by
  refine ⟨⟨123, _, rfl, by decide, by decide, by decide⟩, fun rest _ fuel hfuel => ?_⟩
  obtain ⟨fuel, rfl⟩ := Nat.exists_eq_add_one_of_ne_zero (by omega : fuel ≠ 0)
  have htext : [123] ++ joinComma (members.map Member.print) ++ [125] ++ rest
      = 123 :: (joinComma (members.map Member.print) ++ 125 :: rest) := by simp
  rw [htext, scanOnce, if_neg (by decide), if_pos rfl]
  by_cases hnil : members = []
  · subst hnil
    rfl
  · have hloop := parseObject_scans F members h hnil rest [] fuel (by
      simp only [length_append, length_singleton] at hfuel
      omega)
    obtain ⟨m, ms, rfl⟩ := exists_cons_of_ne_nil hnil
    have hstart : ∃ tail, joinComma ((m :: ms).map Member.print) ++ 125 :: rest = 34 :: tail := by
      cases ms with
      | nil => exact ⟨_, rfl⟩
      | cons =>
        rw [map_cons, joinComma_cons (by simp)]
        exact ⟨_, rfl⟩
    obtain ⟨tail, htail⟩ := hstart
    rw [htail] at hloop ⊢
    rw [skipSpace_cons (by decide)]
    exact hloop

/-! ## §5. Every value. -/

/-- The members in the order of their keys: `sort_keys=True`. -/
def sortMembers (members : List Member) : List Member :=
  members.insertionSort fun a b => a.key ≤ b.key

/-- Sorting by the key commutes with forgetting a part of the members. -/
theorem map_sortMembers {β : Type} (members : List Member) (g : Member → PyStr × β)
    (hkey : ∀ m, (g m).1 = m.key) :
    (members.map g).insertionSort (fun a b => a.1 ≤ b.1) = (sortMembers members).map g := by
  refine (map_insertionSort _ _ g members fun a _ b _ => ?_).symm
  rw [hkey, hkey]

mutual

/-- **`json.loads` reads back what `json.dumps` wrote**, inside any text that
goes on with a delimiter. -/
theorem scans_dumps (F : FloatOf) : ∀ (v : Json) (text : PyStr), dumps v = some text →
    Scans F (v.reread F) text
  | .null => by
      intro text h
      rw [dumps, Option.some.injEq] at h
      rw [← h]
      exact @scans_constant F (pyStr "null", .null) (by simp)
  | .bool b => by
      intro text h
      rw [dumps, Option.some.injEq] at h
      rw [← h]
      cases b
      · exact @scans_constant F (pyStr "false", .bool false) (by simp)
      · exact @scans_constant F (pyStr "true", .bool true) (by simp)
  | .int n => by
      intro text h
      rw [dumps] at h
      exact scans_int F h
  | .float (.finite r) => by
      intro text h
      rw [dumps, Option.some.injEq] at h
      rw [← h]
      exact scans_float F r
  | .float .nan => by
      intro text h
      exact absurd h (by simp [dumps])
  | .float (.infinity _) => by
      intro text h
      exact absurd h (by simp [dumps])
  | .str s => by
      intro text h
      rw [dumps, Option.some.injEq] at h
      rw [← h]
      exact scans_str F s
  | .arr vs => by
      intro text h
      rw [dumps, Option.bind_eq_bind, Option.bind_eq_some_iff] at h
      obtain ⟨texts, htexts, htext⟩ := h
      obtain ⟨items, hvalues, rfl, hitems⟩ := scans_dumpsItems F vs texts htexts
      rw [Json.reread, ← hvalues, ← Option.some.inj htext]
      exact scans_arr hitems
  | .obj fs => by
      intro text h
      rw [dumps, Option.bind_eq_bind, Option.bind_eq_some_iff] at h
      obtain ⟨texts, htexts, htext⟩ := h
      obtain ⟨members, hvalues, rfl, hmembers⟩ := scans_dumpsFields F fs texts htexts
      have hsorted : ∀ m ∈ sortMembers members, Scans F m.value m.text :=
        fun m hm => hmembers m ((List.mem_insertionSort _).1 hm)
      rw [Json.reread, ← hvalues, ← Option.some.inj htext,
        map_sortMembers members _ fun _ => rfl, map_sortMembers members _ fun _ => rfl,
        dictOf, List.foldl_map, List.map_map]
      exact scans_obj hsorted

theorem scans_dumpsItems (F : FloatOf) : ∀ (vs : List Json) (texts : List PyStr),
    dumpsItems vs = some texts →
    ∃ items : List (Json × PyStr), items.map Prod.fst = rereadItems F vs
      ∧ items.map Prod.snd = texts ∧ ∀ p ∈ items, Scans F p.1 p.2
  | [] => by
      intro texts h
      rw [dumpsItems, Option.some.injEq] at h
      exact ⟨[], rfl, h, fun p hp => absurd hp not_mem_nil⟩
  | v :: vs => by
      intro texts h
      rw [dumpsItems, bind_eq_bind, bind_eq_some_iff] at h
      obtain ⟨t, ht, h⟩ := h
      rw [bind_eq_bind, bind_eq_some_iff] at h
      obtain ⟨ts, hts, h⟩ := h
      obtain ⟨items, hvalues, htexts, hitems⟩ := scans_dumpsItems F vs ts hts
      refine ⟨(v.reread F, t) :: items, ?_, ?_, ?_⟩
      · rw [map_cons, hvalues, rereadItems]
      · rw [map_cons, htexts, ← Option.some.inj h]
      · intro p hp
        rcases mem_cons.1 hp with rfl | hp
        · exact scans_dumps F v t ht
        · exact hitems p hp

theorem scans_dumpsFields (F : FloatOf) : ∀ (fs : List (PyStr × Json))
    (texts : List (PyStr × PyStr)), dumpsFields fs = some texts →
    ∃ members : List Member, (members.map fun m => (m.key, m.value)) = rereadFields F fs
      ∧ (members.map fun m => (m.key, m.text)) = texts
      ∧ ∀ m ∈ members, Scans F m.value m.text
  | [] => by
      intro texts h
      rw [dumpsFields, Option.some.injEq] at h
      exact ⟨[], rfl, h, fun m hm => absurd hm not_mem_nil⟩
  | (k, v) :: fs => by
      intro texts h
      rw [dumpsFields, bind_eq_bind, bind_eq_some_iff] at h
      obtain ⟨t, ht, h⟩ := h
      rw [bind_eq_bind, bind_eq_some_iff] at h
      obtain ⟨ts, hts, h⟩ := h
      obtain ⟨members, hvalues, htexts, hmembers⟩ := scans_dumpsFields F fs ts hts
      refine ⟨⟨k, v.reread F, t⟩ :: members, ?_, ?_, ?_⟩
      · rw [map_cons, hvalues, rereadFields]
      · rw [map_cons, htexts, ← Option.some.inj h]
      · intro m hm
        rcases mem_cons.1 hm with rfl | hm
        · exact scans_dumps F v t ht
        · exact hmembers m hm

end

/-- `json.loads(json.dumps(value))`, as text. -/
theorem loadsText_dumps (h : dumps v = some text) : loadsText F text = .ok (v.reread F) := by
  have hscans := scans_dumps F v text h
  have hscan := hscans.scan [] (Or.inl rfl) (2 * text.length + 1) le_rfl
  have hspace : skipSpace text = text := by
    have := hscans.skipSpace []
    rwa [append_nil] at this
  rw [append_nil] at hscan
  rw [loadsText, hspace, hscan]
  rfl

/-- **Canonical bytes are plain**: they pass the automaton, none of them is
zero, and none is a byte of a UTF-16 mark. -/
theorem canonicalJson_plain (h : canonicalJson v = some bytes) :
    Lex.run .out (bytes.map UInt8.toNat) = .out ∧ (0 : UInt8) ∉ bytes
      ∧ ∀ b ∈ bytes, b.toNat < 0xFE := by
  obtain ⟨text, htext, hbytes⟩ := bind_eq_some_iff.1 h
  have hrun : Lex.run .out (bytes.map UInt8.toNat) = .out := by
    rw [run_decodeUtf8 (decodeUtf8_encode hbytes),
      run_of_loadsText (loadsText_dumps (F := fun _ => .nan) htext)]
  have hzero : 0 ∉ bytes.map UInt8.toNat := Lex.zero_notMem (q := .out) (by rw [hrun]; decide)
  exact ⟨hrun, fun hmem => hzero (mem_map_of_mem (f := UInt8.toNat) hmem),
    fun b hb => lt_trans (encodeUtf8_lt hbytes b hb) (by decide)⟩

/-- **`json.loads(canonical_json(value))`**: the bytes are recognised as UTF-8
and read back. -/
theorem loads_canonicalJson (F : FloatOf)
    (h : canonicalJson v = some bytes) : loads F bytes = .ok (v.reread F) := by
  obtain ⟨-, hzero, hlow⟩ := canonicalJson_plain h
  obtain ⟨text, htext, hbytes⟩ := bind_eq_some_iff.1 h
  -- the first byte is ASCII, so there is no byte order mark
  have hmark : ¬ [0xEF, 0xBB, 0xBF] <+: bytes := by
    obtain ⟨c, cs, rfl, -, -, hc⟩ := (scans_dumps F v text htext).head
    obtain ⟨head, tail, hhead, -, rfl⟩ := encodeUtf8_cons.1 hbytes
    rw [utf8Point, if_pos hc, Option.some.injEq] at hhead
    subst hhead
    intro hprefix
    have heq : (0xEF : UInt8) = UInt8.ofNat c := (cons_prefix_cons.1 hprefix).1
    have hnat := congrArg UInt8.toNat heq
    rw [toNat_ofNat_byte (by omega)] at hnat
    have : (0xEF : UInt8).toNat = 239 := rfl
    omega
  rw [loads, decodeDetected_plain hzero hlow, if_neg hmark, decodeUtf8_encode hbytes]
  exact loadsText_dumps htext

/-- The text of an object starts with its brace. -/
theorem canonicalObject_head
    (h : canonicalJson (.obj fields) = some bytes) : ∃ rest, bytes = 123 :: rest := by
  obtain ⟨text, htext, hbytes⟩ := bind_eq_some_iff.1 h
  rw [dumps, bind_eq_bind, bind_eq_some_iff] at htext
  obtain ⟨texts, -, htext⟩ := htext
  rw [← Option.some.inj htext] at hbytes
  obtain ⟨head, tail, hhead, -, rfl⟩ := encodeUtf8_cons.1 hbytes
  rw [← Option.some.inj hhead]
  exact ⟨tail, rfl⟩

/-! ## §6. Looking up a field. -/

theorem dictGet_eq_none : dictGet fields key = none ↔ key ∉ fields.map Prod.fst := by
  rw [dictGet, Option.map_eq_none_iff, List.find?_eq_none, List.mem_map]
  constructor
  · rintro h ⟨f, hf, hkey⟩
    exact h f hf (decide_eq_true hkey)
  · exact fun h f hf hkey => h ⟨f, hf, of_decide_eq_true hkey⟩

theorem dictGet_dictSet (fields : List (PyStr × Json)) (key : PyStr) (value : Json) (k : PyStr) :
    dictGet (dictSet fields key value) k = if k = key then some value else dictGet fields k := by
  by_cases hmem : key ∈ fields.map Prod.fst
  · rw [dictSet, if_pos hmem, dictGet, List.find?_map]
    -- replacing a value moves no key
    have hsame : ((fun f : PyStr × Json => decide (f.1 = k)) ∘
        fun f => if f.1 = key then (key, value) else f) = fun f => decide (f.1 = k) := by
      funext f
      by_cases hf : f.1 = key
      · simp [hf]
      · simp [hf]
    rw [hsame]
    cases hfind : fields.find? (fun f => decide (f.1 = k)) with
    | none =>
      have hnone : dictGet fields k = none := by rw [dictGet, hfind]; rfl
      have hk : k ≠ key := fun h => dictGet_eq_none.1 hnone (h ▸ hmem)
      rw [if_neg hk, hnone]
      rfl
    | some f =>
      have hf : f.1 = k := by
        have := List.find?_some hfind
        exact of_decide_eq_true this
      have hget : dictGet fields k = some f.2 := by rw [dictGet, hfind]; rfl
      by_cases hk : k = key
      · simp [hf, hk]
      · simp [hf, hk, hget]
  · rw [dictSet, if_neg hmem, dictGet, List.find?_append]
    by_cases hk : k = key
    · subst hk
      have hnone : fields.find? (fun f => decide (f.1 = k)) = none := by
        have := dictGet_eq_none.2 hmem
        rwa [dictGet, map_eq_none_iff] at this
      simp [hnone]
    · simp [hk, Ne.symm hk, dictGet]

/-- A field of a dictionary that was written once is there. -/
theorem dictGet_foldl {L : List (PyStr × Json)} (hnodup : (L.map Prod.fst).Nodup)
    (hf : f ∈ L) (done : List (PyStr × Json)) :
    dictGet (L.foldl (fun d f => dictSet d f.1 f.2) done) f.1 = some f.2 := by
  -- what is not written again stays
  have hkeep : ∀ (L : List (PyStr × Json)) (d : List (PyStr × Json)) (k : PyStr),
      k ∉ L.map Prod.fst →
      dictGet (L.foldl (fun d f => dictSet d f.1 f.2) d) k = dictGet d k := by
    intro L
    induction L with
    | nil => exact fun d k _ => rfl
    | cons _ _ ih =>
      intro d k hk
      rw [map_cons, mem_cons, not_or] at hk
      rw [foldl_cons, ih _ k hk.2, dictGet_dictSet, if_neg hk.1]
  induction L generalizing done with
  | nil => cases hf
  | cons _ L ih =>
    rw [map_cons, nodup_cons] at hnodup
    rw [foldl_cons]
    rcases mem_cons.1 hf with rfl | hf
    · rw [hkeep L _ _ hnodup.1, dictGet_dictSet, if_pos rfl]
    · exact ih hnodup.2 hf _

theorem keys_rereadFields (F : FloatOf) (fields : List (PyStr × Json)) :
    (rereadFields F fields).map Prod.fst = fields.map Prod.fst := by
  induction fields with
  | nil => rfl
  | cons _ _ ih => rw [rereadFields, map_cons, map_cons, ih]

theorem mem_rereadFields (hf : f ∈ fields) : (f.1, f.2.reread F) ∈ rereadFields F fields := by
  induction fields with
  | nil => cases hf
  | cons _ _ ih =>
    rw [rereadFields]
    rcases mem_cons.1 hf with rfl | hf
    · exact mem_cons_self
    · exact mem_cons_of_mem _ (ih hf)

/-- The object that comes back. -/
def readBack (F : FloatOf) (fields : List (PyStr × Json)) : List (PyStr × Json) :=
  dictOf ((rereadFields F fields).insertionSort fun a b => a.1 ≤ b.1)

theorem loads_canonicalObject (F : FloatOf) (h : canonicalJson (.obj fields) = some bytes) :
    loads F bytes = .ok (.obj (readBack F fields)) := by
  rw [loads_canonicalJson F h, Json.reread]
  rfl

/-- **A field of an object is found again** after it was written and read. -/
theorem dictGet_readBack (F : FloatOf) (hnodup : (fields.map Prod.fst).Nodup) (hf : f ∈ fields) :
    dictGet (readBack F fields) f.1 = some (f.2.reread F) := by
  have hperm := perm_insertionSort (fun a b : PyStr × Json => a.1 ≤ b.1) (rereadFields F fields)
  refine dictGet_foldl (f := (f.1, f.2.reread F)) ?_ (hperm.mem_iff.2 (mem_rereadFields hf)) []
  rw [(hperm.map Prod.fst).nodup_iff, keys_rereadFields]
  exact hnodup

end WebhookPlatform
