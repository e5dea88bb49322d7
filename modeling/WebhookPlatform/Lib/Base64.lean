/-
  WebhookPlatform.Lib.Base64
  **BASE64**, encoded in the standard alphabet and decoded strictly.

  `encode` writes groups of three bytes as four characters and pads the last
  group.  `decode` is the loop of a strict decoder, one character at a time:

      quad      — the position in the group of four
      left      — the bits of the last character that are still to be used
      pads      — the padding characters seen in this group
      padding   — whether any padding has been seen

  It refuses every character outside the alphabet, data after padding, and a
  group that is not complete.  `decode_encode` is the round trip.
-/
import Mathlib.Data.List.Basic
import Mathlib.Tactic

namespace Base64

open List

/-! ## §1. The alphabet. -/

/-- The character of six bits. -/
def char (n : Nat) : Nat :=
  if n < 26 then 65 + n
  else if n < 52 then 71 + n
  else if n < 62 then n - 4
  else if n = 62 then 43
  else 47

/-- The six bits of a character. -/
def bits (c : Nat) : Option Nat :=
  if 65 ≤ c ∧ c ≤ 90 then some (c - 65)
  else if 97 ≤ c ∧ c ≤ 122 then some (c - 71)
  else if 48 ≤ c ∧ c ≤ 57 then some (c + 4)
  else if c = 43 then some 62
  else if c = 47 then some 63
  else none

/-- The padding character. -/
def pad : Nat := 61

theorem bits_char {n : Nat} (h : n < 64) : bits (char n) = some n := by
  unfold char bits
  split_ifs <;> first | omega | (congr 1; omega)

theorem char_ne_pad (n : Nat) (h : n < 64) : char n ≠ pad := by
  unfold char pad
  split_ifs <;> omega

/-- Letters, digits, `+` and `/` are ASCII. -/
theorem char_lt (n : Nat) : n < 64 → char n < 128 := by
  intro h
  unfold char
  split_ifs <;> omega

/-! ## §2. Encoding. -/

/-- The four parts of three bytes. -/
def sextet₁ (a : UInt8) : Nat := a.toNat / 4
def sextet₂ (a b : UInt8) : Nat := a.toNat % 4 * 16 + b.toNat / 16
def sextet₃ (b c : UInt8) : Nat := b.toNat % 16 * 4 + c.toNat / 64
def sextet₄ (c : UInt8) : Nat := c.toNat % 64

def encode : List UInt8 → List Nat
  | a :: b :: c :: rest =>
    char (sextet₁ a) :: char (sextet₂ a b) :: char (sextet₃ b c) :: char (sextet₄ c)
      :: encode rest
  | [a, b] => [char (sextet₁ a), char (sextet₂ a b), char (sextet₃ b 0), pad]
  | [a] => [char (sextet₁ a), char (sextet₂ a 0), pad, pad]
  | [] => []

theorem sextet₁_lt (a : UInt8) : sextet₁ a < 64 := by
  have := a.toNat_lt
  unfold sextet₁
  omega

theorem sextet₂_lt (a b : UInt8) : sextet₂ a b < 64 := by
  have := b.toNat_lt
  unfold sextet₂
  omega

theorem sextet₃_lt (b c : UInt8) : sextet₃ b c < 64 := by
  have := c.toNat_lt
  unfold sextet₃
  omega

theorem sextet₄_lt (c : UInt8) : sextet₄ c < 64 := by
  unfold sextet₄
  omega

theorem length_encode_mod (bytes : List UInt8) : (encode bytes).length % 4 = 0 := by
  fun_induction encode bytes with
  | case1 =>
    simp only [length_cons]
    omega
  | case2 => simp
  | case3 => simp
  | case4 => rfl

/-- The text without its padding has at most two characters less. -/
theorem encode_unpadded (bytes : List UInt8) :
    ∃ body k, encode bytes = body ++ List.replicate k pad ∧ k ≤ 2
      ∧ (∀ c ∈ body, ∃ n, n < 64 ∧ c = char n) ∧ (k = 0 ∨ body ≠ []) := by
  fun_induction encode bytes with
  | case1 a b c _ ih =>
    obtain ⟨body, k, heq, hk, hbody, -⟩ := ih
    refine ⟨char (sextet₁ a) :: char (sextet₂ a b) :: char (sextet₃ b c) :: char (sextet₄ c)
      :: body, k, by rw [heq]; rfl, hk, ?_, Or.inr (cons_ne_nil _ _)⟩
    intro x hx
    simp only [mem_cons] at hx
    rcases hx with rfl | rfl | rfl | rfl | hx
    · exact ⟨_, sextet₁_lt a, rfl⟩
    · exact ⟨_, sextet₂_lt a b, rfl⟩
    · exact ⟨_, sextet₃_lt b c, rfl⟩
    · exact ⟨_, sextet₄_lt c, rfl⟩
    · exact hbody x hx
  | case2 a b =>
    refine ⟨[char (sextet₁ a), char (sextet₂ a b), char (sextet₃ b 0)], 1, rfl, by omega, ?_,
      Or.inr (cons_ne_nil _ _)⟩
    intro x hx
    simp only [mem_cons, not_mem_nil, or_false] at hx
    rcases hx with rfl | rfl | rfl
    · exact ⟨_, sextet₁_lt a, rfl⟩
    · exact ⟨_, sextet₂_lt a b, rfl⟩
    · exact ⟨_, sextet₃_lt b 0, rfl⟩
  | case3 a =>
    refine ⟨[char (sextet₁ a), char (sextet₂ a 0)], 2, rfl, by omega, ?_, Or.inr (cons_ne_nil _ _)⟩
    intro x hx
    simp only [mem_cons, not_mem_nil, or_false] at hx
    rcases hx with rfl | rfl
    · exact ⟨_, sextet₁_lt a, rfl⟩
    · exact ⟨_, sextet₂_lt a 0, rfl⟩
  | case4 => exact ⟨[], 0, rfl, by omega, fun x hx => absurd hx not_mem_nil, Or.inl rfl⟩

/-- A text of bytes that do not come in threes is padded. -/
theorem pad_mem_encode {bytes : List UInt8} (h : bytes.length % 3 ≠ 0) : pad ∈ encode bytes := by
  fun_induction encode bytes with
  | case1 _ _ _ _ ih =>
    simp only [length_cons] at h
    have := ih (by omega)
    simp [this]
  | case2 => simp
  | case3 => simp
  | case4 => exact absurd rfl h

variable {c : Nat}

/-- Every character is the padding or one of the alphabet. -/
theorem mem_encode {bytes : List UInt8} (h : c ∈ encode bytes) :
    c = pad ∨ ∃ n, n < 64 ∧ c = char n := by
  obtain ⟨body, k, heq, -, hbody, -⟩ := encode_unpadded bytes
  rw [heq, mem_append] at h
  rcases h with h | h
  · exact Or.inr (hbody c h)
  · exact Or.inl (eq_of_mem_replicate h)

/-! ## §3. Decoding. -/

/-- One character of data: the byte that is complete with it, and the bits
that are left over. -/
def push (quad left v : Nat) : Option UInt8 × Nat :=
  match quad with
  | 0 => (none, v)
  | 1 => (some (UInt8.ofNat (left * 4 + v / 16)), v % 16)
  | 2 => (some (UInt8.ofNat (left * 16 + v / 4)), v % 4)
  | _ => (some (UInt8.ofNat (left * 64 + v)), 0)

/-- The loop of the decoder; `none` is an error. -/
def decodeLoop (quad left pads : Nat) (padding : Bool) : List Nat → Option (List UInt8)
  | [] => if quad = 0 then some [] else none
  | c :: cs =>
    if c = pad then
      if 2 ≤ quad ∧ 4 ≤ quad + (pads + 1) then if cs = [] then some [] else none
      else decodeLoop quad left (if 2 ≤ quad then pads + 1 else pads) true cs
    else
      match bits c with
      | none => none
      | some v =>
        if padding then none
        else
          (decodeLoop ((quad + 1) % 4) (push quad left v).2 0 padding cs).map
            ((push quad left v).1.toList ++ ·)

/-- Strict decoding. -/
def decode (text : List Nat) : Option (List UInt8) :=
  if text.head? = some pad then none else decodeLoop 0 0 0 false text

/-- One character of the alphabet, outside padding. -/
theorem decodeLoop_char {quad left pads n : Nat} (h : n < 64) (cs : List Nat) :
    decodeLoop quad left pads false (char n :: cs)
      = (decodeLoop ((quad + 1) % 4) (push quad left n).2 0 false cs).map
          ((push quad left n).1.toList ++ ·) := by
  rw [decodeLoop, if_neg (char_ne_pad n h), bits_char h]
  rfl

/-- The bytes that four parts make up. -/
theorem byte₁ (a b : UInt8) : UInt8.ofNat (sextet₁ a * 4 + sextet₂ a b / 16) = a := by
  have hb := b.toNat_lt
  have heq : sextet₁ a * 4 + sextet₂ a b / 16 = a.toNat := by
    unfold sextet₁ sextet₂
    omega
  rw [heq, UInt8.ofNat_toNat]

theorem byte₂ (a b c : UInt8) : UInt8.ofNat (sextet₂ a b % 16 * 16 + sextet₃ b c / 4) = b := by
  have hb := b.toNat_lt
  have hc := c.toNat_lt
  have heq : sextet₂ a b % 16 * 16 + sextet₃ b c / 4 = b.toNat := by
    unfold sextet₂ sextet₃
    omega
  rw [heq, UInt8.ofNat_toNat]

theorem byte₃ (b c : UInt8) : UInt8.ofNat (sextet₃ b c % 4 * 64 + sextet₄ c) = c := by
  have hc := c.toNat_lt
  have heq : sextet₃ b c % 4 * 64 + sextet₄ c = c.toNat := by
    unfold sextet₃ sextet₄
    omega
  rw [heq, UInt8.ofNat_toNat]

/-- The padding that completes a group ends the text. -/
theorem decodeLoop_pad (left : Nat) : decodeLoop 3 left 0 false [pad] = some [] := by
  simp [decodeLoop]

theorem decodeLoop_pad_pad (left : Nat) : decodeLoop 2 left 0 false [pad, pad] = some [] := by
  simp [decodeLoop]

theorem decodeLoop_encode (bytes : List UInt8) :
    decodeLoop 0 0 0 false (encode bytes) = some bytes := by
  fun_induction encode bytes with
  | case1 a b c _ ih =>
    -- a whole group gives its three bytes and starts over
    rw [decodeLoop_char (sextet₁_lt a), decodeLoop_char (sextet₂_lt a b),
      decodeLoop_char (sextet₃_lt b c), decodeLoop_char (sextet₄_lt c)]
    simp only [push, Nat.zero_add, Nat.reduceAdd, Nat.reduceMod, ih, Option.map_some,
      Option.toList_some, Option.toList_none, byte₁, byte₂, byte₃, cons_append,
      nil_append]
  | case2 a b =>
    rw [decodeLoop_char (sextet₁_lt a), decodeLoop_char (sextet₂_lt a b),
      decodeLoop_char (sextet₃_lt b 0)]
    simp only [push, Nat.zero_add, Nat.reduceAdd, Nat.reduceMod, decodeLoop_pad,
      Option.map_some, Option.toList_some, Option.toList_none, byte₁, byte₂, cons_append,
      nil_append]
  | case3 a =>
    rw [decodeLoop_char (sextet₁_lt a), decodeLoop_char (sextet₂_lt a 0)]
    simp only [push, Nat.zero_add, Nat.reduceAdd, Nat.reduceMod, decodeLoop_pad_pad,
      Option.map_some, Option.toList_some, Option.toList_none, byte₁, cons_append,
      nil_append]
  | case4 => rfl

/-- **The round trip.** -/
theorem decode_encode (bytes : List UInt8) : decode (encode bytes) = some bytes := by
  have hhead : (encode bytes).head? ≠ some pad := by
    have hfirst : ∀ a, char (sextet₁ a) ≠ pad := fun a => char_ne_pad _ (sextet₁_lt a)
    fun_cases encode bytes <;> simp [hfirst]
  unfold decode
  rw [if_neg hhead]
  exact decodeLoop_encode bytes

/-- A character outside the alphabet is refused, wherever it stands. -/
theorem decodeLoop_none (hpad : c ≠ pad) (hbits : bits c = none) (text : List Nat) :
    ∀ quad left pads padding, c ∈ text → decodeLoop quad left pads padding text = none := by
  induction text with
  | nil => exact fun _ _ _ _ h => absurd h not_mem_nil
  | cons _ _ ih =>
    intro quad left pads padding h
    rw [decodeLoop]
    rcases mem_cons.mp h with rfl | h
    · rw [if_neg hpad, hbits]
    · split
      · split
        · rw [if_neg (ne_nil_of_mem h)]
        · exact ih _ _ _ _ h
      · split
        · rfl
        · split
          · rfl
          · rw [ih _ _ _ _ h]
            rfl

theorem decode_none {text : List Nat} (hc : c ∈ text) (hpad : c ≠ pad)
    (hbits : bits c = none) : decode text = none := by
  unfold decode
  split
  · rfl
  · exact decodeLoop_none hpad hbits text _ _ _ _ hc

end Base64
