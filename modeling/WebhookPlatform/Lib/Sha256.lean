/-
  WebhookPlatform.Lib.Sha256
  **SHA-256 AND HMAC** on lists of bytes, written to be evaluated: a word is a
  `Nat` below `2 ^ 32`, the message schedule a window of sixteen words that
  slides, and one round a step of a recursion over pairs of constant and word.

      pad → words → per block: schedule, 64 rounds → eight words → bytes

  Nothing here is specific to one program.
-/
import Mathlib.Data.List.Basic
import Mathlib.Tactic

namespace Sha256

/-! ## §1. Words. -/

/-- The modulus of a word. -/
def wordModulus : Nat := 0x100000000

/-- Rotation to the right. -/
def rotr (x n : Nat) : Nat := (x >>> n ||| x <<< (32 - n)) % wordModulus

def bigSigma₀ (x : Nat) : Nat := rotr x 2 ^^^ rotr x 13 ^^^ rotr x 22
def bigSigma₁ (x : Nat) : Nat := rotr x 6 ^^^ rotr x 11 ^^^ rotr x 25
def smallSigma₀ (x : Nat) : Nat := rotr x 7 ^^^ rotr x 18 ^^^ (x >>> 3)
def smallSigma₁ (x : Nat) : Nat := rotr x 17 ^^^ rotr x 19 ^^^ (x >>> 10)

def choice (x y z : Nat) : Nat := (x &&& y) ^^^ ((wordModulus - 1 - x) &&& z)
def majority (x y z : Nat) : Nat := (x &&& y) ^^^ (x &&& z) ^^^ (y &&& z)

/-- The fractional parts of the cube roots of the first 64 primes. -/
def roundConstants : List Nat :=
  [ 0x428a2f98, 0x71374491, 0xb5c0fbcf, 0xe9b5dba5, 0x3956c25b, 0x59f111f1,
    0x923f82a4, 0xab1c5ed5, 0xd807aa98, 0x12835b01, 0x243185be, 0x550c7dc3,
    0x72be5d74, 0x80deb1fe, 0x9bdc06a7, 0xc19bf174, 0xe49b69c1, 0xefbe4786,
    0x0fc19dc6, 0x240ca1cc, 0x2de92c6f, 0x4a7484aa, 0x5cb0a9dc, 0x76f988da,
    0x983e5152, 0xa831c66d, 0xb00327c8, 0xbf597fc7, 0xc6e00bf3, 0xd5a79147,
    0x06ca6351, 0x14292967, 0x27b70a85, 0x2e1b2138, 0x4d2c6dfc, 0x53380d13,
    0x650a7354, 0x766a0abb, 0x81c2c92e, 0x92722c85, 0xa2bfe8a1, 0xa81a664b,
    0xc24b8b70, 0xc76c51a3, 0xd192e819, 0xd6990624, 0xf40e3585, 0x106aa070,
    0x19a4c116, 0x1e376c08, 0x2748774c, 0x34b0bcb5, 0x391c0cb3, 0x4ed8aa4a,
    0x5b9cca4f, 0x682e6ff3, 0x748f82ee, 0x78a5636f, 0x84c87814, 0x8cc70208,
    0x90befffa, 0xa4506ceb, 0xbef9a3f7, 0xc67178f2 ]

/-- Eight words: the chaining value. -/
structure Chain where
  a : Nat
  b : Nat
  c : Nat
  d : Nat
  e : Nat
  f : Nat
  g : Nat
  h : Nat

/-- The fractional parts of the square roots of the first eight primes. -/
def initial : Chain :=
  ⟨ 0x6a09e667, 0xbb67ae85, 0x3c6ef372, 0xa54ff53a, 0x510e527f, 0x9b05688c,
    0x1f83d9ab, 0x5be0cd19 ⟩

/-! ## §2. One block. -/

/-- The message schedule: the words of a window, each shifted out as the
next one is computed. -/
def schedule : Nat → List Nat → List Nat
  | 0, _ => []
  | n + 1, window =>
    window.headD 0
      :: schedule n (window.tail ++
          [(smallSigma₁ (window.getD 14 0) + window.getD 9 0
            + smallSigma₀ (window.getD 1 0) + window.getD 0 0) % wordModulus])

/-- The rounds of one block. -/
def rounds : List (Nat × Nat) → Nat → Nat → Nat → Nat → Nat → Nat → Nat → Nat → Chain
  | [], a, b, c, d, e, f, g, h => ⟨a, b, c, d, e, f, g, h⟩
  | (k, w) :: rest, a, b, c, d, e, f, g, h =>
    let t := h + bigSigma₁ e + choice e f g + k + w
    rounds rest ((t + (bigSigma₀ a + majority a b c)) % wordModulus) a b c
      ((d + t) % wordModulus) e f g

/-- The chaining value after a block of sixteen words. -/
def compress (x : Chain) (block : List Nat) : Chain :=
  let y := rounds (roundConstants.zip (schedule 64 block)) x.a x.b x.c x.d x.e x.f x.g x.h
  ⟨(x.a + y.a) % wordModulus, (x.b + y.b) % wordModulus, (x.c + y.c) % wordModulus,
    (x.d + y.d) % wordModulus, (x.e + y.e) % wordModulus, (x.f + y.f) % wordModulus,
    (x.g + y.g) % wordModulus, (x.h + y.h) % wordModulus⟩

/-! ## §3. The message. -/

/-- `count` bytes of a number, the highest first. -/
def bigEndian : Nat → Nat → List UInt8
  | 0, _ => []
  | count + 1, n => UInt8.ofNat (n / 256 ^ count) :: bigEndian count n

/-- The message, a one bit, zeros, and the length in bits. -/
def padMessage (message : List UInt8) : List UInt8 :=
  message ++ [0x80] ++ List.replicate ((119 - message.length % 64) % 64) 0
    ++ bigEndian 8 (8 * message.length)

/-- Big-endian words of four bytes. -/
def toWords : List UInt8 → List Nat
  | a :: b :: c :: d :: rest =>
    (((a.toNat * 256 + b.toNat) * 256 + c.toNat) * 256 + d.toNat) :: toWords rest
  | _ => []

/-- The blocks in order. -/
def compressAll : Nat → Chain → List Nat → Chain
  | 0, x, _ => x
  | blocks + 1, x, words => compressAll blocks (compress x (words.take 16)) (words.drop 16)

/-- The bytes of a chaining value. -/
def Chain.bytes (x : Chain) : List UInt8 :=
  [x.a, x.b, x.c, x.d, x.e, x.f, x.g, x.h].flatMap (bigEndian 4)

/-- **SHA-256.** -/
def sha256 (message : List UInt8) : List UInt8 :=
  let words := toWords (padMessage message)
  (compressAll (words.length / 16) initial words).bytes

theorem length_bigEndian (count n : Nat) : (bigEndian count n).length = count := by
  induction count with
  | zero => rfl
  | succ _ ih => rw [bigEndian, List.length_cons, ih]

/-- A digest has 32 bytes. -/
theorem length_sha256 (message : List UInt8) : (sha256 message).length = 32 := by
  simp [sha256, Chain.bytes, length_bigEndian]

/-- The digest of the empty message. -/
example : (sha256 []).take 4 = [0xe3, 0xb0, 0xc4, 0x42] := by decide +kernel

/-! ## §4. HMAC. -/

/-- The key as a block: hashed when it is longer than one, and filled up. -/
def keyBlock (key : List UInt8) : List UInt8 :=
  let key := if 64 < key.length then sha256 key else key
  key ++ List.replicate (64 - key.length) 0

/-- **HMAC-SHA-256.** -/
def hmac (key message : List UInt8) : List UInt8 :=
  let block := keyBlock key
  sha256 (block.map (· ^^^ 0x5c) ++ sha256 (block.map (· ^^^ 0x36) ++ message))

theorem length_hmac (key message : List UInt8) : (hmac key message).length = 32 := length_sha256 _

/-- HMAC under the empty key of the empty message. -/
example : (hmac [] []).take 4 = [0xb6, 0x13, 0x67, 0x9a] := by decide +kernel

end Sha256
