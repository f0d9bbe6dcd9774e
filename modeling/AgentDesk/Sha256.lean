/-
# SHA-256

The hash of FIPS 180-4 on a list of bytes, its hexadecimal text, and the message
authentication code made of it. Words are naturals below 2^32.

Key definitions: `Sha256.hash`, `Sha256.hexDigest`, `Sha256.hmac`.
-/
import Mathlib.Algebra.Ring.Nat
import Mathlib.Data.List.Basic

namespace Sha256

/-! ### Bytes -/

/-- The UTF-8 encoding of a character. -/
def utf8 (c : Char) : List ℕ :=
  let n := c.toNat
  if n < 0x80 then [n]
  else if n < 0x800 then [0xc0 + n / 0x40, 0x80 + n % 0x40]
  else if n < 0x10000 then [0xe0 + n / 0x1000, 0x80 + n / 0x40 % 0x40, 0x80 + n % 0x40]
  else [0xf0 + n / 0x40000, 0x80 + n / 0x1000 % 0x40, 0x80 + n / 0x40 % 0x40, 0x80 + n % 0x40]

/-- `count` bytes of `n`, most significant first. -/
def bigEndian : ℕ → ℕ → List ℕ
  | 0, _ => []
  | count + 1, n => bigEndian count (n / 256) ++ [n % 256]

/-- A one bit, zeros up to the last eight bytes of a block, the length in bits. -/
def pad (bytes : List ℕ) : List ℕ :=
  bytes ++ 0x80 :: List.replicate ((119 - bytes.length % 64) % 64) 0 ++ bigEndian 8 (8 * bytes.length)

/-- Bytes to words. -/
def words : List ℕ → List ℕ
  | a :: b :: c :: d :: rest => (((a * 256 + b) * 256 + c) * 256 + d) :: words rest
  | _ => []

/-! ### The functions -/

def size : ℕ := 2 ^ 32

def rotr (n x : ℕ) : ℕ := x >>> n ||| (x <<< (32 - n)) % size

def bigSigma0 (x : ℕ) : ℕ := rotr 2 x ^^^ rotr 13 x ^^^ rotr 22 x

def bigSigma1 (x : ℕ) : ℕ := rotr 6 x ^^^ rotr 11 x ^^^ rotr 25 x

def smallSigma0 (x : ℕ) : ℕ := rotr 7 x ^^^ rotr 18 x ^^^ x >>> 3

def smallSigma1 (x : ℕ) : ℕ := rotr 17 x ^^^ rotr 19 x ^^^ x >>> 10

def ch (x y z : ℕ) : ℕ := (x &&& y) ^^^ ((size - 1 - x) &&& z)

def maj (x y z : ℕ) : ℕ := (x &&& y) ^^^ (x &&& z) ^^^ (y &&& z)

def roundConstants : List ℕ :=
  [0x428a2f98, 0x71374491, 0xb5c0fbcf, 0xe9b5dba5, 0x3956c25b, 0x59f111f1, 0x923f82a4, 0xab1c5ed5,
   0xd807aa98, 0x12835b01, 0x243185be, 0x550c7dc3, 0x72be5d74, 0x80deb1fe, 0x9bdc06a7, 0xc19bf174,
   0xe49b69c1, 0xefbe4786, 0x0fc19dc6, 0x240ca1cc, 0x2de92c6f, 0x4a7484aa, 0x5cb0a9dc, 0x76f988da,
   0x983e5152, 0xa831c66d, 0xb00327c8, 0xbf597fc7, 0xc6e00bf3, 0xd5a79147, 0x06ca6351, 0x14292967,
   0x27b70a85, 0x2e1b2138, 0x4d2c6dfc, 0x53380d13, 0x650a7354, 0x766a0abb, 0x81c2c92e, 0x92722c85,
   0xa2bfe8a1, 0xa81a664b, 0xc24b8b70, 0xc76c51a3, 0xd192e819, 0xd6990624, 0xf40e3585, 0x106aa070,
   0x19a4c116, 0x1e376c08, 0x2748774c, 0x34b0bcb5, 0x391c0cb3, 0x4ed8aa4a, 0x5b9cca4f, 0x682e6ff3,
   0x748f82ee, 0x78a5636f, 0x84c87814, 0x8cc70208, 0x90befffa, 0xa4506ceb, 0xbef9a3f7, 0xc67178f2]

structure State where
  a : ℕ
  b : ℕ
  c : ℕ
  d : ℕ
  e : ℕ
  f : ℕ
  g : ℕ
  h : ℕ
  deriving DecidableEq, Repr

def initial : State :=
  ⟨0x6a09e667, 0xbb67ae85, 0x3c6ef372, 0xa54ff53a, 0x510e527f, 0x9b05688c, 0x1f83d9ab, 0x5be0cd19⟩

/-! ### Rounds and blocks -/

/-- The message schedule's next word; `recent` is the last sixteen, newest first. -/
def nextWord (recent : List ℕ) : ℕ :=
  (smallSigma1 (recent.getD 1 0) + recent.getD 6 0 + smallSigma0 (recent.getD 14 0) + recent.getD 15 0) % size

def round (s : State) (k w : ℕ) : State :=
  let t₁ := s.h + bigSigma1 s.e + ch s.e s.f s.g + k + w
  let t₂ := bigSigma0 s.a + maj s.a s.b s.c
  ⟨(t₁ + t₂) % size, s.a, s.b, s.c, (s.d + t₁) % size, s.e, s.f, s.g⟩

/-- The rounds with the constants `ks`: the block's words while there are some, then the schedule's. -/
def rounds : State → List ℕ → List ℕ → List ℕ → State
  | s, _, _, [] => s
  | s, recent, w :: ws, k :: ks => rounds (round s k w) (w :: recent) ws ks
  | s, recent, [], k :: ks =>
    let w := nextWord recent
    rounds (round s k w) (w :: recent.take 15) [] ks

def State.add (s t : State) : State :=
  ⟨(s.a + t.a) % size, (s.b + t.b) % size, (s.c + t.c) % size, (s.d + t.d) % size,
   (s.e + t.e) % size, (s.f + t.f) % size, (s.g + t.g) % size, (s.h + t.h) % size⟩

/-- The blocks of sixteen words, at most `fuel` of them. -/
def blocks : ℕ → State → List ℕ → State
  | 0, s, _ => s
  | _, s, [] => s
  | fuel + 1, s, ws => blocks fuel (s.add (rounds s [] (ws.take 16) roundConstants)) (ws.drop 16)

def hash (bytes : List ℕ) : State :=
  let ws := words (pad bytes)
  blocks ws.length initial ws

/-! ### The text -/

def hexDigit (n : ℕ) : Char := if n < 10 then Char.ofNat (48 + n) else Char.ofNat (87 + n)

/-- `count` hexadecimal digits of `n`. -/
def hex : ℕ → ℕ → List Char
  | 0, _ => []
  | count + 1, n => hex count (n / 16) ++ [hexDigit (n % 16)]

/-- The hexadecimal digest of a text's UTF-8 bytes. -/
def hexDigest (text : List Char) : List Char :=
  let s := hash (text.flatMap utf8)
  [s.a, s.b, s.c, s.d, s.e, s.f, s.g, s.h].flatMap (hex 8)

-- the standard's example, `abc`
example : hash [0x61, 0x62, 0x63] = ⟨0xba7816bf, 0x8f01cfea, 0x414140de, 0x5dae2223, 0xb00361a3, 0x96177a9c,
    0xb410ff61, 0xf20015ad⟩ := by decide +kernel

/-! ### HMAC -/

def State.bytes (s : State) : List ℕ := [s.a, s.b, s.c, s.d, s.e, s.f, s.g, s.h].flatMap (bigEndian 4)

def State.hex (s : State) : List Char := [s.a, s.b, s.c, s.d, s.e, s.f, s.g, s.h].flatMap (Sha256.hex 8)

/-- The code of a message's bytes under a key. -/
def hmac (key message : List ℕ) : State :=
  let key := if 64 < key.length then (hash key).bytes else key
  let block := key ++ List.replicate (64 - key.length) 0
  hash (block.map (· ^^^ 0x5c) ++ (hash (block.map (· ^^^ 0x36) ++ message)).bytes)

example : (hmac ("Jefe".toList.flatMap utf8) ("what do ya want for nothing?".toList.flatMap utf8)).hex =
    "5bdcc146bf60754e6a042426089575c75a003f089d2739839dec58b964ec3843".toList := by decide +kernel

end Sha256
