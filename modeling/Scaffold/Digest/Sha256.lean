/-!
# Digest/Sha256 — the 256-bit secure hash

The message is padded to blocks of 64 bytes (`Block.padded`), every block is spread to 64 words and
mixed into eight words of state.
-/

namespace Scaffold.Digest

/-- The bytes of a message padded to whole blocks of 64: a one bit, zeros, and the number of bits in
64 bits. -/
def padded (message : ByteArray) : ByteArray :=
  let bits := message.size * 8
  let zeros := (119 - message.size % 64) % 64
  let length := (List.range 8).map fun i => UInt8.ofNat (bits >>> (8 * (7 - i)))
  message ++ ⟨(0x80 :: List.replicate zeros 0 ++ length).toArray⟩

/-- The four bytes from `at` on as one word, most significant first. -/
def wordAt (bytes : ByteArray) (i : Nat) : UInt32 :=
  let byte (k : Nat) : UInt32 := (bytes.data.getD (i + k) 0).toUInt32
  byte 0 <<< 24 ||| byte 1 <<< 16 ||| byte 2 <<< 8 ||| byte 3

def rotateRight (x n : UInt32) : UInt32 := x >>> n ||| x <<< (32 - n)

def rotateLeft (x n : UInt32) : UInt32 := x <<< n ||| x >>> (32 - n)

/-- The bytes of a word, most significant first. -/
def wordBytes (w : UInt32) : List UInt8 :=
  [(w >>> 24).toUInt8, (w >>> 16).toUInt8, (w >>> 8).toUInt8, w.toUInt8]

/-- Two hexadecimal digits per byte. -/
def hex (bytes : List UInt8) : String :=
  let digit (n : Nat) : Char := (Nat.toDigits 16 n).headD '0'
  String.ofList (bytes.flatMap fun b => [digit (b.toNat / 16), digit (b.toNat % 16)])

namespace Sha256

/-- The first 32 bits of the fractional parts of the cube roots of the first 64 primes. -/
def roundConstants : Array UInt32 := #[
  0x428a2f98, 0x71374491, 0xb5c0fbcf, 0xe9b5dba5, 0x3956c25b, 0x59f111f1, 0x923f82a4, 0xab1c5ed5,
  0xd807aa98, 0x12835b01, 0x243185be, 0x550c7dc3, 0x72be5d74, 0x80deb1fe, 0x9bdc06a7, 0xc19bf174,
  0xe49b69c1, 0xefbe4786, 0x0fc19dc6, 0x240ca1cc, 0x2de92c6f, 0x4a7484aa, 0x5cb0a9dc, 0x76f988da,
  0x983e5152, 0xa831c66d, 0xb00327c8, 0xbf597fc7, 0xc6e00bf3, 0xd5a79147, 0x06ca6351, 0x14292967,
  0x27b70a85, 0x2e1b2138, 0x4d2c6dfc, 0x53380d13, 0x650a7354, 0x766a0abb, 0x81c2c92e, 0x92722c85,
  0xa2bfe8a1, 0xa81a664b, 0xc24b8b70, 0xc76c51a3, 0xd192e819, 0xd6990624, 0xf40e3585, 0x106aa070,
  0x19a4c116, 0x1e376c08, 0x2748774c, 0x34b0bcb5, 0x391c0cb3, 0x4ed8aa4a, 0x5b9cca4f, 0x682e6ff3,
  0x748f82ee, 0x78a5636f, 0x84c87814, 0x8cc70208, 0x90befffa, 0xa4506ceb, 0xbef9a3f7, 0xc67178f2]

/-- The eight words of state. -/
structure State where
  (a b c d e f g h : UInt32)
deriving DecidableEq

/-- The first 32 bits of the fractional parts of the square roots of the first eight primes. -/
def State.start : State :=
  ⟨0x6a09e667, 0xbb67ae85, 0x3c6ef372, 0xa54ff53a, 0x510e527f, 0x9b05688c, 0x1f83d9ab, 0x5be0cd19⟩

def State.add (s t : State) : State :=
  ⟨s.a + t.a, s.b + t.b, s.c + t.c, s.d + t.d, s.e + t.e, s.f + t.f, s.g + t.g, s.h + t.h⟩

def State.words (s : State) : List UInt32 := [s.a, s.b, s.c, s.d, s.e, s.f, s.g, s.h]

/-- The 64 words that the block of 64 bytes from `at` on is spread to. -/
def schedule (bytes : ByteArray) (start : Nat) : Array UInt32 :=
  let first := (List.range 16).foldl (fun w i => w.push (wordAt bytes (start + 4 * i)))
    (Array.emptyWithCapacity 64)
  (List.range 48).foldl (fun w i =>
    let x := w.getD (i + 1) 0
    let y := w.getD (i + 14) 0
    let s0 := rotateRight x 7 ^^^ rotateRight x 18 ^^^ (x >>> 3)
    let s1 := rotateRight y 17 ^^^ rotateRight y 19 ^^^ (y >>> 10)
    w.push (w.getD i 0 + s0 + w.getD (i + 9) 0 + s1)) first

/-- One round of mixing. -/
def State.round (s : State) (k w : UInt32) : State :=
  let s1 := rotateRight s.e 6 ^^^ rotateRight s.e 11 ^^^ rotateRight s.e 25
  let choice := (s.e &&& s.f) ^^^ (~~~ s.e &&& s.g)
  let t1 := s.h + s1 + choice + k + w
  let s0 := rotateRight s.a 2 ^^^ rotateRight s.a 13 ^^^ rotateRight s.a 22
  let majority := (s.a &&& s.b) ^^^ (s.a &&& s.c) ^^^ (s.b &&& s.c)
  ⟨t1 + (s0 + majority), s.a, s.b, s.c, s.d + t1, s.e, s.f, s.g⟩

/-- The state after one more block. -/
def State.absorb (s : State) (bytes : ByteArray) (start : Nat) : State :=
  let w := schedule bytes start
  let mixed := (List.range 64).foldl
    (fun t i => t.round (roundConstants.getD i 0) (w.getD i 0)) s
  s.add mixed

end Sha256

/-- The digest of a message. -/
def sha256 (message : ByteArray) : List UInt8 :=
  let bytes := padded message
  let final := (List.range (bytes.size / 64)).foldl (fun s i => s.absorb bytes (64 * i))
    Sha256.State.start
  final.words.flatMap wordBytes

/-- The digest of a text in hexadecimal digits. -/
def checksum (s : String) : String := hex (sha256 s.toUTF8)

end Scaffold.Digest
