import Scaffold.Digest.Sha256

/-!
# Digest/NameId — identifiers derived from a name

A name inside a name space has a fixed identifier: the first 16 bytes of the 160-bit hash of name
space and name, with the version (5) and the variant written over six bits.
-/

namespace Scaffold.Digest

namespace Sha1

structure State where
  (a b c d e : UInt32)
deriving DecidableEq

def State.start : State := ⟨0x67452301, 0xefcdab89, 0x98badcfe, 0x10325476, 0xc3d2e1f0⟩

/-- The 80 words that a block is spread to. -/
def schedule (bytes : ByteArray) (start : Nat) : Array UInt32 :=
  let first := (List.range 16).foldl (fun w i => w.push (wordAt bytes (start + 4 * i)))
    (Array.emptyWithCapacity 80)
  (List.range 64).foldl (fun w i =>
    let x := w.getD (i + 13) 0 ^^^ w.getD (i + 8) 0 ^^^ w.getD (i + 2) 0 ^^^ w.getD i 0
    w.push (rotateLeft x 1)) first

/-- One round of mixing; the function and the constant change every twenty rounds. -/
def State.round (s : State) (i : Nat) (w : UInt32) : State :=
  let (f, k) : UInt32 × UInt32 :=
    if i < 20 then ((s.b &&& s.c) ||| (~~~ s.b &&& s.d), 0x5a827999)
    else if i < 40 then (s.b ^^^ s.c ^^^ s.d, 0x6ed9eba1)
    else if i < 60 then ((s.b &&& s.c) ||| (s.b &&& s.d) ||| (s.c &&& s.d), 0x8f1bbcdc)
    else (s.b ^^^ s.c ^^^ s.d, 0xca62c1d6)
  ⟨rotateLeft s.a 5 + f + s.e + k + w, s.a, rotateLeft s.b 30, s.c, s.d⟩

def State.absorb (s : State) (bytes : ByteArray) (start : Nat) : State :=
  let w := schedule bytes start
  let t := (List.range 80).foldl (fun t i => t.round i (w.getD i 0)) s
  ⟨s.a + t.a, s.b + t.b, s.c + t.c, s.d + t.d, s.e + t.e⟩

end Sha1

/-- The 160-bit hash of a message. -/
def sha1 (message : ByteArray) : List UInt8 :=
  let bytes := padded message
  let blocks := List.range (bytes.size / 64)
  let s := blocks.foldl (fun s i => s.absorb bytes (64 * i)) Sha1.State.start
  [s.a, s.b, s.c, s.d, s.e].flatMap wordBytes

/-- The name space of web addresses. -/
def addressSpace : List UInt8 :=
  [0x6b, 0xa7, 0xb8, 0x11, 0x9d, 0xad, 0x11, 0xd1, 0x80, 0xb4, 0x00, 0xc0, 0x4f, 0xd4, 0x30, 0xc8]

/-- The identifier of a name, in its five hyphenated groups. -/
def nameId (name : String) : String :=
  let hash := (sha1 (⟨addressSpace.toArray⟩ ++ name.toUTF8)).take 16
  let marked := hash.mapIdx fun i b =>
    if i = 6 then b &&& 0x0f ||| 0x50 else if i = 8 then b &&& 0x3f ||| 0x80 else b
  let group (start n : Nat) : String := hex ((marked.drop start).take n)
  "-".intercalate [group 0 4, group 4 2, group 6 2, group 8 2, group 10 6]

end Scaffold.Digest
