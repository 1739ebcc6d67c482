/-!
# Number/Binary64 — floating-point numbers with 53 binary digits

A finite number is `± m · 2^q`.  Everything that rounds goes through `ofRatio`, which takes an
exact quotient to the nearest number and a tie to the one with even significand, so reading a
decimal, adding and multiplying are one rounding each.
-/

namespace Scaffold.Number

/-- A binary floating-point number of 64 bits.  In a finite number either the significand has 53
bits or the exponent is `-1074`. -/
inductive Binary64 where
  | nan
  | infinite (negative : Bool)
  | finite (negative : Bool) (significand : Nat) (exponent : Int)
deriving DecidableEq, Repr, Inhabited

namespace Binary64

/-- Positive zero. -/
def zero : Binary64 := .finite false 0 (-1074)

/-- `m · 2^q` as a quotient of natural numbers. -/
def ratio (m : Nat) (q : Int) : Nat × Nat :=
  if 0 ≤ q then (m <<< q.toNat, 1) else (m, 1 <<< (-q).toNat)

/-- The nearest whole number to `num / den`, a tie going to the even one. -/
def nearest (num den : Nat) : Nat :=
  let whole := num / den
  let twice := 2 * (num % den)
  if twice < den || (twice == den && whole % 2 == 0) then whole else whole + 1

/-- The number nearest to `± num / den`. -/
def ofRatio (negative : Bool) (num den : Nat) : Binary64 :=
  if num = 0 then .finite negative 0 (-1074)
  else
    let start : Int := max ((num.log2 : Int) - den.log2 - 53) (-1074)
    let scaled (q : Int) : Nat × Nat :=
      if 0 ≤ q then (num, den <<< q.toNat) else (num <<< (-q).toNat, den)
    let q := if (scaled start).1 / (scaled start).2 < 1 <<< 53 then start else start + 1
    let m := nearest (scaled q).1 (scaled q).2
    let (m, q) := if m = 1 <<< 53 then (1 <<< 52, q + 1) else (m, q)
    if 971 < q then .infinite negative else .finite negative m q

/-- The number nearest to a whole number. -/
def ofInt (n : Int) : Binary64 := ofRatio (n < 0) n.natAbs 1

/-- The number nearest to `± digits · 10^exponent`. -/
def ofDecimal (negative : Bool) (digits : Nat) (exponent : Int) : Binary64 :=
  if digits = 0 then ofRatio negative 0 1
  else if 400 < exponent then .infinite negative
  else if 0 ≤ exponent then ofRatio negative (digits * Nat.pow 10 exponent.toNat) 1
  else if (digits.log2 : Int) + 1 < (-exponent) * 3 - 1100 then ofRatio negative 0 1
  else ofRatio negative digits (Nat.pow 10 (-exponent).toNat)

/-- The exact value of a finite number as sign, numerator and denominator. -/
def fraction? : Binary64 → Option (Bool × Nat × Nat)
  | .finite s m q => some (s, ratio m q)
  | _ => none

/-- Numeric comparison; a NaN compares with nothing. -/
def compare? (x y : Binary64) : Option Ordering :=
  let signed (s : Bool) (n : Nat) : Int := if s then -n else n
  match x, y with
  | .nan, _ | _, .nan => none
  | .infinite s, .infinite t => some (compare (signed s 1) (signed t 1))
  | .infinite s, _ => some (if s then .lt else .gt)
  | _, .infinite s => some (if s then .gt else .lt)
  | .finite s m q, .finite t n r =>
    let a := ratio m q
    let b := ratio n r
    some (compare (signed s (a.1 * b.2)) (signed t (b.1 * a.2)))

/-- Numeric equality: the two zeros are equal and a NaN equals nothing. -/
def same (x y : Binary64) : Bool := compare? x y == some .eq

/-- Numeric equality with a whole number, decided exactly. -/
def sameInt (x : Binary64) (n : Int) : Bool :=
  match fraction? x with
  | some (s, num, den) => (if s then -(num : Int) else num) == n * den
  | none => false

def isZero : Binary64 → Bool
  | .finite _ m _ => m == 0
  | _ => false

/-- The whole number that the number is, if it is one. -/
def toInt? (x : Binary64) : Option Int :=
  match fraction? x with
  | some (s, num, den) =>
    if num % den = 0 then some (if s then -((num / den : Nat) : Int) else (num / den : Nat))
    else none
  | none => none

/-- The largest whole number that is not above the number. -/
def floor? (x : Binary64) : Option Int :=
  match fraction? x with
  | some (s, num, den) => some (Int.fdiv (if s then -(num : Int) else num) den)
  | none => none

/-- The whole number nearest to `scale` times the number, a tie going up. -/
def halfUp? (scale : Nat) (x : Binary64) : Option Int :=
  match fraction? x with
  | some (s, num, den) =>
    some (Int.fdiv (2 * scale * (if s then -(num : Int) else num) + den) (2 * den))
  | none => none

def neg : Binary64 → Binary64
  | .nan => .nan
  | .infinite s => .infinite !s
  | .finite s m q => .finite (!s) m q

/-- The sum, rounded once. -/
def add : Binary64 → Binary64 → Binary64
  | .finite s m q, .finite t n r =>
    let a := ratio m q
    let b := ratio n r
    let signed (s : Bool) (n : Nat) : Int := if s then -n else n
    let num := signed s (a.1 * b.2) + signed t (b.1 * a.2)
    if num = 0 then .finite (s && t) 0 (-1074)
    else ofRatio (num < 0) num.natAbs (a.2 * b.2)
  | .infinite s, .infinite t => if s = t then .infinite s else .nan
  | .infinite s, .finite .. => .infinite s
  | .finite .., .infinite s => .infinite s
  | _, _ => .nan

/-- The product, rounded once. -/
def mul : Binary64 → Binary64 → Binary64
  | .finite s m q, .finite t n r =>
    let a := ratio m q
    let b := ratio n r
    ofRatio (s != t) (a.1 * b.1) (a.2 * b.2)
  | .nan, _ | _, .nan => .nan
  | x, y =>
    if x.isZero || y.isZero then .nan else .infinite (signOf x != signOf y)
where
  signOf : Binary64 → Bool
    | .finite s .. => s
    | .infinite s => s
    | .nan => false

end Binary64

end Scaffold.Number
