import Scaffold.Number.Binary64
import Scaffold.Text.Lines

/-!
# Number/Numeral — reading numbers, and the length of a number

A number is read in parts: a sign, digits, perhaps a point and more digits, perhaps an exponent.
What counts as a digit is a parameter, since some documents take the decimal digits of every script
and others those of ASCII alone.  A whole number of more than `digitLimit` digits is neither read
from decimal digits nor written in them.
-/

namespace Scaffold.Number.Numeral

/-- The sign of a text, and what follows it. -/
def signed : List Char → Bool × List Char
  | '-' :: cs => (true, cs)
  | '+' :: cs => (false, cs)
  | cs => (false, cs)

/-- The value of an ASCII digit. -/
def plainDigit? (c : Char) : Option Nat :=
  if Text.isPlainDigit c then some (c.toNat - 48) else none

/-- The leading digits and what follows them. -/
def decimals (digit? : Char → Option Nat) (cs : List Char) : List Nat × List Char :=
  let ds := cs.takeWhile fun c => (digit? c).isSome
  (ds.filterMap digit?, cs.drop ds.length)

/-- The number that digits stand for, the most significant first. -/
def natOf (digits : List Nat) : Nat := digits.foldl (fun n d => n * 10 + d) 0

/-- The number that ASCII digits stand for. -/
def natOfDigits (ds : List Char) : Nat := ds.foldl (fun n c => n * 10 + (c.toNat - 48)) 0

/-- The number with a sign. -/
def withSign (negative : Bool) (n : Nat) : Int := if negative then -(n : Int) else n

/-- The exponent that ends a number. -/
def exponent? (digit? : Char → Option Nat) : List Char → Option Int
  | [] => some 0
  | e :: cs =>
    let (negative, cs) := signed cs
    match decimals digit? cs with
    | (d :: ds, []) =>
      if e == 'e' || e == 'E' then some (withSign negative (natOf (d :: ds))) else none
    | _ => none

/-- A number with or without a sign, a point and an exponent, or the word for infinity or for no
number. -/
def real? (digit? : Char → Option Nat) (cs : List Char) : Option Binary64 :=
  let (negative, cs) := signed cs
  let small := String.ofList (cs.map Text.plainLower)
  if small = "inf" || small = "infinity" then some (.infinite negative)
  else if small = "nan" then some .nan
  else
    let (whole, rest) := decimals digit? cs
    let (places, rest) := match rest with
      | '.' :: r => decimals digit? r
      | r => ([], r)
    if whole.isEmpty && places.isEmpty then none
    else (exponent? digit? rest).map fun e =>
      .ofDecimal negative (natOf (whole ++ places)) (e - places.length)

/-- The text without the gaps between its digits; none if a gap stands at an end or beside
another. -/
def withoutGaps? (cs : List Char) : Option (List Char) :=
  let groups := Text.pieces '_' cs
  if groups.all fun g => !g.isEmpty then some groups.flatten else none

/-! ## Length -/

/-- The greatest number of decimal digits of a whole number that is read or written. -/
def digitLimit : Nat := 4300

/-- Why a whole number of too many digits is refused; `found` tells how many there are. -/
def limitMessage (found : String) : String :=
  "Exceeds the limit (" ++ toString digitLimit ++ " digits) for integer string conversion" ++
    found ++ "; use sys.set_int_max_str_digits() to increase the limit"

/-- Why `count` digits are not read as a whole number. -/
def excessMessage (count : Nat) : String :=
  limitMessage (": value has " ++ toString count ++ " digits")

/-- The whole number can be written: it has no more than `digitLimit` digits, without its sign. -/
def isWritable (n : Int) : Bool := (Nat.toDigits 10 n.natAbs).length ≤ digitLimit

/-- One more than the greatest whole number of 64 bits with a sign. -/
def wordLimit : Nat := 1 <<< 63

/-- The whole number fits in 64 bits with a sign. -/
def fitsWord (n : Int) : Bool := -(wordLimit : Int) ≤ n && n < wordLimit

end Scaffold.Number.Numeral
