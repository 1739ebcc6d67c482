import Scaffold.Document.Literal
import Scaffold.Document.Yaml.Tag
import Scaffold.Number.Numeral
import Scaffold.Text.Lettercase

/-!
# Document/Yaml/Meaning — what the texts of scalars denote

A text that has the form of its tag need not denote anything: there is no thirteenth month, and a
tag that is written out can stand before any text.
-/

namespace Scaffold.Document.Yaml

open Text Number Calendar

/-- Why a text denotes no value of its tag. -/
inductive Senseless where
  /-- No number. -/
  | number (message : String)
  /-- Nothing at all where a number must be. -/
  | noText
  /-- No truth value. -/
  | bool (word : String)
  /-- A text that does not have the form of a moment. -/
  | notMoment
  /-- A mapping where the text of a moment must be. -/
  | notWritten
  /-- A moment that does not exist. -/
  | moment (message : String)
  /-- Bytes that are not properly encoded. -/
  | bytes
deriving DecidableEq, Repr

/-! ## Numbers -/

/-- The value of a digit in some base. -/
def digitIn? (base : Nat) (c : Char) : Option Nat :=
  let d := (decimalValue? c).orElse fun _ =>
    if isPlainLetter c then some ((plainLower c).toNat - 87) else none
  d.filter (· < base)

/-- The letter that announces a base. -/
def baseLetter : Nat → List Char
  | 2 => ['b', 'B']
  | 8 => ['o', 'O']
  | 16 => ['x', 'X']
  | _ => []

/-- A whole number in some base, with blanks around it, a sign and the letter of the base. -/
def intIn? (base : Nat) (cs : List Char) : Option Int := do
  let (negative, cs) := Numeral.signed (trimChars cs)
  let digits := match cs with
    | '0' :: l :: ds => if (baseLetter base).contains l then ds else cs
    | cs => cs
  guard (!digits.isEmpty)
  let n ← digits.foldlM (fun n c => (digitIn? base c).map (n * base + ·)) 0
  return Numeral.withSign negative n

/-- The number of digits at the start of a decimal number. -/
def decimalLength (cs : List Char) : Nat :=
  (Numeral.decimals decimalValue? (Numeral.signed (trimChars cs)).2).1.length

/-- A whole number in some base; a decimal one may not be too long. -/
def intIn (base : Nat) (cs : List Char) : Except Senseless Int :=
  let length := decimalLength cs
  if base = 10 && Numeral.digitLimit < length then
    .error (.number (Numeral.excessMessage length))
  else match intIn? base cs with
    | some n => .ok n
    | none => .error (.number (Literal.notWhole base (String.ofList cs)))

/-- The number of groups in base sixty. -/
def sexagesimal (groups : List Int) : Int := groups.foldl (fun n g => n * 60 + g) 0

/-- A whole number without its sign. -/
def magnitude : List Char → Except Senseless Int
  | ['0'] => .ok 0
  | '0' :: 'b' :: ds => intIn 2 ds
  | '0' :: 'x' :: ds => intIn 16 ds
  | '0' :: ds => intIn 8 ('0' :: ds)
  | [] => .error .noText
  | cs =>
    if cs.contains ':' then ((pieces ':' cs).mapM (intIn 10)).map sexagesimal else intIn 10 cs

/-- A whole number: underscores do not count. -/
def intOf (s : String) : Except Senseless Int :=
  let (negative, cs) := Numeral.signed (s.toList.filter (· ≠ '_'))
  (magnitude cs).map fun n => if negative then -n else n

/-- A floating-point number with blanks around it. -/
def realIn (cs : List Char) : Except Senseless Binary64 :=
  match Numeral.real? decimalValue? (trimChars cs) with
  | some x => .ok x
  | none => .error (.number ("could not convert string to float: " ++
      Literal.quote (String.ofList cs)))

/-- The number of groups in base sixty.  The last group comes first, and the sum begins there. -/
def sexagesimalReal (groups : List Binary64) : Binary64 :=
  (groups.zipIdx.foldl (fun x (g, i) => x.add (g.mul (.ofInt (Nat.pow 60 i)))) .zero)

/-- A floating-point number without its sign, in small letters. -/
def realMagnitude (cs : List Char) : Except Senseless Binary64 :=
  if cs = ".inf".toList then .ok (.infinite false)
  else if cs = ".nan".toList then .ok .nan
  else if cs.contains ':' then
    ((pieces ':' cs).mapM realIn).map fun groups => sexagesimalReal groups.reverse
  else realIn cs

/-- A floating-point number: underscores and case do not count. -/
def realOf (s : String) : Except Senseless Binary64 :=
  match (Text.lower s).toList.filter (· ≠ '_') with
  | [] => .error .noText
  | cs =>
    let (negative, cs) := Numeral.signed cs
    (realMagnitude cs).map fun x => if negative then x.neg else x

/-! ## Truth values -/

def boolOf (s : String) : Except Senseless Bool :=
  let word := Text.lower s
  if ["yes", "true", "on"].contains word then .ok true
  else if ["no", "false", "off"].contains word then .ok false
  else .error (.bool word)

/-! ## Moments -/

def dateOf (year month day : Nat) : Except Senseless Date :=
  if year < 1 then .error (.moment ("year " ++ toString year ++ " is out of range"))
  else if month < 1 || 12 < month then .error (.moment "month must be in 1..12")
  else if day < 1 || daysInMonth year month < day then
    .error (.moment "day is out of range for month")
  else .ok ⟨year, month, day⟩

/-- A span of minutes as a construction from days and seconds. -/
def spanText (minutes : Int) : String :=
  let days := Int.fdiv minutes 1440
  let seconds := (minutes - days * 1440) * 60
  let parts := (if days = 0 then [] else ["days=" ++ toString days]) ++
    (if seconds = 0 then [] else ["seconds=" ++ toString seconds])
  "datetime.timedelta(" ++ (if parts.isEmpty then "0" else ", ".intercalate parts) ++ ")"

/-- The distance from universal time in seconds; it is less than a day. -/
def offsetOf (sign : Char) (hours minutes : Nat) : Except Senseless Int :=
  let total : Int := hours * 60 + minutes
  let total := if sign = '-' then -total else total
  if total.natAbs < 1440 then .ok (total * 60)
  else .error (.moment ("offset must be a timedelta strictly between -timedelta(hours=24) and " ++
    "timedelta(hours=24), not " ++ spanText total ++ "."))

/-- The digits of a fraction of a second as microseconds. -/
def microsecondsOf (fraction : List Char) : Nat :=
  let ds := fraction.take 6
  Numeral.natOfDigits (ds ++ List.replicate (6 - ds.length) '0')

/-- A day, or a moment if a time of day is written too. -/
def stampOf (s : String) : Except Senseless Value :=
  match Plain.stamp? s.toList with
  | none => .error .notMoment
  | some p =>
    let date :=
      dateOf (Numeral.natOfDigits p.year) (Numeral.natOfDigits p.month) (Numeral.natOfDigits p.day)
    match p.time with
    | none => date.map .date
    | some (hour, minute, second, fraction) => do
      let offset ← match p.zone with
        | none => pure none
        | some none => pure (some 0)
        | some (some (sign, hours, minutes)) =>
          (offsetOf sign (Numeral.natOfDigits hours) (Numeral.natOfDigits minutes)).map some
      let date ← date
      if 23 < Numeral.natOfDigits hour then throw (.moment "hour must be in 0..23")
      if 59 < Numeral.natOfDigits minute then throw (.moment "minute must be in 0..59")
      if 59 < Numeral.natOfDigits second then throw (.moment "second must be in 0..59")
      return .moment ⟨date, Numeral.natOfDigits hour, Numeral.natOfDigits minute,
        Numeral.natOfDigits second, microsecondsOf fraction, offset⟩

/-! ## Bytes -/

/-- The number that a letter of the encoding stands for. -/
def sextet? (c : Char) : Option Nat :=
  if isUpperLetter c then some (c.toNat - 65)
  else if isLowerLetter c then some (c.toNat - 71)
  else if isPlainDigit c then some (c.toNat + 4)
  else if c = '+' then some 62
  else if c = '/' then some 63
  else none

/-- Decodes groups of four letters to three bytes; `place` counts the letters of the group so far,
`left` holds the bits that no byte has yet, and `pads` counts the signs that fill the group up.  All
other characters are passed over. -/
def decodeFrom (place left pads : Nat) : List Char → Option (List UInt8)
  | [] => if place = 0 then some [] else none
  | c :: cs =>
    if c = '=' then
      if place < 2 then decodeFrom place left pads cs
      else if 4 ≤ place + pads + 1 then some []
      else decodeFrom place left (pads + 1) cs
    else match sextet? c with
      | none => decodeFrom place left pads cs
      | some n =>
        let byte (b : Nat) (rest : Option (List UInt8)) := rest.map (b.toUInt8 :: ·)
        match place with
        | 0 => decodeFrom 1 n 0 cs
        | 1 => byte (left * 4 + n / 16) (decodeFrom 2 (n % 16) 0 cs)
        | 2 => byte (left * 16 + n / 4) (decodeFrom 3 (n % 4) 0 cs)
        | _ => byte (left * 64 + n) (decodeFrom 0 0 0 cs)

def bytesOf (s : String) : Except Senseless (List UInt8) :=
  if s.toList.all (·.toNat < 128) then (decodeFrom 0 0 0 s.toList).elim (.error .bytes) .ok
  else .error .bytes

/-! ## Scalars -/

/-- The value that a text denotes under a tag; none if the tag is not one of a scalar. -/
def scalarOf (tag : Tag) (s : String) : Option (Except Senseless Value) :=
  match tag with
  | .null => some (.ok .null)
  | .bool => some ((boolOf s).map .bool)
  | .int => some ((intOf s).map .int)
  | .float => some ((realOf s).map .real)
  | .stamp => some (stampOf s)
  | .text => some (.ok (.text s))
  | .binary => some ((bytesOf s).map .bytes)
  | _ => none

end Scaffold.Document.Yaml
