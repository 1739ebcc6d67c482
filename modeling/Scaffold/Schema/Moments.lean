import Scaffold.Schema.Checked

/-!
# Schema/Moments — moments in documents

A moment is written as a day and a time of day with an optional distance from universal time, as a
day alone, or as the number of seconds since 1970; numbers beyond 20 000 000 000 count milliseconds.
A text that is neither is reported as a failed day.  Texts are read octet by octet, so that bytes
are read like texts.  The year zero can be written but is no year of the calendar.
-/

namespace Scaffold.Schema

open Document Number Calendar

namespace Moments

/-- Why a day or a moment cannot be read. -/
inductive Fault where
  | tooShort
  | extraCharacters
  | year
  | separator
  | month
  | day
  | monthRange
  | dayRange
  | tooEarly
  | tooLate
  | time
  | notANumber
deriving DecidableEq, Repr

def Fault.message : Fault → String
  | tooShort => "input is too short"
  | extraCharacters => "unexpected extra characters at the end of the input"
  | year => "invalid character in year"
  | separator => "invalid date separator, expected `-`"
  | month => "invalid character in month"
  | day => "invalid character in day"
  | monthRange => "month value is outside expected range of 1-12"
  | dayRange => "day value is outside expected range"
  | tooEarly => "dates before 0000 are not supported as unix timestamps"
  | tooLate => "dates after 9999 are not supported as unix timestamps"
  | time => "invalid time"
  | notANumber => "NaN values not permitted"

/-- A character for each octet. -/
def characters (octets : List UInt8) : List Char := octets.map fun b => Char.ofNat b.toNat

/-- The value of digits, if all are ASCII digits. -/
def digits? (cs : List Char) : Option Nat :=
  if cs.all Text.isPlainDigit then some (Numeral.natOfDigits cs) else none

/-- The day at the start of a text, and the rest. -/
def readDate : List Char → Except Fault (Date × List Char)
  | y1 :: y2 :: y3 :: y4 :: s1 :: m1 :: m2 :: s2 :: d1 :: d2 :: rest =>
    match digits? [y1, y2, y3, y4] with
    | none => .error .year
    | some y =>
      if s1 ≠ '-' then .error .separator
      else match digits? [m1, m2] with
        | none => .error .month
        | some m =>
          if s2 ≠ '-' then .error .separator
          else match digits? [d1, d2] with
            | none => .error .day
            | some d =>
              if m < 1 || 12 < m then .error .monthRange
              else if d < 1 || daysInMonth y m < d then .error .dayRange
              else .ok (⟨y, m, d⟩, rest)
  | _ => .error .tooShort

/-- The seconds and microseconds after hour and minute, and the rest. -/
def readSeconds : List Char → Except Fault (Nat × Nat × List Char)
  | ':' :: s1 :: s2 :: rest =>
    match digits? [s1, s2] with
    | none => .error .time
    | some s =>
      if 59 < s then .error .time
      else match rest with
        | c :: fraction =>
          if c = '.' || c = ',' then
            let ds := fraction.takeWhile Text.isPlainDigit
            if ds.isEmpty then .error .time
            else
              let six := (ds ++ List.replicate 6 '0').take 6
              .ok (s, Numeral.natOfDigits six, fraction.dropWhile Text.isPlainDigit)
          else .ok (s, 0, c :: fraction)
        | [] => .ok (s, 0, [])
  | ':' :: _ => .error .time
  | rest => .ok (0, 0, rest)

/-- A sign and what follows it.  The octets of `−` are a minus too. -/
def sign? : List Char → Option (Bool × List Char)
  | '+' :: cs => some (false, cs)
  | '-' :: cs => some (true, cs)
  | '\u00e2' :: '\u0088' :: '\u0092' :: cs => some (true, cs)
  | _ => none

/-- The distance from universal time that ends a text. -/
def readOffset : List Char → Except Fault (Option Int)
  | [] => .ok none
  | ['Z'] | ['z'] => .ok (some 0)
  | cs =>
    match sign? cs with
    | some (negative, h1 :: h2 :: rest) =>
      let minutes? : Option Nat := match rest with
        | [':', a, b] => digits? [a, b]
        | [a, b] => digits? [a, b]
        | _ => none
      match digits? [h1, h2], minutes? with
      | some h, some m =>
        let seconds := h * 3600 + m * 60
        if 60 ≤ m || 86400 ≤ seconds then .error .time
        else .ok (some (Numeral.withSign negative seconds))
      | _, _ => .error .time
    | _ => .error .time

/-- A day, a separator, a time of day and perhaps a distance from universal time. -/
def readMoment (cs : List Char) : Except Fault Moment := do
  let (date, rest) ← readDate cs
  match rest with
  | sep :: h1 :: h2 :: colon :: m1 :: m2 :: rest =>
    if !(['T', 't', ' ', '_'].contains sep) || colon ≠ ':' then throw .time
    match digits? [h1, h2], digits? [m1, m2] with
    | some h, some m =>
      if 23 < h || 59 < m then throw .time
      let (s, micro, rest) ← readSeconds rest
      let offset ← readOffset rest
      return ⟨date, h, m, s, micro, offset⟩
    | _, _ => throw .time
  | _ => throw .time

/-- The moment a number of microseconds after 1970, if its year is between 0 and 9999. -/
def ofMicroseconds (n : Int) : Except Fault Moment :=
  if n < -62167219200 * 1000000 then .error .tooEarly
  else if 253402300799 * 1000000 + 999999 < n then .error .tooLate
  else .ok (Moment.ofMicroseconds n)

/-- A number beyond this counts milliseconds. -/
def watershed : Nat := 20000000000

def ofInt (n : Int) : Except Fault Moment :=
  ofMicroseconds (if watershed < n.natAbs then n * 1000 else n * 1000000)

/-- The microseconds of a fraction of a second, a tie going up; the fraction is multiplied before it
is rounded, so that it is rounded twice. -/
def microsecondsOf (fraction : Binary64) : Int :=
  (Binary64.halfUp? 1 (fraction.mul (.ofInt 1000000))).getD 0

/-- Seconds or milliseconds with a fraction, to the nearest microsecond. -/
def ofReal (x : Binary64) : Except Fault Moment :=
  match x, Binary64.halfUp? 1000 x, x.floor? with
  | .finite _ m q, some micros, some seconds =>
    let (num, den) := Binary64.ratio m q
    if watershed * den < num then ofMicroseconds micros
    else ofMicroseconds (seconds * 1000000 + microsecondsOf (x.add (.ofInt (-seconds))))
  | .infinite negative, _, _ => .error (if negative then .tooEarly else .tooLate)
  | _, _, _ => .error .notANumber

/-- A number of seconds: digits with a sign, or with a point too. -/
inductive Count where
  | whole (n : Int)
  | real (x : Binary64)

/-- A text that spells a number; what stands before its point must fit in 64 bits. -/
def count? (cs : List Char) : Option Count := do
  let (negative, cs) := Numeral.signed cs
  let (whole, rest) := Numeral.decimals Numeral.plainDigit? cs
  guard (Numeral.natOf whole < Numeral.wordLimit)
  match rest with
  | [] =>
    guard !whole.isEmpty
    return .whole (Numeral.withSign negative (Numeral.natOf whole))
  | '.' :: rest =>
    let (places, rest) := Numeral.decimals Numeral.plainDigit? rest
    guard (rest.isEmpty && !(whole.isEmpty && places.isEmpty))
    return .real (.ofDecimal negative (Numeral.natOf (whole ++ places)) (-places.length))
  | _ => none

/-- A day that is all of a text. -/
def dateOfText (cs : List Char) : Except Fault Moment := do
  let (d, rest) ← readDate cs
  if rest.isEmpty then return Moment.ofDate d else throw .extraCharacters

/-- A moment, a number or a day.  A number with a point that is out of range is no number. -/
def ofCharacters (cs : List Char) : Except Fault Moment :=
  match readMoment cs, count? cs with
  | .ok m, _ => .ok m
  | .error _, some (.whole n) => ofInt n
  | .error _, some (.real x) => (ofReal x).tryCatch fun _ => dateOfText cs
  | .error _, none => dateOfText cs

/-- A moment of the calendar, which has no year zero. -/
def inCalendar (cause : String → Cause) : Except Fault Moment → Checked Moment
  | .ok m => if m.date.year = 0 then .fail (.unclearMoment "year 0 is out of range") else .ok m
  | .error f => .fail (cause f.message)

def ofOctets (octets : List UInt8) : Checked Moment :=
  inCalendar .unclearMomentOrDate (ofCharacters (characters octets))

end Moments

/-- A moment in any of its written forms.  A whole number that does not fit in 64 bits is taken for
the floating-point number next to it. -/
def moment : Value → Checked Moment
  | .moment m => .ok m
  | .date d => .ok (Moment.ofDate d)
  | .text s => Moments.ofOctets s.toUTF8.toList
  | .bytes bs => Moments.ofOctets bs
  | .int n =>
    if Numeral.fitsWord n then Moments.inCalendar .unclearMoment (Moments.ofInt n)
    else match Binary64.ofInt n with
      | .finite s m q => Moments.inCalendar .unclearMoment (Moments.ofReal (.finite s m q))
      | _ => .fail .notMoment
  | .real x => Moments.inCalendar .unclearMoment (Moments.ofReal x)
  | _ => .fail .notMoment

end Scaffold.Schema
