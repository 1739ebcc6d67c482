import Scaffold.Number.Spelling

/-!
# Calendar — days of the proleptic Gregorian calendar, and moments of a day

A day is kept as year, month and day of the month; `toDays` counts it from the first of January
1970 and `ofDays` goes back.  A moment is a day and a time of day, with or without a distance from
universal time.
-/

namespace Scaffold.Calendar

/-! ## Days -/

structure Date where
  year : Nat
  month : Nat
  day : Nat
deriving DecidableEq, Repr, Inhabited

/-- A whole number with zeros in front of it up to `width` digits. -/
def zeroPadded (width n : Nat) : String := Number.padLeft width '0' (toString n)

def isLeapYear (y : Nat) : Bool := y % 4 = 0 && (y % 100 ≠ 0 || y % 400 = 0)

/-- The number of days of a month, `0` if there is no such month. -/
def daysInMonth (year month : Nat) : Nat :=
  if month = 2 then (if isLeapYear year then 29 else 28)
  else if [4, 6, 9, 11].contains month then 30
  else if 1 ≤ month && month ≤ 12 then 31
  else 0

namespace Date

/-- The day exists. -/
def isValid (d : Date) : Bool := 1 ≤ d.day && d.day ≤ daysInMonth d.year d.month

/-- Days since 1970-01-01, with years that begin in March. -/
def toDays (d : Date) : Int :=
  let y : Int := if d.month ≤ 2 then (d.year : Int) - 1 else d.year
  let era := Int.fdiv y 400
  let yearOfEra := y - era * 400
  let monthFromMarch : Int := ((d.month : Int) + 9) % 12
  let dayOfYear := (153 * monthFromMarch + 2) / 5 + d.day - 1
  let dayOfEra := yearOfEra * 365 + yearOfEra / 4 - yearOfEra / 100 + dayOfYear
  era * 146097 + dayOfEra - 719468

/-- The day that is `n` days after 1970-01-01. -/
def ofDays (n : Int) : Date :=
  let z := n + 719468
  let era := Int.fdiv z 146097
  let dayOfEra := z - era * 146097
  let yearOfEra := (dayOfEra - dayOfEra / 1460 + dayOfEra / 36524 - dayOfEra / 146096) / 365
  let dayOfYear := dayOfEra - (365 * yearOfEra + yearOfEra / 4 - yearOfEra / 100)
  let monthFromMarch := (5 * dayOfYear + 2) / 153
  let day := dayOfYear - (153 * monthFromMarch + 2) / 5 + 1
  let month := if monthFromMarch < 10 then monthFromMarch + 3 else monthFromMarch - 9
  let year := yearOfEra + era * 400 + if month ≤ 2 then 1 else 0
  ⟨year.toNat, month.toNat, day.toNat⟩

/-- Year, month and day with hyphens between them. -/
def text (d : Date) : String :=
  zeroPadded 4 d.year ++ "-" ++ zeroPadded 2 d.month ++ "-" ++ zeroPadded 2 d.day

end Date

/-! ## Moments -/

structure Moment where
  date : Date
  hour : Nat
  minute : Nat
  second : Nat
  microsecond : Nat
  /-- Seconds east of universal time; none if the moment names no zone. -/
  offset : Option Int
deriving DecidableEq, Repr, Inhabited

namespace Moment

/-- The start of a day in no particular zone. -/
def ofDate (d : Date) : Moment := ⟨d, 0, 0, 0, 0, none⟩

/-- Microseconds since 1970-01-01 in universal time. -/
def ofMicroseconds (n : Int) : Moment :=
  let days := Int.fdiv n 86400000000
  let rest := (n - days * 86400000000).toNat
  let seconds := rest / 1000000
  ⟨Date.ofDays days, seconds / 3600, seconds / 60 % 60, seconds % 60, rest % 1000000, some 0⟩

/-- Microseconds since 1970-01-01 in universal time, for a moment that names a zone. -/
def toMicroseconds? (m : Moment) : Option Int :=
  m.offset.map fun offset =>
    let seconds := m.date.toDays * 86400 + (m.hour * 3600 + m.minute * 60 + m.second : Nat) - offset
    seconds * 1000000 + m.microsecond

/-- Two moments are the same if both name a zone and the instants are equal, or neither does and
they are equal as written. -/
def same (m n : Moment) : Bool :=
  match m.toMicroseconds?, n.toMicroseconds? with
  | some a, some b => a == b
  | none, none => m == n
  | _, _ => false

/-- The distance from universal time as `+hh:mm`, with seconds if it has any. -/
def offsetText (seconds : Int) : String :=
  let n := seconds.natAbs
  (if seconds < 0 then "-" else "+") ++ zeroPadded 2 (n / 3600) ++ ":" ++
    zeroPadded 2 (n / 60 % 60) ++ (if n % 60 = 0 then "" else ":" ++ zeroPadded 2 (n % 60))

/-- The time of day, with microseconds only if there are some. -/
def timeText (m : Moment) : String :=
  zeroPadded 2 m.hour ++ ":" ++ zeroPadded 2 m.minute ++ ":" ++ zeroPadded 2 m.second ++
    (if m.microsecond = 0 then "" else "." ++ zeroPadded 6 m.microsecond)

/-- Day, separator, time and distance. -/
def text (separator : String) (m : Moment) : String :=
  m.date.text ++ separator ++ m.timeText ++ (m.offset.map offsetText).getD ""

/-- Day and time with `T` between them; universal time is marked `Z`. -/
def stamp (m : Moment) : String :=
  m.date.text ++ "T" ++ m.timeText ++
    (match m.offset with
    | none => ""
    | some 0 => "Z"
    | some n => offsetText n)

end Moment

end Scaffold.Calendar
