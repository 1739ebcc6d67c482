import Scaffold.Calendar
import Scaffold.Text.Lines

/-!
# Document/Yaml/Tag — what kind of value a node is

A node has a tag, written out or implied.  A plain scalar, that is one without quotes, implies its
tag by its spelling: `yes` is a truth value, `1_000` and `1:30` are whole numbers, `2024-01-02` is a
day, and whatever fits no such form is a text.
-/

namespace Scaffold.Document.Yaml

open Text

inductive Tag where
  | null
  | bool
  | int
  | float
  | stamp
  /-- The key `<<`, whose value is merged into its mapping. -/
  | merge
  /-- The key `=`, whose value stands for its mapping. -/
  | default
  | text
  | binary
  | list
  | record
  | set
  /-- A list of single entries (`omap`, `pairs`). -/
  | entries
  | unknown
deriving DecidableEq, Repr

/-- The tags and their names. -/
def Tag.names : List (String × Tag) :=
  [("null", .null), ("bool", .bool), ("int", .int), ("float", .float), ("timestamp", .stamp),
    ("merge", .merge), ("value", .default), ("str", .text), ("binary", .binary), ("seq", .list),
    ("map", .record), ("set", .set), ("omap", .entries), ("pairs", .entries)]

/-- What the full names of the tags begin with. -/
def Tag.root : String := "tag:yaml.org,2002:"

/-- The tag with a full name. -/
def Tag.ofName (name : String) : Tag :=
  match afterWord? Tag.root.toList name.toList with
  | some rest => (Tag.names.lookup (String.ofList rest)).getD .unknown
  | none => .unknown

namespace Plain

/-- The characters on which the form of a text depends: a line feed at its end does not count. -/
def form (cs : List Char) : List Char := if cs.getLast? = some '\n' then cs.dropLast else cs

/-! ## Numbers -/

/-- The characters after a sign, if there is one. -/
def unsigned : List Char → List Char
  | '+' :: cs => cs
  | '-' :: cs => cs
  | cs => cs

def isDigitOrGap (c : Char) : Bool := isPlainDigit c || c == '_'

/-- A digit, then digits and gaps. -/
def isDigits : List Char → Bool
  | c :: cs => isPlainDigit c && cs.all isDigitOrGap
  | [] => false

/-- Digits and gaps that do not begin with zero. -/
def isCount (cs : List Char) : Bool := isDigits cs && cs.head? != some '0'

/-- One or two digits below sixty. -/
def isSixtieth : List Char → Bool
  | [c] => isPlainDigit c
  | [c, d] => '0' ≤ c && c ≤ '5' && isPlainDigit d
  | _ => false

/-- Digits, then groups below sixty after colons. -/
def isSexagesimal (first : List Char → Bool) (cs : List Char) : Bool :=
  match pieces ':' cs with
  | p :: q :: ps => first p && (q :: ps).all isSixtieth
  | _ => false

def isHexOrGap (c : Char) : Bool :=
  isPlainDigit c || ('a' ≤ c && c ≤ 'f') || ('A' ≤ c && c ≤ 'F') || c == '_'

def isOctalOrGap (c : Char) : Bool := ('0' ≤ c && c ≤ '7') || c == '_'

def isBitOrGap (c : Char) : Bool := c == '0' || c == '1' || c == '_'

/-- A whole number: binary, octal, hexadecimal, decimal or in base sixty. -/
def isInt (cs : List Char) : Bool :=
  let cs := unsigned cs
  isCount cs || isSexagesimal isCount cs ||
    match cs with
    | ['0'] => true
    | '0' :: 'b' :: r => !r.isEmpty && r.all isBitOrGap
    | '0' :: 'x' :: r => !r.isEmpty && r.all isHexOrGap
    | '0' :: r => !r.isEmpty && r.all isOctalOrGap
    | _ => false

/-- Nothing, or an exponent with a sign. -/
def isExponent : List Char → Bool
  | [] => true
  | e :: s :: ds =>
    (e == 'e' || e == 'E') && (s == '+' || s == '-') && !ds.isEmpty && ds.all isPlainDigit
  | _ => false

/-- A number with a point. -/
def isFloat (cs : List Char) : Bool :=
  let body := unsigned cs
  let whole := body.takeWhile (· ≠ '.')
  match body.dropWhile (· ≠ '.') with
  | [] => false
  | _ :: tail =>
    let exponent := tail.dropWhile isDigitOrGap
    let fraction := tail.takeWhile isDigitOrGap
    (isDigits whole && isExponent exponent) ||
      (isSexagesimal isDigits whole && exponent.isEmpty) ||
      (whole.isEmpty && ["inf".toList, "Inf".toList, "INF".toList].contains tail) ||
      (body == cs && whole.isEmpty &&
        ((isDigits fraction && isExponent exponent) ||
          ["nan".toList, "NaN".toList, "NAN".toList].contains tail))

/-! ## Moments -/

/-- The written parts of a moment. -/
structure Stamp where
  year : List Char
  month : List Char
  day : List Char
  /-- Hour, minute, second and fraction of a second. -/
  time : Option (List Char × List Char × List Char × List Char)
  /-- Universal time, or a distance from it: the sign, the hours and the minutes. -/
  zone : Option (Option (Char × List Char × List Char))

/-- At least `least` and at most `most` digits, and the rest. -/
def digits? (least most : Nat) (cs : List Char) : Option (List Char × List Char) :=
  let ds := (cs.take most).takeWhile isPlainDigit
  if least ≤ ds.length then some (ds, cs.drop ds.length) else none

/-- The rest after a character. -/
def after? (c : Char) : List Char → Option (List Char)
  | d :: cs => if d = c then some cs else none
  | [] => none

def isSpaceOrTab (c : Char) : Bool := c == ' ' || c == '\t'

/-- A zone that ends the text. -/
def zone? : List Char → Option (Option (Char × List Char × List Char))
  | ['Z'] => some none
  | s :: cs => do
    guard (s == '+' || s == '-')
    let (hours, rest) ← digits? 1 2 cs
    if rest.isEmpty then return some (s, hours, [])
    let (minutes, rest) ← digits? 2 2 (← after? ':' rest)
    guard rest.isEmpty
    return some (s, hours, minutes)
  | [] => none

/-- A moment, or a day alone. -/
def stamp? (cs : List Char) : Option Stamp := do
  let (year, cs) ← digits? 4 4 (form cs)
  let (month, cs) ← digits? 1 2 (← after? '-' cs)
  let (day, cs) ← digits? 1 2 (← after? '-' cs)
  if cs.isEmpty then return ⟨year, month, day, none, none⟩
  let cs ← match cs with
    | 'T' :: r => some r
    | 't' :: r => some r
    | c :: r => if isSpaceOrTab c then some (r.dropWhile isSpaceOrTab) else none
    | [] => none
  let (hour, cs) ← digits? 1 2 cs
  let (minute, cs) ← digits? 2 2 (← after? ':' cs)
  let (second, cs) ← digits? 2 2 (← after? ':' cs)
  let (fraction, cs) := match cs with
    | '.' :: r => (r.takeWhile isPlainDigit, r.dropWhile isPlainDigit)
    | r => ([], r)
  let time := some (hour, minute, second, fraction)
  if cs.isEmpty then return ⟨year, month, day, time, none⟩
  let zone ← zone? (cs.dropWhile isSpaceOrTab)
  return ⟨year, month, day, time, some zone⟩

/-- A moment, or a day with two digits for month and day. -/
def isStamp (cs : List Char) : Bool :=
  match stamp? cs with
  | some s => s.time.isSome || (s.month.length == 2 && s.day.length == 2)
  | none => false

/-! ## Words -/

def boolWords : List String :=
  ["yes", "Yes", "YES", "no", "No", "NO", "true", "True", "TRUE", "false", "False", "FALSE", "on",
    "On", "ON", "off", "Off", "OFF"]

def nullWords : List String := ["", "~", "null", "Null", "NULL"]

end Plain

/-- The tag that a plain scalar implies.  A line feed at its end, which an escape can bring there,
does not count unless it is all of the text. -/
def Tag.ofPlain (s : String) : Tag :=
  let cs := Plain.form s.toList
  let form := String.ofList cs
  if s = "\n" then .text
  else if Plain.boolWords.contains form then .bool
  else if Plain.isFloat cs then .float
  else if Plain.isInt cs then .int
  else if form = "<<" then .merge
  else if Plain.nullWords.contains form then .null
  else if Plain.isStamp cs then .stamp
  else if form = "=" then .default
  else if ["!", "&", "*"].contains form then .unknown
  else .text

end Scaffold.Document.Yaml
