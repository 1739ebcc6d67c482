import Scaffold.Document.Json.Printer
import Scaffold.Text.Class

/-!
# Document/Literal — values as they are shown in messages

Inside a message a text stands as it is, while a text that is shown as a value is quoted: in single
quotes unless it holds one and no double quote, with escapes for what cannot be seen.
-/

namespace Scaffold.Document

open Number

namespace Literal

/-- `n` in hexadecimal digits, padded to `width`. -/
def hexPadded (width n : Nat) : List Char :=
  let ds := Nat.toDigits 16 n
  List.replicate (width - ds.length) '0' ++ ds

/-- A character inside a quoted text whose quote is `q`. -/
def escapeChar (q c : Char) : List Char :=
  if c = q || c = '\\' then ['\\', c]
  else if c = '\n' then ['\\', 'n']
  else if c = '\r' then ['\\', 'r']
  else if c = '\t' then ['\\', 't']
  else if Text.isPrintable c then [c]
  else if c.toNat < 0x100 then '\\' :: 'x' :: hexPadded 2 c.toNat
  else if c.toNat < 0x10000 then '\\' :: 'u' :: hexPadded 4 c.toNat
  else '\\' :: 'U' :: hexPadded 8 c.toNat

/-- A text in quotes. -/
def quote (s : String) : String :=
  let cs := s.toList
  let q := if cs.contains '\'' && !cs.contains '"' then '"' else '\''
  String.ofList (q :: cs.flatMap (escapeChar q) ++ [q])

/-- What is said of a text that spells no whole number in some base; of a long text the beginning is
shown. -/
def notWhole (base : Nat) (s : String) : String :=
  "invalid literal for int() with base " ++ toString base ++ ": " ++
    String.ofList ((quote s).toList.take 200)

/-- Bytes in quotes, those that are no printable ASCII as escapes. -/
def quoteBytes (bs : List UInt8) : String :=
  let cs := bs.map fun b => Char.ofNat b.toNat
  let q := if cs.contains '\'' && !cs.contains '"' then '"' else '\''
  let show1 (c : Char) : List Char :=
    if c.toNat < 0x80 then escapeChar q c else '\\' :: 'x' :: hexPadded 2 c.toNat
  String.ofList ('b' :: q :: cs.flatMap show1 ++ [q])

/-- The distance from universal time as a construction. -/
def offsetText : Int → String
  | 0 => "datetime.timezone.utc"
  | n =>
    let days := Int.fdiv n 86400
    let seconds := n - days * 86400
    let parts := (if days = 0 then [] else [s!"days={days}"]) ++
      (if seconds = 0 then [] else [s!"seconds={seconds}"])
    "datetime.timezone(datetime.timedelta(" ++ ", ".intercalate parts ++ "))"

/-- A moment as a construction. -/
def momentText (m : Calendar.Moment) : String :=
  let numbers := [m.date.year, m.date.month, m.date.day, m.hour, m.minute] ++
    (if m.second = 0 && m.microsecond = 0 then [] else [m.second]) ++
    (if m.microsecond = 0 then [] else [m.microsecond])
  let zone := (m.offset.map fun n => ["tzinfo=" ++ offsetText n]).getD []
  "datetime.datetime(" ++ ", ".intercalate (numbers.map toString ++ zone) ++ ")"

end Literal

namespace Value

/-- How a list, mapping or pair is written inside itself. -/
def ellipsis : Value → String
  | list _ => "[...]"
  | pair .. => "(...)"
  | _ => "\x7b...\x7d"

mutual

/-- The value as it is written inside others, the innermost first. -/
def literalIn (around : List Value) : Value → String
  | null => "None"
  | bool b => if b then "True" else "False"
  | int n => toString n
  | real x => x.spell .plain
  | text s => Literal.quote s
  | list xs => "[" ++ ", ".intercalate (literals (list xs :: around) xs) ++ "]"
  | record ms =>
    "\x7b" ++ ", ".intercalate (memberLiterals (record ms :: around) ms) ++ "\x7d"
  | table es =>
    "\x7b" ++ ", ".intercalate (entryLiterals (table es :: around) es) ++ "\x7d"
  | date d => s!"datetime.date({d.year}, {d.month}, {d.day})"
  | moment m => Literal.momentText m
  | bytes bs => Literal.quoteBytes bs
  | set [] => "set()"
  | set (x :: xs) => "\x7b" ++ ", ".intercalate (literals around (x :: xs)) ++ "\x7d"
  | pair a b =>
    "(" ++ literalIn (pair a b :: around) a ++ ", " ++ literalIn (pair a b :: around) b ++ ")"
  | again n => (around[n]?.map ellipsis).getD "..."

def literals (around : List Value) : List Value → List String
  | [] => []
  | x :: xs => literalIn around x :: literals around xs

def memberLiterals (around : List Value) : List (String × Value) → List String
  | [] => []
  | (k, x) :: ms => (Literal.quote k ++ ": " ++ literalIn around x) :: memberLiterals around ms

def entryLiterals (around : List Value) : List (Value × Value) → List String
  | [] => []
  | (k, x) :: es =>
    (literalIn around k ++ ": " ++ literalIn around x) :: entryLiterals around es

end

/-- The value as it is written inside another value. -/
def literal (v : Value) : String := v.literalIn []

/-- The value as it is written inside a message: a text stands as it is. -/
def shown : Value → String
  | text s => s
  | date d => d.text
  | moment m => m.text " "
  | v => v.literal

/-- The first whole number in the value that has too many digits for a message. -/
def unspelled? (v : Value) : Option Json.Unwritable := v.findSome? Json.excess? fun _ => none

/-- The value inside a message, if all its whole numbers can be written. -/
def spelled (v : Value) : Except Json.Unwritable String :=
  match v.unspelled? with
  | some u => .error u
  | none => .ok v.shown

end Value

end Scaffold.Document
