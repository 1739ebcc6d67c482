import Scaffold.Document.Value
import Scaffold.Number.Numeral

/-!
# Document/Json/Reader — reading a JSON document

A recursive-descent reader over the characters that are left.  A failure keeps what was left where
it arose (`Failure.rest`), so its place in the text is a difference of two lengths.  Beside the
standard grammar the texts `NaN`, `Infinity` and `-Infinity` are numbers, and of two members with
one key the later value stands in the earlier place.  Whole numbers may not be too long and lists
and records not nested too deep; such a text need not be malformed.
-/

namespace Scaffold.Document.Json

open Number

/-- Why a text is no document. -/
inductive Fault where
  | byteOrderMark
  | extraData
  | value
  | propertyName
  | colon
  | comma
  | unterminatedText
  | controlCharacter
  | escape
  | unicodeEscape
  /-- A whole number of too many digits. -/
  | excessive (digits : Nat)
  /-- A list or a record inside too many others. -/
  | tooDeep (isList : Bool)
deriving DecidableEq, Repr

def Fault.message : Fault → String
  | byteOrderMark => "Unexpected UTF-8 BOM (decode using utf-8-sig)"
  | extraData => "Extra data"
  | value => "Expecting value"
  | propertyName => "Expecting property name enclosed in double quotes"
  | colon => "Expecting ':' delimiter"
  | comma => "Expecting ',' delimiter"
  | unterminatedText => "Unterminated string starting at"
  | controlCharacter => "Invalid control character at"
  | escape => "Invalid \\escape"
  | unicodeEscape => "Invalid \\uXXXX escape"
  | excessive digits => Numeral.excessMessage digits
  | tooDeep isList => "maximum recursion depth exceeded while decoding a JSON " ++
      (if isList then "array" else "object") ++ " from a unicode string"

/-- The text breaks the grammar, rather than a limit. -/
def Fault.isSyntactic : Fault → Bool
  | excessive _ | tooDeep _ => false
  | _ => true

/-- A fault and the characters from its place on. -/
structure Failure where
  fault : Fault
  rest : List Char
deriving DecidableEq, Repr

/-- What was read and the characters that are left. -/
abbrev Read (α : Type) := Except Failure (α × List Char)

/-- The white space of the grammar. -/
def isSpace (c : Char) : Bool := c == ' ' || c == '\t' || c == '\n' || c == '\r'

def skipSpace (cs : List Char) : List Char := cs.dropWhile isSpace

/-! ## Texts -/

def hexQuad? (a b c d : Char) : Option Nat := do
  return (((← Text.hexValue? a) * 16 + (← Text.hexValue? b)) * 16 + (← Text.hexValue? c)) * 16 +
    (← Text.hexValue? d)

/-- The character that a letter after a backslash stands for. -/
def escaped? : Char → Option Char
  | '"' => some '"'
  | '\\' => some '\\'
  | '/' => some '/'
  | 'b' => some '\x08'
  | 'f' => some '\x0c'
  | 'n' => some '\n'
  | 'r' => some '\r'
  | 't' => some '\t'
  | _ => none

/-- The code units of a text up to its closing quote; `start` is the text from the opening quote
on. -/
def readUnits (start : List Char) : List Char → Read (List Nat)
  | [] => .error ⟨.unterminatedText, start⟩
  | '"' :: cs => .ok ([], cs)
  | '\\' :: 'u' :: a :: b :: c :: d :: e :: cs =>
    match hexQuad? a b c d with
    | none => .error ⟨.unicodeEscape, 'u' :: a :: b :: c :: d :: e :: cs⟩
    | some n => (readUnits start (e :: cs)).map fun (ns, r) => (n :: ns, r)
  | '\\' :: 'u' :: cs => .error ⟨.unicodeEscape, 'u' :: cs⟩
  | '\\' :: e :: cs =>
    match escaped? e with
    | none => .error ⟨.escape, '\\' :: e :: cs⟩
    | some c => (readUnits start cs).map fun (ns, r) => (c.toNat :: ns, r)
  | ['\\'] => .error ⟨.unterminatedText, start⟩
  | c :: cs =>
    if c.toNat ≤ 0x1f then .error ⟨.controlCharacter, c :: cs⟩
    else (readUnits start cs).map fun (ns, r) => (c.toNat :: ns, r)

/-- A character that stands for itself is one code unit. -/
theorem readUnits_plain (start : List Char) {c : Char} (hquote : c ≠ '"') (hslash : c ≠ '\\')
    (hplain : 0x20 ≤ c.toNat) (rest : List Char) :
    readUnits start (c :: rest) =
      (readUnits start rest).map fun (ns, r) => (c.toNat :: ns, r) := by
  rw [readUnits]
  · rw [if_neg (by omega)]
  all_goals
    intros
    simp_all

/-- The characters of code units: a high and a low surrogate make one character. -/
def joinUnits : List Nat → List Char
  | [] => []
  | [n] => [Char.ofNat (if 0xd800 ≤ n && n ≤ 0xdfff then 0xfffd else n)]
  | h :: l :: ns =>
    if 0xd800 ≤ h && h ≤ 0xdbff && 0xdc00 ≤ l && l ≤ 0xdfff then
      Char.ofNat (0x10000 + (h - 0xd800) * 0x400 + (l - 0xdc00)) :: joinUnits ns
    else
      Char.ofNat (if 0xd800 ≤ h && h ≤ 0xdfff then 0xfffd else h) :: joinUnits (l :: ns)

/-- A text, from after its opening quote on. -/
def readText (cs : List Char) : Read String :=
  (readUnits ('"' :: cs) cs).map fun (ns, r) => (String.ofList (joinUnits ns), r)

/-! ## Numbers -/

/-- The leading ASCII digits and what follows them. -/
def spanDigits (cs : List Char) : List Char × List Char :=
  (cs.takeWhile Text.isPlainDigit, cs.dropWhile Text.isPlainDigit)

/-- The digits after a point, if a point with a digit follows. -/
def readFraction : List Char → Option (List Char × List Char)
  | '.' :: cs =>
    match spanDigits cs with
    | ([], _) => none
    | (ds, r) => some (ds, r)
  | _ => none

/-- An exponent, if one with a digit follows. -/
def readExponent : List Char → Option (Int × List Char)
  | e :: cs =>
    if e == 'e' || e == 'E' then
      let (negative, cs) := Numeral.signed cs
      match spanDigits cs with
      | ([], _) => none
      | (ds, r) => some (Numeral.withSign negative (Numeral.natOfDigits ds), r)
    else none
  | [] => none

/-- A number without its sign: the digits before the point, those after it, and the exponent. -/
structure Magnitude where
  whole : List Char
  places : Option (List Char)
  exponent : Option Int

/-- A number without its sign at the start of a text. -/
def readMagnitude (cs : List Char) : Option (Magnitude × List Char) :=
  let whole? : Option (List Char × List Char) := match cs with
    | '0' :: r => some (['0'], r)
    | _ => match spanDigits cs with
      | ([], _) => none
      | (ds, r) => some (ds, r)
  whole?.map fun (whole, r) =>
    let fraction := readFraction r
    let r := (fraction.map (·.2)).getD r
    let exponent := readExponent r
    (⟨whole, fraction.map (·.1), exponent.map (·.1)⟩, (exponent.map (·.2)).getD r)

namespace Magnitude

def isWhole (m : Magnitude) : Bool := m.places.isNone && m.exponent.isNone

def value (negative : Bool) (m : Magnitude) : Value :=
  if m.isWhole then .int (Numeral.withSign negative (Numeral.natOfDigits m.whole))
  else
    let places := m.places.getD []
    .real (.ofDecimal negative (Numeral.natOfDigits (m.whole ++ places))
      (m.exponent.getD 0 - places.length))

end Magnitude

/-! ## Values -/

/-- The words that are values by themselves. -/
def words : List (List Char × Value) :=
  [("null".toList, .null), ("true".toList, .bool true), ("false".toList, .bool false),
    ("NaN".toList, .real .nan), ("Infinity".toList, .real (.infinite false)),
    ("-Infinity".toList, .real (.infinite true))]

/-- A value that is a word or a number. -/
def readScalar (cs : List Char) : Read Value :=
  match words.findSome? fun (w, v) => (Text.afterWord? w cs).map fun r => (v, r) with
  | some r => .ok r
  | none =>
    let (negative, digits) := match cs with
      | '-' :: r => (true, r)
      | r => (false, r)
    match readMagnitude digits with
    | some (m, r) =>
      if m.isWhole && Numeral.digitLimit < m.whole.length then
        .error ⟨.excessive m.whole.length, cs⟩
      else .ok (m.value negative, r)
    | none => .error ⟨.value, cs⟩

/-- The greatest number of lists and records around a value. -/
def depthLimit : Nat := 990

mutual

/-- A value at the start of the text, inside at most `levels` lists and records.  The other number
bounds the number of steps, for which two for each character suffice. -/
def readValue (levels : Nat) : Nat → List Char → Read Value
  | 0, cs => .error ⟨.value, cs⟩
  | _ + 1, '"' :: cs => (readText cs).map fun (s, r) => (.text s, r)
  | n + 1, '[' :: cs =>
    match levels with
    | 0 => .error ⟨.tooDeep true, '[' :: cs⟩
    | levels + 1 =>
      match skipSpace cs with
      | ']' :: r => .ok (.list [], r)
      | r => (readItems levels n r).map fun (xs, r) => (.list xs, r)
  | n + 1, '{' :: cs =>
    match levels with
    | 0 => .error ⟨.tooDeep false, '{' :: cs⟩
    | levels + 1 =>
      match skipSpace cs with
      | '}' :: r => .ok (.record [], r)
      | r => (readMembers levels n r).map fun (ms, r) => (.record (Members.ofPairs ms), r)
  | _ + 1, cs => readScalar cs

/-- The items of a list up to its closing bracket. -/
def readItems (levels : Nat) : Nat → List Char → Read (List Value)
  | 0, cs => .error ⟨.value, cs⟩
  | n + 1, cs =>
    match readValue levels n cs with
    | .error f => .error f
    | .ok (x, r) =>
      match skipSpace r with
      | ']' :: r => .ok ([x], r)
      | ',' :: r => (readItems levels n (skipSpace r)).map fun (xs, r) => (x :: xs, r)
      | r => .error ⟨.comma, r⟩

/-- The members of a record up to its closing brace. -/
def readMembers (levels : Nat) : Nat → List Char → Read (List (String × Value))
  | 0, cs => .error ⟨.propertyName, cs⟩
  | n + 1, '"' :: cs =>
    match readText cs with
    | .error f => .error f
    | .ok (key, r) =>
      match skipSpace r with
      | ':' :: r =>
        match readValue levels n (skipSpace r) with
        | .error f => .error f
        | .ok (x, r) =>
          match skipSpace r with
          | '}' :: r => .ok ([(key, x)], r)
          | ',' :: r => (readMembers levels n (skipSpace r)).map fun (ms, r) => ((key, x) :: ms, r)
          | r => .error ⟨.comma, r⟩
      | r => .error ⟨.colon, r⟩
  | _ + 1, cs => .error ⟨.propertyName, cs⟩

end

/-- The document that a text is. -/
def read (cs : List Char) : Except Failure Value :=
  match cs with
  | '\ufeff' :: _ => .error ⟨.byteOrderMark, cs⟩
  | _ => do
    let (v, r) ← readValue depthLimit (2 * cs.length + 2) (skipSpace cs)
    match skipSpace r with
    | [] => return v
    | r => throw ⟨.extraData, r⟩

/-- The message of a failure in the text `cs`; where the grammar is broken, with line, column and
offset of the place. -/
def Failure.message (f : Failure) (cs : List Char) : String :=
  if f.fault.isSyntactic then
    let offset := cs.length - f.rest.length
    let before := cs.take offset
    let line := before.count '\n' + 1
    let column := (before.reverse.takeWhile (· ≠ '\n')).length + 1
    s!"{f.fault.message}: line {line} column {column} (char {offset})"
  else f.fault.message

/-- The document that a text is. -/
def parse? (s : String) : Option Value := (read s.toList).toOption

end Scaffold.Document.Json
