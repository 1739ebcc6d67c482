import Scaffold.Document.Value
import Scaffold.Number.Numeral

/-!
# Document/Json/Printer — writing a JSON document

A `Layout` fixes all that may vary: line breaks and indentation, the two separators, whether
characters beyond ASCII are escaped, and how floating-point numbers are spelled.  `write` has a text
for every value; whether a value has one that counts is asked first (`dump`, `encode`).
-/

namespace Scaffold.Document.Json

open Number

/-- How a document is laid out. -/
structure Layout where
  /-- One level of indentation; none keeps the document on one line. -/
  indent : Option (List Char)
  itemSeparator : List Char
  keySeparator : List Char
  /-- Characters beyond printable ASCII are escaped. -/
  ascii : Bool
  float : FloatFormat

/-- One line with a blank after each separator, in ASCII. -/
def Layout.line : Layout := ⟨none, [',', ' '], [':', ' '], true, .document⟩

/-- One line without blanks, all characters as they are. -/
def Layout.compact : Layout := ⟨none, [','], [':'], false, .compact⟩

/-- One item a line, all characters as they are unless `ascii` is set. -/
def Layout.indented (unit : List Char) (ascii : Bool) : Layout :=
  ⟨some unit, [','], [':', ' '], ascii, .document⟩

def hexDigit (n : Nat) : Char := (Nat.toDigits 16 n).headD '0'

/-- A code unit as an escape with four hexadecimal digits. -/
def escapeUnit (n : Nat) : List Char :=
  ['\\', 'u', hexDigit (n / 4096 % 16), hexDigit (n / 256 % 16), hexDigit (n / 16 % 16),
    hexDigit (n % 16)]

/-- A character inside a quoted text. -/
def escapeChar (ascii : Bool) (c : Char) : List Char :=
  if c = '"' then ['\\', '"']
  else if c = '\\' then ['\\', '\\']
  else if c = '\n' then ['\\', 'n']
  else if c = '\r' then ['\\', 'r']
  else if c = '\t' then ['\\', 't']
  else if c = '\x08' then ['\\', 'b']
  else if c = '\x0c' then ['\\', 'f']
  else if c.toNat < 0x20 then escapeUnit c.toNat
  else if ascii && 0x7f ≤ c.toNat then
    if c.toNat < 0x10000 then escapeUnit c.toNat
    else
      let n := c.toNat - 0x10000
      escapeUnit (0xd800 + n / 0x400) ++ escapeUnit (0xdc00 + n % 0x400)
  else [c]

/-- A quoted text. -/
def quote (ascii : Bool) (s : String) : List Char :=
  '"' :: s.toList.flatMap (escapeChar ascii) ++ ['"']

/-- The text under which a value can be the key of a member. -/
def keyText (l : Layout) : Value → String
  | .text s => s
  | .null => "null"
  | .bool b => if b then "true" else "false"
  | .int n => toString n
  | .real x => x.spell l.float
  | .date d => d.text
  | .moment m => m.stamp
  | _ => ""

/-- Items between brackets, each on a line of its own if the layout breaks lines. -/
def enclose (l : Layout) (depth : Nat) (opener closer : Char) (items : List (List Char)) :
    List Char :=
  if items.isEmpty then [opener, closer]
  else match l.indent with
    | none => opener :: Text.joinWith l.itemSeparator items ++ [closer]
    | some unit =>
      let margin (n : Nat) : List Char := '\n' :: (List.replicate n unit).flatten
      opener :: margin (depth + 1) ++
        Text.joinWith (l.itemSeparator ++ margin (depth + 1)) items ++ margin depth ++ [closer]

mutual

/-- The text of a value that stands `depth` levels deep. -/
def write (l : Layout) (depth : Nat) : Value → List Char
  | .null => "null".toList
  | .bool b => (if b then "true" else "false").toList
  | .int n => (toString n).toList
  | .real x => (x.spell l.float).toList
  | .text s => quote l.ascii s
  | .list xs => enclose l depth '[' ']' (writeItems l (depth + 1) xs)
  | .record ms => enclose l depth '{' '}' (writeMembers l (depth + 1) ms)
  | .table es => enclose l depth '{' '}' (writeEntries l (depth + 1) es)
  | .date d => quote l.ascii d.text
  | .moment m => quote l.ascii m.stamp
  | .bytes bs => quote l.ascii ((Value.textOfBytes? bs).getD "")
  | .set xs => enclose l depth '[' ']' (writeItems l (depth + 1) xs)
  | .pair a b => enclose l depth '[' ']' [write l (depth + 1) a, write l (depth + 1) b]
  | .again _ => "null".toList

def writeItems (l : Layout) (depth : Nat) : List Value → List (List Char)
  | [] => []
  | x :: xs => write l depth x :: writeItems l depth xs

def writeMembers (l : Layout) (depth : Nat) : List (String × Value) → List (List Char)
  | [] => []
  | (k, x) :: ms =>
    (quote l.ascii k ++ l.keySeparator ++ write l depth x) :: writeMembers l depth ms

def writeEntries (l : Layout) (depth : Nat) : List (Value × Value) → List (List Char)
  | [] => []
  | (k, x) :: es =>
    (quote l.ascii (keyText l k) ++ l.keySeparator ++ write l depth x) :: writeEntries l depth es

end

/-- The text of a document. -/
def print (l : Layout) (v : Value) : String := String.ofList (write l 0 v)

/-! ## Values without a form -/

/-- Why a value has no form in a document. -/
inductive Unwritable where
  /-- A value of some kind. -/
  | value (kind : String)
  /-- A key of some kind. -/
  | key (kind : String)
  /-- A value inside itself. -/
  | circular
  /-- A whole number of too many digits. -/
  | excessive
  /-- A part of an entity that cannot be encoded. -/
  | unencoded (reason : String)
deriving DecidableEq, Repr

def Unwritable.message : Unwritable → String
  | value kind => s!"Object of type {kind} is not JSON serializable"
  | key kind => s!"keys must be str, int, float, bool or None, not {kind}"
  | circular => "Circular reference detected"
  | excessive => Numeral.limitMessage ""
  | unencoded reason => "Error serializing to JSON: " ++ reason

/-- A whole number of too many digits. -/
def excess? : Value → Option Unwritable
  | .int n => if Numeral.isWritable n then none else some .excessive
  | _ => none

/-- What a document has no form for, its parts aside. -/
def refused? : Value → Option Unwritable
  | .date _ => some (.value "date")
  | .moment _ => some (.value "datetime")
  | .bytes _ => some (.value "bytes")
  | .set _ => some (.value "set")
  | .again _ => some .circular
  | v => excess? v

/-- A key that has a form. -/
def keyWritable : Value → Bool
  | .null | .bool _ | .int _ | .real _ | .text _ => true
  | _ => false

/-- What a document has no form for as a key. -/
def refusedKey? (k : Value) : Option Unwritable := if keyWritable k then none else some (.key k.kind)

/-- The first part of a value that has no form. -/
def unwritable? (v : Value) : Option Unwritable := v.findSome? refused? refusedKey?

/-- The text of a document all of whose parts have a form. -/
def dump (l : Layout) (v : Value) : Except Unwritable String :=
  match unwritable? v with
  | some u => .error u
  | none => .ok (print l v)

/-! ## Entities -/

/-- What cannot be encoded as part of an entity, which may hold values of every kind. -/
def unencodable? : Value → Option Unwritable
  | .again _ => some (.unencoded "ValueError: Circular reference detected (id repeated)")
  | .bytes bs =>
    if (Value.textOfBytes? bs).isNone then some (.unencoded "invalid utf-8 sequence") else none
  | _ => none

/-- The compact text of an entity, given by its document. -/
def encode (v : Value) : Except Unwritable String :=
  match v.findSome? unencodable? fun _ => none with
  | some u => .error u
  | none => .ok (print .compact v)

end Scaffold.Document.Json
