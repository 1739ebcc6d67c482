import Scaffold.Document.Yaml.Tag

/-!
# Document/Yaml/Block — writing documents in block style

Mappings and lists are written one entry a line; a list inside a mapping is not indented further.  A
text is written plain where that reads back as the same text, else in single quotes, else in double
quotes, where everything beyond printable ASCII is escaped.  A line that has passed the 80th column
is folded at the next single blank.
-/

namespace Scaffold.Document.Yaml

open Text

/-- What block documents are made of.  The keys of a record are short texts without line ends. -/
inductive Block where
  | null
  | int (n : Int)
  | text (s : String)
  | list (items : List Block)
  | record (members : List (String × Block))

/-! ## Styles of texts -/

/-- Some two neighbours are as told. -/
def hasPair (p : Char → Char → Bool) (cs : List Char) : Bool :=
  (cs.zip (cs.drop 1)).any fun (a, b) => p a b

def isPlainPrintable (c : Char) : Bool := ' ' ≤ c && c ≤ '~'

/-- A text that only double quotes can hold: with a character that is escaped, or with a blank
beside the end of a line. -/
def needsEscapes (cs : List Char) : Bool :=
  cs.any (fun c => c ≠ '\n' && !isPlainPrintable c) ||
    hasPair (fun a b => (a == ' ' && b == '\n') || (a == '\n' && b == ' ')) cs

/-- The first character of a text means something other than itself. -/
def opensMarkup (cs : List Char) : Bool :=
  match cs with
  | [] => false
  | c :: rest =>
    "#,[]{}&*!|>'\"%@`".toList.contains c ||
      ("?:-".toList.contains c && rest.head?.all (· == ' '))

/-- A text on one line that does not read as markup where it stands. -/
def isPlainSafe (cs : List Char) : Bool :=
  !needsEscapes cs && !cs.contains '\n' && cs.head? != some ' ' && cs.getLast? != some ' ' &&
    !startsWith "---".toList cs && !startsWith "...".toList cs && !opensMarkup cs &&
    cs.getLast? != some ':' &&
    !hasPair (fun a b => (a == ':' && b == ' ') || (a == ' ' && b == '#')) cs

/-! ## Texts

A writer knows the column that it has reached and the indentation of the lines that it opens. -/

/-- The column after which a line is folded. -/
def width : Nat := 80

/-- Where a line begins and whether lines may be folded at all. -/
structure Fold where
  indent : Nat
  allowed : Bool

def Fold.margin (f : Fold) : List Char := '\n' :: List.replicate f.indent ' '

/-- The line is full. -/
def Fold.isDue (f : Fold) (column : Nat) : Bool := f.allowed && width < column

/-- A blank alone between other characters. -/
def isLoneBlank (before : Option Char) (rest : List Char) : Bool :=
  before.any (· != ' ') && rest.head?.any (· != ' ')

/-- A text as it is. -/
def writePlain (f : Fold) (column : Nat) (before : Option Char) : List Char → List Char
  | [] => []
  | c :: cs =>
    if c == ' ' && isLoneBlank before cs && f.isDue column then
      f.margin ++ writePlain f f.indent (some c) cs
    else c :: writePlain f (column + 1) (some c) cs

/-- The inside of single quotes: a quote is written twice, and a line end opens one line more. -/
def writeSingle (f : Fold) (column : Nat) (before : Option Char) : List Char → List Char
  | [] => []
  | c :: cs =>
    if c == '\'' then '\'' :: '\'' :: writeSingle f (column + 2) (some c) cs
    else if c == '\n' then
      (if before == some '\n' then [] else ['\n']) ++
        (if cs.head? == some '\n' then ['\n'] else f.margin) ++ writeSingle f f.indent (some c) cs
    else if c == ' ' && isLoneBlank before cs && f.isDue column then
      f.margin ++ writeSingle f f.indent (some c) cs
    else c :: writeSingle f (column + 1) (some c) cs

/-- Hexadecimal digits in capitals, at least `size` of them. -/
def capitalHex (size n : Nat) : List Char :=
  let ds := (Nat.toDigits 16 n).map plainUpper
  List.replicate (size - ds.length) '0' ++ ds

/-- The escape of a character inside double quotes, if it has one. -/
def escape? (c : Char) : Option (List Char) :=
  match c with
  | '\x00' => some ['\\', '0']
  | '\x07' => some ['\\', 'a']
  | '\x08' => some ['\\', 'b']
  | '\t' => some ['\\', 't']
  | '\n' => some ['\\', 'n']
  | '\x0b' => some ['\\', 'v']
  | '\x0c' => some ['\\', 'f']
  | '\r' => some ['\\', 'r']
  | '\x1b' => some ['\\', 'e']
  | '"' => some ['\\', '"']
  | '\\' => some ['\\', '\\']
  | '\u0085' => some ['\\', 'N']
  | '\u00a0' => some ['\\', '_']
  | '\u2028' => some ['\\', 'L']
  | '\u2029' => some ['\\', 'P']
  | c =>
    if isPlainPrintable c then none
    else if c.toNat ≤ 0xff then some ('\\' :: 'x' :: capitalHex 2 c.toNat)
    else if c.toNat ≤ 0xffff then some ('\\' :: 'u' :: capitalHex 4 c.toNat)
    else some ('\\' :: 'U' :: capitalHex 8 c.toNat)

/-- The end of a folded line inside double quotes, and what a blank that follows needs. -/
def breakDouble (f : Fold) (next : Option Char) : List Char :=
  '\\' :: f.margin ++ if next == some ' ' then ['\\'] else []

/-- The inside of double quotes.  A full line is folded before a blank and around an escape, never
after the first character or before the last. -/
def writeDouble (f : Fold) (column : Nat) (isFirst afterEscape : Bool) : List Char → List Char
  | [] => []
  | c :: cs =>
    let inside := !isFirst && !cs.isEmpty
    match escape? c with
    | some e =>
      let column := column + e.length
      if inside && f.isDue (column - 1) then
        let fold := breakDouble f cs.head?
        e ++ fold ++ writeDouble f (f.indent + if cs.head? == some ' ' then 1 else 0) false true cs
      else e ++ writeDouble f column false true cs
    | none =>
      if inside && (c == ' ' || afterEscape) && f.isDue column then
        breakDouble f (some c) ++ c ::
          writeDouble f (f.indent + if c == ' ' then 2 else 1) false false cs
      else c :: writeDouble f (column + 1) false false cs

/-- A text that starts at a column. -/
def writeText (f : Fold) (column : Nat) (s : String) : List Char :=
  let cs := s.toList
  if Tag.ofPlain s = .text && isPlainSafe cs then writePlain f column none cs
  else if needsEscapes cs then '"' :: writeDouble f (column + 1) true false cs ++ ['"']
  else '\'' :: writeSingle f (column + 1) none cs ++ ['\'']

/-! ## Collections -/

/-- A key of a record. -/
def writeKey (s : String) : List Char := writeText ⟨0, false⟩ 0 s

def blanks (n : Nat) : List Char := List.replicate n ' '

mutual

/-- What follows the key of a member: a scalar on the same line, a collection on its own lines. -/
def writeMemberValue (indent column : Nat) : Block → List Char
  | .null => " null\n".toList
  | .int n => ' ' :: (toString n).toList ++ ['\n']
  | .text s => ' ' :: writeText ⟨indent + 2, true⟩ (column + 1) s ++ ['\n']
  | .list [] => " []\n".toList
  | .list (x :: xs) => '\n' :: (writeItem indent x ++ writeItems indent xs)
  | .record [] => " {}\n".toList
  | .record (m :: ms) =>
    '\n' :: blanks (indent + 2) ++ writeMember (indent + 2) m ++ writeMembers (indent + 2) ms

/-- A member, the indentation of which has been written. -/
def writeMember (indent : Nat) : String × Block → List Char
  | (k, v) =>
    let key := writeKey k
    key ++ ':' :: writeMemberValue indent (indent + key.length + 1) v

/-- Members on lines of their own. -/
def writeMembers (indent : Nat) : List (String × Block) → List Char
  | [] => []
  | m :: ms => blanks indent ++ writeMember indent m ++ writeMembers indent ms

/-- An item and the lines that it takes. -/
def writeItem (indent : Nat) : Block → List Char
  | .null => blanks indent ++ "- null\n".toList
  | .int n => blanks indent ++ "- ".toList ++ (toString n).toList ++ ['\n']
  | .text s =>
    blanks indent ++ "- ".toList ++ writeText ⟨indent + 2, true⟩ (indent + 2) s ++ ['\n']
  | .list [] => blanks indent ++ "- []\n".toList
  | .list (x :: xs) =>
    blanks indent ++ "- ".toList ++ (writeItem (indent + 2) x).drop (indent + 2) ++
      writeItems (indent + 2) xs
  | .record [] => blanks indent ++ "- {}\n".toList
  | .record (m :: ms) =>
    blanks indent ++ "- ".toList ++ writeMember (indent + 2) m ++ writeMembers (indent + 2) ms

/-- Items on lines of their own. -/
def writeItems (indent : Nat) : List Block → List Char
  | [] => []
  | x :: xs => writeItem indent x ++ writeItems indent xs

end

namespace Block

/-- A record as a document. -/
def ofRecord (members : List (String × Block)) : String := String.ofList (writeMembers 0 members)

/-- Records as the documents of one stream. -/
def ofRecords (documents : List (List (String × Block))) : String :=
  "---\n".intercalate (documents.map ofRecord)

end Block

end Scaffold.Document.Yaml
