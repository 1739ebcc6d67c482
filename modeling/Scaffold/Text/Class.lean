import Scaffold.Text.Ranges

/-!
# Text/Class — the classes of characters that the readers and printers ask about

Blank, word, digit and printable characters over all of Unicode, and the ASCII classes that
identifiers are made of.  Every class decides ASCII by comparison and looks beyond it in a table.
-/

namespace Scaffold.Text

/-- `n` lies in one of the closed `ranges`. -/
def inRanges (ranges : List (Nat × Nat)) (n : Nat) : Bool :=
  ranges.any fun r => r.1 ≤ n && n ≤ r.2

/-! ## ASCII -/

def isUpperLetter (c : Char) : Bool := 'A' ≤ c && c ≤ 'Z'

def isLowerLetter (c : Char) : Bool := 'a' ≤ c && c ≤ 'z'

def isPlainDigit (c : Char) : Bool := '0' ≤ c && c ≤ '9'

/-- An ASCII letter. -/
def isPlainLetter (c : Char) : Bool := isUpperLetter c || isLowerLetter c

/-- An ASCII letter or digit. -/
def isPlainAlnum (c : Char) : Bool := isPlainLetter c || isPlainDigit c

/-- The ASCII lower case of an ASCII capital; any other character is itself. -/
def plainLower (c : Char) : Char := if isUpperLetter c then Char.ofNat (c.toNat + 32) else c

/-- The ASCII capital of a small ASCII letter; any other character is itself. -/
def plainUpper (c : Char) : Char := if isLowerLetter c then Char.ofNat (c.toNat - 32) else c

/-- The value of a hexadecimal digit. -/
def hexValue? (c : Char) : Option Nat :=
  if '0' ≤ c && c ≤ '9' then some (c.toNat - 48)
  else if 'a' ≤ c && c ≤ 'f' then some (c.toNat - 87)
  else if 'A' ≤ c && c ≤ 'F' then some (c.toNat - 55)
  else none

/-! ## Unicode -/

/-- White space: the separators, the line and paragraph ends and the information separators. -/
def isBlank (c : Char) : Bool :=
  let n := c.toNat
  n == 0x20 || (0x09 ≤ n && n ≤ 0x0d) || (0x1c ≤ n && n ≤ 0x1f) || n == 0x85 || n == 0xa0 ||
    n == 0x1680 || (0x2000 ≤ n && n ≤ 0x200a) || n == 0x2028 || n == 0x2029 || n == 0x202f ||
    n == 0x205f || n == 0x3000

/-- A letter, digit, numeral or underscore. -/
def isWord (c : Char) : Bool :=
  if c.toNat < 128 then isPlainAlnum c || c == '_' else inRanges wordRanges c.toNat

/-- Shown as itself inside quoted text: neither a control, a format character, unassigned nor a
separator other than the plain space. -/
def isPrintable (c : Char) : Bool :=
  if c.toNat < 128 then 0x20 ≤ c.toNat && c.toNat < 0x7f else inRanges printableRanges c.toNat

/-- The value of a decimal digit of any script. -/
def decimalValue? (c : Char) : Option Nat :=
  let n := c.toNat
  if n < 128 then
    if isPlainDigit c then some (n - 48) else none
  else
    (decimalZeros.find? fun z => z ≤ n && n < z + 10).map (n - ·)

/-- A digit of any script, decimal or not (`²` is one). -/
def isDigit (c : Char) : Bool :=
  (decimalValue? c).isSome || inRanges specialDigitRanges c.toNat

/-! ## Deciding what holds of some characters

What holds of the characters of a list is decided by going through the list.  Without the higher
priority these instances stand back behind the one that goes through all characters there are. -/

instance (priority := high) decidableBAllChar (p : Char → Prop) [DecidablePred p]
    (cs : List Char) : Decidable (∀ c ∈ cs, p c) :=
  List.decidableBAll p cs

instance (priority := high) decidableForallMemChar (p : Char → Prop) [DecidablePred p]
    (o : Option Char) : Decidable (∀ c ∈ o, p c) :=
  Option.decidableForallMem o

end Scaffold.Text
