import Scaffold.Text.Lettercase
import Scaffold.Text.Lines

/-!
# Naming — identifiers in other styles

An identifier in any style is cut into groups in two steps: at every character that is no ASCII
letter or digit, and inside what remains between two neighbours that are not *joined*.  Words and
snake case differ in that rule alone: words also part letters from digits.
-/

namespace Scaffold.Naming

open Text

/-- The maximal runs of ASCII letters and digits. -/
def runs (cs : List Char) : List (List Char) :=
  (pieces ' ' (cs.map fun c => if isPlainAlnum c then c else ' ')).filter (· ≠ [])

/-- Cuts a run between all neighbours that are not joined; the rule also sees the character after
the second neighbour. -/
def groups (joined : Char → Char → Option Char → Bool) : List Char → List (List Char)
  | [] => []
  | [c] => [[c]]
  | c :: d :: cs =>
    match groups joined (d :: cs) with
    | [] => [[c]]
    | g :: gs => if joined c d cs.head? then (c :: g) :: gs else [c] :: g :: gs

/-- The second of two capitals starts a group if a small letter follows it: `HTTPStatus` is `HTTP`
and `Status`. -/
def startsAfterAcronym (c d : Char) (next : Option Char) : Bool :=
  isUpperLetter c && isUpperLetter d && next.any isLowerLetter

/-- Neighbours in one group of a snake-case name. -/
def joinedInSnake (c d : Char) (next : Option Char) : Bool :=
  !(startsAfterAcronym c d next || ((isLowerLetter c || isPlainDigit c) && isUpperLetter d))

/-- Neighbours in one word. -/
def joinedInWord (c d : Char) (next : Option Char) : Bool :=
  joinedInSnake c d next && isPlainDigit c == isPlainDigit d

/-- The groups of a text under a rule, in small letters. -/
def split (joined : Char → Char → Option Char → Bool) (s : String) : List (List Char) :=
  ((runs s.toList).flatMap (groups joined)).map (·.map plainLower)

/-- The words of an identifier, in small letters. -/
def words (s : String) : List (List Char) := split joinedInWord s

/-- A word with a capital at its start. -/
def capitalized : List Char → List Char
  | [] => []
  | c :: cs => plainUpper c :: cs

/-- `createdAt` becomes `created_at`. -/
def snake (s : String) : String := String.ofList (joinWith ['_'] (split joinedInSnake s))

/-- `blog_post` becomes `BlogPost`. -/
def pascal (s : String) : String := String.ofList ((words s).flatMap capitalized)

/-- `blog_post` becomes `blogPost`. -/
def camel (s : String) : String :=
  match words s with
  | [] => ""
  | w :: ws => String.ofList (w ++ ws.flatMap capitalized)

/-- `BlogPost` becomes `blog-post`. -/
def kebab (s : String) : String := String.ofList (joinWith ['-'] (words s))

/-- The table of a model that names none: its name in small letters and an `s`. -/
def tableName (model : String) : String := lower model ++ "s"

/-- The text without one line feed at its end. -/
def withoutFinalLineFeed (cs : List Char) : List Char :=
  match cs.getLast? with
  | some '\n' => cs.dropLast
  | _ => cs

/-- A first character of one kind and then ASCII letters and digits; a line feed may follow. -/
def isIdentifier (first : Char → Bool) (s : String) : Bool :=
  match withoutFinalLineFeed s.toList with
  | [] => false
  | c :: cs => first c && cs.all isPlainAlnum

def isPascal (s : String) : Bool := isIdentifier isUpperLetter s

def isCamel (s : String) : Bool := isIdentifier isLowerLetter s

end Scaffold.Naming
