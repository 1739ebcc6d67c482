import Scaffold.Format.Mask
import Scaffold.Format.Options

/-!
# Format/Layout — re-indenting a program by its brackets

The lines are walked with a stack of the brackets that are open.  Of the brackets that a line opens
and leaves open only the last carries an indentation, so a line that opens three is followed by
lines one level deeper.  A line that starts inside a template literal is kept as it is.
-/

namespace Scaffold.Format

/-- A bracket that is open. -/
structure Open where
  bracket : Char
  /-- It opens a list or an object, as opposed to a block or arguments. -/
  isLiteral : Bool
  /-- The lines inside it are one level deeper. -/
  carries : Bool
deriving DecidableEq, Repr

/-- One line and its place among the brackets. -/
structure Line where
  cells : List Cell
  /-- The line starts inside a template literal and is left alone. -/
  kept : Bool
  /-- The innermost bracket that is open after the line. -/
  innermost : Option Open
  /-- The opening brackets that the closers at the start of the line belong to. -/
  closes : List Char

namespace Line

def blank : Line := ⟨[], false, none, []⟩

/-- The painted text of the line. -/
def mask (l : Line) : List Char := painted l.cells

/-- The line shows code. -/
def hasCode (l : Line) : Bool := l.mask.any fun c => !Text.isBlank c

/-- The painted text without white space at both ends. -/
def code (l : Line) : List Char := Text.trimChars l.mask

end Line

/-- A word of code ends where `before`, read backwards, begins. -/
def endsInWord (word before : List Char) : Bool :=
  match Text.afterWord? word.reverse before with
  | some (c :: _) => !Text.isWord c
  | some [] => true
  | none => false

/-- A `{` opens an object and not a block, judged by the code before it, read backwards. -/
def opensObject (before : List Char) : Bool :=
  match before.dropWhile Text.isBlank with
  | [] => false
  | '>' :: '=' :: _ => false
  | c :: cs =>
    ['=', '(', ',', ':', '[', '?', '&', '|'].contains c ||
      endsInWord "return".toList (c :: cs) || endsInWord "default".toList (c :: cs)

/-- The brackets after a line that starts in a template literal. -/
def throughKept (stack : List Open) : List Char → List Open
  | [] => stack
  | c :: cs =>
    if isOpener c then throughKept (⟨c, c = '[', false⟩ :: stack) cs
    else if isCloser c then throughKept stack.tail cs
    else throughKept stack cs

/-- Closes the brackets that a line starts by closing: the brackets left, those closed, and the rest
of the line. -/
def leadingClosers (stack : List Open) : List Char → List Open × List Char × List Char
  | [] => (stack, [], [])
  | c :: cs =>
    if isCloser c then
      match stack with
      | [] => leadingClosers [] cs
      | o :: stack =>
        let (left, closed, rest) := leadingClosers stack cs
        (left, o.bracket :: closed, rest)
    else (stack, [], c :: cs)

/-- The brackets after the rest of a line, and how many of them the line opened.  `before` is the
code of the line so far, read backwards. -/
def through (stack : List Open) (opened : Nat) (before : List Char) :
    List Char → List Open × Nat
  | [] => (stack, opened)
  | c :: cs =>
    if isOpener c then
      let o : Open := ⟨c, c = '[' || (c = '{' && opensObject before), false⟩
      through (o :: stack) (opened + 1) (c :: before) cs
    else if isCloser c then through stack.tail (opened - 1) (c :: before) cs
    else through stack opened (c :: before) cs

/-- The innermost bracket carries an indentation if the line opened it. -/
def carry (stack : List Open) (opened : Nat) : List Open :=
  match stack with
  | o :: rest => if opened = 0 then stack else { o with carries := true } :: rest
  | [] => []

/-- The white space before a line of code that stands inside `level` carrying brackets.  A line that
starts with a point is one level deeper, one that starts with a star one blank. -/
def margin (unit : List Char) (level : Nat) (code : List Char) : List Char :=
  let base := (List.replicate level unit).flatten
  match code with
  | '.' :: _ => base ++ unit
  | '*' :: '/' :: _ => base
  | '*' :: _ => base ++ [' ']
  | _ => base

/-- The cells of a line without white space at both ends. -/
def trimCells (cs : List Cell) : List Cell :=
  Text.dropTail (fun c => Text.isBlank c.1) (cs.dropWhile fun c => Text.isBlank c.1)

/-- One line, re-indented, and the brackets that are open after it. -/
def layoutLine (unit : List Char) (stack : List Open) (continued : Bool) (cs : List Cell) :
    Line × List Open :=
  if continued then
    let after := throughKept stack (painted cs)
    (⟨cs, true, after.head?, []⟩, after)
  else
    let text := trimCells cs
    if text.isEmpty then (Line.blank, stack)
    else
      let code := painted text
      let (left, closed, rest) := leadingClosers stack code
      let level := left.countP (·.carries)
      let (after, opened) := through left 0 (code.take (code.length - rest.length)).reverse rest
      let after := carry after opened
      let indent : List Cell := (margin unit level code).map fun c => (c, .code)
      (⟨indent ++ text, false, after.head?, closed⟩, after)

/-- The lines of a program, re-indented. -/
def layoutFrom (unit : List Char) (stack : List Open) : List (Bool × List Cell) → List Line
  | [] => []
  | (continued, cs) :: ls =>
    let (l, after) := layoutLine unit stack continued cs
    l :: layoutFrom unit after ls

def layout (unit : List Char) (cs : List Char) : List Line :=
  layoutFrom unit [] (cellLines false (cells cs))

end Scaffold.Format
