import Scaffold.Text.Lines

/-!
# Format/Mask — which characters of a program are code

Every character of a program text gets a `Mark`: code, the quote of a literal, the inside of a
literal, or comment.  The *painted* text keeps code and quotes and blots out the rest, so a bracket
or a quote that is seen in it is one.  Marks are given one per character (`length_marks`), and the
painted text keeps the line feeds.
-/

namespace Scaffold.Format

/-- What a character is part of. -/
inductive Mark where
  | code
  | quote
  /-- The inside of a literal with the given quote. -/
  | body (quote : Char)
  | comment
deriving DecidableEq, Repr

/-- What the scanner is inside of. -/
inductive Scan where
  | code
  | lineComment
  | blockComment
  | literal (quote : Char)
deriving DecidableEq, Repr

def isQuote (c : Char) : Bool := c == '\'' || c == '"' || c == '\x60'

/-- The marks of a text, scanned from a given state.  A line feed ends a line comment and a literal
in single or double quotes; a backslash inside a literal covers the next character of its line. -/
def marks : Scan → List Char → List Mark
  | _, [] => []
  | .code, '/' :: '/' :: cs => .comment :: .comment :: marks .lineComment cs
  | .code, '/' :: '*' :: cs => .comment :: .comment :: marks .blockComment cs
  | .code, c :: cs =>
    if isQuote c then .quote :: marks (.literal c) cs else .code :: marks .code cs
  | .lineComment, c :: cs =>
    if c = '\n' then .code :: marks .code cs else .comment :: marks .lineComment cs
  | .blockComment, '*' :: '/' :: cs => .comment :: .comment :: marks .code cs
  | .blockComment, _ :: cs => .comment :: marks .blockComment cs
  | .literal q, '\\' :: d :: cs =>
    if d = '\n' then .body q :: marks (.literal q) (d :: cs)
    else .body q :: .body q :: marks (.literal q) cs
  | .literal q, c :: cs =>
    if c = '\n' then
      if q = '\x60' then .body q :: marks (.literal q) cs else .code :: marks .code cs
    else if c = q then .quote :: marks .code cs
    else .body q :: marks (.literal q) cs

@[simp] theorem length_marks (s : Scan) (cs : List Char) : (marks s cs).length = cs.length := by
  fun_induction marks s cs <;> simp_all

/-- A character and what it is part of. -/
abbrev Cell := Char × Mark

/-- The characters of a text with their marks. -/
def cells (cs : List Char) : List Cell := cs.zip (marks .code cs)

/-- The character as it is seen in the painted text. -/
def Cell.painted : Cell → Char
  | (c, m) =>
    if c = '\n' then c
    else match m with
      | .code | .quote => c
      | .body _ => 'x'
      | .comment => ' '

/-- The painted text. -/
def painted (cs : List Cell) : List Char := cs.map Cell.painted

/-- The text of cells. -/
def plain (cs : List Cell) : List Char := cs.map (·.1)

theorem plain_cells (cs : List Char) : plain (cells cs) = cs := by
  simp [plain, cells, List.map_fst_zip]

/-- Lines of cells.  A line is `continued` if the line feed before it is inside a literal. -/
def cellLines (continued : Bool) : List Cell → List (Bool × List Cell)
  | [] => [(continued, [])]
  | (c, m) :: cs =>
    if c = '\n' then
      (continued, []) :: cellLines (match m with | .body _ => true | _ => false) cs
    else match cellLines continued cs with
      | [] => [(continued, [(c, m)])]
      | (k, l) :: ls => (k, (c, m) :: l) :: ls

/-! ## Brackets -/

/-- The closing bracket of an opening one. -/
def closerOf? : Char → Option Char
  | '{' => some '}'
  | '[' => some ']'
  | '(' => some ')'
  | _ => none

def isOpener (c : Char) : Bool := (closerOf? c).isSome

def isCloser (c : Char) : Bool := c == '}' || c == ']' || c == ')'

end Scaffold.Format
