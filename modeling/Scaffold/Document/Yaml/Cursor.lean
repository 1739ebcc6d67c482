import Scaffold.Text.Lines

/-!
# Document/Yaml/Cursor — where a reader stands in a text

A cursor holds the characters that are left, and the line, the column and the offset of the first of
them.  Columns matter because indentation is structure; a line ends at a line feed and at three more
characters.
-/

namespace Scaffold.Document.Yaml

open Text

/-! ## Classes of characters -/

/-- The end of a line. -/
def isBreak (c : Char) : Bool := c == '\n' || c == '\u0085' || c == '\u2028' || c == '\u2029'

/-- A blank or a tab. -/
def isGap (c : Char) : Bool := c == ' ' || c == '\t'

/-- What can end a word. -/
def isSpacing (c : Char) : Bool := isGap c || isBreak c

/-- Part of the name of an anchor, a directive or a tag handle. -/
def isNameChar (c : Char) : Bool := isPlainAlnum c || c == '-' || c == '_'

/-- The next character of a text is as told, or there is none. -/
def endsWith (p : Char → Bool) (cs : List Char) : Bool := cs.head?.all p

/-- Every carriage return becomes a line feed, together with a line feed after it. -/
def plainBreaks : List Char → List Char
  | '\r' :: '\n' :: cs => '\n' :: plainBreaks cs
  | '\r' :: cs => '\n' :: plainBreaks cs
  | c :: cs => c :: plainBreaks cs
  | [] => []

/-- The character may stand in a document. -/
def isAllowed (c : Char) : Bool :=
  let n := c.toNat
  n == 0x09 || n == 0x0a || n == 0x0d || (0x20 ≤ n && n ≤ 0x7e) || n == 0x85 ||
    (0xa0 ≤ n && n ≤ 0xfffd) || 0x10000 ≤ n

/-! ## Cursors -/

structure Cursor where
  rest : List Char
  line : Nat
  column : Nat
  offset : Nat

namespace Cursor

def start (cs : List Char) : Cursor := ⟨cs, 0, 0, 0⟩

def peek (c : Cursor) : Option Char := c.rest.head?

def atEnd (c : Cursor) : Bool := c.rest.isEmpty

/-- Past the next character.  A byte order mark takes no column. -/
def next (c : Cursor) : Cursor :=
  match c.rest with
  | [] => c
  | d :: cs =>
    if isBreak d then ⟨cs, c.line + 1, 0, c.offset + 1⟩
    else ⟨cs, c.line, if d = '\ufeff' then c.column else c.column + 1, c.offset + 1⟩

/-- Past `n` characters. -/
def skip (c : Cursor) : Nat → Cursor
  | 0 => c
  | n + 1 => c.next.skip n

/-- The longest run of characters that are as told, and the cursor past it. -/
def span (c : Cursor) (p : Char → Bool) : List Char × Cursor :=
  let run := c.rest.takeWhile p
  (run, c.skip run.length)

def skipWhile (c : Cursor) (p : Char → Bool) : Cursor := (c.span p).2

/-- The end of a line as the text that it counts for, and the cursor past it; nothing if no line
ends here. -/
def lineEnd (c : Cursor) : List Char × Cursor :=
  match c.peek with
  | some d =>
    if !isBreak d then ([], c)
    else ([if d == '\n' || d == '\u0085' then '\n' else d], c.next)
  | none => ([], c)

/-- A marker of three characters that stands alone. -/
def isMarker (c : Cursor) (mark : List Char) : Bool :=
  match afterWord? mark c.rest with
  | some rest => endsWith isSpacing rest
  | none => false

/-- The start or the end of a document. -/
def isSeparator (c : Cursor) : Bool := c.isMarker ['-', '-', '-'] || c.isMarker ['.', '.', '.']

/-- The start of the next line, if nothing but blanks and a comment is left of this one. -/
def pastComment (c : Cursor) : Option Cursor :=
  let c := c.skipWhile (· == ' ')
  let c := if c.peek == some '#' then c.skipWhile (!isBreak ·) else c
  if endsWith isBreak c.rest then some c.lineEnd.2 else none

end Cursor

end Scaffold.Document.Yaml
