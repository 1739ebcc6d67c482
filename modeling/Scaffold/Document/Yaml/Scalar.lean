import Scaffold.Document.Yaml.Cursor

/-!
# Document/Yaml/Scalar — the texts of scalars

A scalar is written plain, in quotes, or as a block of lines.  Inside the first two a line end
counts as a blank, and each empty line after it as a line end; a block keeps its line ends, or folds
them in the same way.  Every reader returns the text and the cursor past it; the first argument of a
loop bounds its steps, for which the number of characters suffices.
-/

namespace Scaffold.Document.Yaml

open Text

/-- What a line end counts for when empty lines follow it. -/
def foldedBreak (lineEnd more : List Char) : List Char :=
  if lineEnd ≠ ['\n'] then lineEnd ++ more else if more.isEmpty then [' '] else more

/-! ## Quotes -/

/-- The character that a letter after a backslash stands for. -/
def escapes : List (Char × Char) :=
  [('0', '\x00'), ('a', '\x07'), ('b', '\x08'), ('t', '\t'), ('\t', '\t'), ('n', '\n'),
    ('v', '\x0b'), ('f', '\x0c'), ('r', '\r'), ('e', '\x1b'), (' ', ' '), ('"', '"'), ('\\', '\\'),
    ('/', '/'), ('N', '\u0085'), ('_', '\u00a0'), ('L', '\u2028'), ('P', '\u2029')]

/-- The number of hexadecimal digits that a letter after a backslash announces. -/
def escapeSizes : List (Char × Nat) := [('x', 2), ('u', 4), ('U', 8)]

/-- Why a scalar in quotes has no text. -/
inductive QuoteFault where
  | malformed
  /-- An escape gives the number of no character. -/
  | noCharacter (code : Nat)
deriving DecidableEq, Repr

/-- The value of hexadecimal digits, `size` of them. -/
def hexadecimal? (size : Nat) (cs : List Char) : Option Nat :=
  if cs.length < size then none
  else (cs.take size).foldlM (fun n c => (hexValue? c).map (n * 16 + ·)) 0

/-- The empty lines after a line end inside quotes, and the blanks before the text goes on. -/
def quotedBreaks : Nat → Cursor → Option (List Char × Cursor)
  | 0, _ => none
  | n + 1, c =>
    if c.isSeparator then none
    else
      match (c.skipWhile isGap).lineEnd with
      | ([], c) => some ([], c)
      | (b, c) => (quotedBreaks n c).map fun (bs, c) => (b ++ bs, c)

/-- The number of a character that an escape gives, and the cursor past it; the cursor is past the
backslash. -/
def escapedCode? (c : Cursor) : Option (Nat × Cursor) := do
  let size ← escapeSizes.lookup (← c.peek)
  let code ← hexadecimal? size c.next.rest
  return (code, c.next.skip size)

/-- The character that two halves give, the second of which is an escape at the cursor. -/
def joined? (code : Nat) (c : Cursor) : Option (Char × Cursor) := do
  guard (0xd800 ≤ code && code < 0xdc00 && c.peek == some '\\')
  let (second, c) ← escapedCode? c.next
  guard (0xdc00 ≤ second && second < 0xe000)
  return (Char.ofNat (0x10000 + (code - 0xd800) * 0x400 + (second - 0xdc00)), c)

/-- What an escape stands for; the cursor is past the backslash. -/
def escape (c : Cursor) : Except QuoteFault (List Char × Cursor) :=
  match c.peek with
  | none => .error .malformed
  | some d =>
    match escapes.lookup d, escapedCode? c with
    | some e, _ => .ok ([e], c.next)
    | none, some (code, c) =>
      if 0x10ffff < code then .error (.noCharacter code)
      else
        let (char, c) := (joined? code c).getD (Char.ofNat code, c)
        .ok ([char], c)
    | none, none =>
      if !isBreak d then .error .malformed
      else match quotedBreaks (c.rest.length + 1) c.lineEnd.2 with
        | some r => .ok r
        | none => .error .malformed

/-- Blanks inside quotes: kept within a line, dropped around a line end. -/
def quotedSpacing (c : Cursor) : Option (List Char × Cursor) :=
  let (gap, c) := c.span isGap
  match c.lineEnd with
  | ([], c) => if c.atEnd then none else some (gap, c)
  | (b, c) => (quotedBreaks (c.rest.length + 1) c).map fun (bs, c) => (foldedBreak b bs, c)

/-- The rest of a text in quotes, past the opening one. -/
def quotedRest (double : Bool) : Nat → Cursor → Except QuoteFault (List Char × Cursor)
  | 0, _ => .error .malformed
  | n + 1, c =>
    let goOn (text : List Char) (c : Cursor) : Except QuoteFault (List Char × Cursor) :=
      (quotedRest double n c).map fun (more, c) => (text ++ more, c)
    match c.rest with
    | [] => .error .malformed
    | d :: cs =>
      if double && d == '"' then .ok ([], c.next)
      else if !double && d == '\'' then
        if cs.head? == some '\'' then goOn ['\''] (c.skip 2) else .ok ([], c.next)
      else if double && d == '\\' then do
        let (text, c) ← escape c.next
        goOn text c
      else if isSpacing d then
        match quotedSpacing c with
        | some (text, c) => goOn text c
        | none => .error .malformed
      else goOn [d] c.next

/-- A text in quotes, from its opening quote on. -/
def quoted (double : Bool) (c : Cursor) : Except QuoteFault (List Char × Cursor) :=
  quotedRest double (c.rest.length + 1) c.next

/-! ## Plain scalars -/

/-- A plain scalar cannot go on here within its line. -/
def endsPlain (inFlow : Bool) : List Char → Bool
  | [] => true
  | c :: cs =>
    isSpacing c || (inFlow && ",?[]\x7b\x7d".toList.contains c) ||
      (c == ':' &&
        endsWith (fun d => isSpacing d || (inFlow && ",[]\x7b\x7d".toList.contains d)) cs)

/-- The part of a plain scalar up to the next spacing. -/
def plainRun (inFlow : Bool) : List Char → List Char
  | [] => []
  | c :: cs => if endsPlain inFlow (c :: cs) then [] else c :: plainRun inFlow cs

/-- The empty lines after a line end in a plain scalar; none if a document starts or ends there. -/
def plainBreaks? : Nat → Cursor → Option (List Char) × Cursor
  | 0, c => (none, c)
  | n + 1, c =>
    let c := c.skipWhile (· == ' ')
    match c.lineEnd with
    | ([], c) => (some [], c)
    | (b, c) =>
      if c.isSeparator then (none, c)
      else
        let (bs, c) := plainBreaks? n c
        (bs.map (b ++ ·), c)

/-- What a plain scalar takes for the spacing that follows it, empty if it ends there, and whether
that spacing holds a line end. -/
def plainSpacing (c : Cursor) : List Char × Cursor × Bool :=
  let (gap, c) := c.span (· == ' ')
  match c.lineEnd with
  | ([], c) => (gap, c, false)
  | (b, c) =>
    if c.isSeparator then ([], c, true)
    else
      let (bs, c) := plainBreaks? (c.rest.length + 1) c
      (match bs with
        | some bs => foldedBreak b bs
        | none => [], c, true)

/-- A plain scalar whose further lines are indented by at least `indent`: its text, the cursor past
it and past the spacing that follows, and whether that spacing holds a line end. -/
def plainFrom (inFlow : Bool) (indent : Nat) : Nat → Cursor → List Char × Cursor × Bool
  | 0, c => ([], c, false)
  | n + 1, c =>
    let run := plainRun inFlow c.rest
    let (gap, c, crossed) := plainSpacing (c.skip run.length)
    if gap.isEmpty || c.peek == some '#' || (!inFlow && c.column < indent) ||
        (plainRun inFlow c.rest).isEmpty then
      (run, c, crossed)
    else
      let (more, c, crossed) := plainFrom inFlow indent n c
      (run ++ gap ++ more, c, crossed)

def plain (inFlow : Bool) (indent : Nat) (c : Cursor) : List Char × Cursor × Bool :=
  plainFrom inFlow indent (c.rest.length + 1) c

/-! ## Blocks -/

/-- What becomes of the line ends at the end of a block. -/
inductive Chomping where
  /-- One is kept. -/
  | clip
  /-- None is kept. -/
  | strip
  /-- All are kept. -/
  | keep
deriving DecidableEq, Repr

/-- The line ends at the end of a block: the last one of its text and those after it. -/
def Chomping.apply (how : Chomping) (last more : List Char) : List Char :=
  match how with
  | clip => last
  | strip => []
  | keep => last ++ more

/-- A block: folded or not, its chomping, and its indentation if that is written out. -/
structure BlockHeader where
  folded : Bool
  chomping : Chomping
  indent : Option Nat

def chomping? : Option Char → Option Chomping
  | some '+' => some .keep
  | some '-' => some .strip
  | _ => none

/-- A digit other than zero; a zero is refused. -/
def indentDigit? (c : Cursor) : Option (Option Nat × Cursor) :=
  match c.peek with
  | some d =>
    if !isPlainDigit d then some (none, c)
    else if d == '0' then none
    else some (some (d.toNat - 48), c.next)
  | none => some (none, c)

/-- The two indicators after `|` or `>`, in either order, and the rest of their line. -/
def blockHeader? (folded : Bool) (c : Cursor) : Option (BlockHeader × Cursor) := do
  let (header, c) ← match chomping? c.peek with
    | some how => (indentDigit? c.next).map fun (k, c) => (BlockHeader.mk folded how k, c)
    | none => (indentDigit? c).map fun (k, c) =>
      match k.bind fun _ => chomping? c.peek with
      | some how => (⟨folded, how, k⟩, c.next)
      | none => (⟨folded, .clip, k⟩, c)
  if endsWith (fun d => d == ' ' || isBreak d) c.rest then
    return (header, ← c.pastComment)
  else none

/-- The empty lines at the start of a block, and the largest indentation among them and the line
after them. -/
def blockIndent (most : Nat) : Nat → Cursor → List Char × Nat × Cursor
  | 0, c => ([], most, c)
  | n + 1, c =>
    let c := c.skipWhile (· == ' ')
    let most := max most c.column
    match c.lineEnd with
    | ([], c) => ([], most, c)
    | (b, c) =>
      let (bs, most, c) := blockIndent most n c
      (b ++ bs, most, c)

/-- Past blanks, but not beyond a column. -/
def indentTo (column : Nat) : Nat → Cursor → Cursor
  | 0, c => c
  | n + 1, c => if c.column < column && c.peek == some ' ' then indentTo column n c.next else c

/-- The empty lines before the next line of a block, and its indentation. -/
def blockBreaks (indent : Nat) : Nat → Cursor → List Char × Cursor
  | 0, c => ([], c)
  | n + 1, c =>
    match (indentTo indent indent c).lineEnd with
    | ([], c) => ([], c)
    | (b, c) =>
      let (bs, c) := blockBreaks indent n c
      (b ++ bs, c)

/-- The lines of a block; the cursor stands at the first, or behind the block. -/
def blockLines (h : BlockHeader) (indent : Nat) : Nat → List Char → Cursor → List Char × Cursor
  | 0, _, c => ([], c)
  | n + 1, breaks, c =>
    let isMore (c : Cursor) : Bool := endsWith isGap c.rest && !c.atEnd
    let (line, c') := c.span (!isBreak ·)
    let (last, c') := c'.lineEnd
    let (more, c') := blockBreaks indent (c'.rest.length + 1) c'
    if c'.column = indent && !c'.atEnd then
      let joint :=
        if h.folded && last == ['\n'] && !isMore c && !isMore c' then
          if more.isEmpty then [' '] else []
        else last
      let (rest, c') := blockLines h indent n more c'
      (breaks ++ line ++ joint ++ rest, c')
    else (breaks ++ line ++ h.chomping.apply last more, c')

/-- A block whose lines are indented by at least `least`, from past `|` or `>` on.  A written
indentation counts from there. -/
def block? (folded : Bool) (least : Nat) (c : Cursor) : Option (List Char × Cursor) := do
  let (h, c) ← blockHeader? folded c
  let fuel := c.rest.length + 1
  let (breaks, indent, c) := match h.indent with
    | none =>
      let (breaks, most, c) := blockIndent 0 fuel c
      (breaks, max least most, c)
    | some k =>
      let indent := least + k - 1
      let (breaks, c) := blockBreaks indent fuel c
      (breaks, indent, c)
  return if c.column = indent && !c.atEnd then blockLines h indent fuel breaks c
    else (h.chomping.apply [] breaks, c)

end Scaffold.Document.Yaml
