import Scaffold.Document.Yaml.Property
import Scaffold.Document.Yaml.Scalar

/-!
# Document/Yaml/Token — the tokens of a stream

A token is a scalar, an indicator, or the start or end of a collection.  In block style the
collections start and end where the indentation changes, so those tokens stand for no character.

A key is known for a key only by the `:` after it.  So every place where a key may begin leaves a
*mark* in the stream, and a mark turns into tokens once its `:` has been met; a mark that meets none
vanishes.  Tokens are only ever added at the end.
-/

namespace Scaffold.Document.Yaml

open Text

inductive Token where
  | directive (d : Directive)
  | documentStart
  | documentEnd
  | blockList
  | blockRecord
  | blockEnd
  | flowList
  | flowListEnd
  | flowRecord
  | flowRecordEnd
  /-- A comma between the items of a collection in flow style. -/
  | comma
  /-- A hyphen before an item of a list in block style. -/
  | item
  | key
  | value
  | reference (name : String)
  | anchor (name : String)
  | tag (name : TagName)
  | scalar (text : String) (plain : Bool)
deriving DecidableEq, Repr

/-- A token, or a place where a key may begin. -/
inductive Slot where
  | token (t : Token)
  | mark (id : Nat)

/-- A place where a key may begin: it must end in a `:` on the same line, within 1024 characters. -/
structure Candidate where
  id : Nat
  /-- Nothing but a key can stand here. -/
  required : Bool
  line : Nat
  column : Nat
  offset : Nat

/-- Where the reading of a stream stands. -/
structure Scan where
  cursor : Cursor
  /-- What was read, the last first. -/
  slots : List Slot
  /-- The marks that have met their `:`, and whether a mapping begins there too. -/
  keys : List (Nat × Bool)
  /-- The number of collections in flow style that are open. -/
  flow : Nat
  /-- The columns of the open collections in block style, innermost first. -/
  indents : List Nat
  /-- A key may begin here. -/
  keyAllowed : Bool
  /-- The candidate at each level of flow style, if there is one. -/
  candidates : List (Nat × Candidate)
  /-- The number of marks so far. -/
  marks : Nat

namespace Scan

def start (cs : List Char) : Scan := ⟨.start cs, [], [], 0, [], true, [], 0⟩

def column (s : Scan) : Nat := s.cursor.column

/-- The column of the innermost collection in block style. -/
def isIndent (s : Scan) (column : Nat) : Bool := s.indents.head? == some column

/-- The least column of what belongs to the innermost collection in block style. -/
def innerColumn (s : Scan) : Nat := (s.indents.head?.map (· + 1)).getD 0

def emit (s : Scan) (t : Token) : Scan := { s with slots := .token t :: s.slots }

/-- Past `n` characters that are a token. -/
def emitPast (s : Scan) (t : Token) (n : Nat) : Scan :=
  { s.emit t with cursor := s.cursor.skip n }

/-! ## Candidates -/

/-- Gives up the candidate of this level, unless it is required. -/
def dropCandidate (s : Scan) : Option Scan :=
  match s.candidates.lookup s.flow with
  | none => some s
  | some k =>
    if k.required then none
    else some { s with candidates := s.candidates.filter (·.1 ≠ s.flow) }

/-- The candidate is too far away. -/
def isStale (s : Scan) (k : Candidate) : Bool :=
  k.line != s.cursor.line || 1024 < s.cursor.offset - k.offset

/-- Gives up the candidates that are too far away, unless one of them is required. -/
def dropStale (s : Scan) : Option Scan :=
  let (stale, fresh) := s.candidates.partition fun k => s.isStale k.2
  if stale.any (·.2.required) then none else some { s with candidates := fresh }

/-- Leaves a mark if a key may begin here. -/
def markKey (s : Scan) : Option Scan :=
  if !s.keyAllowed then some s
  else (dropCandidate s).map fun s =>
    let k : Candidate := ⟨s.marks, s.flow == 0 && s.isIndent s.column, s.cursor.line, s.column,
      s.cursor.offset⟩
    { s with
      slots := .mark s.marks :: s.slots
      candidates := (s.flow, k) :: s.candidates
      marks := s.marks + 1 }

/-! ## Indentation -/

/-- Ends the collections in block style beyond a column; all of them if none is given. -/
def unwindTo (column : Option Nat) (s : Scan) : Scan :=
  if s.flow ≠ 0 then s
  else
    let ended := s.indents.takeWhile fun i => column.all (· < i)
    { s with
      slots := ended.map (fun _ => .token .blockEnd) ++ s.slots
      indents := s.indents.drop ended.length }

/-- The column opens a further collection in block style. -/
def opens (s : Scan) (column : Nat) : Bool := s.indents.head?.all (· < column)

/-- Starts a collection in block style at this column, unless one is open there. -/
def openBlock (s : Scan) (t : Token) : Scan :=
  if s.opens s.column then { s.emit t with indents := s.column :: s.indents } else s

/-! ## Tokens -/

/-- A token that ends everything in block style: a directive or a marker. -/
def atMargin (s : Scan) : Option Scan :=
  (s.unwindTo none).dropCandidate.map fun s => { s with keyAllowed := false }

def marker (s : Scan) (t : Token) : Option Scan := s.atMargin.map (·.emitPast t 3)

def openFlow (s : Scan) (t : Token) : Option Scan :=
  s.markKey.map fun s => { s.emitPast t 1 with flow := s.flow + 1, keyAllowed := true }

def closeFlow (s : Scan) (t : Token) : Option Scan :=
  if s.flow = 0 then none
  else s.dropCandidate.map fun s => { s.emitPast t 1 with flow := s.flow - 1, keyAllowed := false }

/-- A hyphen, a question mark or a comma: what follows may begin with a key. -/
def indicator (s : Scan) (t : Token) (keyAllowed : Bool) : Option Scan :=
  s.dropCandidate.map fun s => { s.emitPast t 1 with keyAllowed }

def listItem (s : Scan) : Option Scan :=
  if s.flow ≠ 0 then s.indicator .item true
  else if s.keyAllowed then (s.openBlock .blockList).indicator .item true
  else none

def explicitKey (s : Scan) : Option Scan :=
  if s.flow ≠ 0 then s.indicator .key false
  else if s.keyAllowed then (s.openBlock .blockRecord).indicator .key true
  else none

/-- A `:` after a key, or one that stands alone. -/
def keyValue (s : Scan) : Option Scan :=
  match s.candidates.lookup s.flow with
  | some k =>
    let begins := s.flow == 0 && s.opens k.column
    some { s.emitPast .value 1 with
      keys := (k.id, begins) :: s.keys
      indents := if begins then k.column :: s.indents else s.indents
      keyAllowed := false
      candidates := s.candidates.filter (·.1 ≠ s.flow) }
  | none =>
    if s.flow ≠ 0 then s.indicator .value false
    else if s.keyAllowed then (s.openBlock .blockRecord).indicator .value true
    else none

/-- A token with a text, which may begin a key. -/
def inline (s : Scan) (read : Cursor → Option (Token × Cursor)) : Option Scan := do
  let s ← s.markKey
  let (t, cursor) ← read s.cursor
  return { s.emit t with cursor, keyAllowed := false }

def plainScalar (s : Scan) : Option Scan :=
  s.markKey.map fun s =>
    let (text, cursor, crossed) := plain (s.flow ≠ 0) s.innerColumn s.cursor
    { s.emit (.scalar (String.ofList text) true) with cursor, keyAllowed := crossed }

def blockScalar (s : Scan) (folded : Bool) : Option Scan := do
  let s ← s.dropCandidate
  let (text, cursor) ← block? folded (max s.innerColumn 1) s.cursor.next
  return { s.emit (.scalar (String.ofList text) false) with cursor, keyAllowed := true }

/-- Past blanks, comments and line ends. -/
def toNext : Nat → Scan → Scan
  | 0, s => s
  | n + 1, s =>
    let c := s.cursor.skipWhile (· == ' ')
    let c := if c.peek == some '#' then c.skipWhile (!isBreak ·) else c
    match c.lineEnd with
    | ([], c) => { s with cursor := c }
    | (_, c) => toNext n { s with cursor := c, keyAllowed := s.keyAllowed || s.flow == 0 }

/-- A plain scalar can begin here. -/
def beginsPlain (s : Scan) (c : Char) (rest : List Char) : Bool :=
  !(isSpacing c || "-?:,[]\x7b\x7d#&*!|>'\"%@`".toList.contains c) ||
    (!endsWith isSpacing rest && (c == '-' || (s.flow == 0 && (c == '?' || c == ':'))))

def orMalformed {α : Type} (x : Option α) : Except QuoteFault α := x.elim (.error .malformed) .ok

def quotedScalar (s : Scan) (double : Bool) : Except QuoteFault Scan := do
  let s ← orMalformed s.markKey
  let (text, cursor) ← quoted double s.cursor
  return { s.emit (.scalar (String.ofList text) false) with cursor, keyAllowed := false }

/-- Reads the token that begins with a character; the cursor stands there. -/
def token (s : Scan) (c : Char) (rest : List Char) : Except QuoteFault Scan :=
  let isFlow := s.flow ≠ 0
  let alone := endsWith isSpacing rest
  if c == '\'' || c == '"' then s.quotedScalar (c == '"')
  else orMalformed <|
    if s.column = 0 && c == '%' then do
      let s ← s.atMargin
      let (d, cursor) ← directive? s.cursor
      return { s.emit (.directive d) with cursor }
    else if s.column = 0 && s.cursor.isMarker ['-', '-', '-'] then s.marker .documentStart
    else if s.column = 0 && s.cursor.isMarker ['.', '.', '.'] then s.marker .documentEnd
    else if c == '[' then s.openFlow .flowList
    else if c == '{' then s.openFlow .flowRecord
    else if c == ']' then s.closeFlow .flowListEnd
    else if c == '}' then s.closeFlow .flowRecordEnd
    else if c == ',' then s.indicator .comma true
    else if c == '-' && alone then s.listItem
    else if c == '?' && (isFlow || alone) then s.explicitKey
    else if c == ':' && (isFlow || alone) then s.keyValue
    else if c == '*' then s.inline fun c => (anchorName? c.next).map fun (n, c) => (.reference n, c)
    else if c == '&' then s.inline fun c => (anchorName? c.next).map fun (n, c) => (.anchor n, c)
    else if c == '!' then s.inline fun c => (tagName? c).map fun (t, c) => (.tag t, c)
    else if (c == '|' || c == '>') && !isFlow then s.blockScalar (c == '>')
    else if s.beginsPlain c rest then s.plainScalar
    else none

/-- The tokens that some slots stand for. -/
def tokensIn (s : Scan) (slots : List Slot) : List Token :=
  slots.flatMap fun
    | .token t => [t]
    | .mark id =>
      match s.keys.lookup id with
      | some true => [.blockRecord, .key]
      | some false => [.key]
      | none => []

/-- The tokens of a finished scan. -/
def tokens (s : Scan) : List Token := s.tokensIn s.slots.reverse

/-- The tokens before the first place where a key may still turn out to begin. -/
def settledTokens (s : Scan) : List Token :=
  let s := s.dropStale.getD s
  let isOpen : Slot → Bool
    | .mark id => s.candidates.any (·.2.id == id)
    | .token _ => false
  s.tokensIn (s.slots.reverse.takeWhile (!isOpen ·))

end Scan

/-- Where the reading of a stream stopped: why, and the tokens that were settled before. -/
structure Stop where
  fault : QuoteFault
  tokens : List Token

namespace Scan

/-- Reads tokens up to the end of the text.  The number of characters that are left bounds the
number of tokens, and of lines before the next one. -/
def run : Nat → Scan → Except Stop (List Token)
  | 0, s => .error ⟨.malformed, s.settledTokens⟩
  | n + 1, s => do
    let stopped (x : Except QuoteFault Scan) : Except Stop Scan := x.mapError (⟨·, s.settledTokens⟩)
    let next ← stopped (orMalformed (s.toNext (n + 1)).dropStale)
    match next.cursor.rest with
    | [] => return (← stopped (orMalformed (next.unwindTo none).dropCandidate)).tokens
    | c :: rest => run n (← stopped ((next.unwindTo (some next.column)).token c rest))

end Scan

/-- The tokens of a text.  A byte order mark at its start does not count. -/
def tokensOf (cs : List Char) : Except Stop (List Token) :=
  let s := Scan.start cs
  let s := if cs.head? == some '\ufeff' then { s with cursor := s.cursor.next } else s
  if cs.all isAllowed then s.run (cs.length + 1) else .error ⟨.malformed, []⟩

end Scaffold.Document.Yaml
