import Scaffold.Document.Json.Printer
import Scaffold.Document.Json.Reader
import Scaffold.Format.Code
import Scaffold.Format.Finish
import Scaffold.Format.Sql

/-!
# Format/Basic — formatting and checking a text by the language it is tagged with

A text in an unknown language passes unchanged; a JSON text that breaks the grammar keeps all but its
line ends.  In a Markdown text one blank is put after the signs of a heading; lines inside a fenced
block are left alone.
-/

/-! ## Markdown -/

namespace Scaffold.Format.Markdown

open Text

/-- A heading with `signs` hash signs whose text is not empty, after blanks and tabs. -/
def heading? (signs : Nat) (line : List Char) : Option (List Char) :=
  let rest := (line.drop signs).dropWhile fun c => c = ' ' || c = '\t'
  match rest with
  | c :: _ =>
    if isBlank c then none else some (List.replicate signs '#' ++ ' ' :: rest)
  | [] => none

/-- The heading with the most signs that the line can be read as, six at most; any other line as it
is. -/
def formatHeading (line : List Char) : List Char :=
  let signs := min 6 (line.takeWhile (· = '#')).length
  ((List.range signs).reverse.findSome? fun k => heading? (k + 1) line).getD line

def isFence (line : List Char) : Bool := startsWith ['\x60', '\x60', '\x60'] (trimLeft line)

def formatFrom (inFence : Bool) : List (List Char) → List (List Char)
  | [] => []
  | l :: ls =>
    if isFence l then l :: formatFrom (!inFence) ls
    else (if inFence then l else formatHeading l) :: formatFrom inFence ls

def format (cs : List Char) : List Char := finish (formatFrom false (lines cs))

end Scaffold.Format.Markdown

namespace Scaffold.Format

open Document

/-- The languages that have a formatter. -/
inductive Tag where
  | code
  | json
  | sql
  | markdown
deriving DecidableEq, Repr

/-- The formatter of a language tag. -/
def Tag.of? : Option String → Option Tag
  | some "typescript" | some "javascript" => some .code
  | some "json" => some .json
  | some "sql" => some .sql
  | some "markdown" => some .markdown
  | _ => none

/-- A JSON text one item a line; a text that breaks the grammar stays as it is, and of one that
breaks a limit nothing is made. -/
def formatJson? (o : Options) (cs : List Char) : Option (List Char) :=
  match Json.read cs with
  | .ok v => some (Json.write (.indented o.indentUnit false) 0 v ++ ['\n'])
  | .error f => if f.fault.isSyntactic then some cs else none

def formatChars? (o : Options) (tag : Tag) (cs : List Char) : Option (List Char) :=
  match tag with
  | .code => some (formatCode o cs)
  | .json => formatJson? o cs
  | .sql => some (Sql.format cs)
  | .markdown => some (Markdown.format cs)

/-- The formatted text; a text of which nothing can be made passes unchanged, line ends included. -/
def formatText (o : Options) (language : Option String) (content : String) : String :=
  match (Tag.of? language).bind fun tag =>
      formatChars? o tag (Text.unifyLineEnds content.toList) with
  | none => content
  | some cs => String.ofList cs

/-- What a shallow check finds wrong with a text; a JSON text that breaks a limit cannot be
checked. -/
def check (language : Option String) (content : String) : Except Json.Fault (List String) :=
  match Tag.of? language with
  | some .code => .ok (codeErrors content.toList)
  | some .json =>
    match Json.read content.toList with
    | .ok _ => .ok []
    | .error f =>
      if f.fault.isSyntactic then .ok [f.message content.toList] else .error f.fault
  | some .sql => .ok (Sql.errors content.toList)
  | _ => .ok []

end Scaffold.Format
