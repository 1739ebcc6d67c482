import Scaffold.Document.Json.Reader
import Scaffold.Document.Yaml.Reader

/-!
# Job/Source — the document of an input file

The extension of the file says how its text is read.  Without an extension that is known, the text
is read as JSON and, if that fails, as YAML.  A list at the top stands for a document with these
models.
-/

namespace Scaffold.Job

open Document

/-- How a file is read. -/
inductive Syntax where
  | json
  | yaml
  | either
deriving DecidableEq, Repr

/-- The extension of a file name, from its last point on: a point at either end of the name starts
none. -/
def extension (name : String) : String :=
  let cs := name.toList
  let tail := (cs.reverse.takeWhile (· ≠ '.')).reverse
  let point := cs.length - tail.length - 1
  if tail.isEmpty || point = 0 then "" else "." ++ String.ofList tail

/-- How a file of a given name is read. -/
def Syntax.ofName (name : String) : Syntax :=
  let e := Text.lower (extension name)
  if e = ".yaml" || e = ".yml" then .yaml else if e = ".json" then .json else .either

/-- Why an input file gives no document; paths are kept as they are shown. -/
inductive SourceFailure where
  | missing (path : String)
  | notFile (path : String)
  /-- The file holds bytes that are no text. -/
  | notText (path : String)
  | notJson (path message : String)
  /-- The JSON text of the file breaks a limit. -/
  | unbounded (f : Json.Fault)
  | notYaml (path : String)
  /-- A scalar of the file has the form of a value that does not exist. -/
  | senseless (f : Yaml.Failure)
  | notDocument (kind : String)
deriving DecidableEq, Repr

/-- The words for a failure.  A text that has the form of a truth value or of a moment and is none,
or that holds no digits, has none, nor has one that is nested too deep: nothing is prepared for
it. -/
def SourceFailure.message? : SourceFailure → Option String
  | missing path => some s!"Input file not found: {path}"
  | notFile path => some s!"Input path is not a file: {path}"
  | notText path => some s!"Invalid text in {path}"
  | notJson path message => some s!"Invalid JSON in {path}: {message}"
  | unbounded (.tooDeep _) => none
  | unbounded f => some f.message
  | notYaml path => some s!"Invalid YAML in {path}"
  | senseless (.senseless (.number message)) => some message
  | senseless (.senseless (.moment message)) => some message
  | senseless (.noCharacter code) =>
    if code < 1 <<< 31 then some "chr() arg not in range(0x110000)" else none
  | senseless _ => none
  | notDocument kind => some s!"Expected a mapping or a list of models at top level, got {kind}."

/-- The words for a value of a kind that does not fit its tag, which are wanted only where a job is
to be run. -/
def SourceFailure.misfit? : SourceFailure → Option String
  | senseless (.senseless .notWritten) => some "expected string or bytes-like object, got 'list'"
  | _ => none

def readJson (path text : String) : Except SourceFailure Value :=
  (Json.read text.toList).mapError fun f =>
    if f.fault.isSyntactic then .notJson path (f.message text.toList) else .unbounded f.fault

def readYaml (path text : String) : Except SourceFailure Value :=
  (Yaml.read text).mapError fun
    | .malformed => .notYaml path
    | f => .senseless f

/-- The value that a text is, for a file of a given name at a given path. -/
def readText (name path text : String) : Except SourceFailure Value :=
  let text := String.ofList (Yaml.plainBreaks text.toList)
  match Syntax.ofName name with
  | .json => readJson path text
  | .yaml => readYaml path text
  | .either =>
    match readJson path text with
    | .ok v => .ok v
    | .error f => if f.message?.isSome then readYaml path text else .error f

/-- A value as a document. -/
def asDocument : Value → Except SourceFailure Value
  | .list xs => .ok (.record [("models", .list xs)])
  | v => if v.isMapping then .ok v else .error (.notDocument v.kind)

/-- The document of a file. -/
def documentOf (name path text : String) : Except SourceFailure Value :=
  (readText name path text).bind asDocument

end Scaffold.Job
