import Scaffold.Schema.Named
import Scaffold.Schema.Lax
import Scaffold.Digest.Sha256
import Scaffold.Text.Lines

/-!
# Project/File — a file of a generated project
-/

namespace Scaffold.Project

open Document Schema

/-- What a file is for; exports are filtered by it. -/
inductive FileKind where
  | source
  | config
  | documentation
  | test
deriving DecidableEq, Repr

instance : Named FileKind where
  all := [.source, .config, .documentation, .test]
  text
    | .source => "source"
    | .config => "config"
    | .documentation => "documentation"
    | .test => "test"

structure File where
  path : String
  content : String
  kind : FileKind
  /-- The language tag of the content. -/
  language : Option String
deriving DecidableEq, Repr

namespace File

def kindKey : Key := ⟨"kind", some "type"⟩

def read : Value → Checked File :=
  entity "GeneratedFile" fun v =>
    File.mk <$> required v (.plain "path") (boundedText 1 none)
      <*> required v (.plain "content") text
      <*> required v kindKey choice
      <*> optional v (.plain "language") none (nullable text)

def lineCount (f : File) : Nat := Text.lineCount f.content

def checksum (f : File) : String := Digest.checksum f.content

/-- The members of a file other than its content. -/
def header (f : File) : Members :=
  [("path", .text f.path), ("type", .text (Named.text f.kind)),
    ("language", (f.language.map Value.text).getD .null), ("lineCount", .int f.lineCount),
    ("checksum", .text f.checksum)]

def document (f : File) : Value := .record (f.header ++ [("content", .text f.content)])

/-- A one-line description. -/
def summary (f : File) : String :=
  s!"<GeneratedFile {f.path} ({Named.text f.kind}, {f.lineCount} lines)>"

/-- The first path that a later file has again. -/
def firstRepeated? (fs : List File) : Option String := go [] fs
where
  go (seen : List String) : List File → Option String
    | [] => none
    | f :: fs => if seen.contains f.path then some f.path else go (f.path :: seen) fs

end File

end Scaffold.Project
