import Scaffold.Text.Lines

/-!
# Artifact/Source — a source file as its imports and its other lines

An import is kept as what it takes and from where, so which modules a file needs can be read off
without its text.
-/

namespace Scaffold.Artifact

open Text

/-- What a source file takes from a module. -/
inductive Import where
  /-- Nothing; the module is run for its effects. -/
  | effects (source : String)
  | whole (name source : String)
  | parts (names : List String) (source : String)
deriving DecidableEq, Repr

namespace Import

/-- The module that is imported. -/
def source : Import → String
  | effects s => s
  | whole _ s => s
  | parts _ s => s

/-- The line of an import. -/
def line : Import → String
  | effects s => "import '" ++ s ++ "';"
  | whole name s => "import " ++ name ++ " from '" ++ s ++ "';"
  | parts names s => r"import { " ++ ", ".intercalate names ++ r" } from '" ++ s ++ "';"

end Import

/-- A source file. -/
structure Source where
  imports : List Import
  body : List String

namespace Source

/-- The imports, an empty line and the other lines. -/
def lines (s : Source) : List String := s.imports.map Import.line ++ "" :: s.body

def text (s : Source) : String := paragraph s.lines

end Source

/-- A text between single quotes, as it is. -/
def quoted (s : String) : String := "'" ++ s ++ "'"

/-! ## Imports of many files -/

/-- The parts of the web framework that a request handler is typed with. -/
def handlerImport : Import := .parts ["Request", "Response", "NextFunction"] "express"

def routerImport : Import := .parts ["Router"] "express"

def queryImport : Import := .parts ["query"] "../database/connection"

def documentImport : Import := .parts ["getDb"] "../database/connection"

def identifierImport : Import := .parts ["randomUUID"] "crypto"

/-- What the checks of a request body are made of. -/
def bodyImports : List Import :=
  [.parts ["body"] "express-validator",
    .parts ["handleValidationErrors"] "../middleware/validation"]

end Scaffold.Artifact
