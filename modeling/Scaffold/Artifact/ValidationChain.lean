import Scaffold.Artifact.Record
import Scaffold.Artifact.Source
import Scaffold.Catalog.Types

/-!
# Artifact/ValidationChain — the checks of request bodies

A chain tests the type of one member of a body, its declared bounds and its pattern.  Bounds are
lengths for texts and ranges for numbers; other types have none.  The requests that create and
update a record are checked by the chains of its fields.  They have a file only if all operands in
them can be written.
-/

namespace Scaffold.Artifact

open Document Model

/-! ## Texts and numbers as literals -/

/-- A character inside single quotes. -/
def escapeQuoted (c : Char) : List Char := if c = '\\' || c = '\'' then ['\\', c] else [c]

/-- A text in single quotes. -/
def scriptText (s : String) : String :=
  String.ofList ('\'' :: s.toList.flatMap escapeQuoted ++ ['\''])

/-- An operand as a literal: a number as it is, a text in quotes. -/
def scriptLiteral : Operand → String
  | .text s => scriptText s
  | o => o.document.shown

/-! ## The checks of one member -/

/-- The check of the bounds of a field and the rules that give them. -/
structure Bounds where
  check : String
  lower : Option Rule
  upper : Option Rule

/-- The bounds that a field type can have. -/
def bounds? (f : Field) : Option Bounds :=
  match f.type with
  | .string | .text | .email | .url => some ⟨"isLength", f.rule? "minLength", f.rule? "maxLength"⟩
  | .integer => some ⟨"isInt", f.rule? "min", f.rule? "max"⟩
  | .number | .float | .decimal => some ⟨"isFloat", f.rule? "min", f.rule? "max"⟩
  | _ => none

/-- The message that follows a check, if the text is not empty. -/
def withMessage (message : Option String) : List String :=
  match message with
  | some m => if m = "" then [] else [s!".withMessage({scriptText m})"]
  | none => []

/-- The first message of the rules that is not empty. -/
def firstMessage (rules : List Rule) : Option String :=
  (rules.filterMap (·.message)).find? (· ≠ "")

/-- The parts of a chain for declared bounds. -/
def boundParts (f : Field) : List String :=
  match bounds? f with
  | none => []
  | some b =>
    let limits := (b.lower.map fun r => "min: " ++ r.operand.document.shown).toList ++
      (b.upper.map fun r => "max: " ++ r.operand.document.shown).toList
    if limits.isEmpty then []
    else
      ("." ++ b.check ++ "(\x7b " ++ ", ".intercalate limits ++ " \x7d)") ::
        withMessage (firstMessage (b.lower.toList ++ b.upper.toList))

/-- The parts of a chain for a pattern. -/
def patternParts (f : Field) : List String :=
  match f.rule? "pattern" with
  | none => []
  | some r => s!".matches(new RegExp({scriptLiteral r.operand}))" :: withMessage r.message

/-- The rules that a chain takes bounds from. -/
def boundRules (f : Field) : List Rule :=
  match bounds? f with
  | none => []
  | some b => b.lower.toList ++ b.upper.toList

/-- The operands that stand in the chain of a field. -/
def chainOperands (f : Field) : List Operand :=
  (boundRules f ++ (f.rule? "pattern").toList).map (·.operand)

/-- The chain of a field; in an update no member is required. -/
def validationChain (forUpdate : Bool) (f : Field) : String :=
  let presence :=
    if f.required && !forUpdate then
      r".exists({ checkNull: true })" ++ s!".withMessage('{f.name} is required')"
    else ".optional()"
  String.join ([s!"body('{f.name}')", presence, "." ++ (Catalog.facts f.type).check] ++
    boundParts f ++ patternParts f)

/-! ## The checks of a request -/

/-- The chains of the fields of a model. -/
def chainLines (forUpdate : Bool) (m : Model) : List String :=
  m.dataFields.map fun f => "    " ++ validationChain forUpdate f ++ ","

/-- The request checks of a model as a file. -/
def requestChecks (m : Model) : Source where
  imports := bodyImports
  body := ["export const validate" ++ m.name ++ r" = {", "  create: ["] ++ chainLines false m ++
    ["    handleValidationErrors,", "  ],", "  update: ["] ++ chainLines true m ++
    ["    handleValidationErrors,", "  ],", r"};"]

/-- Why the request checks of a model cannot be written: an operand has too many digits. -/
def unwrittenOperand? (m : Model) : Option Json.Unwritable :=
  m.dataFields.findSome? fun f => (chainOperands f).findSome? (·.document.unspelled?)

/-- The file of the request checks of a model. -/
def requestFile (m : Model) : Except Failure String :=
  match unwrittenOperand? m with
  | some u => .error (.unwritable u)
  | none => .ok (requestChecks m).text

end Scaffold.Artifact
