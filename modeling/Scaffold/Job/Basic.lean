import Scaffold.Model.Basic
import Scaffold.Number.Spelling
import Scaffold.Options.Coerce
import Scaffold.Validation.Result
import Scaffold.Validation.Subject

/-!
# Job/Basic — what is to be generated and packed

A job is read from one document: its models, which stay as they came so that validation can report
on malformed ones, two sections of options, and a name for the project.  A section and the name have
two spellings each, and a value that counts as false leaves the word to the next spelling.
Overrides from outside the document win over a section, whichever spelling the section uses
(`Section.override`).
-/

namespace Scaffold

open Document Options

structure Job where
  models : List (Validation.Subject Model)
  generation : Generation
  exports : Export
  /-- The name of the project, as it was given; a value that counts as false is none. -/
  name : Value

namespace Job

/-- Why a document holds no job. -/
inductive Refusal where
  | noModels
  | notSection (kind : String)
  | options (r : Options.Refusal)

def noModelsMessage : String := "Input must contain a 'models' list."

def Refusal.message : Refusal → String
  | noModels => noModelsMessage
  | notSection kind => s!"{kind} section must be a mapping."
  | options r => r.message

/-- The value under the first spelling that counts as true, else under the last. -/
def firstTrue (v : Value) (spelling other : String) : Value :=
  ((v.member? spelling).getD .null).orElse ((v.member? other).getD .null)

/-- A section with its overrides. -/
def merged {α : Type} (s : Section α) (base : Value) (overrides : Members) : Except Refusal Value :=
  if base.isMapping then .ok (s.override base overrides) else .error (.notSection s.kind)

/-- The two sections of a document that stand under their names or are absent. -/
def sectionOf (v : Value) (spelling other : String) : Value :=
  (firstTrue v spelling other).orElse (.record [])

/-- The models of a document, as they came. -/
def models? (v : Value) : Option (List Value) :=
  match v.member? "models" with
  | some (.list xs) => some (Value.list xs).items
  | _ => none

/-- The job of a document, with overrides for its options. -/
def read (v : Value) (generation exports : Members) : Except Refusal Job := do
  let models ← (models? v).elim (.error .noModels) .ok
  let options ← merged generationSection (sectionOf v "options" "generationOptions") generation
  let exportOptions ← merged exportSection (sectionOf v "export" "exportOptions") exports
  let generation ← (generationSection.coerce options).mapError .options
  let exports ← (exportSection.coerce exportOptions).mapError .options
  return ⟨models.map .raw, generation, exports, firstTrue v "projectName" "project_name"⟩

end Job

end Scaffold

/-! ## What was done, step by step, and how long it took -/

namespace Scaffold.Job

open Number

/-- One step of a job. -/
structure Step where
  name : String
  success : Bool
  /-- In seconds. -/
  elapsed : Binary64
  detail : String

/-- A report on a job.  Counts are whole numbers of either sign, as reports may be put together by
other tools. -/
structure Report where
  success : Bool
  project : String
  models : Int
  endpoints : Int
  files : Int
  lines : Int
  /-- In seconds. -/
  elapsed : Binary64
  archive : String
  /-- In bytes. -/
  archiveSize : Int
  steps : List Step
  validation : Option Validation.Result

namespace Report

/-- A report on nothing. -/
def empty : Report := ⟨false, "", 0, 0, 0, 0, .zero, "", 0, [], none⟩

def rule (c : Char) : String := String.ofList (List.replicate 60 c)

def seconds (x : Binary64) : String := x.places 3

/-- A step in one line. -/
def stepLine (s : Step) : String :=
  "    " ++ (if s.success then "+" else "x") ++ " " ++ padRight 20 ' ' s.name ++ " " ++
    padLeft 7 ' ' (seconds s.elapsed) ++ "s  " ++ s.detail

/-- The findings of the validation, if there are some. -/
def findingLines (r : Report) : List String :=
  match r.validation with
  | some v => if v.findings.isEmpty then [] else [rule '-', v.report]
  | none => []

/-- The report for readers. -/
def summary (r : Report) : String :=
  "\n".intercalate <|
    [rule '=',
     "  ModelForge - Generation Report",
     rule '=',
     "  Status:           " ++ (if r.success then "SUCCESS" else "FAILED"),
     "  Project:          " ++ r.project,
     "  Models:           " ++ toString r.models,
     "  Endpoints:        " ++ toString r.endpoints,
     "  Files packaged:   " ++ toString r.files,
     "  Total lines:      " ++ groupedInt r.lines,
     "  Archive:          " ++ r.archive ++ " (" ++ groupedInt r.archiveSize ++ " bytes)",
     "  Total time:       " ++ seconds r.elapsed ++ "s",
     rule '-'] ++
    (if r.steps.isEmpty then [] else "  Pipeline Steps:" :: r.steps.map stepLine) ++
    r.findingLines ++
    [rule '=']

end Report

end Scaffold.Job
