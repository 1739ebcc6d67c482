/-!
# Validation/Result — findings and the cycles found beside them

A result is a list of findings in the order in which they were made, and a list of cycles.  Merging
one result into another moves its findings under a place and adds the cycles that are new.
-/

namespace Scaffold.Validation

inductive Level where
  | error
  | warning
deriving DecidableEq, Repr

/-- What is found; the texts are stable, so that tools can tell findings apart. -/
inductive Code where
  | schema
  | relationshipSchema
  | fieldSchema
  | naming
  | fieldNaming
  | duplicateField
  | duplicateModel
  | noFields
  | noPrimaryKey
  | targetModelNotFound
  | sourceFieldNotFound
  | targetFieldNotFound
  | missingEmailRules
  | missingStringRules
deriving DecidableEq, Repr

def Code.text : Code → String
  | schema => "SCHEMA_VALIDATION_ERROR"
  | relationshipSchema => "RELATIONSHIP_SCHEMA_ERROR"
  | fieldSchema => "FIELD_SCHEMA_ERROR"
  | naming => "NAMING_CONVENTION_WARNING"
  | fieldNaming => "FIELD_NAMING_CONVENTION_WARNING"
  | duplicateField => "DUPLICATE_FIELD_NAME"
  | duplicateModel => "DUPLICATE_MODEL_NAME"
  | noFields => "NO_FIELDS_WARNING"
  | noPrimaryKey => "NO_PRIMARY_KEY_WARNING"
  | targetModelNotFound => "TARGET_MODEL_NOT_FOUND"
  | sourceFieldNotFound => "SOURCE_FIELD_NOT_FOUND"
  | targetFieldNotFound => "TARGET_FIELD_NOT_FOUND"
  | missingEmailRules => "MISSING_EMAIL_VALIDATION"
  | missingStringRules => "MISSING_STRING_VALIDATION"

/-- One finding.  The code is kept as text, so findings of other tools can be merged. -/
structure Finding where
  level : Level
  code : String
  message : String
  /-- Where it was found; empty for the whole document. -/
  place : String
deriving DecidableEq, Repr

/-- A place seen from one level further out. -/
def placeUnder (outer place : String) : String :=
  if outer = "" then place else if place = "" then outer else outer ++ "." ++ place

namespace Finding

def isError (f : Finding) : Bool := f.level = .error

def under (outer : String) (f : Finding) : Finding := { f with place := placeUnder outer f.place }

/-- The place in a report. -/
def shownPlace (f : Finding) : String := if f.place = "" then "<root>" else f.place

/-- A one-line description. -/
def summary (f : Finding) : String :=
  let level := match f.level with
    | .error => "ERROR"
    | .warning => "WARNING"
  s!"[{level}] {f.code} at {f.shownPlace}: {f.message}"

end Finding

structure Result where
  findings : List Finding
  cycles : List String
deriving DecidableEq, Repr

namespace Result

def empty : Result := ⟨[], []⟩

def add (r : Result) (f : Finding) : Result := { r with findings := r.findings ++ [f] }

def ofFindings (fs : List Finding) : Result := ⟨fs, []⟩

/-- Cycles with further ones, each once more only if it is not there yet. -/
def addCycles (cycles : List String) : List String → List String
  | [] => cycles
  | c :: cs => addCycles (if cycles.contains c then cycles else cycles ++ [c]) cs

/-- Takes the findings of another result, which were made under the place `outer`. -/
def merge (r : Result) (outer : String) (other : Result) : Result :=
  ⟨r.findings ++ other.findings.map (·.under outer), addCycles r.cycles other.cycles⟩

def errors (r : Result) : List Finding := r.findings.filter (·.isError)

def warnings (r : Result) : List Finding := r.findings.filter (!·.isError)

def isValid (r : Result) : Bool := !r.findings.any (·.isError)

/-- The counts in one line. -/
def summary (r : Result) : String :=
  s!"Validation: {r.errors.length} error(s), {r.warnings.length} warning(s), " ++
    s!"{r.cycles.length} circular reference(s)."

/-- A report for readers, one finding a line. -/
def report (r : Result) : String :=
  let lines := r.findings.map fun f =>
    let marker := if f.isError then "ERROR  " else "WARNING"
    s!"  {marker} [{f.code}] {f.shownPlace}: {f.message}"
  "\n".intercalate ([r.summary, ""] ++ lines ++ r.cycles.map ("  CYCLE   " ++ ·))

end Result

end Scaffold.Validation
