import Scaffold.Validation.Result
import Scaffold.Validation.Subject

/-!
# Validation/Rules — naming, uniqueness and resolution

Each rule runs to its end and yields findings; none stops another.
-/

namespace Scaffold.Validation

open Document Schema

def error (code : Code) (message place : String) : Finding := ⟨.error, code.text, message, place⟩

def warning (code : Code) (message place : String) : Finding :=
  ⟨.warning, code.text, message, place⟩

/-- A path as a place: names with points between them, indexes in brackets. -/
def placeOf (path : Path) : String :=
  path.foldl (fun out step =>
    match step with
    | .index n => s!"{out}[{n}]"
    | .name s => if out = "" then s else s!"{out}.{s}") ""

/-- The issues of a document that is not well-formed. -/
def schemaFindings {α : Type} (code : Code) (x : Checked α) : List Finding :=
  match x with
  | .ok _ => []
  | .bad issues => issues.map fun i =>
    let code := if i.path.head? = some (.name "relationships") then .relationshipSchema else code
    error code i.cause.message (placeOf i.path)

/-- The issues of a subject; an entity has none. -/
def subjectFindings {α : Type} (code : Code) (read : Value → Checked α) :
    Subject α → List Finding
  | .raw v => schemaFindings code (read v)
  | .entity _ => []

/-! ## One model -/

/-- Naming and uniqueness of fields, from the `i`-th on; `seen` holds the names before. -/
def fieldNameFindings (seen : List String) (i : Nat) : List Value → List Finding
  | [] => []
  | f :: fs =>
    match look f "name" with
    | .text name =>
      let place := s!"fields[{i}].name"
      (if seen.contains name then [error .duplicateField s!"Duplicate field name: {name}" place]
        else []) ++
      (if Naming.isCamel name then [] else [warning .fieldNaming
        "Field name should start with lowercase letter and use camelCase" place]) ++
      fieldNameFindings (name :: seen) (i + 1) fs
    | _ => fieldNameFindings seen (i + 1) fs

/-- A unique field of type uuid that is named id. -/
def isPrimaryKey (f : Value) : Bool :=
  (look f "name").same (.text "id") && (look f "type").same (.text "uuid") &&
    (look f "unique").isTruthy

/-- One model by itself, with places relative to it. -/
def validateModel (s : Subject Model) : Result :=
  let v := s.document Model.document
  let fields := lookItems v "fields"
  .ofFindings <|
    subjectFindings .schema Model.read s ++
    (match look v "name" with
      | .text name => if Naming.isPascal name then [] else [warning .naming
          "Model name should start with uppercase letter and use PascalCase" "name"]
      | _ => []) ++
    fieldNameFindings [] 0 fields ++
    (if fields.isEmpty then [warning .noFields "Model must have at least one field" "fields"]
      else []) ++
    (if fields.any isPrimaryKey then [] else [warning .noPrimaryKey
      "Model should have an id field of type uuid that is unique" "fields"])

/-- One field by itself. -/
def validateField (s : Subject Model.Field) : Result :=
  let v := s.document Model.Field.document
  let lacksRules (type : String) : Bool :=
    (look v "type").same (.text type) && (lookItems v "validation").isEmpty
  .ofFindings <|
    subjectFindings .fieldSchema Model.Field.read s ++
    (if lacksRules "email" then [warning .missingEmailRules
      "Email fields should have email validation rules" "validation"] else []) ++
    (if lacksRules "string" then [warning .missingStringRules
      "String fields should have length validation rules" "validation"] else [])

/-! ## Models together -/

/-- Model names that were used before, without regard to case; `seen` holds them in small
letters. -/
def modelNameFindings (seen : List String) (i : Nat) : List Value → List Finding
  | [] => []
  | m :: ms =>
    match look m "name" with
    | .text name =>
      let key := Text.lower name
      (if seen.contains key then
        [error .duplicateModel s!"Duplicate model name: {name}" s!"models[{i}].name"] else []) ++
      modelNameFindings (key :: seen) (i + 1) ms
    | _ => modelNameFindings seen (i + 1) ms

def validateModelNames (models : List Value) : Result :=
  .ofFindings (modelNameFindings [] 0 models)

/-- The first model of a name. -/
def modelNamed? (models : List Value) (name : String) : Option Value :=
  models.find? fun m => match look m "name" with
    | .text n => n == name
    | _ => false

/-- What is wrong with a relationship, with the values that the message shows. -/
inductive Complaint where
  | noTarget (target : Value)
  | noSourceField (field owner : Value)
  | noTargetField (field target : Value)

namespace Complaint

/-- The values that the message shows, in order. -/
def values : Complaint → List Value
  | noTarget target => [target]
  | noSourceField field owner => [field, owner]
  | noTargetField field target => [field, target]

/-- The complaint as a finding; `place` locates the relationship. -/
def finding (place : String) : Complaint → Finding
  | noTarget target => error .targetModelNotFound
    s!"Target model '{target.shown}' does not exist" s!"{place}.targetModel"
  | noSourceField field owner => error .sourceFieldNotFound
    s!"Source field '{field.shown}' does not exist in model '{owner.shown}'" s!"{place}.sourceField"
  | noTargetField field target => error .targetFieldNotFound
    s!"Target field '{field.shown}' does not exist in model '{target.shown}'" s!"{place}.targetField"

end Complaint

/-- What is wrong with one relationship of a model. -/
def complaints (models : List Value) (owner rel : Value) : List Complaint :=
  let targetName := look rel "target_model" "targetModel"
  match targetName.text?.bind (modelNamed? models) with
  | none => [.noTarget targetName]
  | some target =>
    let sourceField := look rel "source_field" "sourceField"
    let targetField := look rel "target_field" "targetField"
    (if isAmong sourceField (fieldNames owner) then []
      else [.noSourceField sourceField (look owner "name")]) ++
    (if isAmong targetField (fieldNames target) then [] else [.noTargetField targetField targetName])

/-- One relationship of a model; `place` locates it. -/
def relationshipFindings (models : List Value) (owner : Value) (place : String) (rel : Value) :
    List Finding :=
  (complaints models owner rel).map (·.finding place)

def validateRelationships (models : List Value) : Result :=
  .ofFindings <| (models.mapIdx fun i m =>
    ((lookItems m "relationships").mapIdx fun r rel =>
      relationshipFindings models m s!"models[{i}].relationships[{r}]" rel).flatten).flatten

/-- The values that the messages about relationships show. -/
def shownValues (models : List Value) : List Value :=
  models.flatMap fun m => (lookItems m "relationships").flatMap fun rel =>
    (complaints models m rel).flatMap Complaint.values

/-- Why a message about a relationship cannot be written: it has to show a whole number of too many
digits. -/
def unsayable? (models : List Value) : Option Json.Unwritable :=
  (shownValues models).findSome? Value.unspelled?

end Scaffold.Validation
