import Scaffold.Document.Literal
import Scaffold.Schema.Lax
import Scaffold.Schema.Named

/-!
# Model/Field — the fields of a model and the rules their values obey

A relationship is a directed link from a field of one model to a field of another.
-/

namespace Scaffold.Model

open Document Schema

/-- The declared type of a field. -/
inductive FieldType where
  | string
  | text
  | number
  | integer
  | float
  | decimal
  | boolean
  | date
  | email
  | url
  | uuid
  | json
deriving DecidableEq, Repr

instance : Named FieldType where
  all := [.string, .text, .number, .integer, .float, .decimal, .boolean, .date, .email, .url,
    .uuid, .json]
  text
    | .string => "string"
    | .text => "text"
    | .number => "number"
    | .integer => "integer"
    | .float => "float"
    | .decimal => "decimal"
    | .boolean => "boolean"
    | .date => "date"
    | .email => "email"
    | .url => "url"
    | .uuid => "uuid"
    | .json => "json"

inductive RuleKind where
  | minLength
  | maxLength
  | min
  | max
  | pattern
  | custom
deriving DecidableEq, Repr

instance : Named RuleKind where
  all := [.minLength, .maxLength, .min, .max, .pattern, .custom]
  text
    | .minLength => "minLength"
    | .maxLength => "maxLength"
    | .min => "min"
    | .max => "max"
    | .pattern => "pattern"
    | .custom => "custom"

/-- What a rule compares with. -/
inductive Operand where
  | int (n : Int)
  | real (x : Number.Binary64)
  | text (s : String)
deriving DecidableEq, Repr

namespace Operand

def document : Operand → Value
  | int n => .int n
  | real x => .real x
  | text s => .text s

/-- The issues with a value that is no operand, one for each kind that an operand can be of. -/
def refuse (int real text : Cause) : Checked Operand :=
  .bad [⟨int, [.name "int"]⟩, ⟨real, [.name "float"]⟩, ⟨text, [.name "str"]⟩]

/-- The operand that encoded text stands for: a number if it spells one. -/
def ofEncoded (s : String) : Operand :=
  match intOfText s with
  | .ok n => int n
  | .bad _ =>
    let cs := trimPadding s.toList
    match Number.Numeral.real? Number.Numeral.plainDigit?
        ((Number.Numeral.withoutGaps? cs).getD cs) with
    | some x => real x
    | none => text s

/-- A number or a text; truth values count as 1 and 0, and bytes are a number rather than a text. -/
def read : Value → Checked Operand
  | .int n => .ok (int n)
  | .real x => .ok (real x)
  | .text s => .ok (text s)
  | .bool b => .ok (int (if b then 1 else 0))
  | .bytes bs =>
    ((Value.textOfBytes? bs).map fun s => .ok (ofEncoded s)).getD
      (refuse .unclearInt .unclearNumber .unreadableText)
  | _ => refuse .notInt .notNumber .notText

end Operand

/-- One constraint on the values of a field. -/
structure Rule where
  kind : RuleKind
  operand : Operand
  message : Option String
deriving DecidableEq, Repr

/-- A text, or null. -/
def optionalText : Option String → Value
  | some s => .text s
  | none => .null

namespace Rule

def read : Value → Checked Rule :=
  entity "ValidationRule" fun v =>
    Rule.mk <$> required v (.plain "type") choice
      <*> required v (.plain "value") Operand.read
      <*> optional v (.plain "message") none (nullable text)

def document (r : Rule) : Value :=
  .record [("type", .text (Named.text r.kind)), ("value", r.operand.document),
    ("message", optionalText r.message)]

/-- A one-line description. -/
def summary (r : Rule) : String :=
  s!"<ValidationRule {Named.text r.kind}={r.operand.document.literal}>"

end Rule

structure Field where
  id : Option String
  name : String
  type : FieldType
  required : Bool
  unique : Bool
  default : Value
  rules : List Rule
  description : Option String

namespace Field

def defaultKey : Key := ⟨"default_value", some "defaultValue"⟩

def read : Value → Checked Field :=
  entity "FieldDefinition" fun v =>
    Field.mk <$> optional v (.plain "id") none (nullable text)
      <*> Schema.required v (.plain "name") (boundedText 1 (some 100))
      <*> Schema.required v (.plain "type") choice
      <*> optional v (.plain "required") false bool
      <*> optional v (.plain "unique") false bool
      <*> optional v defaultKey .null .ok
      <*> optional v (.plain "validation") [] (listOf Rule.read)
      <*> optional v (.plain "description") none (nullable text)

def document (f : Field) : Value :=
  .record [("id", optionalText f.id), ("name", .text f.name), ("type", .text (Named.text f.type)),
    ("required", .bool f.required), ("unique", .bool f.unique), ("defaultValue", f.default),
    ("validation", .list (f.rules.map Rule.document)), ("description", optionalText f.description)]

/-- The first rule whose kind has a given text. -/
def rule? (f : Field) (kind : String) : Option Rule :=
  f.rules.find? fun r => Named.text r.kind == kind

/-- A one-line description. -/
def summary (f : Field) : String :=
  let flags := (if f.required then " required" else "") ++ (if f.unique then " unique" else "")
  s!"<FieldDefinition {f.name}: {Named.text f.type}{flags}>"

end Field

end Scaffold.Model

/-! ## Relationships -/

namespace Scaffold.Model

open Document Schema

inductive Cardinality where
  | oneToOne
  | oneToMany
  | manyToMany
deriving DecidableEq, Repr

instance : Named Cardinality where
  all := [.oneToOne, .oneToMany, .manyToMany]
  text
    | .oneToOne => "oneToOne"
    | .oneToMany => "oneToMany"
    | .manyToMany => "manyToMany"

structure Relationship where
  id : Option String
  cardinality : Cardinality
  sourceModel : String
  targetModel : String
  sourceField : String
  targetField : String
  cascadeDelete : Bool
deriving DecidableEq, Repr

namespace Relationship

def sourceModelKey : Key := ⟨"source_model", some "sourceModel"⟩
def targetModelKey : Key := ⟨"target_model", some "targetModel"⟩
def sourceFieldKey : Key := ⟨"source_field", some "sourceField"⟩
def targetFieldKey : Key := ⟨"target_field", some "targetField"⟩
def cascadeDeleteKey : Key := ⟨"cascade_delete", some "cascadeDelete"⟩

def read : Value → Checked Relationship :=
  entity "Relationship" fun v =>
    Relationship.mk <$> optional v (.plain "id") none (nullable text)
      <*> required v (.plain "type") choice
      <*> required v sourceModelKey text
      <*> required v targetModelKey text
      <*> required v sourceFieldKey text
      <*> required v targetFieldKey text
      <*> optional v cascadeDeleteKey false bool

def document (r : Relationship) : Value :=
  .record [("id", optionalText r.id), ("type", .text (Named.text r.cardinality)),
    ("sourceModel", .text r.sourceModel), ("targetModel", .text r.targetModel),
    ("sourceField", .text r.sourceField), ("targetField", .text r.targetField),
    ("cascadeDelete", .bool r.cascadeDelete)]

/-- A one-line description. -/
def summary (r : Relationship) : String :=
  s!"<Relationship {r.sourceModel}.{r.sourceField} -{Named.text r.cardinality}-> " ++
    s!"{r.targetModel}.{r.targetField}>"

end Relationship

end Scaffold.Model
