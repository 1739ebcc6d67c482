import Scaffold.Model.Basic
import Scaffold.Document.Json.Printer
import Scaffold.Number.Numeral

/-!
# Template/Scope — what the names of a template stand for

An item is a value, a list or record of items, or an entity, whose parts are its attributes.  A path
is followed part by part; where a part is missing, null or does not fit what it meets, the path
leads nowhere.
-/

namespace Scaffold.Template

open Document Schema

/-- An entity that a template can look into. -/
inductive Entity where
  | model (m : Model)
  | field (f : Model.Field)
  | relationship (r : Model.Relationship)
  | metadata (m : Model.Metadata)
  | rule (r : Model.Rule)

/-- What a name stands for. -/
inductive Item where
  | value (v : Value)
  | list (items : List Item)
  | record (members : List (String × Item))
  | entity (e : Entity)
  /-- What an entity can do. -/
  | operation (owner : Entity) (name : String)

instance : Inhabited Item := ⟨.value .null⟩

/-- Why a template cannot be rendered. -/
inductive RenderError where
  /-- An index that is made of digits and is no decimal number. -/
  | notDecimal (part : String)
  /-- An index of too many digits. -/
  | excessive (digits : Nat)
  /-- What is to be written has no form, an entity inside a list or record for example. -/
  | unwritable (u : Json.Unwritable)
deriving DecidableEq, Repr

def RenderError.message : RenderError → String
  | notDecimal part => Literal.notWhole 10 part
  | excessive digits => Number.Numeral.excessMessage digits
  | unwritable u => u.message

mutual

/-- A value as an item. -/
def Item.ofValue : Value → Item
  | .list xs => .list (Item.ofValues xs)
  | .record ms => .record (Item.ofMembers ms)
  | .pair a b => .list [Item.ofValue a, Item.ofValue b]
  | v => .value v

def Item.ofValues : List Value → List Item
  | [] => []
  | x :: xs => Item.ofValue x :: Item.ofValues xs

def Item.ofMembers : List (String × Value) → List (String × Item)
  | [] => []
  | (k, x) :: ms => (k, Item.ofValue x) :: Item.ofMembers ms

end

namespace Entity

def kind : Entity → String
  | model _ => "Model"
  | field _ => "FieldDefinition"
  | relationship _ => "Relationship"
  | metadata _ => "ModelMetadata"
  | rule _ => "ValidationRule"

/-- A one-line description. -/
def summary : Entity → String
  | model m => m.summary
  | field f => f.summary
  | relationship r => r.summary
  | metadata m => m.document.literal
  | rule r => r.summary

def document : Entity → Value
  | model m => m.document
  | field f => f.document
  | relationship r => r.document
  | metadata m => m.document
  | rule r => r.document

def textItem (s : String) : Item := .value (.text s)

def optionalItem (s : Option String) : Item := .value (Model.optionalText s)

def boolItem (b : Bool) : Item := .value (.bool b)

def momentItem (m : Option Calendar.Moment) : Item := .value ((m.map Value.moment).getD .null)

def entities {α : Type} (f : α → Entity) (xs : List α) : Item :=
  .list (xs.map fun x => .entity (f x))

/-- The parts of which an entity is made. -/
def fields : Entity → List (String × Item)
  | model m =>
    [("id", optionalItem m.id), ("name", textItem m.name), ("fields", entities .field m.fields),
      ("relationships", entities .relationship m.relationships),
      ("metadata", .entity (.metadata m.metadata)), ("created_at", momentItem m.createdAt),
      ("updated_at", momentItem m.updatedAt)]
  | field f =>
    [("id", optionalItem f.id), ("name", textItem f.name),
      ("type", textItem (Named.text f.type)), ("required", boolItem f.required),
      ("unique", boolItem f.unique), ("default_value", Item.ofValue f.default),
      ("validation", entities .rule f.rules), ("description", optionalItem f.description)]
  | relationship r =>
    [("id", optionalItem r.id), ("type", textItem (Named.text r.cardinality)),
      ("source_model", textItem r.sourceModel), ("target_model", textItem r.targetModel),
      ("source_field", textItem r.sourceField), ("target_field", textItem r.targetField),
      ("cascade_delete", boolItem r.cascadeDelete)]
  | metadata m =>
    [("table_name", optionalItem m.tableName), ("timestamps", boolItem m.timestamps),
      ("soft_delete", boolItem m.softDelete), ("description", optionalItem m.description),
      ("requires_auth", boolItem m.requiresAuth),
      ("allowed_roles", .list (m.allowedRoles.map textItem))]
  | rule r =>
    [("type", textItem (Named.text r.kind)), ("value", .value r.operand.document),
      ("message", optionalItem r.message)]

/-- What is derived from the parts of an entity. -/
def derived : Entity → List (String × Item)
  | model m =>
    [("table_name", textItem m.tableName), ("route_name", textItem m.routeName),
      ("data_fields", entities .field m.dataFields)]
  | _ => []

/-- The names of what an entity can do. -/
def operations : Entity → List String
  | model _ => ["get_field"]
  | field _ => ["rule"]
  | _ => []

def attribute? (e : Entity) (name : String) : Option Item :=
  ((e.fields.lookup name).or (e.derived.lookup name)).or
    (if e.operations.contains name then some (.operation e name) else none)

end Entity

namespace Item

def isNull : Item → Bool
  | value .null => true
  | _ => false

/-- The item counts as true. -/
def isTruthy : Item → Bool
  | value v => v.isTruthy
  | list xs => !xs.isEmpty
  | record ms => !ms.isEmpty
  | entity _ | operation .. => true

/-- The members of an item that can be a scope. -/
def members : Item → List (String × Item)
  | record ms => ms
  | entity e => e.fields
  | value v => match v with
    | .table es => es.filterMap fun (k, x) => k.text?.map fun s => (s, Item.ofValue x)
    | _ => []
  | list _ | operation .. => []

/-- The number that a part of decimal digits stands for. -/
def indexOf (part : String) : Except RenderError Nat :=
  let (digits, rest) := Number.Numeral.decimals Text.decimalValue? part.toList
  if Number.Numeral.digitLimit < digits.length then .error (.excessive digits.length)
  else if rest.isEmpty then .ok (Number.Numeral.natOf digits)
  else .error (.notDecimal part)

/-- One step of a path. -/
def part (item : Item) (name : String) : Except RenderError (Option Item) :=
  match item with
  | record ms => .ok (ms.lookup name)
  | entity e => .ok (e.attribute? name)
  | list xs =>
    if name ≠ "" && name.toList.all Text.isDigit then (indexOf name).map fun i => xs[i]?
    else .ok none
  | value _ | operation .. => .ok (item.members.lookup name)

/-- Where a path leads from an item; null counts as nowhere. -/
def follow (item : Item) : List String → Except RenderError (Option Item)
  | [] => .ok (some item)
  | name :: rest =>
    match item.part name with
    | .error e => .error e
    | .ok none => .ok none
    | .ok (some next) => if next.isNull then .ok none else next.follow rest

mutual

/-- The item as a value that can be written as a document, if no entity is in it. -/
def toValue : Item → Except RenderError Value
  | value v =>
    match Json.unwritable? v with
    | some u => .error (.unwritable u)
    | none => .ok v
  | list xs => (toValues xs).map .list
  | record ms => (toMembers ms).map .record
  | entity e => .error (.unwritable (.value e.kind))
  | operation .. => .error (.unwritable (.value "method"))

def toValues : List Item → Except RenderError (List Value)
  | [] => .ok []
  | x :: xs => do return (← toValue x) :: (← toValues xs)

def toMembers : List (String × Item) → Except RenderError (List (String × Value))
  | [] => .ok []
  | (k, x) :: ms => do return (k, ← toValue x) :: (← toMembers ms)

end

/-- The text of a value: lists and mappings as documents on one line, truth values in small letters,
anything else as in a message. -/
def textOfValue (v : Value) : Except Json.Unwritable String :=
  match v with
  | .bool b => .ok (if b then "true" else "false")
  | .list _ | .record _ | .table _ | .pair .. | .again _ => Json.dump .line v
  | v => v.spelled

/-- The text of an item: lists and records as documents on one line, entities as compact documents,
anything else as the value that it is. -/
def text (item : Item) : Except RenderError String :=
  match item with
  | value v => (textOfValue v).mapError .unwritable
  | entity e => (Json.encode e.document).mapError .unwritable
  | operation owner name =>
    .ok ("<bound method " ++ owner.kind ++ "." ++ name ++ " of " ++ owner.summary ++ ">")
  | _ => item.toValue.map (Json.print .line)

end Item

end Scaffold.Template
