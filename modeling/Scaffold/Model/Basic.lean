import Scaffold.Model.Field
import Scaffold.Schema.Moments
import Scaffold.Naming

/-!
# Model/Basic — one entity of the modelled domain

Fields keep their order; every emitted file walks them in that order.
-/

namespace Scaffold.Model

open Document Schema

/-- Switches for what is generated for a model. -/
structure Metadata where
  tableName : Option String
  timestamps : Bool
  softDelete : Bool
  description : Option String
  requiresAuth : Bool
  allowedRoles : List String
deriving DecidableEq, Repr

namespace Metadata

/-- Timestamps and authentication, and nothing else. -/
def default : Metadata := ⟨none, true, false, none, true, []⟩

def tableNameKey : Key := ⟨"table_name", some "tableName"⟩
def softDeleteKey : Key := ⟨"soft_delete", some "softDelete"⟩
def requiresAuthKey : Key := ⟨"requires_auth", some "requiresAuth"⟩
def allowedRolesKey : Key := ⟨"allowed_roles", some "allowedRoles"⟩

def read : Value → Checked Metadata :=
  entity "ModelMetadata" fun v =>
    Metadata.mk <$> optional v tableNameKey none (nullable text)
      <*> optional v (.plain "timestamps") true bool
      <*> optional v softDeleteKey false bool
      <*> optional v (.plain "description") none (nullable text)
      <*> optional v requiresAuthKey true bool
      <*> optional v allowedRolesKey [] (listOf text)

def document (m : Metadata) : Value :=
  .record [("tableName", optionalText m.tableName), ("timestamps", .bool m.timestamps),
    ("softDelete", .bool m.softDelete), ("description", optionalText m.description),
    ("requiresAuth", .bool m.requiresAuth),
    ("allowedRoles", .list (m.allowedRoles.map .text))]

end Metadata

end Scaffold.Model

namespace Scaffold

open Document Schema Model

structure Model where
  id : Option String
  name : String
  fields : List Field
  relationships : List Relationship
  metadata : Metadata
  createdAt : Option Calendar.Moment
  updatedAt : Option Calendar.Moment

namespace Model

def createdAtKey : Key := ⟨"created_at", some "createdAt"⟩
def updatedAtKey : Key := ⟨"updated_at", some "updatedAt"⟩

def read : Value → Checked Model :=
  entity "Model" fun v =>
    Model.mk <$> optional v (.plain "id") none (nullable text)
      <*> required v (.plain "name") (boundedText 1 (some 100))
      <*> optional v (.plain "fields") [] (listOf Field.read)
      <*> optional v (.plain "relationships") [] (listOf Relationship.read)
      <*> optional v (.plain "metadata") Metadata.default Metadata.read
      <*> optional v createdAtKey none (nullable moment)
      <*> optional v updatedAtKey none (nullable moment)

/-- Models that are read one by one: the first that fails is reported alone, by itself. -/
def readAll : List Value → Checked (List Model)
  | [] => .ok []
  | v :: vs => (read v).andThen fun m => (readAll vs).map (m :: ·)

/-- A moment as text, or null. -/
def optionalStamp : Option Calendar.Moment → Value
  | some m => .text m.stamp
  | none => .null

def document (m : Model) : Value :=
  .record [("id", optionalText m.id), ("name", .text m.name),
    ("fields", .list (m.fields.map Field.document)),
    ("relationships", .list (m.relationships.map Relationship.document)),
    ("metadata", m.metadata.document),
    ("createdAt", optionalStamp m.createdAt), ("updatedAt", optionalStamp m.updatedAt)]

/-- The table: the one that the metadata name, else the one derived from the name. -/
def tableName (m : Model) : String :=
  match m.metadata.tableName with
  | some t => if t = "" then Naming.tableName m.name else t
  | none => Naming.tableName m.name

/-- The segment of the model in paths and file names. -/
def routeName (m : Model) : String := Text.lower m.name

/-- The fields other than the identifier, which every layer adds by itself. -/
def dataFields (m : Model) : List Field := m.fields.filter (·.name ≠ "id")

def field? (m : Model) (name : String) : Option Field := m.fields.find? (·.name == name)

/-- A one-line description. -/
def summary (m : Model) : String :=
  s!"<Model {m.name} fields={m.fields.length} relationships={m.relationships.length}>"

end Model

end Scaffold
