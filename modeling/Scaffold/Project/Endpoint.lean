import Scaffold.Schema.Named
import Scaffold.Schema.Lax
import Scaffold.Digest.NameId
import Scaffold.Document.Literal

/-!
# Project/Endpoint — one operation of the generated service
-/

namespace Scaffold.Project

open Document Schema

inductive Method where
  | get
  | post
  | put
  | patch
  | delete
deriving DecidableEq, Repr

instance : Named Method where
  all := [.get, .post, .put, .patch, .delete]
  text
    | .get => "GET"
    | .post => "POST"
    | .put => "PUT"
    | .patch => "PATCH"
    | .delete => "DELETE"

inductive Operation where
  | create
  | read
  | update
  | delete
  | list
deriving DecidableEq, Repr

instance : Named Operation where
  all := [.create, .read, .update, .delete, .list]
  text
    | .create => "create"
    | .read => "read"
    | .update => "update"
    | .delete => "delete"
    | .list => "list"

structure Endpoint where
  id : String
  path : String
  method : Method
  modelName : String
  operation : Operation
  /-- The operation requires a login. -/
  authenticated : Bool
  roles : List String
  description : String
deriving DecidableEq, Repr

namespace Endpoint

/-- The identifier of an endpoint that has none: that of its method and path. -/
def derivedId (method path : String) : String := Digest.nameId (method ++ " " ++ path)

def modelNameKey : Key := ⟨"model_name", some "modelName"⟩

/-- The identifier: the one given, or the derived one if it is absent or empty. -/
def readId (v : Value) : Checked String :=
  match v.member? "id" with
  | some x => if x.isTruthy then (text x).under (.name "id") else .ok derived
  | none => .ok derived
where
  derived : String :=
    derivedId ((v.member? "method").getD .null).shown ((v.member? "path").getD (.text "")).shown

def read : Value → Checked Endpoint :=
  entity "Endpoint" fun v =>
    Endpoint.mk <$> readId v
      <*> required v (.plain "path") text
      <*> required v (.plain "method") choice
      <*> required v modelNameKey text
      <*> required v (.plain "operation") choice
      <*> optional v (.plain "authenticated") false bool
      <*> optional v (.plain "roles") [] (listOf text)
      <*> optional v (.plain "description") "" text

def document (e : Endpoint) : Value :=
  .record [("id", .text e.id), ("path", .text e.path), ("method", .text (Named.text e.method)),
    ("modelName", .text e.modelName), ("operation", .text (Named.text e.operation)),
    ("authenticated", .bool e.authenticated), ("roles", .list (e.roles.map .text)),
    ("description", .text e.description)]

/-- Method and path. -/
def routeKey (e : Endpoint) : String := s!"{Named.text e.method} {e.path}"

/-- A one-line description. -/
def summary (e : Endpoint) : String :=
  s!"<Endpoint {e.routeKey}" ++ (if e.authenticated then " [auth]" else "") ++ ">"

end Endpoint

end Scaffold.Project
