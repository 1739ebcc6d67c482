import Scaffold.Schema.Named
import Scaffold.Schema.Lax

/-!
# Options/Generation — the target of a generated project
-/

namespace Scaffold.Options

open Document Schema

inductive Framework where
  | express
  | fastify
  | koa
deriving DecidableEq, Repr

instance : NamedKind Framework where
  all := [.express, .fastify, .koa]
  text
    | .express => "express"
    | .fastify => "fastify"
    | .koa => "koa"
  kind := "Framework"

inductive Database where
  | postgresql
  | mysql
  | mongodb
deriving DecidableEq, Repr

instance : NamedKind Database where
  all := [.postgresql, .mysql, .mongodb]
  text
    | .postgresql => "postgresql"
    | .mysql => "mysql"
    | .mongodb => "mongodb"
  kind := "Database"

/-- Tables and statements, as opposed to documents. -/
def Database.isRelational : Database → Bool
  | .mongodb => false
  | _ => true

/-- How the generated service knows its users; `none` is no authentication. -/
inductive Strategy where
  | none
  | jwt
  | oauth
  | session
deriving DecidableEq, Repr

instance : NamedKind Strategy where
  all := [.none, .jwt, .oauth, .session]
  text
    | .none => "none"
    | .jwt => "jwt"
    | .oauth => "oauth"
    | .session => "session"
  kind := "AuthStrategy"

inductive Language where
  | typescript
  | javascript
deriving DecidableEq, Repr

instance : NamedKind Language where
  all := [.typescript, .javascript]
  text
    | .typescript => "typescript"
    | .javascript => "javascript"
  kind := "Language"

def includeTestsKey : Key := ⟨"include_tests", some "includeTests"⟩
def includeDocumentationKey : Key := ⟨"include_documentation", some "includeDocumentation"⟩

/-- What a project is generated for. -/
structure Generation where
  framework : Setting Framework
  database : Setting Database
  authentication : Setting Strategy
  language : Setting Language
  includeTests : Bool
  includeDocumentation : Bool
deriving DecidableEq, Repr

namespace Generation

/-- Every choice left open. -/
def default : Generation :=
  ⟨.leftOpen .express, .leftOpen .postgresql, .leftOpen .jwt, .leftOpen .typescript, true, true⟩

def keys : List Key :=
  [.plain "framework", .plain "database", .plain "authentication", .plain "language",
    includeTestsKey, includeDocumentationKey]

def read : Value → Checked Generation :=
  entity "GenerationOptions" fun v =>
    (fun f d a l t i _ => Generation.mk f d a l t i)
      <$> setting v (.plain "framework") .express
      <*> setting v (.plain "database") .postgresql
      <*> setting v (.plain "authentication") .jwt
      <*> setting v (.plain "language") .typescript
      <*> optional v includeTestsKey true bool
      <*> optional v includeDocumentationKey true bool
      <*> closed v keys

def document (o : Generation) : Value :=
  .record [("framework", o.framework.document), ("database", o.database.document),
    ("authentication", o.authentication.document), ("language", o.language.document),
    ("includeTests", .bool o.includeTests), ("includeDocumentation", .bool o.includeDocumentation)]

def isRelational (o : Generation) : Bool := o.database.value.isRelational

def authEnabled (o : Generation) : Bool := o.authentication.value ≠ .none

def tokenAuth (o : Generation) : Bool := o.authentication.value = .jwt

/-- The signed-in user is kept in a server-side session. -/
def sessionAuth (o : Generation) : Bool :=
  o.authentication.value = .session || o.authentication.value = .oauth

def isTypescript (o : Generation) : Bool := o.language.value = .typescript

/-- A one-line description. -/
def summary (o : Generation) : String :=
  s!"<GenerationOptions {o.framework.shown}/{o.database.shown}/{o.authentication.shown}/" ++
    s!"{o.language.shown}>"

end Generation

end Scaffold.Options
