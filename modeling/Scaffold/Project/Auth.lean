import Scaffold.Options.Generation

/-!
# Project/Auth — who may do what in the generated service
-/

namespace Scaffold.Project

open Document Schema

structure Role where
  name : String
  permissions : List String
deriving DecidableEq, Repr

namespace Role

def read : Value → Checked Role :=
  entity "Role" fun v =>
    Role.mk <$> required v (.plain "name") (boundedText 1 none)
      <*> optional v (.plain "permissions") [] (listOf text)

def document (r : Role) : Value :=
  .record [("name", .text r.name), ("permissions", .list (r.permissions.map .text))]

/-- The roles that every project has. -/
def defaults : List Role :=
  [⟨"admin", ["create", "read", "update", "delete"]⟩, ⟨"user", ["read"]⟩]

end Role

/-- The authentication of a generated project. -/
structure Auth where
  strategy : Options.Strategy
  roles : List Role
  protectedRoutes : List String
deriving DecidableEq, Repr

namespace Auth

def default : Auth := ⟨.jwt, Role.defaults, []⟩

def protectedRoutesKey : Key := ⟨"protected_routes", some "protectedRoutes"⟩

def read : Value → Checked Auth :=
  entity "AuthConfig" fun v =>
    Auth.mk <$> optional v (.plain "type") .jwt choice
      <*> optional v (.plain "roles") Role.defaults (listOf Role.read)
      <*> optional v protectedRoutesKey [] (listOf text)

def document (a : Auth) : Value :=
  .record [("type", .text (Named.text a.strategy)), ("roles", .list (a.roles.map Role.document)),
    ("protectedRoutes", .list (a.protectedRoutes.map .text))]

def roleNames (a : Auth) : List String := a.roles.map (·.name)

/-- The role of an account that names none: the last. -/
def defaultRole (a : Auth) : String := a.roleNames.getLastD "user"

end Auth

end Scaffold.Project
