import Scaffold.Artifact.Source
import Scaffold.Model.Basic
import Scaffold.Options.Generation
import Scaffold.Project.Endpoint

/-!
# Artifact/Routes — the routes of a model

A route is a method, a path below the segment of the model, a guard and its handlers.  Reading is
open to anyone; writing is guarded where the model asks for it.
-/

namespace Scaffold

/-- Writing records of a model needs a login. -/
def Model.isGuarded (o : Options.Generation) (m : Model) : Bool :=
  o.authEnabled && m.metadata.requiresAuth

end Scaffold

namespace Scaffold.Artifact

open Options Project

/-! ## Guards -/

/-- Who may take a route. -/
inductive Guard where
  | anyone
  /-- Whoever is logged in and has one of the roles; no roles stand for all. -/
  | loggedIn (roles : List String)
deriving DecidableEq, Repr

namespace Guard

/-- The roles that a guard names. -/
def roles : Guard → List String
  | anyone => []
  | loggedIn roles => roles

/-- The handlers that enforce a guard. -/
def handlers : Guard → List String
  | anyone => []
  | loggedIn [] => ["authenticateToken"]
  | loggedIn roles =>
    ["authenticateToken", "authorize(" ++ ", ".intercalate (roles.map quoted) ++ ")"]

end Guard

def writeGuard (o : Generation) (m : Model) : Guard :=
  if m.isGuarded o then .loggedIn m.metadata.allowedRoles else .anyone

def deleteGuard (o : Generation) (m : Model) : Guard :=
  if m.isGuarded o then .loggedIn ["admin"] else .anyone

/-! ## Routes -/

structure Route where
  method : Method
  path : String
  guard : Guard
  handlers : List String

/-- The line that registers a route. -/
def Route.line (r : Route) : String :=
  "router." ++ Text.lower (Schema.Named.text r.method) ++ "('" ++ r.path ++ "', " ++
    ", ".intercalate (r.guard.handlers ++ r.handlers) ++ ");"

def controllerVar (m : Model) : String := Naming.camel m.name ++ "Controller"

/-- The routes of a model. -/
def routeTable (o : Generation) (m : Model) : List Route :=
  let handler (name : String) := controllerVar m ++ "." ++ name
  let checks (name : String) := "validate" ++ m.name ++ "." ++ name
  [⟨.post, "/", writeGuard o m, [checks "create", handler "create"]⟩,
    ⟨.get, "/", .anyone, [handler "getAll"]⟩,
    ⟨.get, "/:id", .anyone, [handler "getById"]⟩,
    ⟨.put, "/:id", writeGuard o m, [checks "update", handler "update"]⟩,
    ⟨.delete, "/:id", deleteGuard o m, [handler "delete"]⟩]

/-- The imports of the guards. -/
def guardImports (o : Generation) (m : Model) : List Import :=
  if m.isGuarded o then
    [.parts ["authenticateToken"] "../middleware/auth",
      .parts ["authorize"] "../middleware/authorize"]
  else []

/-- The routes of a model as a file. -/
def routes (o : Generation) (m : Model) : Source where
  imports := [routerImport,
    .parts [m.name ++ "Controller"] ("../controllers/" ++ m.name ++ "Controller"),
    .parts ["validate" ++ m.name] ("../validation/" ++ m.name ++ "Validation")] ++ guardImports o m
  body := ["const router = Router();",
    "const " ++ controllerVar m ++ " = new " ++ m.name ++ "Controller();", ""] ++
    (routeTable o m).map Route.line ++ ["", "export default router;"]

end Scaffold.Artifact
