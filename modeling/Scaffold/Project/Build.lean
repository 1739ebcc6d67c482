import Scaffold.Artifact.Routes
import Scaffold.Format.Basic
import Scaffold.Project.Auth
import Scaffold.Project.Basic
import Scaffold.Project.Contents
import Scaffold.Project.Relocation

/-!
# Project/Build — building a project from models and options

The files come in a fixed order: those at the root, those of each model in the order of the models,
those of the login, those that every service has.  No two files of a project have one path.  Every
model has five endpoints, in the order of its routes; reading is open, and the roles of a guarded
endpoint are those that its guard admits.
-/

/-! ## The endpoints of a project -/

namespace Scaffold.Project

open Artifact Options

/-- An endpoint under its derived identifier. -/
def Endpoint.describe (path : String) (method : Method) (modelName : String)
    (operation : Operation) (guard : Guard) (description : String) : Endpoint :=
  { id := derivedId (Schema.Named.text method) path, path, method, modelName, operation
    authenticated := guard ≠ .anyone
    roles := guard.roles
    description }

/-- The endpoints of a model. -/
def modelEndpoints (o : Generation) (m : Model) : List Endpoint :=
  let base := "/" ++ m.routeName
  let one := base ++ "/:id"
  [.describe base .post m.name .create (writeGuard o m) ("Create a new " ++ m.name),
    .describe base .get m.name .list .anyone ("List " ++ m.name ++ " records"),
    .describe one .get m.name .read .anyone ("Get a " ++ m.name ++ " by ID"),
    .describe one .put m.name .update (writeGuard o m) ("Update a " ++ m.name),
    .describe one .delete m.name .delete (deleteGuard o m) ("Delete a " ++ m.name)]

/-- The endpoints of logging in and of registering. -/
def loginEndpoints : List Endpoint :=
  [.describe "/auth/login" .post "User" .read .anyone "Authenticate a user",
    .describe "/auth/register" .post "User" .create .anyone "Register a new user"]

/-! ## Roles -/

/-- The roles after a name has been met: a new one may read, and no role has an empty name. -/
def admitRole (roles : List Role) (name : String) : Schema.Checked (List Role) :=
  if roles.any (·.name == name) then .ok roles
  else (Role.read (.record [("name", .text name), ("permissions", .list [.text "read"])])).map
    fun role => roles ++ [role]

/-- The roles after each name has been met in turn. -/
def admitRoles (roles : List Role) : List String → Schema.Checked (List Role)
  | [] => .ok roles
  | name :: names => (admitRole roles name).andThen fun roles => admitRoles roles names

/-- The authentication of a project: the default roles and those that its models name, and the
endpoints that require a login. -/
def authOf (o : Generation) (models : List Model) (endpoints : List Endpoint) :
    Schema.Checked Auth :=
  (admitRoles Role.defaults (models.flatMap (·.metadata.allowedRoles))).map fun roles =>
    { strategy := o.authentication.value, roles
      protectedRoutes := (endpoints.filter (·.authenticated)).map Endpoint.routeKey }

end Scaffold.Project

namespace Scaffold.Project

open Document Options

/-- Why no project was built. -/
inductive BuildFailure where
  | artifact (f : Artifact.Failure)
  /-- A model names a role that cannot be one. -/
  | role (issues : List Schema.Issue)
  /-- What was given as the name cannot be one. -/
  | name (issues : List Schema.Issue)
  /-- Two files have one path. -/
  | collision (paths : List String)
deriving DecidableEq, Repr

/-- The message of a collision. -/
def collisionMessage (paths : List String) : String :=
  "Generated files collide at: " ++ ", ".intercalate paths ++
    "; rename the model(s) that clash with the auth module"

def BuildFailure.message : BuildFailure → String
  | artifact f => f.message
  | role issues => Schema.heading "Role" issues
  | name issues => Schema.heading "GeneratedProject" issues
  | collision paths => collisionMessage paths

/-- The paths that occur more than once, each once, in the order of their first occurrences. -/
def repeatedPaths (paths : List String) : List String :=
  (first paths).filter fun p => 1 < paths.count p
where
  /-- The paths without those that have occurred before. -/
  first (paths : List String) : List String :=
    paths.foldl (fun seen p => if seen.contains p then seen else seen ++ [p]) []

/-- The description of the interface that is attached to every project. -/
def interfaceDocument (title : String) : Value :=
  .record [("openapi", .text "3.0.0"),
    ("info", .record [("title", .text title), ("version", .text "1.0.0")]), ("servers", .list []),
    ("paths", .record []),
    ("components", .record [("schemas", .record []), ("securitySchemes", .record [])])]

/-- The name of a project that was given none, at a moment in milliseconds. -/
def defaultName (moment : Nat) : String := s!"generated-api-{moment}"

/-- The files of the login of a project: moved aside if a model has their segment. -/
def placedLoginFiles (r : Template.Registry) (o : Generation) (models : List Model) (a : Auth) :
    Except Artifact.Failure (List File) :=
  if !o.authEnabled then .ok []
  else if models.any (·.routeName == "user") then (loginFiles r o a).map (·.map File.relocate)
  else loginFiles r o a

/-- The files of all models. -/
def allModelFiles (r : Template.Registry) (o : Generation) (models : List Model) :
    Except Artifact.Failure (List File) :=
  (models.mapM (modelFiles r o models)).map List.flatten

/-- The project of models and options; without a name it is called by the moment. -/
def build (r : Template.Registry) (o : Generation) (models : List Model) (name : Option String)
    (moment : Nat) : Except BuildFailure Project := do
  let fullName := name.getD (defaultName moment)
  let modelFiles ← (allModelFiles r o models).mapError .artifact
  let endpoints := models.flatMap (modelEndpoints o)
  let auth ← (authOf o models endpoints).toExcept.mapError .role
  let loginFiles ← (placedLoginFiles r o models auth).mapError .artifact
  let files := rootFiles o (name.getD "generated-api") models ++ modelFiles ++ loginFiles ++
    sharedFiles o models
  match repeatedPaths (files.map (·.path)) with
  | [] => return {
      name := fullName, models, auth, files, options := o
      endpoints := endpoints ++ if o.authEnabled then loginEndpoints else []
      openApi := interfaceDocument fullName }
  | paths => throw (.collision paths)

/-- A project with every file formatted by its language. -/
def formatted (o : Format.Options) (p : Project) : Project :=
  { p with files := p.files.map fun f =>
      { f with content := Format.formatText o f.language f.content } }

/-- A project whose name is any value: one that counts as false is no name.  A value that is no text
is refused, but only when nothing else stands in the way of the project. -/
def buildNamed (r : Template.Registry) (o : Generation) (models : List Model) (name : Value)
    (moment : Nat) : Except BuildFailure Project :=
  if !name.isTruthy then build r o models none moment
  else match name, Json.unwritable? name with
    | .text s, _ => build r o models (some s) moment
    | _, some u => .error (.artifact (.unwritable u))
    | v, none => do
      let project ← build r o models none moment
      match Schema.text v with
      | .ok _ => return project
      | .bad issues => throw (.name (issues.map (·.under (.name "name"))))

end Scaffold.Project
