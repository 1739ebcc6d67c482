import Scaffold.Artifact.Application
import Scaffold.Artifact.Auth
import Scaffold.Artifact.Readme
import Scaffold.Artifact.Manifest
import Scaffold.Artifact.Middleware
import Scaffold.Artifact.Repository
import Scaffold.Artifact.ValidationChain
import Scaffold.Artifact.Schema
import Scaffold.Artifact.Suite
import Scaffold.Project.File

/-!
# Project/Contents — the files of a project, group by group

The files of a model have its name or its segment in their paths; the others have fixed paths.
-/

namespace Scaffold.Project

open Artifact Options

def File.source (path content : String) : File := ⟨path, content, .source, some "typescript"⟩

def File.sql (path content : String) : File := ⟨path, content, .source, some "sql"⟩

def File.config (path language content : String) : File := ⟨path, content, .config, some language⟩

/-- The files at the root of a project. -/
def rootFiles (o : Generation) (packageName : String) (models : List Model) : List File :=
  [.config "package.json" "json" (packageJson o packageName),
    .config "tsconfig.json" "json" (tsconfig o),
    .config ".env.example" "dotenv" (environmentExample o),
    ⟨"README.md", readme o models, .documentation, some "markdown"⟩]

/-- The schema file of a model, if its database has schemas. -/
def schemaFiles (r : Template.Registry) (o : Generation) (models : List Model) (m : Model) :
    Except Failure (List File) :=
  if o.isRelational then
    (schema r o.database.value models m).map fun text =>
      [.sql ("src/schemas/" ++ m.routeName ++ ".sql") text]
  else .ok []

/-- The test file of a model, if tests are asked for. -/
def suiteFiles (o : Generation) (m : Model) : List File :=
  if o.includeTests then
    [⟨"src/tests/" ++ m.name ++ "Controller.test.ts", (suite o m).text, .test, some "typescript"⟩]
  else []

/-- The files of a model among the models of its project. -/
def modelFiles (r : Template.Registry) (o : Generation) (models : List Model) (m : Model) :
    Except Failure (List File) := do
  let record ← recordInterface r m
  let schemas ← schemaFiles r o models m
  let controller ← controller r m
  let checks ← requestFile m
  return [File.source ("src/models/" ++ m.name ++ ".ts") record] ++ schemas ++
    [File.source ("src/controllers/" ++ m.name ++ "Controller.ts") controller,
      .source ("src/services/" ++ m.name ++ "Service.ts") (service m).text,
      .source ("src/repositories/" ++ m.name ++ "Repository.ts")
        (repository o.database.value m).text,
      .source ("src/routes/" ++ m.routeName ++ ".ts") (routes o m).text,
      .source ("src/validation/" ++ m.name ++ "Validation.ts") checks] ++
    suiteFiles o m

/-- The files of the login. -/
def loginFiles (r : Template.Registry) (o : Generation) (a : Auth) :
    Except Failure (List File) := do
  let users ← userModel r o a
  let service ← authService r o a
  let login ← authMiddleware r a
  let access ← authorizationMiddleware r a
  return [File.source "src/models/User.ts" users,
      .source "src/services/AuthService.ts" service,
      .source "src/controllers/AuthController.ts" (authController o).text,
      .source "src/middleware/auth.ts" login,
      .source "src/middleware/authorize.ts" access,
      .source "src/routes/auth.ts" authRoutes.text,
      .source "src/repositories/UserRepository.ts" (userRepository o.database.value).text,
      .source "src/validation/AuthValidation.ts" (authChecks a).text] ++
    if o.isRelational then
      [File.sql "src/schemas/user.sql" (userSchema (.ofDatabase o.database.value) a)]
    else []

/-- The files that every service has. -/
def sharedFiles (o : Generation) (models : List Model) : List File :=
  [.source "src/database/connection.ts" (connection o.database.value).text,
    .source "src/middleware/cors.ts" corsMiddleware.text,
    .source "src/middleware/logging.ts" loggingMiddleware.text,
    .source "src/middleware/validation.ts" validationMiddleware.text,
    .source "src/app.ts" (application o models).text]

end Scaffold.Project
