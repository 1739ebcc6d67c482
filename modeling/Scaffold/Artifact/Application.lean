import Scaffold.Artifact.Source
import Scaffold.Model.Basic
import Scaffold.Options.Generation

/-!
# Artifact/Application — the entry of the generated service

The entry puts the middleware in order, answers `GET /health`, and mounts the routes: those of
authentication under `/auth`, those of each model under its segment.
-/

namespace Scaffold.Artifact

open Options

/-- A path and the router that serves it. -/
structure Mount where
  path : String
  router : String
  source : String

namespace Mount

def importRouter (m : Mount) : Import := .whole m.router m.source

def line (m : Mount) : String := "app.use('" ++ m.path ++ "', " ++ m.router ++ ");"

end Mount

/-- The mount of the routes of a model. -/
def modelMount (m : Model) : Mount :=
  ⟨"/" ++ m.routeName, m.routeName ++ "Routes", "./routes/" ++ m.routeName⟩

/-- What the service serves below its own paths. -/
def mounts (o : Generation) (models : List Model) : List Mount :=
  (if o.authEnabled then [⟨"/auth", "authRoutes", "./routes/auth"⟩] else []) ++
    models.map modelMount

def applicationImports (o : Generation) (models : List Model) : List Import :=
  [Import.effects "dotenv/config", .whole "express" "express"] ++
    (if o.sessionAuth then [Import.whole "session" "express-session"] else []) ++
    (if o.authentication.value = .oauth then [Import.whole "passport" "passport"] else []) ++
    (if o.isRelational then [] else [Import.parts ["connect"] "./database/connection"]) ++
    [Import.parts ["corsMiddleware"] "./middleware/cors",
      .parts ["loggingMiddleware"] "./middleware/logging",
      .parts ["errorHandler"] "./middleware/validation"] ++
    (mounts o models).map Mount.importRouter

/-- Where the service starts to listen, unless it is under test. -/
def listenLines (database : Database) : List String :=
  [r"if (process.env.NODE_ENV !== 'test') {"] ++
    (if database.isRelational then
      [r"  app.listen(PORT, () => {",
       r"    console.log(`Server running on port ${PORT}`);",
       r"  });"]
    else
      [r"  connect().then(() => {",
       r"    app.listen(PORT, () => {",
       r"      console.log(`Server running on port ${PORT}`);",
       r"    });",
       r"  });"]) ++
    [r"}",
     "",
     "export default app;"]

/-- The entry of the service. -/
def application (o : Generation) (models : List Model) : Source where
  imports := applicationImports o models
  body :=
    ["const app = express();",
     "const PORT = process.env.PORT || 3000;",
     "",
     "app.use(corsMiddleware);",
     "app.use(express.json());",
     r"app.use(express.urlencoded({ extended: true }));",
     "app.use(loggingMiddleware);"] ++
    (if o.sessionAuth then
      [r"app.use(session({ secret: process.env.SESSION_SECRET as string, resave: " ++
          r"false, saveUninitialized: false }));"]
    else []) ++
    (if o.authentication.value = .oauth then
      ["app.use(passport.initialize());"]
    else []) ++
    ["",
     r"app.get('/health', (req, res) => {",
     r"  res.json({ status: 'OK', timestamp: new Date().toISOString() });",
     r"});",
     ""] ++
    (mounts o models).map Mount.line ++
    ["",
     r"app.use((req, res) => {",
     r"  res.status(404).json({ success: false, message: 'Route not found' });",
     r"});",
     "",
     "app.use(errorHandler);",
     ""] ++
    listenLines o.database.value

end Scaffold.Artifact
