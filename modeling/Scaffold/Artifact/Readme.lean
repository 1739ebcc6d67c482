import Scaffold.Catalog.Services
import Scaffold.Text.Lines
import Scaffold.Model.Basic

/-!
# Artifact/Readme — the description of a generated project and of its environment
-/

namespace Scaffold.Artifact

open Options

/-! ## The environment -/

/-- An environment variable as a line. -/
def assignment (v : String × String) : String := v.1 ++ "=" ++ v.2

/-- The variables of the authentication strategy, if it has any. -/
def strategyAssignments (s : Strategy) : List String :=
  match Catalog.strategyEnvironment s with
  | [] => []
  | vs => ["", "# Authentication Configuration"] ++ vs.map assignment

/-- The file `.env.example`. -/
def environmentExample (o : Generation) : String :=
  Text.paragraph (["# Server Configuration", "PORT=3000", "NODE_ENV=development", "",
    "# Database Configuration",
    assignment ("DATABASE_URL", Catalog.databaseUrl o.database.value)] ++
    strategyAssignments o.authentication.value)

/-! ## The project -/

/-- What the project offers.  A choice left open is shown by its kind. -/
def featureLines (o : Generation) : List String :=
  ["# Generated API Project",
   "",
   "This is an automatically generated API project using " ++ o.framework.shown ++ " with " ++
      Catalog.databaseLabel o.database.value ++ " database.",
   "",
   "## Features",
   "",
   "- RESTful API endpoints",
   "- " ++ o.database.shown ++ " database integration",
   "- " ++ o.authentication.shown ++ " authentication",
   "- Input validation",
   "- Error handling",
   "- " ++ (if o.includeTests then "Comprehensive test suite" else "Basic structure"),
   "- " ++ (if o.includeDocumentation then "OpenAPI documentation" else "Basic documentation")]

def gettingStartedLines : List String :=
  ["",
   "## Getting Started",
   "",
   "1. Install dependencies:",
   "   ```bash",
   "   npm install",
   "   ```",
   "",
   "2. Set up environment variables:",
   "   ```bash",
   "   cp .env.example .env",
   "   ```",
   "",
   "3. Start the development server:",
   "   ```bash",
   "   npm run dev",
   "   ```",
   ""]

/-- The operations of a model. -/
def operationLines (m : Model) : List String :=
  ["### " ++ m.name,
   "",
   "- `POST /" ++ m.routeName ++ "` create",
   "- `GET /" ++ m.routeName ++ "` list (paginated)",
   "- `GET /" ++ m.routeName ++ "/:id` read",
   "- `PUT /" ++ m.routeName ++ "/:id` update",
   "- `DELETE /" ++ m.routeName ++ "/:id` delete",
   ""]

def endpointLines (models : List Model) : List String :=
  ["## API Endpoints",
   ""] ++
    (if models.isEmpty then
      ["No models defined yet. Only `GET /health` is available."]
    else []) ++
    models.flatMap operationLines

def structureLines (o : Generation) : List String :=
  ["## Project Structure",
   "",
   "- `src/app.ts` - Main application entry point",
   "- `src/controllers/` - Request handlers",
   "- `src/services/` - Business logic",
   "- `src/repositories/` - Data access layer",
   "- `src/models/` - Data models",
   "- `src/routes/` - Route definitions",
   "- `src/middleware/` - Custom middleware",
   "- `src/validation/` - Input validation schemas"] ++
    (if o.isRelational then
      ["- `src/schemas/` - SQL schema files"]
    else []) ++
    (if o.includeTests then
      ["- `src/tests/` - Test files"]
    else []) ++
    ["",
     "## License",
     "",
     "MIT"]

/-- The file `README.md`. -/
def readme (o : Generation) (models : List Model) : String :=
  Text.paragraph (featureLines o ++ gettingStartedLines ++ endpointLines models ++ structureLines o)

end Scaffold.Artifact
