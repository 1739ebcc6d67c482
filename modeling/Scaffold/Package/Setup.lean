import Scaffold.Catalog.Services
import Scaffold.Options.Export
import Scaffold.Project.Basic

/-!
# Package/Setup — the instructions that come with an archive
-/

namespace Scaffold.Package

open Options Project

/-- The number of things and their name. -/
def counted (n : Nat) (noun : String) : String :=
  toString n ++ " " ++ noun ++ if n = 1 then "" else "s"

/-- One line about a model: its segment, its size and whether writing needs a login. -/
def modelLine (authEnabled : Bool) (m : Model) : String :=
  "- `" ++ m.name ++ "` (`/" ++ m.routeName ++ "`): " ++ counted m.fields.length "field" ++ ", " ++
    counted m.relationships.length "relationship" ++ "; CRUD at `/" ++ m.routeName ++ "` and `/" ++
    m.routeName ++ "/:id`" ++
    if authEnabled && m.metadata.requiresAuth then "; writes require sign-in" else ""

def introLines (name : String) (database : Database) : List String :=
  let label := Catalog.databaseLabel database
  ["# " ++ name ++ " - Setup Instructions",
   "",
   "This is an automatically generated API project. Follow these steps to get it running.",
   "",
   "## Prerequisites",
   "",
   "- Node.js (version 16 or higher)",
   "- npm or yarn package manager",
   "- " ++ label ++ " database server",
   "",
   "## Installation Steps",
   "",
   "### 1. Install Dependencies",
   "",
   "```bash",
   "npm install",
   "```",
   "",
   "### 2. Environment Configuration",
   "",
   "Copy the example environment file and configure your settings:",
   "",
   "```bash",
   "cp .env.example .env",
   "```",
   "",
   "- **PORT**: Server port (default: 3000)",
   "- **NODE_ENV**: Environment (development/production)",
   "- **DATABASE_URL**: " ++ label ++ " connection string",
   "  - Format: `" ++ Catalog.databaseUrl database ++ "`"]

/-- The variables that a strategy reads. -/
def variableLines : Strategy → List String
  | .none => []
  | .jwt =>
    ["- **JWT_SECRET**: Secret key for JWT tokens (use a strong, random string)",
     "- **JWT_REFRESH_SECRET**: Secret key for refresh tokens",
     "- **JWT_EXPIRES_IN**: Token expiration time (default: 15m)"]
  | .session =>
    ["- **SESSION_SECRET**: Secret used to sign session cookies"]
  | .oauth =>
    ["- **SESSION_SECRET**: Secret used to sign the login session cookie",
     "- **OAUTH_CLIENT_ID** / **OAUTH_CLIENT_SECRET**: OAuth client credentials",
     "- **OAUTH_AUTHORIZATION_URL** / **OAUTH_TOKEN_URL**: Provider endpoints",
     "- **OAUTH_CALLBACK_URL**: Redirect target registered with the provider"]

/-- The schema files in the order in which they are applied: the accounts come first, so that other
tables may refer to them. -/
def schemaPaths (paths : List String) : List String :=
  let schemas := paths.filter fun p => Text.startsWith "src/schemas/".toList p.toList
  let isAccounts (p : String) := p = "src/schemas/user.sql" || p = "src/schemas/auth_user.sql"
  schemas.filter isAccounts ++ schemas.filter fun p => !isAccounts p

/-- How the database is prepared. -/
def databaseLines (database : Database) (paths : List String) : List String :=
  match database with
  | .postgresql =>
    ["Create a PostgreSQL database and run the schema files:",
     "",
     "```bash",
     "createdb your_database_name"] ++
      (schemaPaths paths).map ("psql -d your_database_name -f " ++ ·) ++
      ["```"]
  | .mysql =>
    ["Create a MySQL database and run the schema files:",
     "",
     "```bash",
     "mysql -u root -p -e \"CREATE DATABASE your_database_name;\""] ++
      (schemaPaths paths).map ("mysql -u root -p your_database_name < " ++ ·) ++
      ["```"]
  | .mongodb =>
    ["MongoDB creates collections on first write; no schema step is required."]

def startLines : List String :=
  ["",
   "### 4. Start the Application",
   "",
   "```bash",
   "npm run dev",
   "```",
   "",
   "For production:",
   "",
   "```bash",
   "npm run build",
   "npm start",
   "```",
   "",
   "## Available Endpoints",
   "",
   "The API is served at `http://localhost:3000` with a health check at `GET /health`."]

def apiLines (authEnabled : Bool) (models : List Model) : List String :=
  (if authEnabled then
    ["",
     "### Authentication",
     "",
     "- `POST /auth/register` - User registration",
     "- `POST /auth/login` - User login"]
  else []) ++
    if models.isEmpty then []
    else
      ["",
       "### Models",
       ""] ++ models.map (modelLine authEnabled)

/-- How the tests are run, and where everything is. -/
def closingLines (hasTests : Bool) : List String :=
  (if hasTests then
    ["",
     "## Running Tests",
     "",
     "```bash",
     "npm test",
     "```"]
  else []) ++
    ["",
     "## Project Structure",
     "",
     "- `src/app.ts` - Application entry point",
     "- `src/controllers/` - Request handlers",
     "- `src/services/` - Business logic",
     "- `src/repositories/` - Data access layer",
     "- `src/models/` - Data models and interfaces",
     "- `src/routes/` - Route definitions",
     "- `src/middleware/` - Custom middleware",
     "- `src/validation/` - Input validation rules",
     "- `src/database/` - Database connection"] ++
    if hasTests then
      ["- `src/tests/` - Test files"]
    else []

/-- The lines of `SETUP.md`.  Tests are mentioned only where they were generated and are
exported. -/
def setupLines (o : Export) (p : Project) : List String :=
  let gen := p.options
  introLines p.name gen.database.value ++ variableLines gen.authentication.value ++
    ["",
     "### 3. Database Setup",
     ""] ++
    databaseLines gen.database.value p.paths ++ startLines ++ apiLines gen.authEnabled p.models ++
    closingLines (gen.includeTests && o.includeTests)

/-- The file `SETUP.md`. -/
def instructions (o : Export) (p : Project) : String := Text.paragraph (setupLines o p)

end Scaffold.Package
