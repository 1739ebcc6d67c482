import Scaffold.Artifact.Manifest
import Scaffold.Catalog.Services
import Scaffold.Document.Yaml.Block
import Scaffold.Options.Export
import Scaffold.Project.Basic

/-!
# Package/Deployment — the files that a tier adds for deployment

The files of a tier are those of the tier below it and some more: a container to start with, then
checks on every push, then a cluster and its monitoring.
-/

namespace Scaffold.Package

open Document Document.Yaml Options Project

/-- A settings file. -/
def settingsFile (path : String) (language : Option String) (content : String) : File :=
  ⟨path, content, .config, language⟩

/-- A list of texts. -/
def textList (xs : List String) : Block := .list (xs.map .text)

/-! ## Containers -/

def gitignore : String := Text.paragraph
  ["# Dependencies",
   "node_modules/",
   "npm-debug.log*",
   "yarn-debug.log*",
   "yarn-error.log*",
   "",
   "# Coverage",
   "coverage/",
   "*.lcov",
   ".nyc_output",
   "",
   "# Environment variables",
   ".env",
   ".env.local",
   ".env.*.local",
   "",
   "# Build outputs",
   "dist/",
   "build/",
   "",
   "# IDE files",
   ".vscode/",
   ".idea/",
   "*.swp",
   "",
   "# OS files",
   ".DS_Store",
   "Thumbs.db",
   "",
   "# Logs",
   "logs",
   "*.log"]

def dockerfile : String := Text.paragraph
  ["FROM node:18-alpine",
   "",
   "WORKDIR /app",
   "",
   "COPY package*.json ./",
   "RUN npm ci",
   "",
   "COPY . .",
   "RUN npm run build --if-present",
   "",
   "EXPOSE 3000",
   "",
   "CMD [\"npm\", \"start\"]"]

/-- The variables of the container of the service. -/
def serviceEnvironment (o : Generation) : List String :=
  let passed (name : String) := name ++ r"=${" ++ name ++ r"}"
  ["NODE_ENV=development", passed "DATABASE_URL"] ++
    if o.tokenAuth then Catalog.tokenSecrets.map passed
    else if o.sessionAuth then [passed "SESSION_SECRET"]
    else []

/-- The service and its database as containers. -/
def compose (o : Generation) : String :=
  let database := Catalog.container o.database.value
  let number := toString database.portNumber
  Block.ofRecord [("version", .text "3.8"),
    ("services", .record [
      ("app", .record [("build", .text "."), ("ports", textList ["3000:3000"]),
        ("environment", textList (serviceEnvironment o)), ("depends_on", textList ["db"]),
        ("volumes", textList [".:/app", "/app/node_modules"])]),
      ("db", .record [("image", .text database.image),
        ("environment", textList database.environment),
        ("ports", textList [number ++ ":" ++ number]),
        ("volumes", textList [database.volume ++ ":" ++ database.directory])])]),
    ("volumes", .record [(database.volume, .null)])]

def basicFiles (o : Generation) : List File :=
  [settingsFile ".gitignore" none gitignore,
    settingsFile "Dockerfile" (some "dockerfile") dockerfile,
    settingsFile "docker-compose.yml" (some "yaml") (compose o)]

/-! ## Checks on every push -/

/-- The workflow that builds and tests the project. -/
def workflow : String :=
  let node := r"${{ matrix.node-version }}"
  Block.ofRecord [("name", .text "CI"),
    ("on", .record [("push", .record [("branches", textList ["main", "develop"])]),
      ("pull_request", .record [("branches", textList ["main"])])]),
    ("jobs", .record [("test", .record [("runs-on", .text "ubuntu-latest"),
      ("strategy", .record [("matrix", .record
        [("node-version", textList ["16.x", "18.x", "20.x"])])]),
      ("steps", .list [.record [("uses", .text "actions/checkout@v3")],
        .record [("name", .text ("Use Node.js " ++ node)), ("uses", .text "actions/setup-node@v3"),
          ("with", .record [("node-version", .text node), ("cache", .text "npm")])],
        .record [("run", .text "npm ci")], .record [("run", .text "npm run build --if-present")],
        .record [("run", .text "npm test")]])])])]

def lintSettings : String := Text.paragraph
  [r"module.exports = {",
   r"  env: {",
   "    node: true,",
   "    es2021: true,",
   r"  },",
   "  extends: ['eslint:recommended', 'plugin:@typescript-eslint/recommended'],",
   "  parser: '@typescript-eslint/parser',",
   r"  parserOptions: {",
   "    ecmaVersion: 12,",
   "    sourceType: 'module',",
   r"  },",
   "  plugins: ['@typescript-eslint'],",
   r"  rules: {",
   "    indent: ['error', 2],",
   "    'linebreak-style': ['error', 'unix'],",
   "    quotes: ['error', 'single'],",
   "    semi: ['error', 'always'],",
   r"  },",
   r"};"]

def styleSettings : String :=
  Artifact.documentText (.record [("semi", .bool true), ("trailingComma", .text "es5"),
    ("singleQuote", .bool true), ("printWidth", .int 80), ("tabWidth", .int 2)])

def advancedFiles : List File :=
  [settingsFile ".github/workflows/ci.yml" (some "yaml") workflow,
    settingsFile ".eslintrc.js" (some "javascript") lintSettings,
    settingsFile ".prettierrc" (some "json") styleSettings]

/-! ## Clusters -/

/-- A variable whose value is a secret of the project. -/
def secretVariable (project name key : String) : Block :=
  .record [("name", .text name), ("valueFrom", .record [("secretKeyRef", .record
    [("name", .text (project ++ "-secrets")), ("key", .text key)])])]

def clusterEnvironment (p : Project) : Block :=
  .list ([.record [("name", .text "NODE_ENV"), ("value", .text "production")],
    secretVariable p.name "DATABASE_URL" "database-url"] ++
    if p.options.tokenAuth then [secretVariable p.name "JWT_SECRET" "jwt-secret"] else [])

/-- The deployment of the service and the address it is reached at. -/
def deployment (p : Project) : String :=
  let app : Block := .record [("app", .text p.name)]
  Block.ofRecords [
    [("apiVersion", .text "apps/v1"), ("kind", .text "Deployment"),
      ("metadata", .record [("name", .text p.name), ("labels", app)]),
      ("spec", .record [("replicas", .int 3), ("selector", .record [("matchLabels", app)]),
        ("template", .record [("metadata", .record [("labels", app)]),
          ("spec", .record [("containers", .list [.record [("name", .text p.name),
            ("image", .text (p.name ++ ":latest")),
            ("ports", .list [.record [("containerPort", .int 3000)]]),
            ("env", clusterEnvironment p)]])])])])],
    [("apiVersion", .text "v1"), ("kind", .text "Service"),
      ("metadata", .record [("name", .text (p.name ++ "-service"))]),
      ("spec", .record [("selector", app),
        ("ports", .list [.record [("protocol", .text "TCP"), ("port", .int 80),
          ("targetPort", .int 3000)]]),
        ("type", .text "LoadBalancer")])]]

def chart (name : String) : String :=
  Block.ofRecord [("apiVersion", .text "v2"), ("name", .text name),
    ("description", .text ("A Helm chart for " ++ name)), ("type", .text "application"),
    ("version", .text "0.1.0"), ("appVersion", .text "1.0.0")]

def monitoring (name : String) : String :=
  Block.ofRecord [("global", .record [("scrape_interval", .text "15s")]),
    ("scrape_configs", .list [.record [("job_name", .text name),
      ("static_configs", .list [.record [("targets", textList ["localhost:3000"])]]),
      ("metrics_path", .text "/metrics")]])]

def enterpriseFiles (p : Project) : List File :=
  [settingsFile "k8s/deployment.yml" (some "yaml") (deployment p),
    settingsFile "helm/Chart.yaml" (some "yaml") (chart p.name),
    settingsFile "monitoring/prometheus.yml" (some "yaml") (monitoring p.name)]

/-! ## Tiers -/

/-- The files of a tier. -/
def tierFiles (p : Project) : Tier → List File
  | .basic => basicFiles p.options
  | .advanced => basicFiles p.options ++ advancedFiles
  | .enterprise => basicFiles p.options ++ advancedFiles ++ enterpriseFiles p

def basicFeatures : List String := ["Docker support"]

def advancedFeatures : List String := ["CI pipeline", "Linting and formatting"]

def enterpriseFeatures : List String :=
  ["Kubernetes deployment", "Helm chart", "Prometheus monitoring"]

/-- What a tier offers. -/
def tierFeatures : Tier → List String
  | .basic => basicFeatures
  | .advanced => basicFeatures ++ advancedFeatures
  | .enterprise => basicFeatures ++ advancedFeatures ++ enterpriseFeatures

end Scaffold.Package
