import Scaffold.Options.Generation

/-!
# Catalog/Manifest — packages and scripts of the generated manifest

Every emitted source is TypeScript, so its compiler and type packages are there whatever the
language option says.
-/

namespace Scaffold.Catalog

open Options

/-- Names with their version ranges, or scripts with their commands. -/
abbrev Table := List (String × String)

def basePackages : Table :=
  [("express", "^4.18.2"), ("cors", "^2.8.5"), ("dotenv", "^16.3.1"),
    ("express-validator", "^7.0.1")]

def compilerPackages : Table := [("typescript", "^5.0.0")]

def databasePackages : Database → Table
  | .postgresql => [("pg", "^8.11.0")]
  | .mysql => [("mysql2", "^3.6.0")]
  | .mongodb => [("mongodb", "^6.0.0")]

def strategyPackages : Strategy → Table
  | .none => []
  | .jwt => [("jsonwebtoken", "^9.0.0"), ("bcryptjs", "^2.4.3")]
  | .session => [("express-session", "^1.17.3"), ("bcryptjs", "^2.4.3")]
  | .oauth =>
    [("passport", "^0.6.0"), ("passport-oauth2", "^1.7.0"), ("express-session", "^1.17.3"),
      ("bcryptjs", "^2.4.3")]

/-- The packages that the generated service runs with. -/
def dependencies (o : Generation) : Table :=
  basePackages ++ compilerPackages ++ databasePackages o.database.value ++
    strategyPackages o.authentication.value

def baseTools : Table := [("@types/node", "^20.0.0"), ("nodemon", "^3.0.0")]

def compilerTools : Table :=
  [("@types/express", "^4.17.17"), ("@types/cors", "^2.8.13"), ("ts-node", "^10.9.0")]

def databaseTools : Database → Table
  | .postgresql => [("@types/pg", "^8.10.0")]
  | _ => []

def strategyTools : Strategy → Table
  | .none => []
  | .jwt => [("@types/jsonwebtoken", "^9.0.0"), ("@types/bcryptjs", "^2.4.0")]
  | .session => [("@types/express-session", "^1.17.7"), ("@types/bcryptjs", "^2.4.0")]
  | .oauth =>
    [("@types/passport", "^1.0.12"), ("@types/passport-oauth2", "^1.4.12"),
      ("@types/express-session", "^1.17.7"), ("@types/bcryptjs", "^2.4.0")]

def testTools : Table :=
  [("jest", "^29.0.0"), ("supertest", "^6.3.0"), ("@types/jest", "^29.0.0"),
    ("@types/supertest", "^2.0.0"), ("ts-jest", "^29.1.0")]

/-- The packages that the generated service is built and tested with. -/
def devDependencies (o : Generation) : Table :=
  baseTools ++ compilerTools ++ databaseTools o.database.value ++
    strategyTools o.authentication.value ++ if o.includeTests then testTools else []

/-- The scripts of the manifest.  Either language is compiled to the same place; JavaScript only
relaxes the checking of types. -/
def scripts (o : Generation) : Table :=
  [("start", "node dist/app.js"),
    ("dev", if o.isTypescript then "nodemon --exec ts-node src/app.ts"
      else "nodemon --exec \"ts-node --transpile-only src/app.ts\""),
    ("build", "tsc"),
    ("test", if o.includeTests then "jest" else "echo \"No tests configured\"")]

end Scaffold.Catalog
