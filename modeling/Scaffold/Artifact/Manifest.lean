import Scaffold.Catalog.Manifest
import Scaffold.Document.Json.Printer

/-!
# Artifact/Manifest — the package manifest and the compiler settings
-/

namespace Scaffold.Artifact

open Document Options

/-- A document as the text of a file: two blanks for each level, in ASCII. -/
def documentText (v : Value) : String := Json.print (.indented [' ', ' '] true) v ++ "\n"

/-- A table as a document. -/
def tableDocument (t : Catalog.Table) : Value := .record (t.map fun (k, x) => (k, .text x))

/-- The settings of the test runner, which reports no diagnostics where types are not checked. -/
def testSettings (o : Generation) : Value :=
  .record ([("testEnvironment", Value.text "node"), ("preset", .text "ts-jest")] ++
    if o.isTypescript then []
    else
      [("transform", Value.record [(r"^.+\.ts$",
        .list [.text "ts-jest", .record [("diagnostics", .bool false)]])])])

/-- The manifest of a project. -/
def manifest (o : Generation) (packageName : String) : Value :=
  .record ([("name", Value.text packageName), ("version", .text "1.0.0"),
    ("description", .text "Generated API project"), ("main", .text "dist/app.js"),
    ("scripts", tableDocument (Catalog.scripts o)),
    ("dependencies", tableDocument (Catalog.dependencies o)),
    ("devDependencies", tableDocument (Catalog.devDependencies o))] ++
    if o.includeTests then [("jest", testSettings o)] else [])

/-- The file `package.json`. -/
def packageJson (o : Generation) (packageName : String) : String :=
  documentText (manifest o packageName)

/-- Settings that compile `src/` into `dist/`.  Without strict checking there are no declarations,
and plain scripts are admitted beside the emitted ones. -/
def compilerSettings (o : Generation) : Value :=
  let strict := o.isTypescript
  .record ([("target", Value.text "ES2020"), ("module", .text "commonjs"),
    ("lib", .list [.text "ES2020"]), ("outDir", .text "./dist"), ("rootDir", .text "./src"),
    ("strict", .bool strict), ("esModuleInterop", .bool true), ("skipLibCheck", .bool true),
    ("forceConsistentCasingInFileNames", .bool true), ("resolveJsonModule", .bool true)] ++
    (if strict then [("declaration", Value.bool true), ("declarationMap", .bool true)]
      else [("allowJs", Value.bool true)]) ++
    [("sourceMap", Value.bool true)])

/-- The file `tsconfig.json`. -/
def tsconfig (o : Generation) : String :=
  documentText (.record [("compilerOptions", compilerSettings o),
    ("include", .list [.text "src/**/*"]),
    ("exclude", .list [.text "node_modules", .text "dist", .text "src/**/*.test.ts"])])

end Scaffold.Artifact
