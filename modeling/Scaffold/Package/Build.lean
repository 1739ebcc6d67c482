import Scaffold.Document.Json.Reader
import Scaffold.Package.Basic
import Scaffold.Package.Deployment
import Scaffold.Package.Setup

/-!
# Package/Build — packing a project

A package holds the files of the project that the export asks for and those of its tier.  The
metadata take the dependencies and scripts from the manifest among the files; one that cannot be
read counts as empty, but nothing comes of one that is nested too deeply.
-/

namespace Scaffold.Package

open Document Options Project Schema

/-! ## The manifest -/

/-- The two parts of an item that is a pair: a list or text of two, or a mapping with two keys. -/
def pair? : Value → Option (Value × Value)
  | .list [a, b] => some (a, b)
  | .text s =>
    match s.toList with
    | [a, b] => some (.text a.toString, .text b.toString)
    | _ => none
  | .record [(a, _), (b, _)] => some (.text a, .text b)
  | _ => none

/-- Pairs as a mapping. -/
def ofPairs? (items : List Value) : Option (List (Value × Value)) :=
  items.foldlM (fun es item => do
    let (k, v) ← pair? item
    if k.isKey then some (Value.putEntry k v es) else none) []

/-- A section of a manifest as a mapping: a mapping or pairs, none if it counts as false. -/
def section? (v : Value) : Option Value :=
  if !v.isTruthy then some (.record [])
  else match v with
    | .record ms => some (.record ms)
    | .list items => (ofPairs? items).map .table
    | _ => none

/-- The dependencies, the development dependencies and the scripts of a manifest. -/
structure Sections where
  dependencies : Value
  devDependencies : Value
  scripts : Value

def Sections.empty : Sections := ⟨.record [], .record [], .record []⟩

/-- The sections of the text of a manifest. -/
def Sections.read? (content : String) : Option Sections :=
  match Json.parse? content with
  | some v =>
    if !v.isMapping then none
    else
      let named (name : String) : Option Value := section? ((v.member? name).getD .null)
      do return ⟨← named "dependencies", ← named "devDependencies", ← named "scripts"⟩
  | none => none

/-- The sections of the manifest of a project; empty if there is none that can be read. -/
def manifestSections (p : Project) : Sections :=
  match p.file? "package.json" with
  | some f => (Sections.read? f.content).getD .empty
  | none => .empty

/-- The limit that the manifest of a project breaks by its nesting. -/
def deepManifest? (p : Project) : Option Json.Fault :=
  match (p.file? "package.json").map fun f => Json.read f.content.toList with
  | some (.error ⟨.tooDeep isList, _⟩) => some (.tooDeep isList)
  | _ => none

/-! ## Metadata -/

/-- What the project offers in this export. -/
def features (o : Export) (p : Project) : List String :=
  let gen := p.options
  [gen.framework.shown ++ " framework", gen.database.shown ++ " database",
    gen.authentication.shown ++ " authentication", "RESTful API endpoints", "Input validation",
    "Error handling"] ++
    (if gen.includeTests && o.includeTests then ["Test suite"] else []) ++
    (if gen.includeDocumentation && o.includeDocumentation then ["OpenAPI documentation"]
      else []) ++
    (if p.models.isEmpty then [] else [toString p.models.length ++ " data models"]) ++
    (if p.endpoints.isEmpty then [] else [toString p.endpoints.length ++ " API endpoints"]) ++
    tierFeatures o.template.value

/-- The metadata of a project in an export. -/
def metadataOf (o : Export) (p : Project) : Checked Metadata :=
  let gen := p.options
  let sections := manifestSections p
  let texts (name : String) (v : Value) := (textMap v).under (.name name)
  (fun dependencies devDependencies scripts =>
    { name := p.name, version := "1.0.0"
      description := "Generated API project with " ++ toString p.models.length ++ " models and " ++
        toString p.endpoints.length ++ " endpoints"
      framework := Named.text gen.framework.value
      database := Named.text gen.database.value
      authentication := Named.text gen.authentication.value
      language := Named.text gen.language.value
      template := Named.text o.template.value
      features := features o p
      dependencies, devDependencies, scripts : Metadata })
    <$> texts "dependencies" sections.dependencies
    <*> texts "dev_dependencies" sections.devDependencies
    <*> texts "scripts" sections.scripts

/-- Why there is no package. -/
inductive Failure where
  /-- The manifest is nested too deeply. -/
  | manifest (f : Json.Fault)
  | metadata (issues : List Issue)
  | package (issues : List Issue)

def Failure.message : Failure → String
  | manifest f => f.message
  | metadata issues => heading "ProjectMetadata" issues
  | package issues => heading "ProjectPackage" issues

/-- The metadata of a project, or why there are none. -/
def describe (o : Export) (p : Project) : Except Failure Metadata :=
  match deepManifest? p with
  | some f => .error (.manifest f)
  | none => (metadataOf o p).toExcept.mapError .metadata

/-! ## Packages -/

/-- The file is part of the export. -/
def isExported (o : Export) (f : File) : Bool :=
  (o.includeTests || f.kind ≠ .test) && (o.includeDocumentation || f.kind ≠ .documentation)

/-- The files of an export: those of the project that it asks for, then those of its tier. -/
def exportedFiles (o : Export) (p : Project) : List File :=
  p.files.filter (isExported o) ++ tierFiles p o.template.value

/-- The package of a project. -/
def build (o : Export) (p : Project) : Checked Package :=
  (metadataOf o p).andThen fun metadata =>
    ((distinctFiles (exportedFiles o p)).under (.name "files")).map fun files =>
      { name := p.name, files, metadata, setupInstructions := instructions o p
        createdAt := none }

/-- The package of a project, or why there is none. -/
def pack (o : Export) (p : Project) : Except Failure Package :=
  match describe o p with
  | .error f => .error f
  | .ok _ => (build o p).toExcept.mapError .package

end Scaffold.Package
