import Scaffold.Project.File
import Scaffold.Schema.Moments

/-!
# Package/Basic — the files of an archive and what is said about them

The paths of a package are pairwise distinct; a document that repeats one is refused.
-/

namespace Scaffold.Package

open Document Schema Project

/-- What the archive says about the project. -/
structure Metadata where
  name : String
  version : String
  description : String
  framework : String
  database : String
  authentication : String
  language : String
  template : String
  features : List String
  dependencies : List (String × String)
  devDependencies : List (String × String)
  scripts : List (String × String)
deriving DecidableEq, Repr

namespace Metadata

def devDependenciesKey : Key := ⟨"dev_dependencies", some "devDependencies"⟩

def read : Value → Checked Metadata :=
  entity "ProjectMetadata" fun v =>
    Metadata.mk <$> required v (.plain "name") text
      <*> optional v (.plain "version") "1.0.0" text
      <*> optional v (.plain "description") "" text
      <*> required v (.plain "framework") text
      <*> required v (.plain "database") text
      <*> required v (.plain "authentication") text
      <*> required v (.plain "language") text
      <*> required v (.plain "template") text
      <*> optional v (.plain "features") [] (listOf text)
      <*> optional v (.plain "dependencies") [] textMap
      <*> optional v devDependenciesKey [] textMap
      <*> optional v (.plain "scripts") [] textMap

/-- A mapping from texts to texts as a value. -/
def mapDocument (ms : List (String × String)) : Value :=
  .record (ms.map fun (k, x) => (k, .text x))

def document (m : Metadata) : Value :=
  .record [("name", .text m.name), ("version", .text m.version),
    ("description", .text m.description), ("framework", .text m.framework),
    ("database", .text m.database), ("authentication", .text m.authentication),
    ("language", .text m.language), ("template", .text m.template),
    ("features", .list (m.features.map .text)), ("dependencies", mapDocument m.dependencies),
    ("devDependencies", mapDocument m.devDependencies), ("scripts", mapDocument m.scripts)]

end Metadata

end Scaffold.Package

namespace Scaffold

open Document Schema Project

structure Package where
  name : String
  files : List File
  metadata : Package.Metadata
  setupInstructions : String
  createdAt : Option Calendar.Moment

namespace Package

/-- Files whose paths are pairwise distinct. -/
def distinctFiles (fs : List File) : Checked (List File) :=
  match File.firstRepeated? fs with
  | some path => .fail (.refused s!"Duplicate file path in package: {path}")
  | none => .ok fs

def read : Value → Checked (String × Package) :=
  entity "ProjectPackage" fun v =>
    (fun i n f m s c => (i, Package.mk n f m s c))
      <$> required v (.plain "id") text
      <*> required v (.plain "name") (boundedText 1 none)
      <*> optional v (.plain "files") [] (fun x => (listOf File.read x).andThen distinctFiles)
      <*> required v (.plain "metadata") Metadata.read
      <*> optional v ⟨"setup_instructions", some "setupInstructions"⟩ "" text
      <*> optional v ⟨"created_at", some "createdAt"⟩ none (fun x => (moment x).map some)

def paths (p : Package) : List String := p.files.map (·.path)

/-- A one-line description. -/
def summary (p : Package) : String := s!"<ProjectPackage {p.name} files={p.files.length}>"

end Package

end Scaffold
