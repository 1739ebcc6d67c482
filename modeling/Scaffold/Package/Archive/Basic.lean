import Scaffold.Artifact.Manifest
import Scaffold.Options.Coerce
import Scaffold.Package.Basic

/-!
# Package/Archive/Basic — what an archive holds

An archive holds the metadata as `project.json`, the instructions as `SETUP.md`, and then the files
of the package in order.
-/

namespace Scaffold.Package

open Document Options

/-- A file of an archive. -/
structure Entry where
  name : String
  content : String
deriving DecidableEq, Repr

/-- The entries of a package, in the order in which they are stored. -/
def entries (p : Package) : List Entry :=
  ⟨"project.json", Artifact.documentText p.metadata.document⟩ ::
    ⟨"SETUP.md", p.setupInstructions⟩ :: p.files.map fun f => ⟨f.path, f.content⟩

/-- The name fits the header of a tar entry: at most a hundred characters, all ASCII. -/
def isShortName (name : String) : Bool := name.length ≤ 100 && name.toList.all (·.toNat < 128)

/-- The name under which an archive gives an entry back.  A name in a header of fixed form ends
before its first zero character; any other loses slashes at its end. -/
def readName (format : ArchiveFormat) (name : String) : String :=
  let cs := name.toList
  match format with
  | .zip => String.ofList (cs.takeWhile (· ≠ '\x00'))
  | .tar =>
    if isShortName name then String.ofList (cs.takeWhile (· ≠ '\x00'))
    else String.ofList (Text.dropTail (· == '/') cs)

/-- What the name of an archive ends in. -/
def extension : ArchiveFormat → String
  | .zip => ".zip"
  | .tar => ".tar.gz"

def mediaType : ArchiveFormat → String
  | .zip => "application/zip"
  | .tar => "application/gzip"

/-- The name of the archive of a project. -/
def archiveName (name : String) (format : ArchiveFormat) : String := name ++ extension format

/-- The archive format that a value names. -/
def formatOf (v : Value) : Except Refusal ArchiveFormat :=
  match Schema.Named.ofText? v.shown with
  | some f => .ok f
  | none => .error (.unsupported "format" v (Schema.Named.texts ArchiveFormat))

end Scaffold.Package
