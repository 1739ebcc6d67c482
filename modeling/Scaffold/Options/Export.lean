import Scaffold.Options.Generation

/-!
# Options/Export — the archive of a generated project
-/

namespace Scaffold.Options

open Document Schema

inductive ArchiveFormat where
  | zip
  | tar
deriving DecidableEq, Repr

instance : NamedKind ArchiveFormat where
  all := [.zip, .tar]
  text
    | .zip => "zip"
    | .tar => "tar"
  kind := "ExportFormat"

/-- How much is added for deployment. -/
inductive Tier where
  | basic
  | advanced
  | enterprise
deriving DecidableEq, Repr

instance : NamedKind Tier where
  all := [.basic, .advanced, .enterprise]
  text
    | .basic => "basic"
    | .advanced => "advanced"
    | .enterprise => "enterprise"
  kind := "TemplateTier"

structure Export where
  format : Setting ArchiveFormat
  includeTests : Bool
  includeDocumentation : Bool
  template : Setting Tier
deriving DecidableEq, Repr

namespace Export

/-- Every choice left open. -/
def default : Export := ⟨.leftOpen .zip, true, true, .leftOpen .basic⟩

def keys : List Key :=
  [.plain "format", includeTestsKey, includeDocumentationKey, .plain "template"]

def read : Value → Checked Export :=
  entity "ExportOptions" fun v =>
    (fun f t i p _ => Export.mk f t i p)
      <$> setting v (.plain "format") .zip
      <*> optional v includeTestsKey true bool
      <*> optional v includeDocumentationKey true bool
      <*> setting v (.plain "template") .basic
      <*> closed v keys

def document (o : Export) : Value :=
  .record [("format", o.format.document), ("includeTests", .bool o.includeTests),
    ("includeDocumentation", .bool o.includeDocumentation), ("template", o.template.document)]

end Export

end Scaffold.Options
