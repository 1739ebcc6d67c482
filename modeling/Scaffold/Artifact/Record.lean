import Scaffold.Template.Render
import Scaffold.Catalog.Types

/-!
# Artifact/Record — what is rendered from registered templates for a model

The record interface and the controller are templates.  A registry may hold other templates under
their names, so rendering can fail; a `Failure` says why a file has no text.
-/

namespace Scaffold.Artifact

open Document

/-! ## Failures -/

inductive Failure where
  /-- The template of the file cannot be rendered. -/
  | template (f : Template.Failure)
  /-- A value that the file shows cannot be written. -/
  | unwritable (u : Json.Unwritable)
deriving DecidableEq, Repr

def Failure.message : Failure → String
  | template f => f.message
  | unwritable u => u.message

/-- The text of a registered template. -/
def fromTemplate (r : Template.Registry) (name : String)
    (context : List (String × Template.Item)) : Except Failure String :=
  (r.render name (.record context)).mapError .template

/-! ## Records and controllers -/

open Template

def textItem (s : String) : Item := .value (.text s)

def flagItem (b : Bool) : Item := .value (.bool b)

/-- A field as the interface template sees it. -/
def memberItem (f : Model.Field) : Item :=
  .record [("name", textItem f.name), ("tsType", textItem (Catalog.facts f.type).typescript),
    ("optionalMark", textItem (if f.required then "" else "?"))]

/-- What the interface template sees of a model. -/
def recordContext (m : Model) : List (String × Item) :=
  [("modelName", textItem m.name), ("fields", .list (m.dataFields.map memberItem)),
    ("timestamps", flagItem m.metadata.timestamps), ("softDelete", flagItem m.metadata.softDelete)]

/-- The interfaces of a record and of the requests that create and update it. -/
def recordInterface (r : Registry) (m : Model) : Except Failure String :=
  fromTemplate r "model-interface" (recordContext m)

/-- The controller of a model. -/
def controller (r : Registry) (m : Model) : Except Failure String :=
  fromTemplate r "express-controller"
    [("modelName", textItem m.name), ("serviceVar", textItem (Naming.camel m.name ++ "Service"))]

end Scaffold.Artifact
