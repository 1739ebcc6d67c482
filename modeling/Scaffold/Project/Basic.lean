import Scaffold.Model.Basic
import Scaffold.Options.Generation
import Scaffold.Project.File
import Scaffold.Project.Endpoint
import Scaffold.Project.Auth

/-!
# Project/Basic — everything that one generation produced
-/

namespace Scaffold

open Document Schema Project

structure Project where
  name : String
  models : List Model
  endpoints : List Endpoint
  auth : Auth
  files : List File
  openApi : Value
  options : Options.Generation

namespace Project

/-- A mapping with text keys, with values of any kind. -/
def textKeyed : Value → Checked Value
  | .record ms => .ok (.record ms)
  | .table es =>
    match es.filterMap (fun (k, _) => if k.text?.isSome then none else some (stepOf k)) with
    | [] => .ok (.table es)
    | steps => .bad (steps.map fun s => ⟨.notText, [s, .name "[key]"]⟩)
  | _ => .fail .notMapping

def read : Value → Checked Project :=
  entity "GeneratedProject" fun v =>
    (fun _ n m e a f s o _ _ => Project.mk n m e a f s o)
      <$> required v (.plain "id") text
      <*> required v (.plain "name") (boundedText 1 none)
      <*> optional v (.plain "models") [] (listOf Model.read)
      <*> optional v (.plain "endpoints") [] (listOf Endpoint.read)
      <*> optional v (.plain "auth") Auth.default Auth.read
      <*> optional v (.plain "files") [] (listOf File.read)
      <*> optional v ⟨"openapi", some "openAPISpec"⟩ (.record []) textKeyed
      <*> optional v (.plain "options") Options.Generation.default Options.Generation.read
      <*> optional v Model.createdAtKey none (fun x => (moment x).map some)
      <*> optional v Model.updatedAtKey none (fun x => (moment x).map some)

def paths (p : Project) : List String := p.files.map (·.path)

def file? (p : Project) (path : String) : Option File := p.files.find? (·.path == path)

def endpointsFor (p : Project) (model : String) : List Endpoint :=
  p.endpoints.filter (·.modelName == model)

/-- A one-line description. -/
def summary (p : Project) : String :=
  s!"<GeneratedProject {p.name} models={p.models.length} endpoints={p.endpoints.length} " ++
    s!"files={p.files.length}>"

end Project

end Scaffold
