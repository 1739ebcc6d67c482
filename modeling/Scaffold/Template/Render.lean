import Scaffold.Template.Node
import Scaffold.Template.Scope

/-!
# Template/Render — a template in a context, and templates under names

A reference that leads nowhere stays as it was written.  Inside an each-block the members of the
item and the item itself, as `this`, stand in front of the names outside.  A template is parsed when
it is registered, so a text that is no template never gets a name; registering a name again replaces
its template.
-/

namespace Scaffold.Template

/-- The scope of one item of an each-block. -/
def itemScope (outer item : Item) : Item :=
  .record (("this", item) :: item.members ++ outer.members)

/-- The items that an each-block repeats its body for. -/
def Item.repeated : Option Item → List Item
  | some (.list xs) => xs
  | _ => []

/-- The text of a reference. -/
def renderReference (context : Item) (path : List String) (raw : String) :
    Except RenderError String := do
  match ← context.follow path with
  | none => return raw
  | some item => item.text

mutual

/-- The text of a node. -/
def renderNode (context : Item) : Node → Except RenderError String
  | .text s => .ok s
  | .name n raw => renderReference context [n] raw
  | .path parts raw => renderReference context parts raw
  | .ifBlock path _ body _ =>
    match context.follow path with
    | .error e => .error e
    | .ok none => .ok ""
    | .ok (some flag) => if flag.isTruthy then renderNodes context body else .ok ""
  | .eachBlock path _ body _ =>
    match context.follow path with
    | .error e => .error e
    | .ok found =>
      ((Item.repeated found).mapM fun item => renderNodes (itemScope context item) body).map
        String.join

def renderNodes (context : Item) : List Node → Except RenderError String
  | [] => .ok ""
  | n :: ns => do return (← renderNode context n) ++ (← renderNodes context ns)

end

end Scaffold.Template

/-! ## Templates under names -/

namespace Scaffold.Template

/-- A registered template: its text and its nodes. -/
structure Entry where
  source : String
  nodes : List Node

/-- Why a registry gives no text. -/
inductive Failure where
  | notFound (name : String)
  | malformed (m : Malformed)
  | render (e : RenderError)
deriving DecidableEq, Repr

def Failure.message : Failure → String
  | notFound name => s!"Template '{name}' not found"
  | malformed m => m.message
  | render e => e.message

/-- Templates under names, the first registered first. -/
structure Registry where
  entries : List (String × Entry)

namespace Registry

def empty : Registry := ⟨[]⟩

def find? (r : Registry) (name : String) : Option Entry := r.entries.lookup name

/-- Registers a template, in the place of the one that has its name. -/
def add (r : Registry) (name source : String) : Except Malformed Registry :=
  (Node.parse source).map fun nodes => ⟨put ⟨source, nodes⟩ r.entries⟩
where
  put (e : Entry) : List (String × Entry) → List (String × Entry)
    | [] => [(name, e)]
    | (n, e') :: es => if n = name then (n, e) :: es else (n, e') :: put e es

/-- Registers templates in order; the first that is malformed ends it. -/
def addAll (r : Registry) : List (String × String) → Except Malformed Registry
  | [] => .ok r
  | (name, source) :: rest =>
    match r.add name source with
    | .ok r => r.addAll rest
    | .error e => .error e

def has (r : Registry) (name : String) : Bool := (r.find? name).isSome

/-- The names in alphabetical order. -/
def names (r : Registry) : List String := (r.entries.map (·.1)).mergeSort (· ≤ ·)

def size (r : Registry) : Nat := r.entries.length

def source (r : Registry) (name : String) : Except Failure String :=
  match r.find? name with
  | some e => .ok e.source
  | none => .error (.notFound name)

/-- The text of a registered template in a context. -/
def render (r : Registry) (name : String) (context : Item) : Except Failure String :=
  match r.find? name with
  | some e => (renderNodes context e.nodes).mapError .render
  | none => .error (.notFound name)

/-- A one-line description. -/
def summary (r : Registry) : String := s!"<TemplateEngine {r.size} templates>"

end Registry

/-- The text of a template that is not registered. -/
def renderText (source : String) (context : Item) : Except Failure String :=
  match Node.parse source with
  | .error m => .error (.malformed m)
  | .ok nodes => (renderNodes context nodes).mapError .render

end Scaffold.Template
