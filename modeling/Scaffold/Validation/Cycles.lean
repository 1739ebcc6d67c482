import Scaffold.Validation.Subject

/-!
# Validation/Cycles — the cycles among models

Models and their relationships form a graph on model names: the first model of a name supplies the
edges, and edges to unknown names are left out.  Each elementary cycle is reported once, from its
member that comes first in input order: a search from a node only walks nodes after it.

A relationship whose target is a list or a mapping cannot be looked up, and ends the search.
-/

namespace Scaffold.Validation

open Document

/-- Nodes in order, each with the nodes that its edges lead to. -/
abbrev Graph := List (String × List String)

namespace Graph

def nodes (g : Graph) : List String := g.map (·.1)

/-- The nodes that the edges of a node lead to. -/
def targets (g : Graph) (node : String) : List String := (g.lookup node).getD []

/-- The place of a node in input order. -/
def position (g : Graph) (node : String) : Nat := g.nodes.idxOf node

/-- The cycles from `start` that go on from the end of `path`, which is kept backwards.  The first
argument bounds the number of further nodes. -/
def cyclesThrough (g : Graph) (start : String) : Nat → List String → List (List String)
  | 0, _ => []
  | _, [] => []
  | n + 1, node :: before =>
    (g.targets node).flatMap fun next =>
      if next = start then [(node :: before).reverse ++ [start]]
      else if (node :: before).contains next || g.position next ≤ g.position start then []
      else cyclesThrough g start n (next :: node :: before)

/-- Every elementary cycle, each as its nodes from the first in input order back to it. -/
def cycles (g : Graph) : List (List String) :=
  g.nodes.flatMap fun start => g.cyclesThrough start (g.length + 1) [start]

/-- A cycle as text. -/
def cycleText (nodes : List String) : String := " -> ".intercalate nodes

end Graph

/-- What keeps the rules about targets from their end. -/
inductive UnfitTarget where
  /-- A target that cannot be looked up, with the name of its kind. -/
  | unhashable (kind : String)
  /-- A value that the message about a relationship cannot show. -/
  | unwritable (u : Json.Unwritable)
deriving DecidableEq, Repr

def UnfitTarget.message : UnfitTarget → String
  | unhashable kind => s!"unhashable type: '{kind}'"
  | unwritable u => u.message

/-- The targets of relationships that are among the names, each once. -/
def edgesAmong (names : List String) (found : List String) :
    List Value → Except UnfitTarget (List String)
  | [] => .ok found
  | rel :: rels =>
    let target := look rel "target_model" "targetModel"
    if !target.isKey then .error (.unhashable target.barredKind)
    else match target with
      | .text t =>
        let isNew := names.contains t && !found.contains t
        edgesAmong names (if isNew then found ++ [t] else found) rels
      | _ => edgesAmong names found rels

/-- The distinct names of models, in order. -/
def modelNames (models : List Value) : List String :=
  (models.filterMap fun m => (look m "name").text?).foldl
    (fun names n => if names.contains n then names else names ++ [n]) []

/-- The first model of each name, in order. -/
def firstOfName (seen : List String) : List Value → List (String × Value)
  | [] => []
  | m :: ms =>
    match look m "name" with
    | .text n =>
      if seen.contains n then firstOfName seen ms else (n, m) :: firstOfName (n :: seen) ms
    | _ => firstOfName seen ms

/-- The graph of models. -/
def graphOf (models : List Value) : Except UnfitTarget Graph :=
  (firstOfName [] models).mapM fun (n, m) =>
    (edgesAmong (modelNames models) [] (lookItems m "relationships")).map fun ts => (n, ts)

/-- The cycles among models, as texts. -/
def circularReferences (models : List Value) : Except UnfitTarget (List String) :=
  (graphOf models).map fun g => g.cycles.map Graph.cycleText

end Scaffold.Validation
