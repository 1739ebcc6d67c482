import Scaffold.Template.Library

/-!
# Template/Session — a registry in use

A registry is opened with templates and then answers requests, one after the other.  A request that
fails has its failure for an answer, and the registry goes on as it was.
-/

namespace Scaffold.Template

/-- What a registry can be asked for. -/
inductive Request where
  | add (name source : String)
  | render (name : String) (context : Item)
  | renderText (source : String) (context : Item)
  | source (name : String)
  | has (name : String)
  | names
  | size

inductive Answer where
  | done
  | text (s : String)
  | flag (b : Bool)
  | names (ns : List String)
  | count (n : Nat)

namespace Registry

/-- The templates that a registry is opened with: those of the library, if asked for, and then those
that are given. -/
def initial (library : Bool) (given : List (String × String)) : List (String × String) :=
  (if library then Library.templates else []) ++ given

/-- A new registry. -/
def opened (library : Bool) (given : List (String × String)) : Except Malformed Registry :=
  empty.addAll (initial library given)

/-- The registry behind a request, and the answer. -/
def handle (r : Registry) : Request → Registry × Except Failure Answer
  | .add name source =>
    match r.add name source with
    | .ok r' => (r', .ok .done)
    | .error m => (r, .error (.malformed m))
  | .render name context => (r, (r.render name context).map .text)
  | .renderText source context => (r, (Template.renderText source context).map .text)
  | .source name => (r, (r.source name).map .text)
  | .has name => (r, .ok (.flag (r.has name)))
  | .names => (r, .ok (.names r.names))
  | .size => (r, .ok (.count r.size))

/-- The registry behind requests in turn, and their answers. -/
def serve (r : Registry) : List Request → Registry × List (Except Failure Answer)
  | [] => (r, [])
  | q :: qs =>
    let (r', a) := r.handle q
    let (r'', as) := r'.serve qs
    (r'', a :: as)

end Registry

end Scaffold.Template
