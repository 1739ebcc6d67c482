import Scaffold.Schema.Issue
import Scaffold.Document.Literal
import Scaffold.Number.Numeral

/-!
# Schema/Checked — reading an entity out of a document

A `Checked` is a value or the issues that stand in its way.  Combining two of them keeps the issues
of both, first those of the left one, so an entity that is read member by member reports the issues
of all its members in the order in which it declares them.

A member has a spelling of its own and may have a second one; `Key.find?` prefers the spelling used
in documents (`Key.external`) to the other.
-/

namespace Scaffold.Schema

open Document

/-- A value, or what is wrong with the document it was to be read from. -/
inductive Checked (α : Type) where
  | ok (a : α)
  | bad (issues : List Issue)
deriving Repr

instance {α : Type} : Inhabited (Checked α) := ⟨.bad []⟩

namespace Checked

variable {α β γ : Type}

def map (f : α → β) : Checked α → Checked β
  | ok a => ok (f a)
  | bad is => bad is

/-- Applies a function that was read to an argument that was read; the issues of both are kept. -/
def apply : Checked (α → β) → Checked α → Checked β
  | ok f, ok a => ok (f a)
  | ok _, bad is => bad is
  | bad is, ok _ => bad is
  | bad is, bad js => bad (is ++ js)

instance : Applicative Checked where
  map := Checked.map
  pure := Checked.ok
  seq f x := Checked.apply f (x ())

def fail (cause : Cause) : Checked α := bad [⟨cause, []⟩]

/-- The issues seen from one step further out. -/
def under (step : Step) : Checked α → Checked α
  | ok a => ok a
  | bad is => bad (is.map (·.under step))

/-- A further test of a value. -/
def andThen (x : Checked α) (f : α → Checked β) : Checked β :=
  match x with
  | ok a => f a
  | bad is => bad is

def toExcept : Checked α → Except (List Issue) α
  | ok a => .ok a
  | bad is => .error is

@[simp] theorem apply_ok_ok (f : α → β) (a : α) : apply (ok f) (ok a) = ok (f a) := rfl

theorem apply_eq_ok_iff {f : Checked (α → β)} {x : Checked α} {b : β} :
    apply f x = ok b ↔ ∃ g a, f = ok g ∧ x = ok a ∧ g a = b := by
  cases f <;> cases x <;> simp [apply]

end Checked

/-- The spellings under which a member is found. -/
structure Key where
  name : String
  external : Option String
deriving DecidableEq, Repr

namespace Key

/-- A member with one spelling. -/
def plain (name : String) : Key := ⟨name, none⟩

/-- The spelling used in documents. -/
def spelling (k : Key) : String := k.external.getD k.name

/-- The value of a member and the spelling under which it was found. -/
def find? (k : Key) (v : Value) : Option (String × Value) :=
  match v.member? k.spelling with
  | some x => some (k.spelling, x)
  | none => (v.member? k.name).map fun x => (k.name, x)

end Key

variable {α : Type}

/-- A member that must be there. -/
def required (v : Value) (k : Key) (read : Value → Checked α) : Checked α :=
  match k.find? v with
  | none => .bad [⟨.missing, [.name k.spelling]⟩]
  | some (used, x) => (read x).under (.name used)

/-- A member that has a default. -/
def optional (v : Value) (k : Key) (default : α) (read : Value → Checked α) : Checked α :=
  match k.find? v with
  | none => .ok default
  | some (used, x) => (read x).under (.name used)

/-- The step to a key: a text stands as it is, a truth value counts as a number, and all but small
numbers are shown as values, if they can be. -/
def stepOf : Value → Step
  | .text s => .name s
  | .bool b => .index (if b then 1 else 0)
  | .int n =>
    if Number.Numeral.fitsWord n then .index n
    else if Number.Numeral.isWritable n then .name (toString n)
    else .name "<unprintable int object>"
  | v => .name (if v.unspelled?.isSome then s!"<unprintable {v.kind} object>" else v.literal)

/-- No member is there but those of the given keys; of a key, only the spelling that is read
counts. -/
def closed (v : Value) (keys : List Key) : Checked Unit :=
  let used := keys.filterMap fun k => (k.find? v).map (·.1)
  let issues := ((v.entries?).getD []).filterMap fun (k, _) =>
    match k with
    | .text s => if used.contains s then none else some ⟨.extra, [.name s]⟩
    | k => some ⟨.invalidKey, [stepOf k]⟩
  if issues.isEmpty then .ok () else .bad issues

/-- An entity of the given kind, read from a mapping. -/
def entity (kind : String) (read : Value → Checked α) (v : Value) : Checked α :=
  if v.isMapping then read v else .fail (.notEntity kind)

/-- Null, or what `read` accepts. -/
def nullable (read : Value → Checked α) : Value → Checked (Option α)
  | .null => .ok none
  | v => (read v).map some

/-- The items of a list from the `i`-th on. -/
def itemsFrom (read : Value → Checked α) (i : Nat) : List Value → Checked (List α)
  | [] => .ok []
  | x :: xs => Checked.apply (((read x).under (.index i)).map List.cons) (itemsFrom read (i + 1) xs)

/-- A list of what `read` accepts. -/
def listOf (read : Value → Checked α) (v : Value) : Checked (List α) :=
  match v.sequence? with
  | some xs => itemsFrom read 0 xs
  | none => .fail .notList

end Scaffold.Schema
