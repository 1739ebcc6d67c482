import Scaffold.Model.Basic

/-!
# Validation/Subject — what is validated

A subject is a document as it came, well-formed or not, or an entity that was read from one.  Rules
read both through the same tolerant access: a member that is absent, or sought in something that is
no mapping, is null.
-/

namespace Scaffold.Validation

open Document

/-- A document, or an entity read from one. -/
inductive Subject (α : Type) where
  | raw (v : Value)
  | entity (a : α)

/-- The subject as the rules see it. -/
def Subject.document {α : Type} (write : α → Value) : Subject α → Value
  | .raw v => v
  | .entity a => write a

/-- The member of a mapping under one of two spellings, null if there is none. -/
def look (v : Value) (name : String) (other : String := name) : Value :=
  ((v.member? name).or (v.member? other)).getD .null

/-- The items under a name, none if no list is there. -/
def lookItems (v : Value) (name : String) : List Value := (look v name).items

/-- The names of the fields of a model, whatever they are. -/
def fieldNames (model : Value) : List Value := (lookItems model "fields").map (look · "name")

/-- A value is one of the others. -/
def isAmong (v : Value) (others : List Value) : Bool := others.any (v.same ·)

end Scaffold.Validation
