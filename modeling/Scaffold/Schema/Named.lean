import Scaffold.Schema.Checked
import Scaffold.Text.Lettercase

/-!
# Schema/Named — choices from a closed list

A choice is written as one of a fixed list of texts.  Where a choice may be left open, a `Setting`
records whether it was made: an open choice has its default value, and in running text it is shown
by the name of its kind (`Framework.EXPRESS`) instead of its own text.
-/

namespace Scaffold.Schema

open Document

/-- A type with a closed list of values, each with its text. -/
class Named (α : Type) where
  all : List α
  text : α → String

/-- A closed list of values whose kind has a name. -/
class NamedKind (α : Type) extends Named α where
  kind : String

variable {α : Type}

/-- The texts of all choices. -/
def Named.texts (α : Type) [Named α] : List String := (Named.all (α := α)).map Named.text

/-- The choice with a given text. -/
def Named.ofText? [Named α] (s : String) : Option α :=
  (Named.all (α := α)).find? fun a => Named.text a == s

/-- A choice from the list. -/
def choice [Named α] (v : Value) : Checked α :=
  match v.readable?.bind Named.ofText? with
  | some a => .ok a
  | none => .fail (.notChoice (Named.texts α))

/-- A choice and whether it was left open. -/
structure Setting (α : Type) where
  value : α
  isOpen : Bool
deriving DecidableEq, Repr

namespace Setting

/-- A choice that was made. -/
def made (a : α) : Setting α := ⟨a, false⟩

/-- A choice left at its default. -/
def leftOpen (a : α) : Setting α := ⟨a, true⟩

/-- The choice in running text. -/
def shown [NamedKind α] (s : Setting α) : String :=
  let text := Named.text s.value
  if s.isOpen then NamedKind.kind α ++ "." ++ Text.upper text else text

/-- The choice as a document holds it. -/
def document [Named α] (s : Setting α) : Value := .text (Named.text s.value)

end Setting

/-- A choice that may be left open. -/
def setting [Named α] (v : Value) (k : Key) (default : α) : Checked (Setting α) :=
  optional v k (.leftOpen default) fun x => (choice x).map .made

end Scaffold.Schema
