import Scaffold.Options.Export
import Scaffold.Document.Literal

/-!
# Options/Coerce — options from a section of an input

A choice outside its list is reported by its own error before the section is checked as a whole, so
the message names the option and what it may be.
-/

namespace Scaffold.Options

open Document Schema

/-- Why a section holds no options. -/
inductive Refusal where
  | unsupported (option : String) (given : Value) (allowed : List String)
  | notMapping (kind given : String)
  | invalid (kind : String) (issues : List Issue)

namespace Refusal

def message : Refusal → String
  | unsupported option given allowed =>
    s!"Unsupported {option} {given.literal}; expected one of: " ++ ", ".intercalate allowed
  | notMapping kind given => s!"{kind} expects a mapping, got {given}."
  | invalid kind issues => heading kind issues

end Refusal

/-- A kind of options: its name, its choices with their lists, its defaults and its reader. -/
structure Section (α : Type) where
  kind : String
  choices : List (String × List String)
  keys : List Key
  default : α
  read : Value → Checked α
  document : α → Value

def generationSection : Section Generation where
  kind := "GenerationOptions"
  choices :=
    [("framework", Named.texts Framework), ("database", Named.texts Database),
      ("authentication", Named.texts Strategy), ("language", Named.texts Language)]
  keys := Generation.keys
  default := Generation.default
  read := Generation.read
  document := Generation.document

def exportSection : Section Export where
  kind := "ExportOptions"
  choices := [("format", Named.texts ArchiveFormat), ("template", Named.texts Tier)]
  keys := Export.keys
  default := Export.default
  read := Export.read
  document := Export.document

namespace Section

variable {α : Type}

/-- The first choice of a mapping that is outside its list. -/
def unsupported? (s : Section α) (v : Value) : Option Refusal :=
  s.choices.findSome? fun (option, allowed) =>
    match v.member? option with
    | none => none
    | some x =>
      if x.text?.any allowed.contains then none else some (.unsupported option x allowed)

/-- The options of a section; an absent section has the defaults. -/
def coerce (s : Section α) (v : Value) : Except Refusal α :=
  if v matches .null then .ok s.default
  else if !v.isMapping then .error (.notMapping s.kind v.kind)
  else match s.unsupported? v with
    | some r => .error r
    | none => (s.read v).toExcept.mapError (.invalid s.kind)

/-- Options that were put together without a check: the members that are known, in order, with the
defaults of those that are absent. -/
def assembled (s : Section α) (v : Value) : Value :=
  let defaults := s.document s.default
  .record (s.keys.map fun k =>
    (k.spelling, match k.find? v with
      | some (_, x) => x
      | none => (defaults.member? k.spelling).getD .null))

/-- Options that were put together without a check are tested for choices outside their list and are
otherwise taken as they are. -/
def recheck (s : Section α) (v : Value) : Except Refusal Value :=
  match s.unsupported? v with
  | some r => .error r
  | none => .ok v

/-- The key of which a text is a spelling. -/
def keyOf? (s : Section α) (spelling : String) : Option Key :=
  s.keys.find? fun k => k.name = spelling || k.external = some spelling

/-- A mapping without either spelling of a key. -/
def cleared (s : Section α) (spelling : String) (base : Value) : Value :=
  match s.keyOf? spelling with
  | some k => (base.eraseMember k.name).eraseMember k.spelling
  | none => base

/-- A mapping with overrides: each replaces both spellings of its key. -/
def override (s : Section α) (base : Value) (overrides : Members) : Value :=
  overrides.foldl (fun v (key, x) => (s.cleared key v).putMember key x) base.separated

end Section

end Scaffold.Options
