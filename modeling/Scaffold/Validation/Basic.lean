import Scaffold.Validation.Rules
import Scaffold.Validation.Cycles

/-!
# Validation/Basic — all rules over a list of models

Errors keep a project from being generated; warnings and cycles do not.  There is no result where a
message cannot be written or a target cannot be looked up.
-/

namespace Scaffold.Validation

open Document

/-- The findings of all models, each under its place in the list. -/
def validateEach (i : Nat) (r : Result) : List (Subject Model) → Result
  | [] => r
  | m :: ms => validateEach (i + 1) (r.merge s!"models[{i}]" (validateModel m)) ms

/-- All rules over a list of models. -/
def validateModels (models : List (Subject Model)) : Except UnfitTarget Result :=
  let documents := models.map (·.document Model.document)
  match unsayable? documents with
  | some u => .error (.unwritable u)
  | none =>
    let r := ((validateEach 0 .empty models).merge "" (validateModelNames documents)).merge ""
      (validateRelationships documents)
    (circularReferences documents).map fun cycles => { r with cycles := r.cycles ++ cycles }

end Scaffold.Validation
