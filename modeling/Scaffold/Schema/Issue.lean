/-!
# Schema/Issue — what can be wrong with a document, and where

An issue pairs a cause with the path to the value at fault.  The cause alone fixes the code and the
message.
-/

namespace Scaffold.Schema

/-- One step of a path into a document. -/
inductive Step where
  | name (s : String)
  | index (n : Int)
deriving DecidableEq, Repr

/-- A path, outermost step first. -/
abbrev Path := List Step

/-- Why a value is refused. -/
inductive Cause where
  | missing
  | extra
  | invalidKey
  | notText
  /-- Bytes that are no text. -/
  | unreadableText
  | tooShort (least : Nat)
  | tooLong (most : Nat)
  | notList
  | notMapping
  | notEntity (kind : String)
  | notChoice (texts : List String)
  | notBool
  | unclearBool
  | notInt
  | unclearInt
  /-- A whole number of too many digits. -/
  | excessiveInt
  | fractional
  | notFinite
  | notNumber
  | unclearNumber
  | tooSmall (least : Nat)
  | tooLarge (most : Nat)
  | refused (reason : String)
  | notMoment
  | unclearMoment (reason : String)
  | unclearMomentOrDate (reason : String)
deriving DecidableEq, Repr

namespace Cause

def code : Cause → String
  | missing => "missing"
  | extra => "extra_forbidden"
  | invalidKey => "invalid_key"
  | notText => "string_type"
  | unreadableText => "string_unicode"
  | tooShort _ => "string_too_short"
  | tooLong _ => "string_too_long"
  | notList => "list_type"
  | notMapping => "dict_type"
  | notEntity _ => "model_type"
  | notChoice _ => "enum"
  | notBool => "bool_type"
  | unclearBool => "bool_parsing"
  | notInt => "int_type"
  | unclearInt => "int_parsing"
  | excessiveInt => "int_parsing_size"
  | fractional => "int_from_float"
  | notFinite => "finite_number"
  | notNumber => "float_type"
  | unclearNumber => "float_parsing"
  | tooSmall _ => "greater_than_equal"
  | tooLarge _ => "less_than_equal"
  | refused _ => "value_error"
  | notMoment => "datetime_type"
  | unclearMoment _ => "datetime_parsing"
  | unclearMomentOrDate _ => "datetime_from_date_parsing"

/-- `1 character`, `2 characters`. -/
def characters (n : Nat) : String := s!"{n} character" ++ if n = 1 then "" else "s"

/-- Quoted texts with commas between them and `or` before the last. -/
def alternatives : List String → String
  | [] => ""
  | [a] => s!"'{a}'"
  | [a, b] => s!"'{a}' or '{b}'"
  | a :: b :: rest => s!"'{a}', " ++ alternatives (b :: rest)

def message : Cause → String
  | missing => "Field required"
  | extra => "Extra inputs are not permitted"
  | invalidKey => "Keys should be strings"
  | notText => "Input should be a valid string"
  | unreadableText =>
    "Input should be a valid string, unable to parse raw data as a unicode string"
  | tooShort n => s!"String should have at least {characters n}"
  | tooLong n => s!"String should have at most {characters n}"
  | notList => "Input should be a valid list"
  | notMapping => "Input should be a valid dictionary"
  | notEntity kind => s!"Input should be a valid dictionary or instance of {kind}"
  | notChoice texts => s!"Input should be {alternatives texts}"
  | notBool => "Input should be a valid boolean"
  | unclearBool => "Input should be a valid boolean, unable to interpret input"
  | notInt => "Input should be a valid integer"
  | unclearInt => "Input should be a valid integer, unable to parse string as an integer"
  | excessiveInt => "Unable to parse input string as an integer, exceeded maximum size"
  | fractional => "Input should be a valid integer, got a number with a fractional part"
  | notFinite => "Input should be a finite number"
  | notNumber => "Input should be a valid number"
  | unclearNumber => "Input should be a valid number, unable to parse string as a number"
  | tooSmall n => s!"Input should be greater than or equal to {n}"
  | tooLarge n => s!"Input should be less than or equal to {n}"
  | refused reason => s!"Value error, {reason}"
  | notMoment => "Input should be a valid datetime"
  | unclearMoment reason => s!"Input should be a valid datetime, {reason}"
  | unclearMomentOrDate reason => s!"Input should be a valid datetime or date, {reason}"

end Cause

structure Issue where
  cause : Cause
  path : Path
deriving DecidableEq, Repr

/-- The issue seen from one step further out. -/
def Issue.under (step : Step) (i : Issue) : Issue := { i with path := step :: i.path }

/-- The first line of a report on an entity that cannot be read. -/
def heading (kind : String) (issues : List Issue) : String :=
  s!"{issues.length} validation error" ++ (if issues.length = 1 then "" else "s") ++ s!" for {kind}"

end Scaffold.Schema
