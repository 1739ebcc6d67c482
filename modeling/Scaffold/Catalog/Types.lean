import Scaffold.Model.Field
import Scaffold.Options.Generation

/-!
# Catalog/Types — what a field type is in the generated code

For each declared type: the type of the member in an interface, the column type of either relational
database, the value used in generated tests, and the check that request bodies pass.
-/

namespace Scaffold.Catalog

open Document Model Options

structure TypeFacts where
  typescript : String
  postgresql : String
  mysql : String
  /-- A fixed value, so that generated tests can be repeated. -/
  sample : Value
  check : String

/-- What is taken for a type that is not known. -/
def unknownFacts : TypeFacts :=
  ⟨"string", "VARCHAR(255)", "VARCHAR(255)", .text "test value", "isString()"⟩

/-- A decimal constant. -/
def decimal (digits : Nat) (exponent : Int) : Value :=
  .real (Number.Binary64.ofDecimal false digits exponent)

def facts : FieldType → TypeFacts
  | .string => ⟨"string", "VARCHAR(255)", "VARCHAR(255)", .text "test string", "isString()"⟩
  | .text => ⟨"string", "TEXT", "TEXT", .text "test text content", "isString()"⟩
  | .number => ⟨"number", "NUMERIC", "DOUBLE", .int 42, "isNumeric()"⟩
  | .integer => ⟨"number", "INTEGER", "INT", .int 42, "isInt()"⟩
  | .float => ⟨"number", "REAL", "FLOAT", decimal 425 (-1), "isFloat()"⟩
  | .decimal => ⟨"number", "DECIMAL", "DECIMAL(12, 2)", decimal 4299 (-2), "isDecimal()"⟩
  | .boolean => ⟨"boolean", "BOOLEAN", "BOOLEAN", .bool true, "isBoolean()"⟩
  | .date =>
    ⟨"Date", "TIMESTAMP WITH TIME ZONE", "DATETIME", .text "2024-01-01T00:00:00.000Z",
      "isISO8601()"⟩
  | .email => ⟨"string", "VARCHAR(255)", "VARCHAR(255)", .text "test@example.com", "isEmail()"⟩
  | .url => ⟨"string", "TEXT", "TEXT", .text "https://example.com", "isURL()"⟩
  | .uuid =>
    ⟨"string", "UUID", "CHAR(36)", .text "123e4567-e89b-12d3-a456-426614174000", "isUUID()"⟩
  | .json =>
    ⟨"Record<string, unknown>", "JSONB", "JSON", .record [("key", .text "value")], "isObject()"⟩

/-- The facts of the type with a given text. -/
def factsOf (type : String) : TypeFacts := ((Schema.Named.ofText? type).map facts).getD unknownFacts

/-- The column type in a relational database; any database but MySQL has the types of PostgreSQL. -/
def TypeFacts.column (f : TypeFacts) (database : Option Database) : String :=
  match database with
  | some .mysql => f.mysql
  | _ => f.postgresql

/-- The column type of a field type. -/
def columnType (type : FieldType) (database : Database) : String := (facts type).column database

end Scaffold.Catalog
