import Scaffold.Artifact.Record
import Scaffold.Options.Generation

/-!
# Artifact/Schema — the table, the indexes and the relationships of a model

A relationship becomes an index on its source column and a comment; constraints between tables are
left out, since schema files may be applied in any order.
-/

/-! ## Where the relational databases differ -/

namespace Scaffold.Artifact

open Options

/-- A dialect of SQL. -/
inductive Dialect where
  | postgresql
  | mysql
deriving DecidableEq, Repr

namespace Dialect

/-- The dialect of a database.  One without a dialect of its own is written to as PostgreSQL. -/
def ofDatabase : Database → Dialect
  | .mysql => mysql
  | _ => postgresql

/-- The type of a moment. -/
def stamp : Dialect → String
  | postgresql => "TIMESTAMP WITH TIME ZONE"
  | mysql => "DATETIME"

/-- The present moment. -/
def now : Dialect → String
  | postgresql => "NOW()"
  | mysql => "CURRENT_TIMESTAMP"

/-- The place of the `n`th parameter of a statement. -/
def parameter (d : Dialect) (n : Nat) : String :=
  match d with
  | postgresql => "$" ++ toString n
  | mysql => "?"

/-- The definition of the identifying column. -/
def identifierColumn : Dialect → String
  | postgresql => "id UUID PRIMARY KEY DEFAULT gen_random_uuid()"
  | mysql => "id CHAR(36) NOT NULL PRIMARY KEY DEFAULT (UUID())"

/-- What ends the definition of a table. -/
def tableEnd : Dialect → String
  | postgresql => ");"
  | mysql => ") ENGINE=InnoDB DEFAULT CHARSET=utf8mb4;"

end Dialect

end Scaffold.Artifact

namespace Scaffold.Artifact

open Document Model Template Options

/-! ## Literals -/

/-- A text as an SQL literal: a quote inside it is written twice. -/
def sqlText (s : String) : String :=
  String.ofList ('\'' :: s.toList.flatMap (fun c => if c = '\'' then [c, c] else [c]) ++ ['\''])

/-- A value as an SQL literal; a list or mapping becomes the text of its document. -/
def sqlLiteral (v : Value) : Except Failure String :=
  match v with
  | .bool b => .ok (if b then "TRUE" else "FALSE")
  | .int _ | .real _ => v.spelled.mapError .unwritable
  | .list _ | .record _ | .table _ => ((Json.dump .line v).mapError .unwritable).map sqlText
  | _ => (v.spelled.mapError .unwritable).map sqlText

/-! ## Columns -/

/-- The default of a column, if its field has one. -/
def columnDefault : Value → Except Failure (List String)
  | .null => .ok []
  | v => (sqlLiteral v).map fun s => ["DEFAULT " ++ s]

/-- The definition of the column of a field. -/
def columnDefinition (database : Database) (f : Field) : Except Failure String :=
  (columnDefault f.default).map fun default =>
    " ".intercalate ([Naming.snake f.name, Catalog.columnType f.type database] ++
      (if f.required then ["NOT NULL"] else []) ++ (if f.unique then ["UNIQUE"] else []) ++ default)

/-- The columns that the metadata of a model ask for. -/
def systemColumns (d : Dialect) (m : Metadata) : List String :=
  (if m.timestamps then
    ["created_at " ++ d.stamp ++ " NOT NULL DEFAULT " ++ d.now,
      "updated_at " ++ d.stamp ++ " NOT NULL DEFAULT " ++ d.now]
  else []) ++
    if m.softDelete then ["deleted_at " ++ d.stamp] else []

/-- The definitions of all columns of a model. -/
def columnDefinitions (database : Database) (m : Model) : Except Failure (List String) :=
  let d := Dialect.ofDatabase database
  (m.dataFields.mapM (columnDefinition database)).map fun columns =>
    d.identifierColumn :: columns ++ systemColumns d m.metadata

/-- The definitions, with a comma after each but the last. -/
def columnItems : List String → List Item
  | [] => []
  | [c] => [.record [("definition", textItem c), ("separator", textItem "")]]
  | c :: cs => .record [("definition", textItem c), ("separator", textItem ",")] :: columnItems cs

/-! ## Relationships -/

/-- The table of a model by its name: that of the last model of the list that has the name, or else
the name in small letters with an `s`. -/
def targetTable (models : List Model) (name : String) : String :=
  match models.reverse.find? (·.name == name) with
  | some m => m.tableName
  | none => Text.lower name ++ "s"

/-- A relationship as the schema template sees it. -/
def relationshipItem (models : List Model) (r : Relationship) : Item :=
  .record [("kind", textItem (Schema.Named.text r.cardinality)),
    ("sourceColumn", textItem (Naming.snake r.sourceField)),
    ("targetTable", textItem (targetTable models r.targetModel)),
    ("targetColumn", textItem (Naming.snake r.targetField)),
    ("cascade", textItem (if r.cascadeDelete then " (ON DELETE CASCADE)" else ""))]

/-- The columns that get an index: the source columns of the relationships other than the
identifier, each once. -/
def indexColumns (m : Model) : List String :=
  m.relationships.foldl (fun columns r =>
    let column := Naming.snake r.sourceField
    if column = "id" || columns.contains column then columns else columns ++ [column]) []

def indexItem (m : Model) (column : String) : Item :=
  .record [("indexName", textItem ("idx_" ++ m.tableName ++ "_" ++ column)),
    ("column", textItem column)]

/-! ## The schema -/

/-- What the schema template sees of a model with given column definitions. -/
def schemaContext (models : List Model) (m : Model) (definitions : List String) :
    List (String × Item) :=
  [("tableName", textItem m.tableName), ("columns", .list (columnItems definitions)),
    ("indexes", .list ((indexColumns m).map (indexItem m))),
    ("relationships", .list (m.relationships.map (relationshipItem models))),
    ("timestamps", flagItem m.metadata.timestamps)]

/-- The template of the schemas of a dialect. -/
def Dialect.schemaTemplate : Dialect → String
  | postgresql => "postgresql-schema"
  | mysql => "mysql-schema"

/-- The schema of a model among the models of its project. -/
def schema (r : Registry) (database : Database) (models : List Model) (m : Model) :
    Except Failure String :=
  match columnDefinitions database m with
  | .error e => .error e
  | .ok definitions =>
    fromTemplate r (Dialect.ofDatabase database).schemaTemplate (schemaContext models m definitions)

end Scaffold.Artifact
