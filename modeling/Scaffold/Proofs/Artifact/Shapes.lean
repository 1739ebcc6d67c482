import Scaffold.Proofs.Artifact.Contexts
import Scaffold.Proofs.Template.Forms

/-!
# Proofs/Artifact/Shapes — the record interface and the table of a model, line by line

The templates of a record and of a schema are forms, so what they say of a model is known without
rendering them: the three interfaces of a record list its members (`recordInterface_eq`), and a
schema is the statement that creates the table, with its columns, and behind it the indexes, the
relationships and the trigger (`schema_eq`).
-/

namespace Scaffold.Artifact

open Document Model Options Template Text

/-! ## The interfaces of a record -/

/-- The template of the interfaces of a record. -/
def recordForm : List Form :=
  let members : Form := .repeated "fields"
    [.text "  ", .hole "name", .hole "optionalMark", .text ": ", .hole "tsType", .text ";\n"]
  [.text "export interface ", .hole "modelName", .text " \x7b\n  id: string;\n", members,
    .kept "timestamps" [.text "  createdAt: Date;\n  updatedAt: Date;\n"],
    .kept "softDelete" [.text "  deletedAt?: Date | null;\n"],
    .text "\x7d\n\nexport interface Create", .hole "modelName", .text "Request \x7b\n", members,
    .text "\x7d\n\nexport interface Update", .hole "modelName", .text "Request \x7b\n",
    .repeated "fields"
      [.text "  ", .hole "name", .text "?: ", .hole "tsType", .text ";\n"],
    .text "\x7d\n"]

set_option maxRecDepth 20000 in
theorem tokens_modelInterface :
    (tokens Library.modelInterface.toList).map Token.placeless = Form.allTokens recordForm := by
  rw [tokens, ← tokensWithin_eq (Nat.le_refl _), Library.modelInterface, toList_paragraph]
  simp only [List.flatMap_cons, List.flatMap_nil, recordForm, Form.allTokens, Form.tokens,
    String.toList_append]
  repeat rw [String.toList_ofList]
  decide

/-- The line of a member of a record. -/
def memberLine (f : Field) : String :=
  "  " ++ f.name ++ (if f.required then "" else "?") ++ ": " ++ (Catalog.facts f.type).typescript ++ ";"

/-- The line of a member of a change, which may always be left out. -/
def changeLine (f : Field) : String :=
  "  " ++ f.name ++ "?: " ++ (Catalog.facts f.type).typescript ++ ";"

/-- The lines of the interfaces of a record. -/
def recordLines (m : Model) : List String :=
  ["export interface " ++ m.name ++ r" {", "  id: string;"] ++ m.dataFields.map memberLine ++
    (if m.metadata.timestamps then ["  createdAt: Date;", "  updatedAt: Date;"] else []) ++
    (if m.metadata.softDelete then ["  deletedAt?: Date | null;"] else []) ++
    [r"}", "", "export interface Create" ++ m.name ++ r"Request {"] ++ m.dataFields.map memberLine ++
    [r"}", "", "export interface Update" ++ m.name ++ r"Request {"] ++ m.dataFields.map changeLine ++
    [r"}"]

/-- The lines that a flag asks for, as one text. -/
theorem paragraph_ite (b : Bool) (ls : List String) :
    paragraph (if b then ls else []) = if b then paragraph ls else "" := by
  cases b <;> rfl

/-- What is repeated for a member of a record makes its line. -/
theorem fill_memberLine (m : Model) (f : Field) :
    Form.fillAll (("this", memberItem f) :: ((memberItem f).members ++ recordContext m))
      [.text "  ", .hole "name", .hole "optionalMark", .text ": ", .hole "tsType", .text ";\n"] =
        memberLine f ++ "\n" := by
  change "  " ++ (f.name ++ ((if f.required then "" else "?") ++ (": " ++
    ((Catalog.facts f.type).typescript ++ (";\n" ++ ""))))) = _
  apply String.toList_inj.mp
  simp only [memberLine, String.toList_append]
  repeat rw [String.toList_ofList]
  simp only [List.append_assoc, List.cons_append, List.nil_append]

/-- A member of a change, as its template has it. -/
theorem fill_changeLine (m : Model) (f : Field) :
    Form.fillAll (("this", memberItem f) :: ((memberItem f).members ++ recordContext m))
      [.text "  ", .hole "name", .text "?: ", .hole "tsType", .text ";\n"] =
        changeLine f ++ "\n" := by
  change "  " ++ (f.name ++ ("?: " ++ ((Catalog.facts f.type).typescript ++ (";\n" ++ "")))) = _
  apply String.toList_inj.mp
  simp only [changeLine, String.toList_append]
  repeat rw [String.toList_ofList]
  simp only [List.append_assoc, List.cons_append, List.nil_append]

/-- The form of a record is filled to its lines. -/
theorem fill_recordForm (m : Model) :
    Form.fillAll (recordContext m) recordForm = paragraph (recordLines m) := by
  have hname : (recordContext m).lookup "modelName" = some (.value (.text m.name)) := rfl
  have hfields : (recordContext m).lookup "fields" = some (.list (m.dataFields.map memberItem)) :=
    rfl
  have hstamps : (Form.kept "timestamps" [.text "  createdAt: Date;\n  updatedAt: Date;\n"]).fill
      (recordContext m) =
      paragraph (if m.metadata.timestamps then ["  createdAt: Date;", "  updatedAt: Date;"]
        else []) := by
    rw [Form.fill_kept rfl, paragraph_ite]
    congr 1
  have hdeleted : (Form.kept "softDelete" [.text "  deletedAt?: Date | null;\n"]).fill
      (recordContext m) =
      paragraph (if m.metadata.softDelete then ["  deletedAt?: Date | null;"] else []) := by
    rw [Form.fill_kept rfl, paragraph_ite]
    congr 1
  simp only [recordForm, Form.fillAll]
  simp only [Form.fill_text, Form.fill_hole hname, Form.fill_repeated hfields, fill_memberLine,
    fill_changeLine, hstamps, hdeleted]
  apply String.toList_inj.mp
  simp only [recordLines, String.toList_append, toList_paragraph, List.flatMap_append,
    List.flatMap_cons, List.flatMap_nil, String.toList_join, List.flatMap_map]
  repeat rw [String.toList_ofList]
  simp only [List.append_assoc, List.cons_append, List.nil_append, List.append_nil]

/-- **The rendered interface is the text of its lines.** -/
theorem recordInterface_eq (m : Model) :
    recordInterface Library.registry m = .ok (paragraph (recordLines m)) := by
  have hfits : Fits Whatever Library.modelInterfaceScope (recordContext m) :=
    fits_recordContext trivial fun _ _ => ⟨trivial, trivial, trivial⟩
  have htokens := tokens_modelInterface.trans (List.append_nil _).symm
  have hmem : ("model-interface", Library.modelInterface) ∈ Library.templates := by
    simp [Library.templates]
  obtain ⟨rest, hrender, hrest⟩ := Library.render_of_forms hmem Library.reads_modelInterface htokens
    hfits
  rw [hrest rfl, String.append_empty, fill_recordForm] at hrender
  rw [recordInterface, fromTemplate, hrender]
  rfl

/-! ## The table of a model -/

/-- The template of a table, up to the end of the statement that creates it. -/
def tableForm (d : Dialect) : List Form :=
  [.text "CREATE TABLE ", .hole "tableName", .text " (\n",
    .repeated "columns" [.text "  ", .hole "definition", .hole "separator", .text "\n"],
    .text (d.tableEnd ++ "\n")]

/-- The statement that creates the table of a model with given columns. -/
def tableText (d : Dialect) (m : Model) (definitions : List String) : String :=
  "CREATE TABLE " ++ m.tableName ++ " (\n" ++
    ",\n".intercalate (definitions.map fun c => "  " ++ c) ++ "\n" ++ d.tableEnd ++ "\n"

/-- Columns with commas between them. -/
theorem join_columnItems {line : Item → String}
    (hline : ∀ c sep, line (.record [("definition", textItem c), ("separator", textItem sep)]) =
      "  " ++ c ++ sep ++ "\n") {definitions : List String} (h : definitions ≠ []) :
    String.join ((columnItems definitions).map line) =
      ",\n".intercalate (definitions.map fun c => "  " ++ c) ++ "\n" := by
  fun_induction columnItems definitions with
  | case1 => exact absurd rfl h
  | case2 c => simp [hline]
  | case3 c cs hcs ih =>
    have hne : cs.map (fun c => "  " ++ c) ≠ [] := by simpa using hcs
    have hcomma : "," ++ "\n" = ",\n" := by decide
    rw [List.map_cons, String.join_cons, ih hcs, hline, List.map_cons,
      String.intercalate_cons_of_ne_nil hne, ← hcomma]
    simp only [String.append_assoc]

/-- The form of a table is filled to its statement. -/
theorem fill_tableForm {d : Dialect} {models : List Model} {m : Model} {definitions : List String}
    (h : definitions ≠ []) :
    Form.fillAll (schemaContext models m definitions) (tableForm d) = tableText d m definitions := by
  have hcolumns : (schemaContext models m definitions).lookup "columns" =
      some (.list ((columnItems definitions).map id)) := by
    rw [List.map_id]
    rfl
  have hname : (schemaContext models m definitions).lookup "tableName" =
    some (.value (.text m.tableName)) := rfl
  have hline (c sep : String) (context : List (String × Item)) :
      Form.fillAll (("this", .record [("definition", textItem c), ("separator", textItem sep)]) ::
        ([("definition", textItem c), ("separator", textItem sep)] ++ context))
        [.text "  ", .hole "definition", .hole "separator", .text "\n"] =
      "  " ++ c ++ sep ++ "\n" := by
    change "  " ++ (c ++ (sep ++ ("\n" ++ ""))) = _
    simp only [String.append_assoc, String.append_empty]
  have hfill : (Form.repeated "columns" [.text "  ", .hole "definition", .hole "separator",
      .text "\n"]).fill (schemaContext models m definitions) =
        ",\n".intercalate (definitions.map fun c => "  " ++ c) ++ "\n" := by
    rw [Form.fill_repeated hcolumns]
    exact join_columnItems (fun c sep => hline c sep _) h
  simp only [tableForm, Form.fillAll, Form.fill_text]
  rw [hfill, Form.fill_hole hname]
  unfold tableText
  simp only [String.append_assoc, String.append_empty]

/-! ## The schema of a model -/

/-- The function that the triggers of a dialect call, if they call one. -/
def Dialect.stampFunction : Dialect → String
  | postgresql =>
    paragraph ["CREATE OR REPLACE FUNCTION update_updated_at_column()", "RETURNS TRIGGER AS $$",
      "BEGIN", "  NEW.updated_at = NOW();", "  RETURN NEW;", "END;", "$$ LANGUAGE plpgsql;", ""]
  | mysql => ""

/-- What a trigger does at an update. -/
def Dialect.stampAction : Dialect → String
  | postgresql => "EXECUTE FUNCTION update_updated_at_column()"
  | mysql => "SET NEW.updated_at = CURRENT_TIMESTAMP"

/-- The template of what stands behind the table: the indexes, the relationships as comments, and
the trigger that keeps the time of the last update. -/
def extrasForm (d : Dialect) : List Form :=
  [.repeated "indexes" [.text "\nCREATE INDEX ", .hole "indexName", .text " ON ", .hole "tableName",
      .text "(", .hole "column", .text ");\n"],
    .repeated "relationships" [.text "\n-- ", .hole "kind", .text ": ", .hole "tableName", .text ".",
      .hole "sourceColumn", .text " -> ", .hole "targetTable", .text ".", .hole "targetColumn",
      .hole "cascade", .text "\n"],
    .kept "timestamps"
      [.text ("\n-- Keep updated_at current on every update\n" ++ d.stampFunction ++
        "CREATE TRIGGER update_"), .hole "tableName", .text "_updated_at\n  BEFORE UPDATE ON ",
        .hole "tableName", .text ("\n  FOR EACH ROW\n  " ++ d.stampAction ++ ";\n")]]

set_option maxRecDepth 20000 in
/-- The template for PostgreSQL is cut into the tokens of the forms. -/
theorem tokens_postgresqlSchema :
    (tokens Library.postgresqlSchema.toList).map Token.placeless =
      Form.allTokens (tableForm .postgresql ++ extrasForm .postgresql) := by
  rw [tokens, ← tokensWithin_eq (Nat.le_refl _), Library.postgresqlSchema, toList_unlines]
  simp only [List.map_cons, List.map_nil, tableForm, extrasForm, List.cons_append, List.nil_append,
    Form.allTokens, Form.tokens, String.toList_append, Dialect.tableEnd, Dialect.stampFunction,
    Dialect.stampAction, toList_paragraph, List.flatMap_cons, List.flatMap_nil]
  repeat rw [String.toList_ofList]
  decide

set_option maxRecDepth 20000 in
/-- So is the template for MySQL. -/
theorem tokens_mysqlSchema :
    (tokens Library.mysqlSchema.toList).map Token.placeless =
      Form.allTokens (tableForm .mysql ++ extrasForm .mysql) := by
  rw [tokens, ← tokensWithin_eq (Nat.le_refl _), Library.mysqlSchema, toList_unlines]
  simp only [List.map_cons, List.map_nil, tableForm, extrasForm, List.cons_append, List.nil_append,
    Form.allTokens, Form.tokens, String.toList_append, Dialect.tableEnd, Dialect.stampFunction,
    Dialect.stampAction]
  repeat rw [String.toList_ofList]
  decide

/-- The statement that creates the index of a column. -/
def indexText (m : Model) (column : String) : String :=
  "\nCREATE INDEX " ++ ("idx_" ++ m.tableName ++ "_" ++ column) ++ " ON " ++ m.tableName ++ "(" ++
    column ++ ");\n"

/-- The comment that tells of a relationship. -/
def relationshipText (models : List Model) (m : Model) (r : Relationship) : String :=
  "\n-- " ++ Schema.Named.text r.cardinality ++ ": " ++ m.tableName ++ "." ++
    Naming.snake r.sourceField ++ " -> " ++ targetTable models r.targetModel ++ "." ++
    Naming.snake r.targetField ++ (if r.cascadeDelete then " (ON DELETE CASCADE)" else "") ++ "\n"

/-- The statements that keep the time of the last update. -/
def stampText (d : Dialect) (m : Model) : String :=
  "\n-- Keep updated_at current on every update\n" ++ d.stampFunction ++
    ("CREATE TRIGGER update_" ++ m.tableName ++ "_updated_at\n  BEFORE UPDATE ON " ++ m.tableName ++
      "\n  FOR EACH ROW\n  " ++ d.stampAction ++ ";\n")

/-- What stands behind the table of a model. -/
def extrasText (d : Dialect) (models : List Model) (m : Model) : String :=
  String.join ((indexColumns m).map (indexText m)) ++
    (String.join (m.relationships.map (relationshipText models m)) ++
      if m.metadata.timestamps then stampText d m else "")

/-- The form of an index. -/
theorem fill_index {m : Model} {context : List (String × Item)}
    (hname : context.lookup "tableName" = some (textItem m.tableName)) (column : String) :
    Form.fillAll (("this", indexItem m column) :: ((indexItem m column).members ++ context))
      [.text "\nCREATE INDEX ", .hole "indexName", .text " ON ", .hole "tableName", .text "(",
        .hole "column", .text ");\n"] = indexText m column := by
  have hindex : (("this", indexItem m column) :: ((indexItem m column).members ++ context)).lookup
    "indexName" = some (.value (.text ("idx_" ++ m.tableName ++ "_" ++ column))) := rfl
  have hcolumn : (("this", indexItem m column) :: ((indexItem m column).members ++ context)).lookup
    "column" = some (.value (.text column)) := rfl
  have htable : (("this", indexItem m column) :: ((indexItem m column).members ++ context)).lookup
    "tableName" = some (.value (.text m.tableName)) := hname
  simp only [Form.fillAll, Form.fill_text, Form.fill_hole hindex, Form.fill_hole hcolumn,
    Form.fill_hole htable]
  unfold indexText
  simp only [String.append_assoc, String.append_empty]

/-- The form of a foreign key, with its comment. -/
theorem fill_relationship {models : List Model} {m : Model} {context : List (String × Item)}
    (hname : context.lookup "tableName" = some (textItem m.tableName)) (r : Relationship) :
    Form.fillAll (("this", relationshipItem models r) ::
        ((relationshipItem models r).members ++ context))
      [.text "\n-- ", .hole "kind", .text ": ", .hole "tableName", .text ".",
        .hole "sourceColumn", .text " -> ", .hole "targetTable", .text ".", .hole "targetColumn",
        .hole "cascade", .text "\n"] = relationshipText models m r := by
  let inner := ("this", relationshipItem models r) :: ((relationshipItem models r).members ++ context)
  have hkind : inner.lookup "kind" = some (.value (.text (Schema.Named.text r.cardinality))) := rfl
  have hsource : inner.lookup "sourceColumn" =
    some (.value (.text (Naming.snake r.sourceField))) := rfl
  have htarget : inner.lookup "targetTable" =
    some (.value (.text (targetTable models r.targetModel))) := rfl
  have hcolumn : inner.lookup "targetColumn" =
    some (.value (.text (Naming.snake r.targetField))) := rfl
  have hcascade : inner.lookup "cascade" =
    some (.value (.text (if r.cascadeDelete then " (ON DELETE CASCADE)" else ""))) := rfl
  have htable : inner.lookup "tableName" = some (.value (.text m.tableName)) := hname
  change Form.fillAll inner _ = _
  simp only [Form.fillAll, Form.fill_text, Form.fill_hole hkind, Form.fill_hole hsource,
    Form.fill_hole htarget, Form.fill_hole hcolumn, Form.fill_hole hcascade, Form.fill_hole htable]
  unfold relationshipText
  simp only [String.append_assoc, String.append_empty]

/-- The form of what keeps the time of the last change. -/
theorem fill_stamps {d : Dialect} {m : Model} {context : List (String × Item)}
    (hname : context.lookup "tableName" = some (textItem m.tableName)) :
    Form.fillAll context
      [.text ("\n-- Keep updated_at current on every update\n" ++ d.stampFunction ++
        "CREATE TRIGGER update_"), .hole "tableName", .text "_updated_at\n  BEFORE UPDATE ON ",
        .hole "tableName", .text ("\n  FOR EACH ROW\n  " ++ d.stampAction ++ ";\n")] =
      stampText d m := by
  simp only [Form.fillAll, Form.fill_text, Form.fill_hole hname]
  unfold stampText
  simp only [String.append_assoc, String.append_empty]

/-- What stands behind the table: indexes, foreign keys and triggers. -/
theorem fill_extrasForm {d : Dialect} {models : List Model} {m : Model} {definitions : List String} :
    Form.fillAll (schemaContext models m definitions) (extrasForm d) = extrasText d models m := by
  have hname : (schemaContext models m definitions).lookup "tableName" =
    some (textItem m.tableName) := rfl
  have hindexes : (schemaContext models m definitions).lookup "indexes" =
    some (.list ((indexColumns m).map (indexItem m))) := rfl
  have hrelationships : (schemaContext models m definitions).lookup "relationships" =
    some (.list (m.relationships.map (relationshipItem models))) := rfl
  have hstamps : (schemaContext models m definitions).lookup "timestamps" =
    some (.value (.bool m.metadata.timestamps)) := rfl
  rw [extrasForm, Form.fillAll, Form.fillAll, Form.fillAll, Form.fillAll, String.append_empty,
    Form.fill_repeated hindexes, Form.fill_repeated hrelationships, Form.fill_kept hstamps,
    fill_stamps hname, extrasText]
  exact congrArg₂ String.append
    (congrArg String.join (List.map_congr_left fun column _ => fill_index hname column))
    (congrArg₂ String.append
      (congrArg String.join (List.map_congr_left fun r _ => fill_relationship hname r)) rfl)

/-- The schema of a model with given columns: the statement that creates its table, and what stands
behind it. -/
theorem schema_eq {database : Database} {m : Model} {definitions : List String}
    (h : columnDefinitions database m = .ok definitions) (models : List Model) :
    schema Library.registry database models m =
      .ok (tableText (.ofDatabase database) m definitions ++
        extrasText (.ofDatabase database) models m) := by
  have hne : definitions ≠ [] := by
    obtain ⟨columns, -, rfl⟩ := Except.map_eq_ok_iff.mp h
    exact List.cons_ne_nil _ _
  have hfits := fits_schemaContext models m definitions
  have hfill (d : Dialect) : Form.fillAll (schemaContext models m definitions)
      (tableForm d ++ extrasForm d) = tableText d m definitions ++ extrasText d models m := by
    rw [Form.fillAll_append, fill_tableForm hne, fill_extrasForm]
  rw [schema, h]
  cases Dialect.ofDatabase database with
  | postgresql =>
    have hmem : ("postgresql-schema", Library.postgresqlSchema) ∈ Library.templates := by
      simp [Library.templates]
    obtain ⟨rest, hrender, hrest⟩ := Library.render_of_forms hmem Library.reads_postgresqlSchema
      (tokens_postgresqlSchema.trans (List.append_nil _).symm) hfits
    rw [hrest rfl, String.append_empty, hfill] at hrender
    simp only [fromTemplate, Dialect.schemaTemplate, hrender]
    rfl
  | mysql =>
    have hmem : ("mysql-schema", Library.mysqlSchema) ∈ Library.templates := by
      simp [Library.templates]
    obtain ⟨rest, hrender, hrest⟩ := Library.render_of_forms hmem Library.reads_mysqlSchema
      (tokens_mysqlSchema.trans (List.append_nil _).symm) hfits
    rw [hrest rfl, String.append_empty, hfill] at hrender
    simp only [fromTemplate, Dialect.schemaTemplate, hrender]
    rfl

end Scaffold.Artifact
