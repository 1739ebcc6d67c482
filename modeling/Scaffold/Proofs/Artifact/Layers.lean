import Scaffold.Artifact.Repository
import Scaffold.Artifact.ValidationChain
import Scaffold.Artifact.Suite
import Scaffold.Proofs.Artifact.Shapes

/-!
# Proofs/Artifact/Layers — all layers of a model describe the same fields

The record interface, the table, the repository, the request checks and the test suite each walk the
data fields of a model by themselves.  What a repository or the request checks say of the fields and
of the two switches of a model stands in a few **blocks** of lines; the lines between them depend on
nothing but the name of the model (`Writes`).  Every block is written out here, so the layers can be
compared entry by entry (`layers_agree`).

The record interface and the table come from templates, but they are what one would write by hand:
the lines of the three interfaces, and the statement that creates the table with the indexes, the
comments on relationships and the trigger behind it (`rendered_eq_assembled`).  Every tag of the
templates leads somewhere in the contexts that they get, so none of them stays.
-/

namespace Scaffold.Artifact

open Document Model Options Template Text

/-! ## Blocks -/

/-- Frames of lines with blocks of lines in the gaps between them. -/
def interleave : List (List String) → List (List String) → List String
  | [], blocks => blocks.flatten
  | frame :: frames, [] => (frame :: frames).flatten
  | frame :: frames, block :: blocks => frame ++ block ++ interleave frames blocks

/-- The lines of a layer are the blocks of the model, in frames that depend on nothing but its
name. -/
def Writes (layer : Model → List String) (blocks : Model → List (List String)) : Prop :=
  ∃ frames : String → List (List String),
    ∀ m, layer m = interleave (frames m.name) (blocks m)

/-- Lines that a switch of a model asks for. -/
def when (flag : Bool) (ls : List String) : List String := if flag then ls else []

/-- A text that a switch of a model asks for. -/
def whenText (flag : Bool) (s : String) : String := if flag then s else ""

namespace Relational

/-- What the repository of a table says of the fields and the switches of its model: the columns of
its members; the queries for one record, for a page and for the number of records; the statements
that update and delete; and the members of a row. -/
def blocks (d : Dialect) (m : Model) : List (List String) :=
  let touch := whenText m.metadata.timestamps (", updated_at = " ++ d.now)
  [[r"const COLUMNS: Record<string, string> = {"] ++
      m.dataFields.map (fun f => "  " ++ f.name ++ ": '" ++ Naming.snake f.name ++ "',") ++ [r"};"],
    ["  private tableName = '" ++ m.tableName ++ "';"],
    [r"      `SELECT * FROM ${this.tableName} WHERE id = " ++ d.parameter 1 ++
      whenText m.metadata.softDelete " AND deleted_at IS NULL" ++ "`,"],
    [r"      `SELECT * FROM ${this.tableName}" ++
      whenText m.metadata.softDelete " WHERE deleted_at IS NULL" ++ " ORDER BY " ++
      (if m.metadata.timestamps then "created_at" else "id") ++ " DESC LIMIT " ++ d.parameter 1 ++
      " OFFSET " ++ d.parameter 2 ++ "`,"],
    [r"    const result = await query(`SELECT COUNT(*) AS count FROM ${this.tableName}" ++
      whenText m.metadata.softDelete " WHERE deleted_at IS NULL" ++ "`);"],
    [r"      `UPDATE ${this.tableName} SET ${setClause}" ++ touch ++
      (match d with
      | .postgresql => " WHERE id = $1 RETURNING *`,"
      | .mysql => " WHERE id = ?`,")],
    [(if m.metadata.softDelete then
        r"    await query(`UPDATE ${this.tableName} SET deleted_at = " ++ d.now ++ " WHERE id = "
      else r"    await query(`DELETE FROM ${this.tableName} WHERE id = ") ++ d.parameter 1 ++
      "`, [id]);"],
    [r"    return {", "      id: row.id,"] ++
      m.dataFields.map (fun f => "      " ++ f.name ++ ": row." ++ Naming.snake f.name ++ ",") ++
      when m.metadata.timestamps
        ["      createdAt: row.created_at,", "      updatedAt: row.updated_at,"] ++
      when m.metadata.softDelete ["      deletedAt: row.deleted_at,"] ++ [r"    };"]]

end Relational

namespace Collection

/-- What the repository of a collection says of the fields and the switches of its model: the
members of a new document; the filters for one record, for a page, for the number of records and for
an update; the order of a page; what an update and a deletion set; and the members of a record. -/
def blocks (m : Model) : List (List String) :=
  let filter := if m.metadata.softDelete then r"{ deletedAt: null }" else r"{}"
  let alive := whenText m.metadata.softDelete ", deletedAt: null"
  [["  private collectionName = '" ++ m.tableName ++ "';"],
    (if m.metadata.timestamps then
      ["    const now = new Date();",
        r"    const document = { _id: randomUUID(), ...data, createdAt: now, updatedAt: now" ++
          alive ++ r" };"]
    else [r"    const document = { _id: randomUUID(), ...data" ++ alive ++ r" };"]),
    [r"    const document = await this.collection().findOne({ _id: id" ++ alive ++ r" });"],
    ["      .find(" ++ filter ++ ")",
      r"      .sort({ " ++ (if m.metadata.timestamps then "createdAt" else "_id") ++ r": -1 })"],
    ["    return this.collection().countDocuments(" ++ filter ++ ");"],
    [r"      { _id: id" ++ alive ++ r" },",
      r"      { $set: " ++ (if m.metadata.timestamps then r"{ ...data, updatedAt: new Date() }"
        else r"{ ...data }") ++ r" },"],
    [if m.metadata.softDelete then
        r"    await this.collection().updateOne({ _id: id }, { $set: { deletedAt: new " ++
          r"Date() } });"
      else r"    await this.collection().deleteOne({ _id: id });"],
    [r"    return {", "      id: document._id,"] ++
      m.dataFields.map (fun f => "      " ++ f.name ++ ": document." ++ f.name ++ ",") ++
      when m.metadata.timestamps
        ["      createdAt: document.createdAt,", "      updatedAt: document.updatedAt,"] ++
      when m.metadata.softDelete ["      deletedAt: document.deletedAt,"] ++ [r"    };"]]

end Collection

/-- The two arrays of request checks, with given checks of a member: a chain for each field, that
begins with the name of the field. -/
def checkBlocks (checks : Bool → Field → String) (m : Model) : List (List String) :=
  let chains (forUpdate : Bool) : List String :=
    m.dataFields.map fun f => "    " ++ ("body('" ++ f.name ++ "')" ++ checks forUpdate f) ++ ","
  [["  create: ["] ++ chains false ++ ["    handleValidationErrors,", "  ],"],
    ["  update: ["] ++ chains true ++ ["    handleValidationErrors,", "  ],"]]

/-- The beginning of the test suite of a model, up to the end of its test data. -/
def suiteHead (m : Model) : List String :=
  ["describe('" ++ m.name ++ r"Controller', () => {", "  let sequence = 0;",
    r"  const unique = (value: string): string => `${Date.now()}${++sequence}-${value}`;",
    r"  const buildTestData = (): Record<string, unknown> => ({"] ++
    m.dataFields.map (fun f => "    " ++ f.name ++ ": " ++ sampleText f ++ ",") ++ [r"  });"]

/-! ## The frames of the layers -/

/-- A model of a name without fields, timestamps or soft deletion. -/
def bare (name : String) : Model :=
  ⟨none, name, [], [], ⟨none, false, false, none, true, []⟩, none, none⟩

/-- The frames of lines in which frames and blocks of given lengths take turns. -/
def framesOf : List (Nat × Nat) → List String → List (List String)
  | [], ls => [ls]
  | (n, k) :: lengths, ls => ls.take n :: framesOf lengths (ls.drop (n + k))

theorem dataFields_bare (name : String) : (bare name).dataFields = [] := rfl

/-- The repository in a table names the members of a record twice: as columns and in the mapper. -/
theorem writes_relational (d : Dialect) :
    Writes (fun m => (Relational.repository d m).body) (Relational.blocks d) := by
  refine ⟨fun n => framesOf [(0, 2), (6, 1), (match d with | .postgresql => 14 | .mysql => 15, 1),
    (7, 1), (6, 1), (10, 1), (6, 1), (3, 3)] (Relational.repository d (bare n)).body, fun m => ?_⟩
  simp only [Relational.repository, Relational.headLines, Relational.columnMap,
    Relational.createLines, Relational.findLines, Relational.updateLines, Relational.deleteLines,
    Relational.mapperLines, Relational.rowMap, Relational.live, Relational.liveWhere,
    Relational.orderColumn, Relational.blocks, when, whenText, dataFields_bare]
  cases d
  all_goals
    cases m.metadata.softDelete
    all_goals
      simp only [bare, List.map_nil, List.append_assoc, List.cons_append, List.nil_append,
        List.append_nil, framesOf, interleave, List.take_succ_cons, List.drop_succ_cons,
        List.take_zero, List.drop_zero, if_true, Bool.false_eq_true, if_false,
        List.flatten_cons, List.flatten_nil]

/-- The repository in a collection names them once, in its mapper. -/
theorem writes_collection :
    Writes (fun m => (Collection.repository m).body) Collection.blocks := by
  refine ⟨fun n => framesOf [(1, 1), (6, 1), (5, 1), (5, 2), (7, 1), (4, 2), (6, 1), (3, 3)]
    (Collection.repository (bare n)).body, fun m => ?_⟩
  dsimp only [Collection.repository, Collection.headLines, Collection.createLines,
    Collection.findLines, Collection.updateLines, Collection.deleteLines, Collection.mapperLines,
    Collection.documentMap, Collection.live, Collection.liveFilter, Collection.orderField,
    Collection.updateDocument, Collection.blocks, when, whenText]
  rw [dataFields_bare]
  cases m.metadata.softDelete
  all_goals
    cases m.metadata.timestamps
    all_goals
      simp only [bare, List.map_nil, List.append_assoc, List.cons_append, List.nil_append,
        List.append_nil, framesOf, interleave, List.take_succ_cons, List.drop_succ_cons,
        List.take_zero, List.drop_zero, if_true, Bool.false_eq_true, if_false,
        List.flatten_cons, List.flatten_nil]

theorem exists_validationChain_eq (forUpdate : Bool) (f : Field) :
    ∃ checks, validationChain forUpdate f = "body('" ++ f.name ++ "')" ++ checks :=
  ⟨_, String.join_cons⟩

/-- The checks of a request have one chain for each field, in both handlers. -/
theorem writes_requestChecks :
    ∃ checks, Writes (fun m => (requestChecks m).body) (checkBlocks checks) := by
  choose checks hchecks using exists_validationChain_eq
  refine ⟨checks, fun n => framesOf [(1, 3), (0, 3)] (requestChecks (bare n)).body, fun m => ?_⟩
  simp only [requestChecks, chainLines, checkBlocks, hchecks, dataFields_bare]
  simp only [bare, List.map_nil, List.append_assoc, List.cons_append, List.nil_append,
    List.append_nil, framesOf, interleave, List.take_succ_cons, List.drop_succ_cons,
    List.take_zero, List.drop_zero, List.flatten_cons, List.flatten_nil]

theorem suiteHead_prefix (o : Generation) (m : Model) : suiteHead m <+: (suite o m).body := by
  have hsetup : suiteHead m <+: setupLines o m := by
    refine ⟨"" :: signInLines o m, ?_⟩
    simp only [setupLines, suiteHead, sampleLines, List.append_assoc, List.cons_append,
      List.nil_append]
  simp only [suite, List.append_assoc]
  exact hsetup.trans (List.prefix_append _ _)

/-- The columns of a table: the identifier, those of the fields, and those that the switches of the
model ask for. -/
def tableColumns (d : Dialect) (m : Model) (columns : List String) : List String :=
  d.identifierColumn :: columns ++
    when m.metadata.timestamps ["created_at " ++ d.stamp ++ " NOT NULL DEFAULT " ++ d.now,
      "updated_at " ++ d.stamp ++ " NOT NULL DEFAULT " ++ d.now] ++
    when m.metadata.softDelete ["deleted_at " ++ d.stamp]

theorem columnDefinition_eq_ok {database : Database} {f : Field} {c : String}
    (h : columnDefinition database f = .ok c) :
    ∃ type, c = Naming.snake f.name ++ " " ++ type := by
  obtain ⟨default, -, rfl⟩ := Except.map_eq_ok_iff.mp h
  exact ⟨_, String.intercalate_cons_of_ne_nil (by simp)⟩

/-- The definitions of the columns of a model hold those of its fields, unless a default has no form
in it. -/
theorem columnDefinitions_eq_ok {m : Model} (h : unfitIn? m = none) (database : Database) :
    ∃ columns,
      List.Forall₂ (fun f c => columnDefinition database f = .ok c) m.dataFields columns ∧
      columnDefinitions database m = .ok (tableColumns (.ofDatabase database) m columns) := by
  have hfields : ∀ f ∈ m.dataFields, ∃ t, columnDefinition database f = .ok t :=
    fun f hf => exists_columnDefinition (List.findSome?_eq_none_iff.mp h f hf) database
  obtain ⟨columns, hcolumns⟩ := Except.exists_mapM_eq_ok hfields
  refine ⟨columns, Except.forall₂_of_mapM_eq_ok hcolumns, ?_⟩
  rw [columnDefinitions, hcolumns, tableColumns, List.append_assoc]
  rfl

/-- The definitions of the columns of a model, and the names that those of its fields begin with. -/
theorem exists_columnDefinitions {m : Model} (h : unfitIn? m = none) (database : Database) :
    ∃ columns, List.Forall₂ (fun f c => ∃ type, c = Naming.snake f.name ++ " " ++ type) m.dataFields
        columns ∧
      columnDefinitions database m = .ok (tableColumns (.ofDatabase database) m columns) := by
  obtain ⟨columns, hfields, hcolumns⟩ := columnDefinitions_eq_ok h database
  exact ⟨columns, hfields.imp fun _ _ => columnDefinition_eq_ok, hcolumns⟩

/-- The schema of a model begins with the statement that creates its table, with one column for each
field; a default that has no form in it leaves the model without a schema. -/
theorem schema_lists_columns (database : Database) (models : List Model) (m : Model) :
    match unfitIn? m with
    | some u => schema Library.registry database models m = .error (.unwritable u)
    | none => ∃ columns rest,
      List.Forall₂ (fun f c => ∃ type, c = Naming.snake f.name ++ " " ++ type) m.dataFields columns ∧
      schema Library.registry database models m =
        .ok (tableText (.ofDatabase database) m (tableColumns (.ofDatabase database) m columns) ++
          rest) := by
  split
  · exact schema_of_unfit ‹_› _ _ _
  · obtain ⟨columns, hnames, hcolumns⟩ := exists_columnDefinitions ‹_› database
    exact ⟨columns, _, hnames, schema_eq hcolumns models⟩

/-- **All layers of a model describe the same fields in the same order**, and beyond them what its
timestamps and its soft deletion ask for. -/
theorem layers_agree (o : Generation) :
    -- the interfaces of a record, and of the requests that create and update it
    (∀ m, recordInterface Library.registry m = .ok (paragraph (recordLines m))) ∧
    -- the arrays of checks for the two requests, and the data of the tests
    (∃ checks, Writes (fun m => (requestChecks m).body) (checkBlocks checks)) ∧
    (∀ m, suiteHead m <+: (suite o m).body) ∧
    match o.database.value with
    | .mongodb => Writes (fun m => (repository .mongodb m).body) Collection.blocks
    | database =>
      Writes (fun m => (repository database m).body) (Relational.blocks (.ofDatabase database)) ∧
      -- the table; a default that has no form in it leaves the model without one
      ∀ models m,
        match unfitIn? m with
        | some u => schema Library.registry database models m = .error (.unwritable u)
        | none => ∃ columns rest,
          List.Forall₂ (fun f c => ∃ type, c = Naming.snake f.name ++ " " ++ type) m.dataFields
            columns ∧
          schema Library.registry database models m =
            .ok (tableText (.ofDatabase database) m (tableColumns (.ofDatabase database) m columns) ++
              rest) := by
  refine ⟨recordInterface_eq, writes_requestChecks, suiteHead_prefix o, ?_⟩
  cases o.database.value with
  | mongodb => exact writes_collection
  | postgresql => exact ⟨writes_relational .postgresql, schema_lists_columns .postgresql⟩
  | mysql => exact ⟨writes_relational .mysql, schema_lists_columns .mysql⟩

/-! ## Without templates -/

/-- No tag of a template of the library stays as it is in a context. -/
def ResolvesIn (name : String) (context : List (String × Item)) : Prop :=
  ∃ e, Library.registry.find? name = some e ∧ Node.AllResolve (.record context) e.nodes

theorem resolvesIn_of_reads {name source : String} (h : (name, source) ∈ Library.templates)
    {scope : Scope} {notes : List Note} (hreads : Reads source scope notes) {P : String → Prop}
    {context : List (String × Item)} (hfits : Fits P scope context) : ResolvesIn name context := by
  obtain ⟨ns, hparse, hfind⟩ := Library.find?_registry h
  obtain ⟨ns', hparse', htyped, -⟩ := hreads
  cases hparse.symm.trans hparse'
  exact ⟨_, hfind, allResolve_of_areTyped ns hfits htyped⟩

theorem resolvesIn_recordContext (m : Model) : ResolvesIn "model-interface" (recordContext m) := by
  have hfits : Fits Whatever Library.modelInterfaceScope (recordContext m) :=
    fits_recordContext trivial fun _ _ => ⟨trivial, trivial, trivial⟩
  exact resolvesIn_of_reads (by simp [Library.templates]) Library.reads_modelInterface hfits

/-- Every name in the template of a schema is one of its context. -/
theorem resolvesIn_schemaContext (d : Dialect) (models : List Model) (m : Model)
    (definitions : List String) :
    ResolvesIn d.schemaTemplate (schemaContext models m definitions) := by
  have hfits := fits_schemaContext models m definitions
  cases d with
  | postgresql =>
    exact resolvesIn_of_reads (by simp [Library.templates, Dialect.schemaTemplate])
      Library.reads_postgresqlSchema hfits
  | mysql =>
    exact resolvesIn_of_reads (by simp [Library.templates, Dialect.schemaTemplate])
      Library.reads_mysqlSchema hfits

/-- The schema of a model is put together of the definitions of its columns. -/
theorem schema_eq_map (database : Database) (models : List Model) (m : Model) :
    schema Library.registry database models m = (columnDefinitions database m).map fun definitions =>
      tableText (.ofDatabase database) m definitions ++ extrasText (.ofDatabase database) models m := by
  cases h : columnDefinitions database m with
  | error e =>
    rw [schema, h]
    rfl
  | ok definitions => exact schema_eq h models

/-- The definitions of the columns of a model: that of the identifier, one for each data field in
order, and those that its switches ask for.  A default that has no form in it leaves it without. -/
theorem columnDefinitions_eq (database : Database) (m : Model) :
    match unfitIn? m with
    | some u => columnDefinitions database m = .error (.unwritable u)
    | none => ∃ columns,
      List.Forall₂ (fun f c => columnDefinition database f = .ok c) m.dataFields columns ∧
      columnDefinitions database m = .ok (tableColumns (.ofDatabase database) m columns) := by
  split
  · exact columnDefinitions_of_unfit ‹_› database
  · exact columnDefinitions_eq_ok ‹_› database

/-- **What the templates say of a model is what is put together by hand**, in every dialect, and no
tag of them stays as it is. -/
theorem rendered_eq_assembled (database : Database) (models : List Model) (m : Model) :
    -- the interfaces of the record, and of the requests that create and update it
    (recordInterface Library.registry m = .ok (paragraph (recordLines m)) ∧
      ResolvesIn "model-interface" (recordContext m)) ∧
    -- the table, and behind it the indexes, the relationships and the trigger
    (schema Library.registry database models m =
      (columnDefinitions database m).map (fun definitions =>
        tableText (.ofDatabase database) m definitions ++
          extrasText (.ofDatabase database) models m) ∧
      ∀ definitions, ResolvesIn (Dialect.ofDatabase database).schemaTemplate
        (schemaContext models m definitions)) ∧
    -- the columns; a default that has no form in one leaves the model without a table
    match unfitIn? m with
    | some u => columnDefinitions database m = .error (.unwritable u)
    | none => ∃ columns,
      List.Forall₂ (fun f c => columnDefinition database f = .ok c) m.dataFields columns ∧
      columnDefinitions database m = .ok (tableColumns (.ofDatabase database) m columns) :=
  ⟨⟨recordInterface_eq m, resolvesIn_recordContext m⟩,
    ⟨schema_eq_map database models m, resolvesIn_schemaContext _ models m⟩,
    columnDefinitions_eq database m⟩

end Scaffold.Artifact
