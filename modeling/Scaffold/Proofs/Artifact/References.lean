import Scaffold.Proofs.Firsts
import Scaffold.Proofs.Artifact.Columns
import Scaffold.Proofs.Artifact.Mounts
import Scaffold.Proofs.Validation.Errors

/-!
# Proofs/Artifact/References — what a schema refers to is there

A schema refers to columns behind its table: an index is made on one, and the comment on a
relationship tells of one at each end.  Validation looks for the ends of a relationship among the
names of fields and models, while the schema writes columns and tables.  In a list of models without
errors all of them are there (`schema_resolves`): every field has its column, whichever others share
it, and no two models share a name.
-/

namespace Scaffold.Artifact

open Document Model Naming Options Template Validation

/-! ## The columns of a table -/

/-- The names of the columns of a table: its own ones and those of the fields. -/
def columnNames (m : Model) : List String :=
  ownColumns m.metadata ++ m.dataFields.map fun f => snake f.name

/-- Every field has a column; that of the identifier is the table's own. -/
theorem snake_mem_columnNames {m : Model} {n : String} (h : n ∈ m.fields.map (·.name)) :
    snake n ∈ columnNames m := by
  obtain ⟨f, hf, rfl⟩ := List.mem_map.mp h
  by_cases hid : f.name = "id"
  · have hsnake : snake "id" = "id" := by decide
    rw [hid, hsnake]
    exact List.mem_append_left _ List.mem_cons_self
  · have hdata : f ∈ m.dataFields := List.mem_filter.mpr ⟨hf, decide_eq_true hid⟩
    exact List.mem_append_right _ (List.mem_map_of_mem hdata)

/-! ## Indexes -/

/-- The columns with an index are those at the near ends of relationships, each where it first
occurs. -/
theorem indexColumns_eq (m : Model) :
    indexColumns m = ((m.relationships.map fun r => snake r.sourceField).filter (· ≠ "id")).foldl
      (fun seen c => if seen.contains c then seen else seen ++ [c]) [] := by
  rw [indexColumns, List.foldl_filter, List.foldl_map]
  refine congrArg (fun f => List.foldl f [] m.relationships) (funext₂ fun seen r => ?_)
  by_cases hid : snake r.sourceField = "id"
  · simp [hid]
  · simp [hid]

theorem mem_indexColumns_iff {m : Model} {c : String} :
    c ∈ indexColumns m ↔ c ≠ "id" ∧ ∃ rel ∈ m.relationships, snake rel.sourceField = c := by
  rw [indexColumns_eq, List.mem_foldl_addNew, List.mem_filter, List.mem_map, decide_eq_true_eq,
    and_comm]
  exact or_iff_right List.not_mem_nil

theorem nodup_indexColumns (m : Model) : (indexColumns m).Nodup := by
  rw [indexColumns_eq]
  refine (List.pairwise_foldl_addNew _).imp fun {c d} hlt heq => ?_
  exact absurd hlt (heq ▸ Nat.lt_irrefl _)

/-! ## Relationships -/

theorem tableName_eq_targetTable {models : List Model} (hnames : (models.map (·.name)).Nodup)
    {m : Model} (hm : m ∈ models) : targetTable models m.name = m.tableName := by
  have hfind : models.reverse.find? (·.name == m.name) = some m := by
    refine find?_eq_some_of_unique (List.mem_reverse.mpr hm) (beq_self_eq_true _) ?_
    intro m' hm' hname
    exact List.inj_on_of_nodup_map hnames (List.mem_reverse.mp hm') hm (beq_iff_eq.mp hname)
  simp only [targetTable, hfind]

/-- What the comment on a relationship tells of is there: a column at each end, and the table of the
model that the relationship leads to. -/
structure PointsToColumns (models : List Model) (m : Model) (rel : Relationship) : Prop where
  source : snake rel.sourceField ∈ columnNames m
  target : ∃ t ∈ models, t.name = rel.targetModel
  column : ∀ t ∈ models, t.name = rel.targetModel →
    targetTable models rel.targetModel = t.tableName ∧ snake rel.targetField ∈ columnNames t

/-- What validation resolves is a table with that column. -/
theorem pointsToColumns_of_resolves {models : List Model} (hnames : (models.map (·.name)).Nodup)
    {m : Model} {rel : Relationship} (h : Resolves models m rel) :
    PointsToColumns models m rel := by
  obtain ⟨hsource, t, ht, hfield⟩ := h
  have hmem := List.mem_of_find?_eq_some ht
  have hname : t.name = rel.targetModel := by
    rw [targetModel?] at ht
    simpa using List.find?_some ht
  refine ⟨snake_mem_columnNames hsource, ⟨t, hmem, hname⟩, fun t' ht' hname' => ?_⟩
  obtain rfl := List.inj_on_of_nodup_map hnames ht' hmem (hname'.trans hname.symm)
  exact ⟨hname' ▸ tableName_eq_targetTable hnames hmem, snake_mem_columnNames hfield⟩

/-- Without errors every relationship points to columns. -/
theorem pointsToColumns_of_valid {models : List Model} {r : Result}
    (hr : validateModels (models.map .entity) = .ok r) (hvalid : r.isValid = true) {m : Model}
    (hm : m ∈ models) : ∀ rel ∈ m.relationships, PointsToColumns models m rel := by
  obtain ⟨-, hroutes, hresolves⟩ :=
    expectedErrors_eq_nil_iff.mp ((isValid_entities_iff hr).mp hvalid)
  have hnames : (models.map (·.name)).Nodup := by
    refine List.Nodup.of_map Text.lower ?_
    rw [List.map_map]
    exact hroutes
  exact fun rel hrel => pointsToColumns_of_resolves hnames (hresolves m hm rel hrel)

/-- **Among models without errors everything that a schema refers to is there.**  Its indexes are on
columns of the table, one on each at the near end of a relationship but the identifier; its comments
tell of columns of the table and of the table that the relationship leads to.  A default that has no
form in it leaves a model without a schema. -/
theorem schema_resolves {models : List Model} {r : Result}
    (hr : validateModels (models.map .entity) = .ok r) (hvalid : r.isValid = true)
    (database : Database) {m : Model} (hm : m ∈ models) :
    match unfitIn? m with
    | some u => schema Library.registry database models m = .error (.unwritable u)
    | none => ∃ (definitions indexes : List String) (rest : String),
      schema Library.registry database models m =
        .ok (tableText (.ofDatabase database) m definitions ++
          (String.join (indexes.map (indexText m)) ++
            (String.join (m.relationships.map (relationshipText models m)) ++ rest))) ∧
      (definitions.map columnName).Perm (columnNames m) ∧
      indexes.Nodup ∧ "id" ∉ indexes ∧ (∀ c ∈ indexes, c ∈ definitions.map columnName) ∧
      (∀ rel ∈ m.relationships, snake rel.sourceField ≠ "id" → snake rel.sourceField ∈ indexes) ∧
      ∀ rel ∈ m.relationships, PointsToColumns models m rel := by
  have hpoints := pointsToColumns_of_valid hr hvalid hm
  split
  · exact schema_of_unfit ‹_› _ _ _
  · obtain ⟨columns, hfields, hdefinitions⟩ := exists_columnDefinitions ‹_› database
    have hcolumns := map_columnName hfields (.ofDatabase database)
    refine ⟨_, indexColumns m, _, schema_eq hdefinitions models, hcolumns, nodup_indexColumns m,
      fun hid => (mem_indexColumns_iff.mp hid).1 rfl, fun c hc => ?_,
      fun rel hrel hid => mem_indexColumns_iff.mpr ⟨hid, rel, hrel, rfl⟩, hpoints⟩
    obtain ⟨-, rel, hrel, rfl⟩ := mem_indexColumns_iff.mp hc
    exact hcolumns.mem_iff.mpr (hpoints rel hrel).source

/-- Poets, whose table has a name of its own. -/
def poet : Model :=
  { id := none, name := "Poet",
    fields := [⟨none, "id", .uuid, true, true, .null, [], none⟩,
      ⟨none, "penName", .string, true, true, .null, [], none⟩],
    relationships := [⟨none, .oneToMany, "Poet", "Poem", "id", "poetId", true⟩],
    metadata := { Metadata.default with tableName := some "people" }, createdAt := none,
    updatedAt := none }

/-- Poems; two fields share a column, and two relationships start there. -/
def poem : Model :=
  { id := none, name := "Poem",
    fields := [⟨none, "id", .uuid, true, true, .null, [], none⟩,
      ⟨none, "poetId", .uuid, true, false, .null, [], none⟩,
      ⟨none, "poetID", .uuid, false, false, .null, [], none⟩],
    relationships := [⟨none, .oneToOne, "Poem", "Poet", "poetId", "id", false⟩,
      ⟨none, .oneToOne, "Poem", "Poet", "poetID", "penName", false⟩],
    metadata := .default, createdAt := none, updatedAt := none }

/-- The schema of poems. -/
theorem schema_resolves_poem :
    ∃ r, validateModels ([poet, poem].map .entity) = .ok r ∧ r.isValid = true ∧
      poem ∈ [poet, poem] ∧ indexColumns poem = ["poet_id"] ∧
      ∃ (definitions indexes : List String) (rest : String),
        schema Library.registry .mysql [poet, poem] poem =
          .ok (tableText .mysql poem definitions ++ (String.join (indexes.map (indexText poem)) ++
            (String.join (poem.relationships.map (relationshipText [poet, poem] poem)) ++
              rest))) ∧
        (∀ c ∈ indexes, c ∈ definitions.map columnName) ∧
        ∀ rel ∈ poem.relationships, PointsToColumns [poet, poem] poem rel := by
  obtain ⟨r, hr, hvalid⟩ := exists_valid ([poet, poem].map .entity) (by decide +kernel)
  have hm : poem ∈ [poet, poem] := List.mem_cons_of_mem _ (List.mem_singleton_self _)
  have hunfit : unfitIn? poem = none := by decide
  have hresolves := schema_resolves hr hvalid .mysql hm
  rw [hunfit] at hresolves
  obtain ⟨definitions, indexes, rest, hschema, -, -, -, hcolumns, -, hpoints⟩ := hresolves
  exact ⟨r, hr, hvalid, hm, by decide +kernel, definitions, indexes, rest, hschema, hcolumns,
    hpoints⟩

end Scaffold.Artifact
