import Scaffold.Proofs.Artifact.Layers
import Scaffold.Proofs.Format.Keywords
import Scaffold.Proofs.Text.Names
import Scaffold.Proofs.Validation.Subjects

/-!
# Proofs/Artifact/Schemas — the statements of a schema

Of what stands in a schema only the defaults of fields can hold signs of the splitter, and they are
numerals or literals in which every quote is doubled (`isClosed_sqlLiteral`).  So the definitions of
the columns end no statement, whatever the fields are, and a schema has the statements that its
parts announce: before formatting and after it they are those that `headings` lists
(`schema_isAccepted`).
-/

namespace Scaffold.Artifact

open Document Format Model Naming Options Schema Template Text Validation

/-! ## Columns end no statement -/

theorem isClosed_of_plainWord {s : String} (h : IsPlainWord s) : Sql.IsClosed s.toList := by
  have hsigns : ∀ x ∈ ['-', '$', '\'', ';'], isPlainAlnum x = false ∧ x ≠ '_' := by decide
  exact Sql.isClosed_of_quiet fun c hc hmem => h.notMem (hsigns c hmem) hc

theorem isClosed_sqlText (s : String) : Sql.IsClosed (sqlText s).toList := by
  rw [sqlText, String.toList_ofList]
  exact Sql.isClosed_quoted s.toList

theorem eq_shown_of_spelled {v : Value} {t : String} (h : v.spelled = .ok t) : v.shown = t := by
  rw [Value.spelled] at h
  split at h
  · cases h
  · exact Except.ok.inj h

/-- No default ends a statement or opens what it does not close. -/
theorem isClosed_sqlLiteral {v : Value} {t : String} (h : sqlLiteral v = .ok t) :
    Sql.IsClosed t.toList := by
  unfold sqlLiteral at h
  split at h
  · rename_i b
    cases h
    cases b <;> exact Sql.isClosed_ofList (by decide)
  · obtain rfl := eq_shown_of_spelled (Except.mapError_eq_ok_iff.mp h)
    exact Sql.isClosed_of_isNumeral (isNumeral_literal_int _)
  · obtain rfl := eq_shown_of_spelled (Except.mapError_eq_ok_iff.mp h)
    exact Sql.isClosed_of_isNumeral (isNumeral_literal_real _)
  · obtain ⟨s, -, rfl⟩ := Except.map_eq_ok_iff.mp h
    exact isClosed_sqlText s
  · obtain ⟨s, -, rfl⟩ := Except.map_eq_ok_iff.mp h
    exact isClosed_sqlText s
  · obtain ⟨s, -, rfl⟩ := Except.map_eq_ok_iff.mp h
    exact isClosed_sqlText s
  · obtain ⟨s, -, rfl⟩ := Except.map_eq_ok_iff.mp h
    exact isClosed_sqlText s

/-- A default closes its literals and brackets. -/
theorem isClosed_columnDefault {v : Value} {parts : List String} (h : columnDefault v = .ok parts) :
    ∀ p ∈ parts, Sql.IsClosed p.toList := by
  unfold columnDefault at h
  split at h
  · cases h
    exact List.forall_mem_nil _
  · obtain ⟨t, ht, rfl⟩ := Except.map_eq_ok_iff.mp h
    refine List.forall_mem_singleton.mpr ?_
    exact Sql.isClosed_toList_append (Sql.isClosed_ofList (by decide)) (isClosed_sqlLiteral ht)

theorem isClosed_columnType (type : FieldType) (database : Database) :
    Sql.IsClosed (Catalog.columnType type database).toList := by
  cases type <;> cases database <;> exact Sql.isClosed_ofList (by decide)

/-- What a flag asks for. -/
theorem isClosed_ite (b : Bool) {cs : List String} (h : ∀ c ∈ cs, Sql.IsClosed c.toList) :
    ∀ c ∈ if b = true then cs else [], Sql.IsClosed c.toList := by
  cases b
  · exact List.forall_mem_nil _
  · exact h

/-- So does the definition of a column. -/
theorem isClosed_columnDefinition {database : Database} {f : Field} {c : String}
    (h : columnDefinition database f = .ok c) : Sql.IsClosed c.toList := by
  obtain ⟨parts, hparts, rfl⟩ := Except.map_eq_ok_iff.mp h
  have hnotNull : ∀ c ∈ if f.required = true then ["NOT NULL"] else [], Sql.IsClosed c.toList :=
    isClosed_ite _ (List.forall_mem_singleton.mpr (Sql.isClosed_ofList (by decide)))
  have hunique : ∀ c ∈ if f.unique = true then ["UNIQUE"] else [], Sql.IsClosed c.toList :=
    isClosed_ite _ (List.forall_mem_singleton.mpr (Sql.isClosed_ofList (by decide)))
  have hstart : ∀ c ∈ [snake f.name, Catalog.columnType f.type database],
      Sql.IsClosed c.toList :=
    List.forall_mem_cons.mpr ⟨isClosed_of_plainWord (isPlainWord_snake f.name),
      List.forall_mem_singleton.mpr (isClosed_columnType f.type database)⟩
  rw [toList_intercalate]
  refine Sql.isClosed_joinWith (Sql.isClosed_ofList (by decide)) (List.forall_mem_map.mpr ?_)
  exact List.forall_mem_append.mpr ⟨List.forall_mem_append.mpr ⟨List.forall_mem_append.mpr
    ⟨hstart, hnotNull⟩, hunique⟩, isClosed_columnDefault hparts⟩

/-- The columns that the program adds. -/
theorem isClosed_systemColumns (d : Dialect) (m : Metadata) :
    ∀ c ∈ systemColumns d m, Sql.IsClosed c.toList := by
  have hstamp : Sql.IsClosed d.stamp.toList := by
    cases d <;> exact Sql.isClosed_ofList (by decide)
  have hnow : Sql.IsClosed d.now.toList := by
    cases d <;> exact Sql.isClosed_ofList (by decide)
  have hstamped {name : String} (hname : Sql.IsClosed name.toList) :
      Sql.IsClosed (name ++ d.stamp ++ " NOT NULL DEFAULT " ++ d.now).toList :=
    Sql.isClosed_toList_append (Sql.isClosed_toList_append (Sql.isClosed_toList_append hname hstamp)
      (Sql.isClosed_ofList (by decide))) hnow
  refine List.forall_mem_append.mpr ⟨isClosed_ite _ (List.forall_mem_cons.mpr ⟨?_,
    List.forall_mem_singleton.mpr ?_⟩), isClosed_ite _ (List.forall_mem_singleton.mpr ?_)⟩
  · exact hstamped (Sql.isClosed_ofList (by decide))
  · exact hstamped (Sql.isClosed_ofList (by decide))
  · exact Sql.isClosed_toList_append (Sql.isClosed_ofList (by decide)) hstamp

/-- No column ends a statement. -/
theorem isClosed_columnDefinitions {database : Database} {m : Model} {definitions : List String}
    (h : columnDefinitions database m = .ok definitions) :
    ∀ c ∈ definitions, Sql.IsClosed c.toList := by
  obtain ⟨columns, hcolumns, rfl⟩ := Except.map_eq_ok_iff.mp h
  refine List.forall_mem_cons.mpr ⟨?_, List.forall_mem_append.mpr
    ⟨fun c hc => ?_, isClosed_systemColumns _ m.metadata⟩⟩
  · cases Dialect.ofDatabase database <;> exact Sql.isClosed_ofList (by decide)
  · obtain ⟨f, -, hf⟩ := (Except.forall₂_of_mapM_eq_ok hcolumns).exists_of_mem_right hc
    exact isClosed_columnDefinition hf

/-! ## The parts of a schema -/

/-- What the statement that creates the function of a dialect begins with, if there is one. -/
def Dialect.functionHeadings : Dialect → List (List String)
  | postgresql => [["CREATE", "OR", "REPLACE", "FUNCTION", "update_updated_at_column()"]]
  | mysql => []

/-- What the statements that keep the time of the last update begin with. -/
def Dialect.stampHeadings (d : Dialect) (table : String) : List (List String) :=
  d.functionHeadings ++ [["CREATE", "TRIGGER", "update_" ++ table ++ "_updated_at"]]

/-- What the statement that creates the index of a column begins with. -/
def indexHeading (m : Model) (column : String) : List String :=
  ["CREATE", "INDEX", "idx_" ++ m.tableName ++ "_" ++ column, "ON"]

/-- What the statements of the schema of a model begin with: one creates the table, one each index,
and if the model has timestamps the last ones keep them. -/
def headings (d : Dialect) (m : Model) : List (List String) :=
  ["CREATE", "TABLE", m.tableName] :: (indexColumns m).map (indexHeading m) ++
    if m.metadata.timestamps then d.stampHeadings m.tableName else []

theorem isQuietWord_of_plainWord {s : String} (hne : s.toList ≠ []) (h : IsPlainWord s) :
    Sql.IsQuietWord s := by
  have hsigns : ∀ x ∈ ['-', '$', '\'', ';'], isPlainAlnum x = false ∧ x ≠ '_' := by decide
  exact ⟨hne, fun c hc => ⟨h.isBlank_eq_false c hc, fun hmem => h.notMem (hsigns c hmem) hc⟩⟩

/-- A table has a name. -/
theorem tableName_ne_nil (m : Model) : m.tableName.toList ≠ [] := by
  have hderived : (Naming.tableName m.name).toList ≠ [] := by
    rw [Naming.tableName, String.toList_append]
    exact List.append_ne_nil_of_right_ne_nil _ (by decide)
  unfold Model.tableName
  split
  · split
    · exact hderived
    · rename_i hne
      exact fun hnil => hne (String.toList_inj.mp hnil)
  · exact hderived

section Parts

variable {m : Model} (hname : IsPlainWord m.tableName)
include hname

theorem isPlainWord_around {front back : String} (hfront : IsPlainWord front)
    (hback : IsPlainWord back) : IsPlainWord (front ++ m.tableName ++ back) :=
  (hfront.append hname).append hback

/-- The text of a table is one statement that creates it. -/
theorem announces_tableText (d : Dialect) {definitions : List String}
    (h : ∀ c ∈ definitions, Sql.IsClosed c.toList) :
    Sql.Announces (tableText d m definitions).toList [["CREATE", "TABLE", m.tableName]] := by
  let columns := ",\n".intercalate (definitions.map fun c => "  " ++ c)
  have hcolumns : Sql.IsClosed columns.toList := by
    rw [toList_intercalate]
    refine Sql.isClosed_joinWith (Sql.isClosed_ofList (by decide)) (List.forall_mem_map.mpr ?_)
    exact List.forall_mem_map.mpr fun c hc =>
      Sql.isClosed_toList_append (Sql.isClosed_ofList (by decide)) (h c hc)
  obtain ⟨stop, hstop, hclosed⟩ : ∃ stop, d.tableEnd = stop ++ ";" ∧ Sql.IsClosed stop.toList := by
    cases d
    · exact ⟨")", by decide, Sql.isClosed_ofList (by decide)⟩
    · exact ⟨") ENGINE=InnoDB DEFAULT CHARSET=utf8mb4", by decide, Sql.isClosed_ofList (by decide)⟩
  have htext : (tableText d m definitions).toList =
      joinWith [' '] (["CREATE", "TABLE", m.tableName].map String.toList) ++
        ' ' :: ("(\n" ++ columns ++ "\n" ++ stop).toList ++ [';'] ++ ['\n'] := by
    unfold tableText
    simp only [hstop, String.toList_append, List.map_cons, List.map_nil, joinWith]
    repeat rw [String.toList_ofList]
    simp only [columns, List.append_assoc, List.cons_append, List.nil_append]
  have hrest : Sql.IsClosed ("(\n" ++ columns ++ "\n" ++ stop).toList :=
    Sql.isClosed_toList_append (Sql.isClosed_toList_append (Sql.isClosed_toList_append
      (Sql.isClosed_ofList (by decide)) hcolumns) (Sql.isClosed_ofList (by decide))) hclosed
  have hwords : ∀ w ∈ ["CREATE", "TABLE", m.tableName], Sql.IsQuietWord w := by
    simp only [List.forall_mem_cons, List.not_mem_nil, false_implies, implies_true, and_true]
    exact ⟨Sql.isQuietWord_ofList (by decide), Sql.isQuietWord_ofList (by decide),
      isQuietWord_of_plainWord (tableName_ne_nil m) hname⟩
  rw [htext]
  exact (Sql.announces_statement (List.cons_ne_nil _ _) hwords (by decide) hrest).append
    (Sql.announces_blank (by decide))

/-- The text of an index is one statement. -/
theorem announces_indexText {column : String} (hcolumn : IsPlainWord column) :
    Sql.Announces (indexText m column).toList [indexHeading m column] := by
  let index := "idx_" ++ m.tableName ++ "_" ++ column
  have hindex : Sql.IsQuietWord index := by
    refine isQuietWord_of_plainWord (by simp [index]) ((isPlainWord_around hname ?_ ?_).append hcolumn)
    · exact isPlainWord_ofList (by decide)
    · exact isPlainWord_ofList (by decide)
  have htext : (indexText m column).toList = ['\n'] ++
      (joinWith [' '] ((indexHeading m column).map String.toList) ++
        ' ' :: (m.tableName ++ "(" ++ column ++ ")").toList ++ [';'] ++ ['\n']) := by
    unfold indexText
    simp only [indexHeading, String.toList_append, List.map_cons, List.map_nil, joinWith]
    repeat rw [String.toList_ofList]
    simp only [List.append_assoc, List.cons_append, List.nil_append]
  have hrest : Sql.IsClosed (m.tableName ++ "(" ++ column ++ ")").toList :=
    Sql.isClosed_toList_append (Sql.isClosed_toList_append (Sql.isClosed_toList_append
      (isClosed_of_plainWord hname) (Sql.isClosed_ofList (by decide)))
      (isClosed_of_plainWord hcolumn)) (Sql.isClosed_ofList (by decide))
  have hwords : ∀ w ∈ indexHeading m column, Sql.IsQuietWord w := by
    simp only [indexHeading, List.forall_mem_cons, List.not_mem_nil, false_implies, implies_true,
      and_true]
    exact ⟨Sql.isQuietWord_ofList (by decide), Sql.isQuietWord_ofList (by decide), hindex,
      Sql.isQuietWord_ofList (by decide)⟩
  rw [htext]
  exact (Sql.announces_blank (by decide)).append
    ((Sql.announces_statement (List.cons_ne_nil _ _) hwords (by decide) hrest).append
      (Sql.announces_blank (by decide)))

/-- A relationship is told of in a comment, which is no statement. -/
theorem announces_relationshipText {models : List Model} {r : Relationship}
    (htarget : IsPlainWord (targetTable models r.targetModel)) :
    Sql.Announces (relationshipText models m r).toList [] := by
  let comment := " " ++ Named.text r.cardinality ++ ": " ++ m.tableName ++ "." ++
    snake r.sourceField ++ " -> " ++ targetTable models r.targetModel ++ "." ++
      snake r.targetField ++ (if r.cascadeDelete then " (ON DELETE CASCADE)" else "")
  have htext : (relationshipText models m r).toList =
      ['\n'] ++ '-' :: '-' :: (comment.toList ++ ['\n']) := by
    unfold relationshipText
    simp only [comment, String.toList_append]
    repeat rw [String.toList_ofList]
    simp only [List.append_assoc, List.cons_append, List.nil_append]
  have hkind : OneLine (Named.text r.cardinality) := by
    cases r.cardinality <;> exact oneLine_ofList (by decide)
  have hcascade : OneLine (if r.cascadeDelete then " (ON DELETE CASCADE)" else "") := by
    cases r.cascadeDelete
    · exact List.not_mem_nil
    · exact oneLine_ofList (by decide)
  have hline {s : String} (hs : IsPlainWord s) : OneLine s := hs.notMem (by decide)
  have hspace : OneLine " " := oneLine_ofList (by decide)
  have hcolon : OneLine ": " := oneLine_ofList (by decide)
  have harrow : OneLine " -> " := oneLine_ofList (by decide)
  have hpoint {s t : String} (hs : OneLine s) (ht : OneLine t) : OneLine (s ++ "." ++ t) :=
    (hs.append (oneLine_ofList (by decide))).append ht
  have hsource := hpoint (((hspace.append hkind).append hcolon).append (hline hname))
    (oneLine_snake r.sourceField)
  have hcomment : OneLine comment := (hpoint ((hsource.append harrow).append (hline htarget))
    (oneLine_snake r.targetField)).append hcascade
  rw [htext]
  exact (Sql.announces_blank (by decide)).append (Sql.announces_comment hcomment)

/-- The text of a trigger is one statement. -/
theorem announces_trigger (d : Dialect) :
    Sql.Announces ("CREATE TRIGGER update_" ++ m.tableName ++
      "_updated_at\n  BEFORE UPDATE ON " ++ m.tableName ++ "\n  FOR EACH ROW\n  " ++
        d.stampAction ++ ";\n").toList
      [["CREATE", "TRIGGER", "update_" ++ m.tableName ++ "_updated_at"]] := by
  let trigger := "update_" ++ m.tableName ++ "_updated_at"
  have htrigger : Sql.IsQuietWord trigger := by
    refine isQuietWord_of_plainWord (by simp [trigger]) (isPlainWord_around hname ?_ ?_)
    · exact isPlainWord_ofList (by decide)
    · exact isPlainWord_ofList (by decide)
  let rest := "  BEFORE UPDATE ON " ++ m.tableName ++ "\n  FOR EACH ROW\n  " ++ d.stampAction
  have htext : ("CREATE TRIGGER update_" ++ m.tableName ++ "_updated_at\n  BEFORE UPDATE ON " ++
      m.tableName ++ "\n  FOR EACH ROW\n  " ++ d.stampAction ++ ";\n").toList =
      joinWith [' '] (["CREATE", "TRIGGER", trigger].map String.toList) ++
        '\n' :: rest.toList ++ [';'] ++ ['\n'] := by
    simp only [trigger, rest, String.toList_append, List.map_cons, List.map_nil, joinWith]
    repeat rw [String.toList_ofList]
    simp only [List.append_assoc, List.cons_append, List.nil_append]
  have haction : Sql.IsClosed d.stampAction.toList := by
    cases d <;> exact Sql.isClosed_ofList (by decide)
  have hrest : Sql.IsClosed rest.toList :=
    Sql.isClosed_toList_append (Sql.isClosed_toList_append (Sql.isClosed_toList_append
      (Sql.isClosed_ofList (by decide)) (isClosed_of_plainWord hname))
        (Sql.isClosed_ofList (by decide))) haction
  have hwords : ∀ w ∈ ["CREATE", "TRIGGER", trigger], Sql.IsQuietWord w := by
    simp only [List.forall_mem_cons, List.not_mem_nil, false_implies, implies_true, and_true]
    exact ⟨Sql.isQuietWord_ofList (by decide), Sql.isQuietWord_ofList (by decide), htrigger⟩
  rw [htext]
  exact (Sql.announces_statement (List.cons_ne_nil _ _) hwords (by decide) hrest).append
    (Sql.announces_blank (by decide))

end Parts

/-- The function that triggers call is one statement, though its body has semicolons. -/
theorem announces_stampFunction (d : Dialect) :
    Sql.Announces d.stampFunction.toList d.functionHeadings := by
  cases d with
  | mysql => exact Sql.announces_nil
  | postgresql =>
    let body := "\nBEGIN\n  NEW.updated_at = NOW();\n  RETURN NEW;\nEND;\n".toList
    have htext : Dialect.postgresql.stampFunction.toList =
        joinWith [' '] (["CREATE", "OR", "REPLACE", "FUNCTION", "update_updated_at_column()"].map
          String.toList) ++ '\n' :: ("RETURNS TRIGGER AS ".toList ++
            ('$' :: '$' :: (body ++ ['$', '$']) ++ " LANGUAGE plpgsql".toList)) ++ [';'] ++
              ['\n', '\n'] := by
      simp only [Dialect.stampFunction, toList_paragraph, List.flatMap_cons, List.flatMap_nil,
        List.map_cons, List.map_nil, joinWith, body]
      repeat rw [String.toList_ofList]
      simp only [List.cons_append, List.nil_append]
    have hbody : '$' ∉ body := by
      simp only [body]
      rw [String.toList_ofList]
      decide
    have hwords : ∀ w ∈ ["CREATE", "OR", "REPLACE", "FUNCTION", "update_updated_at_column()"],
        Sql.IsQuietWord w := by
      simp only [List.forall_mem_cons, List.not_mem_nil, false_implies, implies_true, and_true]
      exact ⟨Sql.isQuietWord_ofList (by decide), Sql.isQuietWord_ofList (by decide),
        Sql.isQuietWord_ofList (by decide), Sql.isQuietWord_ofList (by decide),
        Sql.isQuietWord_ofList (by decide)⟩
    rw [htext]
    refine (Sql.announces_statement (List.cons_ne_nil _ _) hwords (by decide) ?_).append
      (Sql.announces_blank (by decide))
    exact (Sql.isClosed_ofList (by decide)).append
      ((Sql.isClosed_body hbody).append (Sql.isClosed_ofList (by decide)))

set_option maxRecDepth 1000 in
/-- What keeps the time of the last change: a trigger, and in one dialect a function in front of it.
-/
theorem announces_stampText {m : Model} (hname : IsPlainWord m.tableName) (d : Dialect) :
    Sql.Announces (stampText d m).toList (d.stampHeadings m.tableName) := by
  let comment := " Keep updated_at current on every update"
  have hcomment : OneLine comment := oneLine_ofList (by decide)
  have htext : (stampText d m).toList = ['\n'] ++ ('-' :: '-' :: (comment.toList ++ ['\n'])) ++
      (d.stampFunction.toList ++ ("CREATE TRIGGER update_" ++ m.tableName ++
        "_updated_at\n  BEFORE UPDATE ON " ++ m.tableName ++ "\n  FOR EACH ROW\n  " ++
          d.stampAction ++ ";\n").toList) := by
    unfold stampText
    simp only [comment, String.toList_append]
    repeat rw [String.toList_ofList]
    simp only [List.append_assoc, List.cons_append, List.nil_append]
  rw [htext]
  exact ((Sql.announces_blank (by decide)).append (Sql.announces_comment hcomment)).append
    ((announces_stampFunction d).append (announces_trigger hname d))

/-! ## The schema of a model -/

theorem isPlainWord_of_mem_indexColumns (m : Model) : ∀ c ∈ indexColumns m, IsPlainWord c := by
  refine List.foldlRecOn (motive := fun columns => ∀ c ∈ columns, IsPlainWord c) m.relationships _
    (List.forall_mem_nil _) fun columns hcolumns r _ => ?_
  dsimp only
  split
  · exact hcolumns
  · exact List.forall_mem_append.mpr ⟨hcolumns, List.forall_mem_singleton.mpr (isPlainWord_snake _)⟩

/-- The table of a target has a plain name if those of all models have. -/
theorem isPlainWord_targetTable {models : List Model}
    (hnames : ∀ m ∈ models, IsPlainWord m.tableName) {name : String}
    (h : ∃ t ∈ models, t.name = name) : IsPlainWord (targetTable models name) := by
  unfold targetTable
  split
  · rename_i m hm
    exact hnames m (List.mem_reverse.mp (List.mem_of_find?_eq_some hm))
  · rename_i hnone
    obtain ⟨t, ht, rfl⟩ := h
    exact absurd (List.find?_eq_none.mp hnone t (List.mem_reverse.mpr ht)) (by simp)

/-- The indexes and the statements for timestamps stand behind the table; relationships are told of
in comments. -/
theorem announces_extrasText {models : List Model} {m : Model} (hname : IsPlainWord m.tableName)
    (htargets : ∀ r ∈ m.relationships, IsPlainWord (targetTable models r.targetModel))
    (d : Dialect) : Sql.Announces (extrasText d models m).toList
      ((indexColumns m).map (indexHeading m) ++
        if m.metadata.timestamps then d.stampHeadings m.tableName else []) := by
  have hindexes := Sql.announces_flatMap fun c hc =>
    announces_indexText hname (isPlainWord_of_mem_indexColumns m c hc)
  have hrelationships := Sql.announces_flatMap fun r hr =>
    announces_relationshipText (r := r) hname (htargets r hr)
  have hstamps : Sql.Announces (if m.metadata.timestamps then stampText d m else "").toList
      (if m.metadata.timestamps then d.stampHeadings m.tableName else []) := by
    cases m.metadata.timestamps with
    | true => exact announces_stampText hname d
    | false => exact Sql.announces_nil
  have hnone : (m.relationships.flatMap fun _ => ([] : List (List String))) = [] :=
    List.flatMap_eq_nil_iff.mpr fun _ _ => rfl
  have hall := hindexes.append (hrelationships.append hstamps)
  rw [hnone, List.nil_append, ← List.map_eq_flatMap] at hall
  rw [extrasText, String.toList_append, String.toList_append, String.toList_join, String.toList_join,
    List.flatMap_map, List.flatMap_map]
  exact hall

/-- Every statement creates something. -/
theorem head?_of_mem_headings {d : Dialect} {m : Model} :
    ∀ head ∈ headings d m, head.head? = some "CREATE" := by
  have hstamps : ∀ head ∈ d.stampHeadings m.tableName, head.head? = some "CREATE" := by
    cases d <;> simp [Dialect.stampHeadings, Dialect.functionHeadings]
  refine List.forall_mem_append.mpr ⟨List.forall_mem_cons.mpr ⟨rfl, ?_⟩, ?_⟩
  · exact List.forall_mem_map.mpr fun _ _ => rfl
  · split
    · exact hstamps
    · exact List.forall_mem_nil _

/-- The headings of a schema are in ASCII. -/
theorem ascii_of_mem_headings {d : Dialect} {m : Model} (hname : IsPlainWord m.tableName) :
    ∀ head ∈ headings d m, ∀ w ∈ head, ∀ c ∈ w.toList, c.toNat < 128 := by
  have hplain {cs : List Char} (h : ∀ c ∈ cs, c.toNat < 128) :
      ∀ c ∈ (String.ofList cs).toList, c.toNat < 128 := by
    rwa [String.toList_ofList]
  have hcreate : ∀ c ∈ "CREATE".toList, c.toNat < 128 := hplain (by decide)
  have hindex {c : String} (hc : IsPlainWord c) :
      ∀ x ∈ ("idx_" ++ m.tableName ++ "_" ++ c).toList, x.toNat < 128 :=
    ((isPlainWord_around hname (isPlainWord_ofList (by decide))
      (isPlainWord_ofList (by decide))).append hc).toNat_lt
  have htrigger : ∀ x ∈ ("update_" ++ m.tableName ++ "_updated_at").toList, x.toNat < 128 :=
    (isPlainWord_around hname (isPlainWord_ofList (by decide))
      (isPlainWord_ofList (by decide))).toNat_lt
  refine List.forall_mem_append.mpr ⟨List.forall_mem_cons.mpr ⟨?_, ?_⟩, ?_⟩
  · simp only [List.forall_mem_cons, List.not_mem_nil, false_implies, implies_true, and_true]
    exact ⟨hcreate, hplain (by decide), hname.toNat_lt⟩
  · refine List.forall_mem_map.mpr fun c hc => ?_
    simp only [indexHeading, List.forall_mem_cons, List.not_mem_nil, false_implies, implies_true,
      and_true]
    exact ⟨hcreate, hplain (by decide), hindex (isPlainWord_of_mem_indexColumns m c hc),
      hplain (by decide)⟩
  · split
    · cases d with
      | postgresql =>
        simp only [Dialect.stampHeadings, Dialect.functionHeadings, List.cons_append,
          List.nil_append, List.forall_mem_cons, List.not_mem_nil, false_implies, implies_true, and_true]
        exact ⟨⟨hcreate, hplain (by decide), hplain (by decide), hplain (by decide),
          hplain (by decide)⟩, hcreate, hplain (by decide), htrigger⟩
      | mysql =>
        simp only [Dialect.stampHeadings, Dialect.functionHeadings, List.nil_append,
          List.forall_mem_cons, List.not_mem_nil, false_implies, implies_true, and_true]
        exact ⟨hcreate, hplain (by decide), htrigger⟩
    · exact List.forall_mem_nil _

/-- **Every schema is split as it is meant**, whatever the fields, the JSON defaults and the
relationships of its model are: one statement creates the table, one each index, and if the model
has timestamps the last ones keep them.  Formatting changes nothing of that, and the check finds no
error.  The defaults hold no whole number of too many digits, which has no literal. -/
theorem schema_isAccepted {models : List Model} {r : Result}
    (hresult : validateModels (models.map .entity) = .ok r) (hvalid : r.isValid = true)
    (hnames : ∀ m ∈ models, IsPlainWord m.tableName) {m : Model} (hm : m ∈ models)
    (hjson : ∀ f ∈ m.fields, f.default.IsJson)
    (hspelled : ∀ f ∈ m.fields, f.default.unspelled? = none) (database : Database) :
    ∃ t, schema Library.registry database models m = .ok t ∧
      Sql.IsAccepted (headings (.ofDatabase database) m) t.toList ∧
      Sql.IsAccepted (headings (.ofDatabase database) m) (Sql.format t.toList) := by
  have hname := hnames m hm
  obtain ⟨columns, -, hcolumns⟩ :=
    exists_columnDefinitions (unfitIn?_of_isJson hjson hspelled) database
  have htargets : ∀ rel ∈ m.relationships, IsPlainWord (targetTable models rel.targetModel) :=
    fun rel hrel => isPlainWord_targetTable hnames
      (exists_target_of_valid hresult hvalid hm hrel)
  have hannounces := (announces_tableText hname (.ofDatabase database)
    (isClosed_columnDefinitions hcolumns)).append
      (announces_extrasText hname htargets (.ofDatabase database))
  rw [← String.toList_append] at hannounces
  have hstart : ∀ head ∈ headings (.ofDatabase database) m,
      ∃ k ∈ Sql.statementWords, k ∈ head.head? :=
    fun head hhead => ⟨"CREATE", by simp [Sql.statementWords], head?_of_mem_headings head hhead⟩
  exact ⟨_, schema_eq hcolumns models, hannounces.isAccepted hstart (ascii_of_mem_headings hname)⟩

/-- Remarks that answer remarks; the default of their text holds everything that could end a
statement. -/
def remark : Model :=
  { id := none, name := "Remark",
    fields := [⟨none, "id", .uuid, true, true, .null, [], none⟩,
      ⟨none, "body", .text, true, false, .text "it's; -- so $$ far\n);", [], none⟩],
    relationships := [⟨none, .oneToMany, "Remark", "Remark", "body", "id", true⟩],
    metadata := .default, createdAt := none, updatedAt := none }

/-- The schema of remarks. -/
theorem schema_isAccepted_remark :
    ∃ r, validateModels ([remark].map .entity) = .ok r ∧ r.isValid = true ∧
      (∀ m ∈ [remark], IsPlainWord m.tableName) ∧ (∀ f ∈ remark.fields, f.default.IsJson) ∧
      (∀ f ∈ remark.fields, f.default.unspelled? = none) ∧
      ∃ t, schema Library.registry .postgresql [remark] remark = .ok t ∧
        Sql.IsAccepted (headings .postgresql remark) t.toList ∧
        Sql.IsAccepted (headings .postgresql remark) (Sql.format t.toList) := by
  obtain ⟨r, hr, hvalid⟩ := exists_valid ([remark].map .entity) (by decide +kernel)
  have hnames : ∀ m ∈ [remark], IsPlainWord m.tableName := by
    have hlist : ∀ c ∈ "remarks".toList, isPlainAlnum c = true ∨ c = '_' := by decide
    exact List.forall_mem_singleton.mpr hlist
  have hjson : ∀ f ∈ remark.fields, f.default.IsJson :=
    List.forall_mem_cons.mpr ⟨.null, List.forall_mem_singleton.mpr (.text _)⟩
  have hspelled : ∀ f ∈ remark.fields, f.default.unspelled? = none := by decide
  exact ⟨r, hr, hvalid, hnames, hjson, hspelled,
    schema_isAccepted hr hvalid hnames (List.mem_singleton_self remark) hjson hspelled .postgresql⟩

end Scaffold.Artifact
