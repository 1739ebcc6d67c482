import Mathlib.Data.List.Nodup
import Scaffold.Proofs.Artifact.Layers
import Scaffold.Proofs.Text.Casing
import Scaffold.Proofs.Validation.Subjects

/-!
# Proofs/Artifact/Columns — when the columns of a table have different names

A table has a column for each data field, under the snake-case form of its name, between columns of
its own.  Validation keeps the names of the fields apart, but not their forms: two columns may get
one name (`columns_clash`).  `columns_nodup_iff` says when they do not; regular field names that are
not those of the table's own members are enough.
-/

namespace Scaffold.Artifact

open Document Model Options Template Text Validation

/-! ## The names of columns -/

/-- The name of a column: the first word of its definition. -/
def columnName (definition : String) : String :=
  String.ofList (definition.toList.takeWhile (· ≠ ' '))

/-- The name of a column is what stands before the first blank. -/
theorem columnName_eq {n : String} (h : ' ' ∉ n.toList) (type : String) :
    columnName (n ++ " " ++ type) = n := by
  have hword : ∀ c ∈ n.toList, decide (c ≠ ' ') = true := fun c hc =>
    decide_eq_true fun heq => h (heq ▸ hc)
  have hblank : " ".toList = [' '] := by decide
  rw [columnName, String.toList_append, String.toList_append, hblank, List.append_assoc,
    List.takeWhile_append_of_pos hword, List.singleton_append,
    List.takeWhile_cons_of_neg (by decide), List.append_nil, String.ofList_toList]

theorem blank_notMem_snake (s : String) : ' ' ∉ (Naming.snake s).toList := by
  rw [Naming.snake, String.toList_ofList]
  refine notMem_joinWith (by decide) fun w hw hmem => ?_
  exact absurd (Naming.isPlainAlnum_of_mem_split hw _ hmem) (by decide)

/-- The names of the columns that a table has besides those of the fields. -/
def ownColumns (m : Metadata) : List String :=
  "id" :: (when m.timestamps ["created_at", "updated_at"] ++ when m.softDelete ["deleted_at"])

/-- The names of the members whose columns a table has besides those of the fields. -/
def ownMembers (m : Metadata) : List String :=
  "id" :: (when m.timestamps ["createdAt", "updatedAt"] ++ when m.softDelete ["deletedAt"])

theorem columnName_identifierColumn (d : Dialect) : columnName d.identifierColumn = "id" := by
  cases d <;> decide

theorem map_columnName_when (d : Dialect) (flag : Bool) :
    (when flag ["created_at " ++ d.stamp ++ " NOT NULL DEFAULT " ++ d.now,
        "updated_at " ++ d.stamp ++ " NOT NULL DEFAULT " ++ d.now]).map columnName =
      when flag ["created_at", "updated_at"] ∧
    (when flag ["deleted_at " ++ d.stamp]).map columnName = when flag ["deleted_at"] := by
  cases d <;> cases flag <;> decide

/-- The columns of a table have the names of its own columns and those of the fields. -/
theorem map_columnName {m : Model} {columns : List String}
    (h : List.Forall₂ (fun f c => ∃ type, c = Naming.snake f.name ++ " " ++ type) m.dataFields
      columns) (d : Dialect) :
    ((tableColumns d m columns).map columnName).Perm
      (ownColumns m.metadata ++ m.dataFields.map fun f => Naming.snake f.name) := by
  have hfields : columns.map columnName = m.dataFields.map fun f => Naming.snake f.name := by
    generalize m.dataFields = fs at h
    induction h with
    | nil => rfl
    | cons hc _ ih =>
      obtain ⟨type, rfl⟩ := hc
      rw [List.map_cons, List.map_cons, columnName_eq (blank_notMem_snake _), ih]
  rw [tableColumns, List.map_append, List.map_append, List.map_cons, hfields,
    columnName_identifierColumn, (map_columnName_when d _).1, (map_columnName_when d _).2,
    ownColumns, List.cons_append, List.cons_append, List.cons_append, List.append_assoc]
  exact List.perm_append_comm.cons _

/-! ## Tables without a repeated column -/

theorem nodup_ownColumns (m : Metadata) : (ownColumns m).Nodup := by
  unfold ownColumns
  cases m.timestamps <;> cases m.softDelete <;> decide

/-- The own columns of a table are the forms of its own members. -/
theorem map_snake_ownMembers (m : Metadata) :
    (ownMembers m).map Naming.snake = ownColumns m := by
  unfold ownMembers ownColumns
  cases m.timestamps <;> cases m.softDelete <;> decide

/-- The members that the program adds are in the letter case that names are converted to. -/
theorem isRegular_of_mem_ownMembers {m : Metadata} {s : String} (h : s ∈ ownMembers m) :
    Naming.IsRegular s := by
  have hall : ∀ s ∈ ["id", "createdAt", "updatedAt", "deletedAt"], Naming.isCamel s = true ∧
      '\n' ∉ s.toList ∧ s.toList.IsChain fun c d =>
        (isUpperLetter c && isUpperLetter d) = false := by
    decide
  have hsub : ownMembers m ⊆ ["id", "createdAt", "updatedAt", "deletedAt"] := by
    unfold ownMembers
    cases m.timestamps <;> cases m.softDelete <;> decide
  obtain ⟨hcamel, hline, hsingle⟩ := hall s (hsub h)
  exact ⟨hcamel, hline, hsingle⟩

/-- **The columns of a table differ exactly if the converted field names do and none is a column
that the program adds.** -/
theorem nodup_map_columnName_iff {m : Model} {columns : List String}
    (h : List.Forall₂ (fun f c => ∃ type, c = Naming.snake f.name ++ " " ++ type) m.dataFields
      columns) (d : Dialect) :
    ((tableColumns d m columns).map columnName).Nodup ↔
      (m.dataFields.map fun f => Naming.snake f.name).Nodup ∧
        ∀ f ∈ m.dataFields, Naming.snake f.name ∉ ownColumns m.metadata := by
  rw [(map_columnName h d).nodup_iff, List.nodup_append]
  constructor
  · rintro ⟨-, hfields, hapart⟩
    exact ⟨hfields, fun f hf hown => hapart _ hown _ (List.mem_map_of_mem hf) rfl⟩
  · rintro ⟨hfields, hown⟩
    refine ⟨nodup_ownColumns m.metadata, hfields, fun c hc c' hc' heq => ?_⟩
    obtain ⟨f, hf, rfl⟩ := List.mem_map.mp hc'
    exact hown f hf (heq ▸ hc)

/-- Regular names other than those of the own members leave the columns apart. -/
theorem nodup_snake_of_regular {m : Model} (hnames : (m.fields.map (·.name)).Nodup)
    (h : ∀ f ∈ m.dataFields, Naming.IsRegular f.name ∧ f.name ∉ ownMembers m.metadata) :
    (m.dataFields.map fun f => Naming.snake f.name).Nodup ∧
      ∀ f ∈ m.dataFields, Naming.snake f.name ∉ ownColumns m.metadata := by
  constructor
  · have hdata : (m.dataFields.map (·.name)).Nodup :=
      hnames.sublist (List.filter_sublist.map _)
    have hmap : (m.dataFields.map (·.name)).map Naming.snake =
        m.dataFields.map fun f => Naming.snake f.name := by
      rw [List.map_map]
      rfl
    rw [← hmap]
    refine List.Nodup.map_on (fun s hs t ht heq => ?_) hdata
    obtain ⟨f, hf, rfl⟩ := List.mem_map.mp hs
    obtain ⟨g, hg, rfl⟩ := List.mem_map.mp ht
    exact Naming.snake_inj (h f hf).1 (h g hg).1 heq
  · intro f hf hown
    rw [← map_snake_ownMembers] at hown
    obtain ⟨s, hs, heq⟩ := List.mem_map.mp hown
    have hsame := Naming.snake_inj (isRegular_of_mem_ownMembers hs) (h f hf).1 heq
    exact (h f hf).2 (hsame ▸ hs)

/-- **When the columns of a table have different names**: exactly when neither two fields, nor a
field and a column of the table's own, have one form in snake case.  Among models without errors
that is so whenever no name has two capitals in a row or ends a line, or is that of a member that
the table has by itself. -/
theorem columns_nodup_iff {subjects : List (Subject Model)} {r : Result}
    (hr : validateModels subjects = .ok r) (hvalid : r.isValid = true) {ms : List Model}
    (hms : Job.entities subjects = .ok ms) {m : Model} (hm : m ∈ ms)
    (hcamel : ∀ f ∈ m.fields, Naming.isCamel f.name = true) (database : Database) {t : String}
    (ht : schema Library.registry database ms m = .ok t) :
    ∃ columns rest, t = tableText (.ofDatabase database) m columns ++ rest ∧
      ((columns.map columnName).Nodup ↔
        (m.dataFields.map fun f => Naming.snake f.name).Nodup ∧
          ∀ f ∈ m.dataFields, Naming.snake f.name ∉ ownColumns m.metadata) ∧
      ((∀ s ∈ subjects, s.IsJson) →
        (∀ f ∈ m.dataFields, OneLine f.name ∧ Naming.SingleCapitals f.name ∧
          f.name ∉ ownMembers m.metadata) →
        (columns.map columnName).Nodup) := by
  have hlists := schema_lists_columns database ms m
  split at hlists
  · rw [ht] at hlists
    cases hlists
  · obtain ⟨columns, rest, hnames, hschema⟩ := hlists
    have hiff := nodup_map_columnName_iff hnames (.ofDatabase database)
    refine ⟨_, rest, Except.ok.inj (ht.symm.trans hschema), hiff, fun hjson hregular => ?_⟩
    have hdistinct := (names_of_valid hjson hr hvalid hms).2 m hm
    refine hiff.mpr (nodup_snake_of_regular hdistinct fun f hf => ?_)
    obtain ⟨hline, hsingle, hown⟩ := hregular f hf
    exact ⟨⟨hcamel f (List.mem_of_mem_filter hf), hline, hsingle⟩, hown⟩

/-- The document of a model with the given fields beside its identifier. -/
def account (names : List String) : Value :=
  .record [("name", .text "Account"),
    ("fields", .list (.record [("name", .text "id"), ("type", .text "uuid"),
      ("unique", .bool true)] ::
        names.map fun n => .record [("name", .text n), ("type", .text "string")]))]

/-- An account as a document. -/
theorem isJson_account (names : List String) : (account names).IsJson := by
  refine .record ?_
  simp only [List.forall_mem_cons, List.not_mem_nil, false_implies, implies_true, and_true]
  refine ⟨.text _, .list (List.forall_mem_cons.mpr ⟨.record ?_, List.forall_mem_map.mpr ?_⟩)⟩
  · simp only [List.forall_mem_cons, List.not_mem_nil, false_implies, implies_true, and_true]
    exact ⟨.text _, .text _, .bool _⟩
  · refine fun n _ => .record ?_
    simp only [List.forall_mem_cons, List.not_mem_nil, false_implies, implies_true, and_true]
    exact ⟨.text _, .text _⟩

/-- The document of an account with a name and a birthday, and its table. -/
theorem columns_nodup_account :
    let subjects : List (Subject Model) := [.raw (account ["firstName", "birthDate"])]
    ∃ r ms m, validateModels subjects = .ok r ∧ r.isValid = true ∧ Job.entities subjects = .ok ms ∧
      m ∈ ms ∧ (∀ f ∈ m.fields, Naming.isCamel f.name = true) ∧
      ∃ columns rest, schema Library.registry .mysql ms m =
          .ok (tableText .mysql m columns ++ rest) ∧
        (columns.map columnName).Nodup := by
  intro subjects
  have hjson : ∀ s ∈ subjects, s.IsJson := List.forall_mem_singleton.mpr (isJson_account _)
  obtain ⟨r, m, hr, hvalid, hm, hunfit, hcamel, hregular⟩ :
      ∃ r m, validateModels subjects = .ok r ∧ r.isValid = true ∧
        Job.entities subjects = .ok [m] ∧ unfitIn? m = none ∧
        (∀ f ∈ m.fields, Naming.isCamel f.name = true) ∧
        ∀ f ∈ m.dataFields, '\n' ∉ f.name.toList ∧
          (f.name.toList.IsChain fun c d => (isUpperLetter c && isUpperLetter d) = false) ∧
          f.name ∉ ownMembers m.metadata :=
    ⟨_, _, rfl, by decide +kernel, rfl, by decide +kernel, by decide +kernel, by decide +kernel⟩
  have hlists := schema_lists_columns .mysql [m] m
  rw [hunfit] at hlists
  obtain ⟨_, _, -, hschema⟩ := hlists
  obtain ⟨columns, rest, ht, -, hnodup⟩ :=
    columns_nodup_iff hr hvalid hm (List.mem_singleton_self m) hcamel .mysql hschema
  exact ⟨r, [m], m, hr, hvalid, hm, List.mem_singleton_self m, hcamel, columns, rest,
    hschema.trans (congrArg _ ht), hnodup hjson hregular⟩

/-- Two fields may share a column: names are told apart by their letters, and `userId` and `userID`
have one form. -/
theorem columns_clash :
    let subjects : List (Subject Model) := [.raw (account ["userId", "userID"])]
    ∃ r ms m, validateModels subjects = .ok r ∧ r.isValid = true ∧
      Job.entities subjects = .ok ms ∧ m ∈ ms ∧
      (∀ f ∈ m.fields, Naming.isCamel f.name = true) ∧
      ∃ columns rest, schema Library.registry .postgresql ms m =
          .ok (tableText .postgresql m columns ++ rest) ∧
        ¬(columns.map columnName).Nodup := by
  intro subjects
  obtain ⟨m, hm, hunfit, hcamel, hshared⟩ : ∃ m, Job.entities subjects = .ok [m] ∧
      unfitIn? m = none ∧ (∀ f ∈ m.fields, Naming.isCamel f.name = true) ∧
      ¬(m.dataFields.map fun f => Naming.snake f.name).Nodup :=
    ⟨_, rfl, by decide, by decide, by decide⟩
  have hlists := schema_lists_columns .postgresql [m] m
  rw [hunfit] at hlists
  obtain ⟨columns, rest, hnames, hschema⟩ := hlists
  refine ⟨_, [m], m, rfl, by decide +kernel, hm, List.mem_singleton_self m, hcamel, _, rest, hschema,
    fun hnodup => ?_⟩
  exact hshared ((nodup_map_columnName_iff hnames .postgresql).mp hnodup).1

end Scaffold.Artifact
