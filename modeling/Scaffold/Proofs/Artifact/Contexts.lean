import Scaffold.Artifact.Auth
import Scaffold.Artifact.Schema
import Scaffold.Proofs.Document.Json
import Scaffold.Proofs.Template.Library

/-!
# Proofs/Artifact/Contexts — every template gets the names that it uses

The context that an emitter hands to a template of the library has the scope that the template was
read in, so no template fails (`exists_recordInterface` and its siblings).  What is asked of the
texts in a context is a parameter: nothing for that purpose, and one line each where the lines of
the rendered text matter.
-/

namespace Scaffold.Artifact

open Document Model Options Project Template

variable {P : String → Prop}

/-- Rows of texts under fixed names. -/
theorem hasKind_rows {α : Type} {xs : List α} {item : α → Item} {members : List String}
    (row : α → List (String × String))
    (hitem : ∀ x, item x = .record ((row x).map fun e => (e.1, textItem e.2)))
    (hmembers : ∀ x, (row x).map (·.1) = members) (hP : ∀ x ∈ xs, ∀ e ∈ row x, P e.2) :
    HasKind P (.list (xs.map item)) (.rows members) := by
  refine .rows fun y hy => ?_
  obtain ⟨x, hx, rfl⟩ := List.mem_map.mp hy
  refine ⟨_, hitem x, ?_, fun e he => ?_⟩
  · rw [List.map_map, ← hmembers x]
    rfl
  · obtain ⟨f, hf, rfl⟩ := List.mem_map.mp he
    exact ⟨f.2, rfl, hP x hx f hf⟩

theorem fits_cons_text {s : Scope} {context : List (String × Item)} {n t : String} (ht : P t)
    (h : Fits P s context) : Fits P ((n, .text) :: s) ((n, textItem t) :: context) :=
  .cons ⟨rfl, .text ht⟩ h

theorem fits_cons_flag {s : Scope} {context : List (String × Item)} {n : String} {b : Bool}
    (h : Fits P s context) : Fits P ((n, .flag) :: s) ((n, flagItem b) :: context) :=
  .cons ⟨rfl, .flag b⟩ h

theorem fits_cons_rows {s : Scope} {context : List (String × Item)} {n : String}
    {items : List Item} {members : List String} (hrows : HasKind P (.list items) (.rows members))
    (h : Fits P s context) : Fits P ((n, .rows members) :: s) ((n, .list items) :: context) :=
  .cons ⟨rfl, hrows⟩ h

theorem fits_nil : Fits P [] [] := .nil

/-! ## The contexts -/

/-- What the template of a record refers to, the model has. -/
theorem fits_recordContext {m : Model} (hname : P m.name)
    (hfields : ∀ f ∈ m.dataFields, P f.name ∧ P (Catalog.facts f.type).typescript ∧
      P (if f.required then "" else "?")) :
    Fits P Library.modelInterfaceScope (recordContext m) := by
  refine fits_cons_text hname (fits_cons_rows ?_ (fits_cons_flag (fits_cons_flag fits_nil)))
  refine hasKind_rows (fun f : Field => [("name", f.name),
    ("tsType", (Catalog.facts f.type).typescript),
    ("optionalMark", if f.required then "" else "?")]) (fun _ => rfl) (fun _ => rfl) ?_
  intro f hf
  simpa using hfields f hf

theorem fits_controllerContext {m : Model} (hname : P m.name)
    (hservice : P (Naming.camel m.name ++ "Service")) :
    Fits P Library.controllerScope [("modelName", textItem m.name),
      ("serviceVar", textItem (Naming.camel m.name ++ "Service"))] :=
  fits_cons_text hname (fits_cons_text hservice fits_nil)

/-- What the template of the authorization refers to, the accounts have. -/
theorem fits_authorizationContext {a : Auth} (hroles : ∀ r ∈ a.roles, P r.name ∧
      P (Text.upperFirst r.name))
    (hjson : P (Json.print .line (.list (a.roles.map Role.document)))) :
    Fits P Library.authorizationScope [("roles", .list (a.roles.map roleItem)),
      ("rolesJson", textItem (Json.print .line (.list (a.roles.map Role.document))))] := by
  refine fits_cons_rows ?_ (fits_cons_text hjson fits_nil)
  refine hasKind_rows (fun r : Role => [("name", r.name),
    ("capitalizedName", Text.upperFirst r.name)]) (fun _ => rfl) (fun _ => rfl) ?_
  intro r hr
  simpa using hroles r hr

theorem fits_userModelContext {union : String} (hunion : P union) (b : Bool) :
    Fits P Library.userModelScope [("roleUnion", textItem union), ("tokenAuth", flagItem b)] :=
  fits_cons_text hunion (fits_cons_flag fits_nil)

theorem fits_authServiceContext {role : String} (hrole : P role) (b : Bool) :
    Fits P Library.authServiceScope [("tokenAuth", flagItem b), ("defaultRole", textItem role)] :=
  fits_cons_flag (fits_cons_text hrole fits_nil)

/-- Each column comes with its separator. -/
theorem exists_of_mem_columnItems {definitions : List String} {x : Item}
    (hx : x ∈ columnItems definitions) :
    ∃ c sep, x = .record [("definition", textItem c), ("separator", textItem sep)] := by
  fun_induction columnItems definitions with
  | case1 => exact absurd hx List.not_mem_nil
  | case2 c => exact ⟨c, "", List.mem_singleton.mp hx⟩
  | case3 c cs _ ih =>
    obtain rfl | hx := List.mem_cons.mp hx
    · exact ⟨c, ",", rfl⟩
    · exact ih hx

/-- The columns are rows with a definition and a separator. -/
theorem hasKind_columnItems (definitions : List String) :
    HasKind (fun _ => True) (.list (columnItems definitions))
      (.rows ["definition", "separator"]) := by
  refine .rows fun x hx => ?_
  obtain ⟨c, sep, rfl⟩ := exists_of_mem_columnItems hx
  refine ⟨_, rfl, rfl, ?_⟩
  simp only [List.forall_mem_cons]
  exact ⟨⟨c, rfl, trivial⟩, ⟨sep, rfl, trivial⟩, by simp⟩

/-- What the template of a schema refers to, a model among others has. -/
theorem fits_schemaContext (models : List Model) (m : Model) (definitions : List String) :
    Fits (fun _ => True) Library.schemaScope (schemaContext models m definitions) := by
  refine fits_cons_text trivial (fits_cons_rows (hasKind_columnItems definitions)
    (fits_cons_rows ?_ (fits_cons_rows ?_ (fits_cons_flag fits_nil))))
  · exact hasKind_rows (fun column => [("indexName", "idx_" ++ m.tableName ++ "_" ++ column),
      ("column", column)]) (fun _ => rfl) (fun _ => rfl) fun _ _ _ _ => trivial
  · exact hasKind_rows (fun r : Relationship => [("kind", Schema.Named.text r.cardinality),
      ("sourceColumn", Naming.snake r.sourceField),
      ("targetTable", targetTable models r.targetModel),
      ("targetColumn", Naming.snake r.targetField),
      ("cascade", if r.cascadeDelete then " (ON DELETE CASCADE)" else "")])
      (fun _ => rfl) (fun _ => rfl) fun _ _ _ _ => trivial

/-! ## No template fails -/

theorem exists_fromTemplate {name source : String} {scope : Scope} {notes : List Note}
    (h : (name, source) ∈ Library.templates) (hreads : Reads source scope notes)
    {context : List (String × Item)} (hfits : Fits P scope context) :
    ∃ t, fromTemplate Library.registry name context = .ok t := by
  obtain ⟨t, ht⟩ := Library.exists_render h hreads hfits
  exact ⟨t, by rw [fromTemplate, ht]; rfl⟩

/-- What is asked of texts that do not matter. -/
def Whatever (_ : String) : Prop := True

theorem exists_recordInterface (m : Model) : ∃ t, recordInterface Library.registry m = .ok t := by
  have hfits : Fits Whatever Library.modelInterfaceScope (recordContext m) :=
    fits_recordContext trivial fun _ _ => ⟨trivial, trivial, trivial⟩
  exact exists_fromTemplate (by simp [Library.templates]) Library.reads_modelInterface hfits

theorem exists_controller (m : Model) : ∃ t, controller Library.registry m = .ok t := by
  have hfits := fits_controllerContext (P := Whatever) (m := m) trivial trivial
  exact exists_fromTemplate (by simp [Library.templates]) Library.reads_controller hfits

theorem exists_authMiddleware (a : Auth) : ∃ t, authMiddleware Library.registry a = .ok t := by
  have hfits : Fits Whatever [] [] := fits_nil
  unfold authMiddleware
  split
  · exact exists_fromTemplate (by simp [Library.templates]) Library.reads_tokenMiddleware hfits
  · exact ⟨_, rfl⟩
  · exact ⟨_, rfl⟩

theorem exists_authorizationMiddleware (a : Auth) :
    ∃ t, authorizationMiddleware Library.registry a = .ok t := by
  have hfits := fits_authorizationContext (P := Whatever) (a := a) (fun _ _ => ⟨trivial, trivial⟩)
    trivial
  exact exists_fromTemplate (by simp [Library.templates]) Library.reads_authorizationMiddleware
    hfits

theorem exists_userModel (o : Generation) (a : Auth) :
    ∃ t, userModel Library.registry o a = .ok t := by
  have hfits (union : String) : Fits Whatever Library.userModelScope
      [("roleUnion", textItem union), ("tokenAuth", flagItem o.tokenAuth)] :=
    fits_userModelContext trivial o.tokenAuth
  exact exists_fromTemplate (by simp [Library.templates]) Library.reads_userModel (hfits _)

theorem exists_authService (o : Generation) (a : Auth) :
    ∃ t, authService Library.registry o a = .ok t := by
  have hfits : Fits Whatever Library.authServiceScope
      [("tokenAuth", flagItem o.tokenAuth), ("defaultRole", textItem a.defaultRole)] :=
    fits_authServiceContext trivial o.tokenAuth
  exact exists_fromTemplate (by simp [Library.templates]) Library.reads_authService hfits

/-! ## What stops a schema -/

/-- What keeps a default from being a literal: in a list or mapping, which is written as a document, a
part without a form, in anything else a whole number of too many digits. -/
def unfitDefault? (f : Field) : Option Json.Unwritable :=
  match f.default with
  | .list _ | .record _ | .table _ => Json.unwritable? f.default
  | v => v.unspelled?

/-- A default becomes a literal unless something keeps it from it. -/
theorem columnDefault_eq (f : Field) : ∃ parts, columnDefault f.default =
    .barring ((unfitDefault? f).map .unwritable) parts := by
  have hspelled (v : Value) : v.spelled = .barring v.unspelled? v.shown := by
    rw [Value.spelled]
    cases v.unspelled? <;> rfl
  have hdump (v : Value) : Json.dump .line v = .barring (Json.unwritable? v) (Json.print .line v) := by
    rw [Json.dump]
    cases Json.unwritable? v <;> rfl
  have hliteral (o : Option Json.Unwritable) (t : String) :
      (Except.barring o t).mapError Failure.unwritable = .barring (o.map .unwritable) t := by
    cases o <;> rfl
  unfold unfitDefault?
  cases f.default with
  | null => exact ⟨[], rfl⟩
  | bool b => exact ⟨_, rfl⟩
  | _ =>
    simp only [columnDefault, sqlLiteral, hspelled, hdump, hliteral, Except.map_barring]
    exact ⟨_, rfl⟩

theorem columnDefinition_of_unfit {f : Field} {u : Json.Unwritable} (h : unfitDefault? f = some u)
    (database : Database) : columnDefinition database f = .error (.unwritable u) := by
  obtain ⟨parts, hparts⟩ := columnDefault_eq f
  rw [columnDefinition, hparts, h]
  rfl

theorem exists_columnDefinition {f : Field} (h : unfitDefault? f = none) (database : Database) :
    ∃ t, columnDefinition database f = .ok t := by
  obtain ⟨parts, hparts⟩ := columnDefault_eq f
  rw [columnDefinition, hparts, h]
  exact ⟨_, rfl⟩

/-- What keeps the defaults of a model from being literals. -/
def unfitIn? (m : Model) : Option Json.Unwritable := m.dataFields.findSome? unfitDefault?

/-- The defaults of JSON documents are literals if their whole numbers can be written. -/
theorem unfitIn?_of_isJson {m : Model} (h : ∀ f ∈ m.fields, f.default.IsJson)
    (hspelled : ∀ f ∈ m.fields, f.default.unspelled? = none) : unfitIn? m = none := by
  refine List.findSome?_eq_none_iff.mpr fun f hf => ?_
  have hfield := (List.mem_filter.mp hf).1
  have hwritable : Json.unwritable? f.default = none :=
    (Json.unwritable?_of_isJson (h f hfield)).trans (hspelled f hfield)
  unfold unfitDefault?
  split
  · exact hwritable
  · exact hwritable
  · exact hwritable
  · exact hspelled f hfield

theorem columnDefinitions_of_unfit {m : Model} {u : Json.Unwritable} (h : unfitIn? m = some u)
    (database : Database) : columnDefinitions database m = .error (.unwritable u) := by
  rw [columnDefinitions, Except.mapM_eq_error (fun _ _ h => columnDefinition_of_unfit h database)
    (fun _ h => exists_columnDefinition h database) h]
  rfl

theorem schema_of_unfit {m : Model} {u : Json.Unwritable} (h : unfitIn? m = some u)
    (r : Registry) (database : Database) (models : List Model) :
    schema r database models m = .error (.unwritable u) := by
  rw [schema, columnDefinitions_of_unfit h]

/-- A model whose defaults can be written has a schema in every database. -/
theorem exists_schema {m : Model} (h : unfitIn? m = none) (database : Database)
    (models : List Model) : ∃ t, schema Library.registry database models m = .ok t := by
  have hfields : ∀ f ∈ m.dataFields, ∃ t, columnDefinition database f = .ok t :=
    fun f hf => exists_columnDefinition (List.findSome?_eq_none_iff.mp h f hf) database
  obtain ⟨columns, hcolumns⟩ := Except.exists_mapM_eq_ok hfields
  have hdefinitions : ∃ definitions, columnDefinitions database m = .ok definitions := by
    rw [columnDefinitions, hcolumns]
    exact ⟨_, rfl⟩
  obtain ⟨definitions, hdefinitions⟩ := hdefinitions
  rw [schema, hdefinitions]
  have hfits := fits_schemaContext models m definitions
  cases Dialect.ofDatabase database with
  | postgresql =>
    exact exists_fromTemplate (by simp [Library.templates, Dialect.schemaTemplate])
      Library.reads_postgresqlSchema hfits
  | mysql =>
    exact exists_fromTemplate (by simp [Library.templates, Dialect.schemaTemplate])
      Library.reads_mysqlSchema hfits

end Scaffold.Artifact
