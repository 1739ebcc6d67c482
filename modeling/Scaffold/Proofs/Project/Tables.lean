import Scaffold.Proofs.Artifact.Layers
import Scaffold.Proofs.Project.Imports
import Scaffold.Validation.Basic

/-!
# Proofs/Project/Tables — which tables the schema files of a project create

Every model has a table, under a name of its own or one that is derived from its segment, and so
have the accounts of a login, which give way to a model that has their segment.  Since no two files
of a project have one path, derived names and that of the accounts are different
(`nodup_derivedTables`).  A name that a model gives its table is compared with no other, so the
tables are different exactly when each of these occurs once (`tables_nodup_iff`).
-/

namespace Scaffold.Project

open Artifact Document Model Options Template Text

/-! ## Schema files -/

/-- The path is one of the folder of schemas. -/
def isSchemaPath (path : String) : Bool := "src/schemas/".toList.isPrefixOf path.toList

/-- The schema files among some files. -/
def schemasAmong (fs : List File) : List File := fs.filter fun f => isSchemaPath f.path

/-- The file begins with the statement that creates a table. -/
def Creates (f : File) (table : String) : Prop :=
  ∃ rest, f.content = "CREATE TABLE " ++ table ++ " (\n" ++ rest

theorem isSchemaPath_path (s : Slot) (x : String) :
    isSchemaPath (s.path x) = decide (s = .schemas) := by
  rw [isSchemaPath, Slot.toList_path]
  cases s <;> rfl

theorem schemasAmong_append (fs gs : List File) :
    schemasAmong (fs ++ gs) = schemasAmong fs ++ schemasAmong gs :=
  List.filter_append ..

theorem schemasAmong_eq_nil {fs : List File} {paths : List String} (h : fs.map (·.path) = paths)
    (hpaths : ∀ path ∈ paths, isSchemaPath path = false) : schemasAmong fs = [] := by
  refine List.filter_eq_nil_iff.mpr fun f hf => ?_
  rw [hpaths f.path (h ▸ List.mem_map_of_mem hf)]
  exact Bool.false_ne_true

theorem schemasAmong_of_slots {fs : List File} {es : List (Slot × String)}
    (h : fs.map (·.path) = es.map slotPath) (hes : ∀ e ∈ es, e.1 ≠ .schemas) :
    schemasAmong fs = [] := by
  refine schemasAmong_eq_nil h (List.forall_mem_map.mpr fun e he => ?_)
  rw [slotPath, isSchemaPath_path, decide_eq_false (hes e he)]

/-- One schema file between others. -/
theorem schemasAmong_between {xs ys : List File} {f : File} {es es' : List (Slot × String)}
    {x : String} (h : (xs ++ f :: ys).map (·.path) = (es ++ (.schemas, x) :: es').map slotPath)
    (hlength : xs.length = es.length) (hes : ∀ e ∈ es ++ es', e.1 ≠ .schemas) :
    schemasAmong (xs ++ f :: ys) = [f] := by
  obtain ⟨hes, hes'⟩ := List.forall_mem_append.mp hes
  rw [List.map_append, List.map_append] at h
  obtain ⟨hxs, h⟩ := List.append_inj h (by rw [List.length_map, List.length_map, hlength])
  obtain ⟨hf, hys⟩ := List.cons.inj h
  have hschema : isSchemaPath f.path = true :=
    (congrArg isSchemaPath hf).trans (isSchemaPath_path .schemas x)
  rw [schemasAmong_append, schemasAmong_of_slots hxs hes, List.nil_append]
  rw [schemasAmong, List.filter_cons, if_pos hschema]
  exact congrArg (f :: ·) (schemasAmong_of_slots hys hes')

section Emission

variable {r : Registry} {o : Generation} {models : List Model}

/-- A schema begins with its table. -/
theorem exists_schema_eq_create {database : Database} {m : Model} {text : String}
    (h : schema Library.registry database models m = .ok text) :
    ∃ rest, text = "CREATE TABLE " ++ m.tableName ++ " (\n" ++ rest := by
  have hlists := schema_lists_columns database models m
  split at hlists
  · rw [h] at hlists
    cases hlists
  · obtain ⟨columns, rest, -, hschema⟩ := hlists
    rw [h] at hschema
    cases hschema
    unfold tableText
    simp only [String.append_assoc]
    exact ⟨_, rfl⟩

/-- A model has one schema file, which creates its table. -/
theorem schemasAmong_modelFiles (hrelational : o.isRelational = true) {m : Model} {fs : List File}
    (h : modelFiles Library.registry o models m = .ok fs) :
    ∃ f, schemasAmong fs = [f] ∧ Creates f m.tableName := by
  have hpaths := paths_modelFiles h
  obtain ⟨record, schemas, handlers, -, hschemas, -, -, rfl⟩ := exists_of_modelFiles_eq_ok h
  rw [schemaFiles, if_pos hrelational] at hschemas
  obtain ⟨text, htext, rfl⟩ := Except.map_eq_ok_iff.mp hschemas
  rw [modelSlots, if_pos hrelational] at hpaths
  simp only [List.append_assoc] at hpaths ⊢
  refine ⟨.sql ("src/schemas/" ++ m.routeName ++ ".sql") text, ?_, exists_schema_eq_create htext⟩
  refine schemasAmong_between hpaths rfl ?_
  split <;> simp

/-- The schemas of the models create their tables. -/
theorem schemasAmong_flatten (hrelational : o.isRelational = true) {ms : List Model}
    {groups : List (List File)}
    (h : List.Forall₂ (fun m fs => modelFiles Library.registry o models m = .ok fs) ms groups) :
    List.Forall₂ Creates (schemasAmong groups.flatten) (ms.map Model.tableName) := by
  induction h with
  | nil => exact .nil
  | cons hfs _ ih =>
    obtain ⟨f, hf, hcreates⟩ := schemasAmong_modelFiles hrelational hfs
    rw [List.flatten_cons, schemasAmong_append, hf]
    exact .cons hcreates ih

theorem schemasAmong_allModelFiles (hrelational : o.isRelational = true) {fs : List File}
    (h : allModelFiles Library.registry o models = .ok fs) :
    List.Forall₂ Creates (schemasAmong fs) (models.map Model.tableName) := by
  obtain ⟨groups, hgroups, rfl⟩ := Except.map_eq_ok_iff.mp h
  exact schemasAmong_flatten hrelational (Except.forall₂_of_mapM_eq_ok hgroups)

/-! ## The table of the accounts -/

/-- The table of the accounts where it is put. -/
def accountsTable (models : List Model) : String :=
  if MovesAccounts models then "auth_users" else "users"

theorem relocateLine?_createUsers :
    relocateLine? "CREATE TABLE users (".toList = some "CREATE TABLE auth_users (".toList := by
  decide

theorem content_placed (g : File) : (placed models g).content =
    if MovesAccounts models then relocateText g.content else g.content := by
  unfold placed
  split <;> rfl

/-- The accounts have a table in either place. -/
theorem creates_placed {path : String} (d : Dialect) (a : Auth) :
    Creates (placed models (.sql path (userSchema d a))) (accountsTable models) := by
  obtain ⟨ls, hls⟩ : ∃ ls, userSchema d a = paragraph ("CREATE TABLE users (" :: ls) := ⟨_, rfl⟩
  have hds := (congrArg String.toList hls).trans (toList_paragraph_cons _ ls)
  rw [Creates, content_placed, File.sql, accountsTable]
  split
  · have hline : '\n' ∉ "CREATE TABLE users (".toList := by decide
    obtain ⟨rest, hrest⟩ := exists_relocateText_eq hline relocateLine?_createUsers hds
    refine ⟨String.ofList rest, ?_⟩
    rw [← String.toList_inj, hrest]
    simp only [String.toList_append, String.toList_ofList]
    rfl
  · refine ⟨paragraph ls, ?_⟩
    rw [← String.toList_inj, hds]
    simp only [String.toList_append]
    rfl

/-- The schema of the accounts comes last among the files of the login. -/
theorem exists_loginFiles_eq (hrelational : o.isRelational = true) {a : Auth} {gs : List File}
    (h : loginFiles r o a = .ok gs) :
    ∃ fs, fs.length = 8 ∧ gs = fs ++
      [File.sql "src/schemas/user.sql" (userSchema (.ofDatabase o.database.value) a)] := by
  obtain ⟨users, -, h⟩ := Except.bind_eq_ok_iff.mp h
  obtain ⟨service, -, h⟩ := Except.bind_eq_ok_iff.mp h
  obtain ⟨login, -, h⟩ := Except.bind_eq_ok_iff.mp h
  obtain ⟨access, -, h⟩ := Except.bind_eq_ok_iff.mp h
  cases h
  rw [if_pos hrelational]
  exact ⟨_, rfl, rfl⟩

/-- That of the accounts creates theirs. -/
theorem schemasAmong_placedLoginFiles (hrelational : o.isRelational = true) {a : Auth}
    {fs : List File} (h : placedLoginFiles r o models a = .ok fs) :
    List.Forall₂ Creates (schemasAmong fs)
      (if o.authEnabled then [accountsTable models] else []) := by
  have hpaths := paths_placedLoginFiles h
  cases hauth : o.authEnabled with
  | false =>
    rw [placedLoginFiles, hauth] at h
    cases h
    exact .nil
  | true =>
    obtain ⟨gs, hgs, rfl⟩ := placedLoginFiles_eq_ok h hauth
    obtain ⟨others, hlength, rfl⟩ := exists_loginFiles_eq hrelational hgs
    rw [loginSlots, if_pos hauth, if_pos hrelational, List.map_append] at hpaths
    have hschemas := schemasAmong_between hpaths ((List.length_map _).trans hlength) (by simp)
    rw [List.map_append, List.map_cons, if_pos rfl, hschemas]
    exact .cons (creates_placed _ a) .nil

/-! ## The tables of a project -/

/-- The tables of the models, and that of the accounts of a login. -/
def tablesOf (o : Generation) (models : List Model) : List String :=
  models.map Model.tableName ++ if o.authEnabled then [accountsTable models] else []

variable {name : Option String} {moment : Nat} {p : Project}

/-- The schema files of a project create its tables, one each. -/
theorem creates_tablesOf (hrelational : o.isRelational = true)
    (h : build Library.registry o models name moment = .ok p) :
    List.Forall₂ Creates (schemasAmong p.files) (tablesOf o models) := by
  obtain ⟨a, fs, gs, hfs, -, hgs, -, rfl⟩ := exists_of_build_eq_ok h
  have hpaths : (rootFiles o (name.getD "generated-api") models).map (·.path) =
    ["package.json", "tsconfig.json", ".env.example", "README.md"] := rfl
  have hroot := schemasAmong_eq_nil hpaths (by decide)
  have hshared : schemasAmong (sharedFiles o models) = [] := by
    refine schemasAmong_eq_nil (paths_sharedFiles o models) ?_
    decide
  rw [assembled, allFiles, schemasAmong_append, schemasAmong_append, schemasAmong_append, hroot,
    hshared, List.nil_append, List.append_nil, tablesOf]
  exact List.rel_append (schemasAmong_allModelFiles hrelational hfs)
    (schemasAmong_placedLoginFiles hrelational hgs)

theorem nodup_slots_of_build (h : build r o models name moment = .ok p) :
    (slots o models).Nodup := by
  have hpaths := nodup_paths_of_build h
  rw [Project.paths, (isEmitted_of_build h).paths, emittedPaths] at hpaths
  exact ((List.nodup_append.mp (List.nodup_append.mp hpaths).1).2.1).of_map _

/-- What tells the files of one kind from each other is different for each model. -/
theorem nodup_map_of_build {k : Slot} {f : Model → String} (hslot : ∀ m, (k, f m) ∈ modelSlots o m)
    (h : build r o models name moment = .ok p) : (models.map f).Nodup := by
  have hslots := nodup_slots_of_build h
  rw [slots, List.nodup_append', List.nodup_append', List.nodup_flatMap] at hslots
  refine List.pairwise_map.mpr (hslots.1.1.2.imp fun {m m'} hdisjoint heq => ?_)
  exact hdisjoint (hslot m) (heq ▸ hslot m')

/-- The segments of the schema files of a project are different. -/
theorem nodup_segments_of_build (hrelational : o.isRelational = true)
    (h : build r o models name moment = .ok p) :
    (models.map Model.routeName ++
      if o.authEnabled then [accountSegment models] else []).Nodup := by
  have hslots := nodup_slots_of_build h
  rw [slots, List.nodup_append', List.nodup_append'] at hslots
  obtain ⟨⟨-, -, hlogin⟩, -⟩ := hslots
  have hschema (m : Model) : (.schemas, m.routeName) ∈ modelSlots o m := by
    simp [modelSlots, hrelational]
  rw [List.nodup_append']
  refine ⟨nodup_map_of_build hschema h, ?_, fun s hs hsegment => ?_⟩
  · split
    · exact List.nodup_singleton _
    · exact List.nodup_nil
  · obtain ⟨m, hm, rfl⟩ := List.mem_map.mp hs
    obtain ⟨hauth, hsegment⟩ := List.mem_ite_nil_right.mp hsegment
    refine hlogin (List.mem_flatMap.mpr ⟨m, hm, hschema m⟩) ?_
    rw [List.mem_singleton.mp hsegment]
    simp [loginSlots, hauth, hrelational]

theorem accountsTable_eq (models : List Model) :
    accountsTable models = accountSegment models ++ "s" := by
  rw [accountsTable, accountSegment]
  split <;> decide

/-- **Derived names do not meet**: those of tables that are not given one, and that of the
accounts. -/
theorem nodup_derivedTables (hrelational : o.isRelational = true)
    (h : build r o models name moment = .ok p) :
    (models.map (fun m => Naming.tableName m.name) ++
      if o.authEnabled then [accountsTable models] else []).Nodup := by
  have hinjective : Function.Injective fun s : String => s ++ "s" := fun x y heq => by
    have hlist := congrArg String.toList heq
    rw [String.toList_append, String.toList_append] at hlist
    exact String.toList_inj.mp (List.append_cancel_right hlist)
  have hmap := (nodup_segments_of_build hrelational h).map hinjective
  rw [List.map_append, List.map_map] at hmap
  have haccounts : (if o.authEnabled then [accountSegment models] else []).map (· ++ "s") =
      if o.authEnabled then [accountsTable models] else [] := by
    rw [accountsTable_eq]
    split <;> rfl
  rwa [haccounts] at hmap

/-- The model gives its table a name. -/
def GivesTable (m : Model) : Prop := ∃ t, m.metadata.tableName = some t ∧ t ≠ ""

/-- A model that gives no table has one made from its name. -/
theorem tableName_of_not_givesTable {m : Model} (h : ¬GivesTable m) :
    m.tableName = Naming.tableName m.name := by
  rw [Model.tableName]
  split
  · exact if_pos (by_contra fun hne => h ⟨_, ‹_›, hne⟩)
  · rfl

/-- **When the tables of a project are different**: exactly when every name that a model gives its
table occurs once, so always if no model gives one. -/
theorem tables_nodup_iff (hrelational : o.isRelational = true)
    (h : build Library.registry o models name moment = .ok p) :
    List.Forall₂ Creates (schemasAmong p.files) (tablesOf o models) ∧
      ((tablesOf o models).Nodup ↔
        ∀ m ∈ models, GivesTable m → (tablesOf o models).count m.tableName = 1) := by
  refine ⟨creates_tablesOf hrelational h, fun hnodup m hm _ => ?_, fun honce => ?_⟩
  · exact List.count_eq_one_of_mem hnodup (List.mem_append_left _ (List.mem_map_of_mem hm))
  · refine List.nodup_iff_count_le_one.mpr fun t => ?_
    by_cases hgiven : ∃ m ∈ models, GivesTable m ∧ m.tableName = t
    · obtain ⟨m, hm, hgives, rfl⟩ := hgiven
      exact Nat.le_of_eq (honce m hm hgives)
    · -- every table of that name has a derived one
      refine Nat.le_trans ?_ (List.nodup_iff_count_le_one.mp (nodup_derivedTables hrelational h) t)
      rw [tablesOf, List.count_append, List.count_append]
      refine Nat.add_le_add_right ?_ _
      rw [List.count_eq_countP, List.count_eq_countP, List.countP_map, List.countP_map]
      refine List.countP_mono_left fun m hm hname => ?_
      have hderived : ¬GivesTable m := fun hgives => hgiven ⟨m, hm, hgives, eq_of_beq hname⟩
      rwa [Function.comp_apply, tableName_of_not_givesTable hderived] at hname

end Emission

/-- A model that may give its table a name. -/
def ledger (name : String) (table : Option String) : Model where
  id := none
  name := name
  fields := [⟨none, "id", .uuid, true, true, .null, [], none⟩]
  relationships := []
  metadata := { Metadata.default with tableName := table }
  createdAt := none
  updatedAt := none

/-- Models without special segments are built, with one table for each. -/
theorem exists_build_ledgers {models : List Model}
    (hunfit : unfit? .default models = none) (hnames : (models.map Model.routeName).Nodup)
    (hroles : ∀ m ∈ models, "" ∉ m.metadata.allowedRoles)
    (hsegments : ∀ m ∈ models, m.routeName ≠ "auth" ∧ m.routeName ≠ "user") :
    ∃ p, build Library.registry .default models none 0 = .ok p := by
  have hclashes : ¬Clashes .default models := by
    rintro ⟨-, ⟨m, hm, hname⟩ | ⟨⟨m, hm, hname⟩, -⟩⟩
    · exact (hsegments m hm).1 hname
    · exact (hsegments m hm).2 hname
  obtain ⟨p, hp, -⟩ := exists_build_of_not_clashes hunfit hnames hroles hclashes none 0
  exact ⟨p, hp⟩

/-- One ledger names its table, the other leaves it to be derived. -/
theorem tables_nodup_ledgers :
    let models := [ledger "Invoice" (some "documents"), ledger "Contract" none]
    Generation.default.isRelational = true ∧
      ∃ p, build Library.registry .default models none 0 = .ok p ∧
        List.Forall₂ Creates (schemasAmong p.files) (tablesOf .default models) ∧
        (tablesOf .default models).Nodup := by
  intro models
  obtain ⟨p, hp⟩ : ∃ p, build Library.registry .default models none 0 = .ok p :=
    exists_build_ledgers rfl (by decide) (by decide) (by decide)
  have honce : ∀ m ∈ models, (tablesOf .default models).count m.tableName = 1 := by decide
  obtain ⟨hcreates, hiff⟩ := tables_nodup_iff rfl hp
  exact ⟨rfl, p, hp, hcreates, hiff.mpr fun m hm _ => honce m hm⟩

/-- Two models may give their tables one name; no rule compares them. -/
theorem tables_clash :
    let models := [ledger "Invoice" (some "documents"), ledger "Contract" (some "documents")]
    ∃ r, Validation.validateModels (models.map .entity) = .ok r ∧ r.isValid = true ∧
      Generation.default.isRelational = true ∧
      ∃ p, build Library.registry .default models none 0 = .ok p ∧
        List.Forall₂ Creates (schemasAmong p.files) ["documents", "documents", "users"] ∧
        ¬["documents", "documents", "users"].Nodup := by
  intro models
  obtain ⟨p, hp⟩ : ∃ p, build Library.registry .default models none 0 = .ok p :=
    exists_build_ledgers rfl (by decide) (by decide) (by decide)
  have htables : tablesOf .default models = ["documents", "documents", "users"] := by decide
  exact ⟨_, rfl, by decide +kernel, rfl, p, hp, htables ▸ creates_tablesOf rfl hp, by decide⟩

end Scaffold.Project
