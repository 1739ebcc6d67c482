import Mathlib.Logic.Basic
import Scaffold.Proofs.Firsts
import Scaffold.Proofs.Project.Assembly
import Scaffold.Proofs.Project.Paths

/-!
# Proofs/Project/Collision — when a project is refused because files collide

The templates of the library never fail and roles are in the way only with an empty name, so two
things can stop a project: a value that a file of some model cannot show, which is met first, and two
files with one path.  The value is a default in a schema or an operand in the request checks.
`build_collides_iff` says which of the two happens, and with which paths.
-/

namespace Scaffold.Project

open Artifact Document Model Options Template

/-! ## Repeated paths -/

/-- A path is repeated if it stands there more than once. -/
theorem mem_repeatedPaths {paths : List String} {p : String} :
    p ∈ repeatedPaths paths ↔ 1 < paths.count p := by
  rw [repeatedPaths, List.mem_filter, decide_eq_true_eq, repeatedPaths.first,
    List.mem_foldl_addNew]
  constructor
  · exact fun h => h.2
  · exact fun h => ⟨.inr (List.count_pos_iff.mp (Nat.zero_lt_of_lt h)), h⟩

/-- Repeated paths stand in the order of their first occurrences. -/
theorem pairwise_repeatedPaths (paths : List String) :
    (repeatedPaths paths).Pairwise fun p q => paths.idxOf p < paths.idxOf q :=
  (List.pairwise_foldl_addNew paths).filter _

theorem repeatedPaths_eq_nil_iff {paths : List String} :
    repeatedPaths paths = [] ↔ paths.Nodup := by
  rw [List.eq_nil_iff_forall_not_mem, List.nodup_iff_count_le_one]
  simp only [mem_repeatedPaths, Nat.not_lt]

/-! ## What is generated -/

/-- Why a model has no files: in a relational project a default cannot be shown, or else an operand
cannot. -/
def unfitModel? (o : Generation) (m : Model) : Option Json.Unwritable :=
  (if o.isRelational then unfitIn? m else none).or (unwrittenOperand? m)

/-- Why the models of a project have no files: what stands in the way of the first that has none. -/
def unfit? (o : Generation) (models : List Model) : Option Json.Unwritable :=
  models.findSome? (unfitModel? o)

section Generating

variable {o : Generation} {models : List Model}

/-- A model has its schema unless a default cannot be shown. -/
theorem schemaFiles_eq (o : Generation) (models : List Model) (m : Model) :
    ∃ fs, schemaFiles Library.registry o models m =
      .barring ((if o.isRelational then unfitIn? m else none).map .unwritable) fs := by
  rw [schemaFiles]
  split
  · cases hunfit : unfitIn? m with
    | some u =>
      rw [schema_of_unfit hunfit]
      exact ⟨[], rfl⟩
    | none =>
      obtain ⟨t, ht⟩ := exists_schema hunfit o.database.value models
      rw [ht]
      exact ⟨_, rfl⟩
  · exact ⟨[], rfl⟩

/-- **A model has its files unless something in them cannot be shown.** -/
theorem modelFiles_eq (o : Generation) (models : List Model) (m : Model) :
    ∃ fs, modelFiles Library.registry o models m =
      .barring ((unfitModel? o m).map .unwritable) fs := by
  obtain ⟨record, hrecord⟩ := exists_recordInterface m
  obtain ⟨schemas, hschemas⟩ := schemaFiles_eq o models m
  obtain ⟨handlers, hhandlers⟩ := exists_controller m
  rw [modelFiles, hrecord, hschemas, hhandlers, unfitModel?, requestFile]
  cases (if o.isRelational then unfitIn? m else none) with
  | some u => exact ⟨[], rfl⟩
  | none =>
    cases unwrittenOperand? m with
    | some u => exact ⟨[], rfl⟩
    | none => exact ⟨_, rfl⟩

theorem modelFiles_of_unfit {m : Model} {u : Json.Unwritable} (h : unfitModel? o m = some u) :
    modelFiles Library.registry o models m = .error (.unwritable u) := by
  obtain ⟨fs, hfs⟩ := modelFiles_eq o models m
  rw [hfs, h]
  rfl

theorem exists_modelFiles {m : Model} (h : unfitModel? o m = none) :
    ∃ fs, modelFiles Library.registry o models m = .ok fs := by
  obtain ⟨fs, hfs⟩ := modelFiles_eq o models m
  rw [hfs, h]
  exact ⟨fs, rfl⟩

theorem allModelFiles_of_unfit {u : Json.Unwritable} (h : unfit? o models = some u) :
    allModelFiles Library.registry o models = .error (.unwritable u) := by
  rw [allModelFiles, Except.mapM_eq_error (fun _ _ h => modelFiles_of_unfit h)
    (fun _ h => exists_modelFiles h) h]
  rfl

/-- Models whose numbers can be written have all their files. -/
theorem exists_allModelFiles (h : unfit? o models = none) :
    ∃ fs, allModelFiles Library.registry o models = .ok fs := by
  have hfiles : ∀ m ∈ models, ∃ fs, modelFiles Library.registry o models m = .ok fs :=
    fun m hm => exists_modelFiles (List.findSome?_eq_none_iff.mp h m hm)
  obtain ⟨groups, hgroups⟩ := Except.exists_mapM_eq_ok hfiles
  rw [allModelFiles, hgroups]
  exact ⟨_, rfl⟩

/-- The login files are always there. -/
theorem exists_placedLoginFiles (o : Generation) (models : List Model) (a : Auth) :
    ∃ fs, placedLoginFiles Library.registry o models a = .ok fs := by
  obtain ⟨users, husers⟩ := exists_userModel o a
  obtain ⟨service, hservice⟩ := exists_authService o a
  obtain ⟨login, hlogin⟩ := exists_authMiddleware a
  obtain ⟨access, haccess⟩ := exists_authorizationMiddleware a
  have hfiles : ∃ fs, loginFiles Library.registry o a = .ok fs := by
    rw [loginFiles, husers, hservice, hlogin, haccess]
    exact ⟨_, rfl⟩
  obtain ⟨fs, hfs⟩ := hfiles
  rw [placedLoginFiles, hfs]
  split
  · exact ⟨_, rfl⟩
  · split
    · exact ⟨_, rfl⟩
    · exact ⟨_, rfl⟩

/-! ## The outcome -/

theorem build_of_unfit {u : Json.Unwritable} (h : unfit? o models = some u) (name : Option String)
    (moment : Nat) :
    build Library.registry o models name moment = .error (.artifact (.unwritable u)) := by
  rw [build, allModelFiles_of_unfit h]
  rfl

/-- Where everything can be shown and no role is empty, the emitted paths alone decide. -/
theorem exists_build (hfit : unfit? o models = none)
    (hroles : ∀ m ∈ models, "" ∉ m.metadata.allowedRoles) (name : Option String) (moment : Nat) :
    ∃ p : Project, p.paths = emittedPaths o models ∧
      build Library.registry o models name moment =
        if repeatedPaths (emittedPaths o models) = [] then .ok p
        else .error (.collision (repeatedPaths (emittedPaths o models))) := by
  obtain ⟨fs, hfs⟩ := exists_allModelFiles hfit
  obtain ⟨a, hauth⟩ : ∃ a, authOf o models (models.flatMap (modelEndpoints o)) = .ok a := by
    obtain ⟨extra, hauth, -⟩ := exists_authOf o (models.flatMap (modelEndpoints o)) hroles
    exact ⟨_, hauth⟩
  obtain ⟨gs, hgs⟩ := exists_placedLoginFiles o models a
  have hpaths : (allFiles o name models fs gs).map (·.path) = emittedPaths o models :=
    paths_eq_emittedPaths hfs hgs (name.getD "generated-api")
  refine ⟨assembled o models name moment a (allFiles o name models fs gs), hpaths, ?_⟩
  rw [build_eq hfs hauth hgs]
  simp only [hpaths]

/-- Files collide if the names clash, and then at the paths that occur more than once. -/
theorem build_of_clashes (hfit : unfit? o models = none)
    (hnames : (models.map Model.routeName).Nodup)
    (hroles : ∀ m ∈ models, "" ∉ m.metadata.allowedRoles) (hclashes : Clashes o models)
    (name : Option String) (moment : Nat) :
    build Library.registry o models name moment =
      .error (.collision (repeatedPaths (emittedPaths o models))) := by
  obtain ⟨p, -, hbuild⟩ := exists_build hfit hroles name moment
  rw [hbuild, if_neg]
  rw [repeatedPaths_eq_nil_iff, nodup_emittedPaths_iff hnames]
  exact not_not_intro hclashes

/-- A project is built if nothing stands against it. -/
theorem exists_build_of_not_clashes (hfit : unfit? o models = none)
    (hnames : (models.map Model.routeName).Nodup)
    (hroles : ∀ m ∈ models, "" ∉ m.metadata.allowedRoles) (hclashes : ¬Clashes o models)
    (name : Option String) (moment : Nat) :
    ∃ p, build Library.registry o models name moment = .ok p ∧
      p.paths = emittedPaths o models := by
  obtain ⟨p, hpaths, hbuild⟩ := exists_build hfit hroles name moment
  have hrepeated : repeatedPaths (emittedPaths o models) = [] :=
    repeatedPaths_eq_nil_iff.mpr ((nodup_emittedPaths_iff hnames).mpr hclashes)
  rw [if_pos hrepeated] at hbuild
  exact ⟨p, hbuild, hpaths⟩

end Generating

/-- No project has a path twice. -/
theorem nodup_paths_of_build {r : Registry} {o : Generation} {models : List Model}
    {name : Option String} {moment : Nat} {p : Project}
    (h : build r o models name moment = .ok p) : p.paths.Nodup := by
  obtain ⟨a, fs, gs, -, -, -, hrepeated, rfl⟩ := exists_of_build_eq_ok h
  exact repeatedPaths_eq_nil_iff.mp hrepeated

/-- **When files collide.**  A project is refused for its paths exactly when its models have their
files and its names clash; the error has every path that is emitted more than once, in the order in
which they are first emitted.  A project that is built has no path twice, and every list of models
whose names do not clash gives one, unless something in the files cannot be shown. -/
theorem build_collides_iff (o : Generation) {models : List Model}
    (hnames : (models.map Model.routeName).Nodup)
    (hroles : ∀ m ∈ models, "" ∉ m.metadata.allowedRoles) (name : Option String) (moment : Nat) :
    ((∃ paths, build Library.registry o models name moment = .error (.collision paths)) ↔
      unfit? o models = none ∧ Clashes o models) ∧
    (∀ paths, build Library.registry o models name moment = .error (.collision paths) →
      (∀ p, p ∈ paths ↔ 1 < (emittedPaths o models).count p) ∧
        paths.Pairwise fun p q => (emittedPaths o models).idxOf p < (emittedPaths o models).idxOf q) ∧
    (unfit? o models = none → ¬Clashes o models →
      ∃ p, build Library.registry o models name moment = .ok p ∧
        p.paths = emittedPaths o models ∧ p.paths.Nodup) ∧
    ∀ u, unfit? o models = some u →
      build Library.registry o models name moment = .error (.artifact (.unwritable u)) := by
  have hcollision : ∀ paths, build Library.registry o models name moment =
      .error (.collision paths) → unfit? o models = none ∧ Clashes o models := by
    intro paths hpaths
    cases hfit : unfit? o models with
    | some u =>
      rw [build_of_unfit hfit] at hpaths
      cases hpaths
    | none =>
      refine ⟨rfl, of_not_not fun hclashes => ?_⟩
      obtain ⟨p, hp, -⟩ := exists_build_of_not_clashes hfit hnames hroles hclashes name moment
      rw [hp] at hpaths
      cases hpaths
  refine ⟨⟨?_, ?_⟩, ?_, ?_, fun u hu => build_of_unfit hu name moment⟩
  · rintro ⟨paths, hpaths⟩
    exact hcollision paths hpaths
  · rintro ⟨hfit, hclashes⟩
    exact ⟨_, build_of_clashes hfit hnames hroles hclashes name moment⟩
  · intro paths hpaths
    obtain ⟨hfit, hclashes⟩ := hcollision paths hpaths
    rw [build_of_clashes hfit hnames hroles hclashes name moment] at hpaths
    cases hpaths
    exact ⟨fun p => mem_repeatedPaths, pairwise_repeatedPaths _⟩
  · intro hfit hclashes
    obtain ⟨p, hp, hpaths⟩ := exists_build_of_not_clashes hfit hnames hroles hclashes name moment
    exact ⟨p, hp, hpaths, nodup_paths_of_build hp⟩

/-- A model that is called `Auth`, with a default for a field of any shape. -/
def authModel (default : Value) : Model where
  id := none
  name := "Auth"
  fields := [⟨none, "settings", .json, false, false, default, [], none⟩]
  relationships := []
  metadata := .default
  createdAt := none
  updatedAt := none

theorem clashes_authModel (v : Value) : Clashes .default [authModel v] := by
  have hlower : Text.lower "Auth" = "auth" := by decide
  exact ⟨rfl, .inl ⟨_, List.mem_singleton_self _, hlower⟩⟩

/-- With a default that can be shown, the model collides with the login. -/
theorem build_collides_authModel :
    ([authModel .null].map Model.routeName).Nodup ∧
      (∀ m ∈ [authModel .null], "" ∉ m.metadata.allowedRoles) ∧
      ∃ paths, build Library.registry .default [authModel .null] none 0 =
        .error (.collision paths) := by
  have hnames : ([authModel .null].map Model.routeName).Nodup := List.nodup_singleton _
  have hroles : ∀ m ∈ [authModel .null], "" ∉ m.metadata.allowedRoles := by
    simp [authModel, Metadata.default]
  refine ⟨hnames, hroles, ?_⟩
  exact (build_collides_iff .default hnames hroles none 0).1.mpr ⟨rfl, clashes_authModel .null⟩

/-- A list with a date in it has no form in a document; it is met before the collision. -/
theorem clash_behind_unwritable_default :
    let models := [authModel (.list [.date ⟨2024, 1, 2⟩])]
    (models.map Model.routeName).Nodup ∧ (∀ m ∈ models, "" ∉ m.metadata.allowedRoles) ∧
      Clashes .default models ∧
      ¬∃ paths, build Library.registry .default models none 0 = .error (.collision paths) := by
  intro models
  have hunfit : unfit? .default models = some (.value "date") := rfl
  refine ⟨List.nodup_singleton _, by simp [models, authModel, Metadata.default],
    clashes_authModel _, ?_⟩
  rintro ⟨paths, hpaths⟩
  rw [build_of_unfit hunfit] at hpaths
  cases hpaths

end Scaffold.Project
