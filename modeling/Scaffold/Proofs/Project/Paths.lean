import Mathlib.Data.List.Nodup
import Scaffold.Project.Build
import Scaffold.Proofs.Artifact.Contexts
import Scaffold.Proofs.Project.Assembly

/-!
# Proofs/Project/Paths — which paths a project has, and when two of them are the same

Apart from the files at the root and the entry, every file lies in a **slot**: a folder with an
ending.  A slot and a stem make a path, and the path gives both back (`path_inj`), so paths can be
compared without looking into them.  The slots of two models never meet, and those of a model meet
those of the login exactly when the names *clash* (`nodup_emittedPaths_iff`).
-/

namespace Scaffold.Project

open Options

/-- A folder of the generated service, and how the names of its files end. -/
inductive Slot where
  | models
  | schemas
  | controllers
  | services
  | repositories
  | routes
  | validation
  | tests
  | middleware
  | database
deriving DecidableEq, Repr

namespace Slot

def folder : Slot → String
  | models => "models"
  | schemas => "schemas"
  | controllers => "controllers"
  | services => "services"
  | repositories => "repositories"
  | routes => "routes"
  | validation => "validation"
  | tests => "tests"
  | middleware => "middleware"
  | database => "database"

def ending : Slot → String
  | schemas => ".sql"
  | controllers => "Controller.ts"
  | services => "Service.ts"
  | repositories => "Repository.ts"
  | validation => "Validation.ts"
  | tests => "Controller.test.ts"
  | models | routes | middleware | database => ".ts"

/-- The file of a stem. -/
def path (s : Slot) (stem : String) : String := "src/" ++ s.folder ++ "/" ++ stem ++ s.ending

theorem path_models (x : String) : models.path x = "src/models/" ++ x ++ ".ts" :=
  congrArg (· ++ x ++ ".ts") (by decide)

theorem path_schemas (x : String) : schemas.path x = "src/schemas/" ++ x ++ ".sql" :=
  congrArg (· ++ x ++ ".sql") (by decide)

theorem path_controllers (x : String) :
    controllers.path x = "src/controllers/" ++ x ++ "Controller.ts" :=
  congrArg (· ++ x ++ "Controller.ts") (by decide)

theorem path_services (x : String) : services.path x = "src/services/" ++ x ++ "Service.ts" :=
  congrArg (· ++ x ++ "Service.ts") (by decide)

theorem path_repositories (x : String) :
    repositories.path x = "src/repositories/" ++ x ++ "Repository.ts" :=
  congrArg (· ++ x ++ "Repository.ts") (by decide)

theorem path_routes (x : String) : routes.path x = "src/routes/" ++ x ++ ".ts" :=
  congrArg (· ++ x ++ ".ts") (by decide)

theorem path_validation (x : String) :
    validation.path x = "src/validation/" ++ x ++ "Validation.ts" :=
  congrArg (· ++ x ++ "Validation.ts") (by decide)

theorem path_tests (x : String) : tests.path x = "src/tests/" ++ x ++ "Controller.test.ts" :=
  congrArg (· ++ x ++ "Controller.test.ts") (by decide)

theorem folder_injective {s t : Slot} (h : s.folder = t.folder) : s = t := by
  cases s <;> cases t <;> first | rfl | exact absurd h (by decide)

theorem slash_notMem_folder (s : Slot) : '/' ∉ s.folder.toList := by
  cases s <;> decide

theorem toList_path (s : Slot) (stem : String) :
    (s.path stem).toList =
      "src/".toList ++ (s.folder.toList ++ '/' :: (stem.toList ++ s.ending.toList)) := by
  simp only [path, String.toList_append, List.append_assoc]
  rfl

/-- **A path gives back its slot and its stem.** -/
theorem path_inj {s t : Slot} {x y : String} (h : s.path x = t.path y) : s = t ∧ x = y := by
  have hlist := congrArg String.toList h
  rw [toList_path, toList_path, List.append_cancel_left_eq] at hlist
  obtain ⟨hfolder, hrest⟩ :=
    Text.append_cons_inj (slash_notMem_folder s) (slash_notMem_folder t) hlist
  obtain rfl := folder_injective (String.toList_inj.mp hfolder)
  exact ⟨rfl, String.toList_inj.mp (List.append_cancel_right hrest)⟩

end Slot

/-! ## The paths of a project -/

/-- The files of a model. -/
def modelSlots (o : Generation) (m : Model) : List (Slot × String) :=
  [(Slot.models, m.name)] ++ (if o.isRelational then [(Slot.schemas, m.routeName)] else []) ++
    [(Slot.controllers, m.name), (.services, m.name), (.repositories, m.name),
      (.routes, m.routeName), (.validation, m.name)] ++
    if o.includeTests then [(Slot.tests, m.name)] else []

/-- A model has the segment of the accounts, so these are moved aside. -/
def MovesAccounts (models : List Model) : Prop := ∃ m ∈ models, m.routeName = "user"

instance (models : List Model) : Decidable (MovesAccounts models) :=
  inferInstanceAs (Decidable (∃ m ∈ models, m.routeName = "user"))

/-- The name of the accounts, and the segment of their schema. -/
def accountName (models : List Model) : String :=
  if MovesAccounts models then "AuthUser" else "User"

def accountSegment (models : List Model) : String :=
  if MovesAccounts models then "auth_user" else "user"

/-- The files of the login. -/
def loginSlots (o : Generation) (models : List Model) : List (Slot × String) :=
  if o.authEnabled then
    [(Slot.models, accountName models), (.services, "Auth"), (.controllers, "Auth"),
      (.middleware, "auth"), (.middleware, "authorize"), (.routes, "auth"),
      (.repositories, accountName models), (.validation, "Auth")] ++
      if o.isRelational then [(Slot.schemas, accountSegment models)] else []
  else []

def sharedSlots : List (Slot × String) :=
  [(.database, "connection"), (.middleware, "cors"), (.middleware, "logging"),
    (.middleware, "validation")]

def slots (o : Generation) (models : List Model) : List (Slot × String) :=
  models.flatMap (modelSlots o) ++ loginSlots o models ++ sharedSlots

def slotPath (e : Slot × String) : String := e.1.path e.2

/-- The paths of all files that are generated, in order. -/
def emittedPaths (o : Generation) (models : List Model) : List String :=
  ["package.json", "tsconfig.json", ".env.example", "README.md"] ++
    (slots o models).map slotPath ++ ["src/app.ts"]

section Emission

open Artifact Template

/-- A schema has the path of its slot, where there is one. -/
theorem paths_schemaFiles {r : Registry} {o : Generation} {models : List Model} {m : Model}
    {fs : List File} (h : schemaFiles r o models m = .ok fs) :
    fs.map (·.path) = if o.isRelational then [Slot.schemas.path m.routeName] else [] := by
  rw [schemaFiles] at h
  split at h
  · rename_i hrelational
    obtain ⟨text, -, rfl⟩ := Except.map_eq_ok_iff.mp h
    rw [if_pos hrelational, Slot.path_schemas]
    rfl
  · rename_i hrelational
    cases h
    rw [if_neg hrelational]
    rfl

theorem paths_suiteFiles (o : Generation) (m : Model) :
    (suiteFiles o m).map (·.path) = if o.includeTests then [Slot.tests.path m.name] else [] := by
  rw [suiteFiles, Slot.path_tests]
  split <;> rfl

/-- The files of a model have the paths of its slots. -/
theorem paths_modelFiles {r : Registry} {o : Generation} {models : List Model} {m : Model}
    {fs : List File} (h : modelFiles r o models m = .ok fs) :
    fs.map (·.path) = (modelSlots o m).map slotPath := by
  obtain ⟨record, schemas, handlers, -, hschemas, -, -, rfl⟩ := exists_of_modelFiles_eq_ok h
  simp only [List.map_append, List.map_cons, List.map_nil, paths_schemaFiles hschemas,
    paths_suiteFiles, modelSlots, slotPath, File.source, Slot.path_models, Slot.path_controllers,
    Slot.path_services, Slot.path_repositories, Slot.path_routes, Slot.path_validation]
  congr 1
  · congr 1
    congr 1
    split <;> rfl
  · split <;> rfl

/-- So do the files of all models. -/
theorem paths_flatten {r : Registry} {o : Generation} {models ms : List Model}
    {groups : List (List File)}
    (h : List.Forall₂ (fun m fs => modelFiles r o models m = .ok fs) ms groups) :
    groups.flatten.map (·.path) = (ms.flatMap (modelSlots o)).map slotPath := by
  induction h with
  | nil => rfl
  | cons hfs _ ih =>
    rw [List.flatten_cons, List.flatMap_cons, List.map_append, List.map_append,
      paths_modelFiles hfs, ih]

theorem paths_allModelFiles {r : Registry} {o : Generation} {models : List Model}
    {fs : List File} (h : allModelFiles r o models = .ok fs) :
    fs.map (·.path) = (models.flatMap (modelSlots o)).map slotPath := by
  obtain ⟨groups, hgroups, rfl⟩ := Except.map_eq_ok_iff.mp h
  exact paths_flatten (Except.forall₂_of_mapM_eq_ok hgroups)

/-- The paths of the login files before they are moved. -/
theorem paths_loginFiles {r : Registry} {o : Generation} {a : Auth} {fs : List File}
    (h : loginFiles r o a = .ok fs) :
    fs.map (·.path) = ["src/models/User.ts", "src/services/AuthService.ts",
      "src/controllers/AuthController.ts", "src/middleware/auth.ts", "src/middleware/authorize.ts",
      "src/routes/auth.ts", "src/repositories/UserRepository.ts",
      "src/validation/AuthValidation.ts"] ++
      if o.isRelational then ["src/schemas/user.sql"] else [] := by
  obtain ⟨users, -, h⟩ := Except.bind_eq_ok_iff.mp h
  obtain ⟨service, -, h⟩ := Except.bind_eq_ok_iff.mp h
  obtain ⟨login, -, h⟩ := Except.bind_eq_ok_iff.mp h
  obtain ⟨access, -, h⟩ := Except.bind_eq_ok_iff.mp h
  cases h
  rw [List.map_append]
  congr 1
  split <;> rfl

theorem any_routeName_iff {models : List Model} :
    models.any (·.routeName == "user") = true ↔ MovesAccounts models := by
  simp [MovesAccounts]

/-- Login files that are placed have the paths of their slots. -/
theorem paths_placedLoginFiles {r : Registry} {o : Generation} {models : List Model} {a : Auth}
    {fs : List File} (h : placedLoginFiles r o models a = .ok fs) :
    fs.map (·.path) = (loginSlots o models).map slotPath := by
  rw [placedLoginFiles] at h
  rw [loginSlots]
  cases hauth : o.authEnabled with
  | false =>
    rw [hauth] at h
    cases h
    rfl
  | true =>
    rw [hauth, Bool.not_true, if_neg Bool.false_ne_true] at h
    rw [if_pos rfl]
    by_cases hmoves : MovesAccounts models
    · rw [if_pos (any_routeName_iff.mpr hmoves)] at h
      obtain ⟨gs, hgs, rfl⟩ := Except.map_eq_ok_iff.mp h
      have hpaths : (gs.map File.relocate).map (·.path) = (gs.map (·.path)).map relocatePath := by
        rw [List.map_map, List.map_map]
        rfl
      rw [hpaths, paths_loginFiles hgs, accountName, accountSegment, if_pos hmoves, if_pos hmoves]
      cases o.isRelational <;> decide +kernel
    · rw [if_neg (mt any_routeName_iff.mp hmoves)] at h
      rw [paths_loginFiles h, accountName, accountSegment, if_neg hmoves, if_neg hmoves]
      cases o.isRelational <;> decide +kernel

/-- Files that the models share have the paths of theirs, with the entry behind. -/
theorem paths_sharedFiles (o : Generation) (models : List Model) :
    (sharedFiles o models).map (·.path) = sharedSlots.map slotPath ++ ["src/app.ts"] := by
  have hpaths : sharedSlots.map slotPath = ["src/database/connection.ts", "src/middleware/cors.ts",
      "src/middleware/logging.ts", "src/middleware/validation.ts"] := by
    decide
  rw [hpaths]
  rfl

/-- What is generated has the emitted paths. -/
theorem paths_eq_emittedPaths {r : Registry} {o : Generation} {models : List Model} {a : Auth}
    {fs gs : List File} (hmodels : allModelFiles r o models = .ok fs)
    (hlogin : placedLoginFiles r o models a = .ok gs) (packageName : String) :
    (rootFiles o packageName models ++ fs ++ gs ++ sharedFiles o models).map (·.path) =
      emittedPaths o models := by
  simp only [List.map_append, paths_allModelFiles hmodels, paths_placedLoginFiles hlogin,
    paths_sharedFiles, emittedPaths, slots, List.append_assoc]
  rfl

end Emission

/-! ## Paths that are the same -/

/-- With a login, a model has a name or a segment that the login has too. -/
def Clashes (o : Generation) (models : List Model) : Prop :=
  o.authEnabled = true ∧
    ((∃ m ∈ models, m.routeName = "auth") ∨
      (∃ m ∈ models, m.routeName = "user") ∧
        ((∃ m ∈ models, m.name = "AuthUser") ∨
          o.isRelational = true ∧ ∃ m ∈ models, m.routeName = "auth_user"))

section Distinctness

variable {o : Generation} {models : List Model} {m : Model}

/-- The slots that models have files in. -/
def Slot.ofModels : List Slot :=
  [.models, .schemas, .controllers, .services, .repositories, .routes, .validation, .tests]

/-- The stem of the files of a model in a slot. -/
def stemIn (m : Model) : Slot → String
  | .schemas | .routes => m.routeName
  | _ => m.name

theorem modelSlots_subset (o : Generation) (m : Model) :
    modelSlots o m ⊆ Slot.ofModels.map fun s => (s, stemIn m s) := by
  rw [modelSlots]
  cases o.isRelational <;> cases o.includeTests <;> simp [Slot.ofModels, stemIn]

theorem exists_of_mem_modelSlots {e : Slot × String} (h : e ∈ modelSlots o m) :
    e.1 ∈ Slot.ofModels ∧ e.2 = stemIn m e.1 := by
  obtain ⟨s, hs, rfl⟩ := List.mem_map.mp (modelSlots_subset o m h)
  exact ⟨hs, rfl⟩

theorem routeName_eq_of_stemIn_eq {m₁ m₂ : Model} {s : Slot} (h : stemIn m₁ s = stemIn m₂ s) :
    m₁.routeName = m₂.routeName := by
  cases s <;> first | exact h | exact congrArg Text.lower h

theorem nodup_modelSlots : (modelSlots o m).Nodup := by
  rw [modelSlots]
  cases o.isRelational <;> cases o.includeTests <;> simp

/-- The files of two models have different paths. -/
theorem nodup_flatMap_modelSlots (hnames : (models.map Model.routeName).Nodup) :
    (models.flatMap (modelSlots o)).Nodup := by
  rw [List.nodup_flatMap]
  refine ⟨fun m _ => nodup_modelSlots, (List.pairwise_map.mp hnames).imp ?_⟩
  intro m₁ m₂ hne e he₁ he₂
  obtain ⟨-, hstem₁⟩ := exists_of_mem_modelSlots he₁
  obtain ⟨-, hstem₂⟩ := exists_of_mem_modelSlots he₂
  exact hne (routeName_eq_of_stemIn_eq (hstem₁.symm.trans hstem₂))

theorem nodup_loginSlots : (loginSlots o models).Nodup := by
  rw [loginSlots]
  split
  · cases o.isRelational <;> simp
  · exact List.nodup_nil

/-- No model has a slot that is shared. -/
theorem disjoint_sharedSlots :
    (models.flatMap (modelSlots o) ++ loginSlots o models).Disjoint sharedSlots := by
  intro e he hshared
  obtain he | he := List.mem_append.mp he
  · obtain ⟨m, -, he⟩ := List.mem_flatMap.mp he
    have hslot : e.1 ∈ sharedSlots.map Prod.fst := List.mem_map_of_mem hshared
    have hdisjoint : ∀ s ∈ Slot.ofModels, s ∉ sharedSlots.map Prod.fst := by decide
    exact hdisjoint e.1 (exists_of_mem_modelSlots he).1 hslot
  · rw [loginSlots] at he
    split at he
    · simp only [sharedSlots, List.mem_cons, List.not_mem_nil, or_false] at hshared
      obtain rfl | rfl | rfl | rfl := hshared <;> simp at he
    · exact absurd he List.not_mem_nil

/-- A model has the name of the accounts only if these were moved aside. -/
theorem movesAccounts_of_accountName (hm : m ∈ models) (h : accountName models = m.name) :
    MovesAccounts models ∧ m.name = "AuthUser" := by
  rw [accountName] at h
  split at h
  · exact ⟨‹_›, h.symm⟩
  · rename_i hstays
    exact absurd ⟨m, hm, by rw [Model.routeName, ← h]; decide⟩ hstays

/-- A model that takes the segment of the accounts moves them. -/
theorem movesAccounts_of_accountSegment (hm : m ∈ models)
    (h : accountSegment models = m.routeName) :
    MovesAccounts models ∧ m.routeName = "auth_user" := by
  rw [accountSegment] at h
  split at h
  · exact ⟨‹_›, h.symm⟩
  · rename_i hstays
    exact absurd ⟨m, hm, h.symm⟩ hstays

/-- A file of a model and a file of the login with one path make a clash. -/
theorem clashes_of_mem (hm : m ∈ models) {e : Slot × String} (he : e ∈ modelSlots o m)
    (hlogin : e ∈ loginSlots o models) : Clashes o models := by
  rw [loginSlots] at hlogin
  split at hlogin
  · rename_i hauth
    refine ⟨hauth, ?_⟩
    obtain ⟨hslot, hstem⟩ := exists_of_mem_modelSlots he
    have hauthName (h : "Auth" = m.name) : ∃ m ∈ models, m.routeName = "auth" :=
      ⟨m, hm, by rw [Model.routeName, ← h]; decide⟩
    simp only [List.mem_append, List.mem_cons, List.not_mem_nil, or_false] at hlogin
    obtain (rfl | rfl | rfl | rfl | rfl | rfl | rfl | rfl) | hlogin := hlogin
    · obtain ⟨hmoves, hname⟩ := movesAccounts_of_accountName hm hstem
      exact .inr ⟨hmoves, .inl ⟨m, hm, hname⟩⟩
    · exact .inl (hauthName hstem)
    · exact .inl (hauthName hstem)
    · exact absurd hslot (by simp [Slot.ofModels])
    · exact absurd hslot (by simp [Slot.ofModels])
    · exact .inl ⟨m, hm, hstem.symm⟩
    · obtain ⟨hmoves, hname⟩ := movesAccounts_of_accountName hm hstem
      exact .inr ⟨hmoves, .inl ⟨m, hm, hname⟩⟩
    · exact .inl (hauthName hstem)
    · split at hlogin
      · rename_i hrelational
        obtain rfl := List.mem_singleton.mp hlogin
        obtain ⟨hmoves, hname⟩ := movesAccounts_of_accountSegment hm hstem
        exact .inr ⟨hmoves, .inr ⟨hrelational, m, hm, hname⟩⟩
      · exact absurd hlogin List.not_mem_nil
  · exact absurd hlogin List.not_mem_nil

/-- Models clash by a slot of theirs that is one of the login. -/
theorem exists_mem_of_clashes (h : Clashes o models) :
    ∃ e ∈ models.flatMap (modelSlots o), e ∈ loginSlots o models := by
  obtain ⟨hauth, ⟨m, hm, hname⟩ | ⟨hmoves, ⟨m, hm, hname⟩ | ⟨hrelational, m, hm, hname⟩⟩⟩ := h
  · refine ⟨(.routes, "auth"), List.mem_flatMap.mpr ⟨m, hm, ?_⟩, ?_⟩
    · simp [modelSlots, hname]
    · simp [loginSlots, hauth]
  · have haccount : accountName models = "AuthUser" := if_pos hmoves
    refine ⟨(.models, "AuthUser"), List.mem_flatMap.mpr ⟨m, hm, ?_⟩, ?_⟩
    · simp [modelSlots, hname]
    · simp [loginSlots, hauth, haccount]
  · have hsegment : accountSegment models = "auth_user" := if_pos hmoves
    refine ⟨(.schemas, "auth_user"), List.mem_flatMap.mpr ⟨m, hm, ?_⟩, ?_⟩
    · simp [modelSlots, hname, hrelational]
    · simp [loginSlots, hauth, hsegment, hrelational]

/-- With distinct routes nothing else clashes. -/
theorem nodup_slots_iff (hnames : (models.map Model.routeName).Nodup) :
    (slots o models).Nodup ↔ ¬Clashes o models := by
  have hshared : sharedSlots.Nodup := by decide
  rw [slots, List.nodup_append', List.nodup_append']
  constructor
  · rintro ⟨⟨-, -, hdisjoint⟩, -⟩ hclashes
    obtain ⟨e, he, hlogin⟩ := exists_mem_of_clashes hclashes
    exact hdisjoint he hlogin
  · intro hclashes
    refine ⟨⟨nodup_flatMap_modelSlots hnames, nodup_loginSlots, fun e he hlogin => ?_⟩, hshared,
      disjoint_sharedSlots⟩
    obtain ⟨m, hm, he⟩ := List.mem_flatMap.mp he
    exact hclashes (clashes_of_mem hm he hlogin)

theorem slotPath_injective : Function.Injective slotPath := by
  rintro ⟨s, x⟩ ⟨t, y⟩ h
  obtain ⟨rfl, rfl⟩ := Slot.path_inj h
  rfl

/-- No slot is at the root. -/
theorem slotPath_notMem_root (e : Slot × String) :
    slotPath e ∉ ["package.json", "tsconfig.json", ".env.example", "README.md"] := by
  have hhead : (slotPath e).toList.head? = some 's' := by
    rw [slotPath, Slot.toList_path]
    rfl
  intro h
  simp only [List.mem_cons, List.not_mem_nil, or_false] at h
  obtain h | h | h | h := h <;> rw [h] at hhead <;> exact absurd hhead (by decide)

theorem slotPath_ne_entry (e : Slot × String) : slotPath e ≠ "src/app.ts" := by
  intro h
  have hlist : (slotPath e).toList = "src/".toList ++ "app.ts".toList := by
    rw [h]
    decide
  rw [slotPath, Slot.toList_path, List.append_cancel_left_eq] at hlist
  have hslash : '/' ∈ "app.ts".toList := by
    rw [← hlist]
    exact List.mem_append_right _ List.mem_cons_self
  exact absurd hslash (by decide)

/-- **No two files of a project have one path unless the names clash.** -/
theorem nodup_emittedPaths_iff (hnames : (models.map Model.routeName).Nodup) :
    (emittedPaths o models).Nodup ↔ ¬Clashes o models := by
  rw [← nodup_slots_iff hnames, emittedPaths, List.append_assoc, List.nodup_append',
    List.nodup_append', List.nodup_map_iff slotPath_injective]
  constructor
  · exact fun h => h.2.1.1
  · intro h
    refine ⟨by decide, ⟨h, List.nodup_singleton _, ?_⟩, ?_⟩
    · intro p hp hentry
      obtain ⟨e, -, rfl⟩ := List.mem_map.mp hp
      exact slotPath_ne_entry e (List.mem_singleton.mp hentry)
    · intro p hroot hp
      obtain hp | hp := List.mem_append.mp hp
      · obtain ⟨e, -, rfl⟩ := List.mem_map.mp hp
        exact slotPath_notMem_root e hroot
      · rw [List.mem_singleton.mp hp] at hroot
        exact absurd hroot (by decide)

end Distinctness

end Scaffold.Project
