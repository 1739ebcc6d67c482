import Scaffold.Proofs.Project.Accounts
import Scaffold.Proofs.Project.Collision

/-!
# Proofs/Project/Imports — every import of a project resolves

Which modules a file names is known from its emitter; that each of them is there is shown group by
group: for the files of a model, for those of the login, in their places or moved aside, and for
those that every service has.  Together they give the result for a project that was built
(`imports_resolve`).
-/

namespace Scaffold.Project

open Artifact Document Options Template Text

/-- The import lines of the file come from imports that can stand on their lines and whose modules
are there. -/
def Served (p : Project) (f : File) : Prop :=
  ∃ is, ImportsAmong f.content is ∧ ∀ i ∈ is, i.Fits ∧ Resolves p f i.source.toList

theorem served_of_tidy {p : Project} {path : String} {kind : FileKind} {language : Option String}
    {s : Source} (hs : s.Tidy)
    (h : ∀ i ∈ s.imports, Resolves p ⟨path, s.text, kind, language⟩ i.source.toList) :
    Served p ⟨path, s.text, kind, language⟩ :=
  ⟨s.imports, hs.importsAmong, fun i hi => ⟨hs.imports i hi, h i hi⟩⟩

variable {o : Generation} {models : List Model} {p : Project}

/-! ## Packages -/

section Packages

variable {f : File} (hp : IsEmitted o models p)

include hp

theorem resolves_express : Resolves p f "express".toList :=
  hp.resolves_package (e := ("express", "express")) (by simp [packageModules])
    (by simp [Catalog.dependencies, Catalog.basePackages])

theorem resolves_validator : Resolves p f "express-validator".toList :=
  hp.resolves_package (e := ("express-validator", "express-validator")) (by simp [packageModules])
    (by simp [Catalog.dependencies, Catalog.basePackages])

theorem resolves_dotenv : Resolves p f "dotenv/config".toList :=
  hp.resolves_package (e := ("dotenv/config", "dotenv")) (by simp [packageModules])
    (by simp [Catalog.dependencies, Catalog.basePackages])

theorem resolves_session (h : o.sessionAuth = true) : Resolves p f "express-session".toList := by
  refine hp.resolves_package (e := ("express-session", "express-session"))
    (by simp [packageModules]) ?_
  rw [Generation.sessionAuth, Bool.or_eq_true, decide_eq_true_eq, decide_eq_true_eq] at h
  obtain h | h := h <;> simp [Catalog.dependencies, h, Catalog.strategyPackages]

theorem resolves_passport (h : o.authentication.value = .oauth) :
    Resolves p f "passport".toList :=
  hp.resolves_package (e := ("passport", "passport")) (by simp [packageModules])
    (by simp [Catalog.dependencies, h, Catalog.strategyPackages])

theorem resolves_token (h : o.authentication.value = .jwt) :
    Resolves p f "jsonwebtoken".toList :=
  hp.resolves_package (e := ("jsonwebtoken", "jsonwebtoken")) (by simp [packageModules])
    (by simp [Catalog.dependencies, h, Catalog.strategyPackages])

/-- The package that hashes is one of the manifest. -/
theorem resolves_bcrypt (hauth : o.authEnabled = true) : Resolves p f "bcryptjs".toList := by
  refine hp.resolves_package (e := ("bcryptjs", "bcryptjs")) (by simp [packageModules]) ?_
  cases h : o.authentication.value with
  | none =>
    rw [Generation.authEnabled, h] at hauth
    cases hauth
  | jwt => simp [Catalog.dependencies, h, Catalog.strategyPackages]
  | oauth => simp [Catalog.dependencies, h, Catalog.strategyPackages]
  | session => simp [Catalog.dependencies, h, Catalog.strategyPackages]

theorem resolves_supertest (h : o.includeTests = true) : Resolves p f "supertest".toList :=
  hp.resolves_package (e := ("supertest", "supertest")) (by simp [packageModules])
    (by simp [Catalog.devDependencies, h, Catalog.testTools])

/-- The driver of the database. -/
theorem resolves_driver : ∀ i ∈ (connection o.database.value).imports,
    Resolves p f i.source.toList := by
  cases h : o.database.value with
  | postgresql =>
    refine List.forall_mem_singleton.mpr (hp.resolves_package (e := ("pg", "pg"))
      (by simp [packageModules]) ?_)
    simp [Catalog.dependencies, h, Catalog.databasePackages]
  | mysql =>
    refine List.forall_mem_singleton.mpr (hp.resolves_package (e := ("mysql2/promise", "mysql2"))
      (by simp [packageModules]) ?_)
    simp [Catalog.dependencies, h, Catalog.databasePackages]
  | mongodb =>
    refine List.forall_mem_singleton.mpr (hp.resolves_package (e := ("mongodb", "mongodb"))
      (by simp [packageModules]) ?_)
    simp [Catalog.dependencies, h, Catalog.databasePackages]

end Packages

/-! ## What every service has -/

section Shared

variable {f : File} {s : Slot} {x : String} (hp : IsEmitted o models p)

theorem sharedSlots_subset_slots : sharedSlots ⊆ slots o models :=
  List.subset_append_right _ _

include hp

/-- A file names a source that every service has. -/
theorem resolves_shared (hf : f.path = s.path x) (hx : IsPlain x) (t : Slot) (y : String)
    (hy : IsPlain y) (ht : t.ending = t.suffix ++ ".ts") (hmem : (t, y) ∈ sharedSlots) :
    Resolves p f (t.module y).toList :=
  hp.resolves_module hf (hx.notMem (by decide)) hy ht (sharedSlots_subset_slots hmem)

/-- The connection is a file of the project. -/
theorem resolves_connection (hf : f.path = s.path x) (hx : IsPlain x) :
    Resolves p f "../database/connection".toList := by
  have hmodule : "../database/connection" = Slot.database.module "connection" := by decide
  rw [hmodule]
  exact resolves_shared hp hf hx .database "connection" (isPlain_ofList (by decide)) (by decide)
    (by simp [sharedSlots])

/-- So is what a body imports. -/
theorem resolves_bodyImports (hf : f.path = s.path x) (hx : IsPlain x) :
    ∀ i ∈ bodyImports, Resolves p f i.source.toList := by
  have hmodule : "../middleware/validation" = Slot.middleware.module "validation" := by
    decide
  have hmiddleware : Resolves p f "../middleware/validation".toList := by
    rw [hmodule]
    exact resolves_shared hp hf hx .middleware "validation" (isPlain_ofList (by decide))
      (by decide) (by simp [sharedSlots])
  simp only [bodyImports, List.forall_mem_cons, List.not_mem_nil, false_implies, implies_true,
    and_true]
  exact ⟨resolves_validator hp, hmiddleware⟩

end Shared

/-! ## The files of a model -/

section Model

variable {m : Model} {f : File} {s : Slot} {x : String}

theorem modelSlots_subset_slots (hm : m ∈ models) : modelSlots o m ⊆ slots o models := by
  intro e he
  exact List.mem_append_left _ (List.mem_append_left _ (List.mem_flatMap.mpr ⟨m, hm, he⟩))

variable (hp : IsEmitted o models p) (hm : m ∈ models) (h : m.Unbroken)

include hp hm h

/-- A file of a model names another source of the model. -/
theorem resolves_own (hf : f.path = s.path x) (hx : IsPlain x) (t : Slot)
    (ht : t.ending = t.suffix ++ ".ts") (hmem : (t, m.name) ∈ modelSlots o m) :
    Resolves p f (t.module m.name).toList :=
  hp.resolves_module hf (hx.notMem (by decide)) h.name ht (modelSlots_subset_slots hm hmem)

theorem resolves_record (hf : f.path = s.path x) (hx : IsPlain x) :
    Resolves p f ("../models/" ++ m.name).toList := by
  rw [← Slot.module_models]
  exact resolves_own hp hm h hf hx .models (by decide) (by simp [modelSlots])

/-- What the controller of a model imports is in the project. -/
theorem served_controller {t : String} (ht : controller Library.registry m = .ok t) :
    Served p (.source (Slot.controllers.path m.name) t) := by
  refine ⟨_, importsAmong_controller h ht, fun i hi => ⟨fits_controllerImports h i hi, ?_⟩⟩
  simp only [controllerImports, List.mem_cons, List.not_mem_nil, or_false] at hi
  obtain rfl | rfl | rfl := hi
  · exact resolves_express hp
  · rw [Import.source, ← Slot.module_services]
    exact resolves_own hp hm h rfl h.name .services (by decide) (by simp [modelSlots])
  · exact resolves_record hp hm h rfl h.name

/-- What its service imports is. -/
theorem served_service : Served p (.source (Slot.services.path m.name) (service m).text) := by
  refine served_of_tidy (tidy_service h) fun i hi => ?_
  simp only [service, List.mem_cons, List.not_mem_nil, or_false] at hi
  obtain rfl | rfl := hi
  · rw [Import.source, ← Slot.module_repositories]
    exact resolves_own hp hm h rfl h.name .repositories (by decide) (by simp [modelSlots])
  · exact resolves_record hp hm h rfl h.name

/-- What its repository imports is. -/
theorem served_repository :
    Served p (.source (Slot.repositories.path m.name) (repository o.database.value m).text) := by
  refine served_of_tidy (tidy_repository h o.database.value) ?_
  have hconnection : Resolves p (.source (Slot.repositories.path m.name)
      (repository o.database.value m).text) "../database/connection".toList :=
    resolves_connection hp rfl h.name
  have hrecord : Resolves p (.source (Slot.repositories.path m.name)
      (repository o.database.value m).text) ("../models/" ++ m.name).toList :=
    resolves_record hp hm h rfl h.name
  have himports : ∀ i ∈ (repository o.database.value m).imports,
      i ∈ [identifierImport, queryImport, documentImport, recordImport m] := by
    cases o.database.value <;>
      simp [repository, Relational.repository, Collection.repository, Dialect.ofDatabase]
  intro i hi
  have hi := himports i hi
  simp only [List.mem_cons, List.not_mem_nil, or_false] at hi
  obtain rfl | rfl | rfl | rfl := hi
  · exact resolves_crypto
  · exact hconnection
  · exact hconnection
  · exact hrecord

/-- What its routes import is. -/
theorem served_routes : Served p (.source (Slot.routes.path m.routeName) (routes o m).text) := by
  have hsegment : IsPlain m.routeName := isPlain_lower h.name
  refine served_of_tidy (tidy_routes h.toRoutable o) fun i hi => ?_
  obtain hi | hi := List.mem_append.mp hi
  · simp only [List.mem_cons, List.not_mem_nil, or_false] at hi
    obtain rfl | rfl | rfl := hi
    · exact resolves_express hp
    · rw [Import.source, ← Slot.module_controllers]
      exact resolves_own hp hm h rfl hsegment .controllers (by decide) (by simp [modelSlots])
    · rw [Import.source, ← Slot.module_validation]
      exact resolves_own hp hm h rfl hsegment .validation (by decide) (by simp [modelSlots])
  · rw [guardImports] at hi
    split at hi
    · rename_i hguarded
      have hauth : o.authEnabled = true := (Bool.and_eq_true_iff.mp hguarded).1
      simp only [List.mem_cons, List.not_mem_nil, or_false] at hi
      obtain rfl | rfl := hi
      · exact resolves_authMiddleware hp hauth rfl hsegment
      · exact resolves_authorizeMiddleware hp hauth rfl hsegment
    · exact absurd hi List.not_mem_nil

omit hm in
theorem served_requestChecks :
    Served p (.source (Slot.validation.path m.name) (requestChecks m).text) :=
  served_of_tidy (tidy_requestChecks h) (resolves_bodyImports hp rfl h.name)

omit hm in
/-- What its suites import is. -/
theorem served_suiteFiles : ∀ f ∈ suiteFiles o m, Served p f := by
  intro f hf
  rw [suiteFiles] at hf
  split at hf
  · rename_i htests
    obtain rfl := List.mem_singleton.mp hf
    refine served_of_tidy (tidy_suite h o) fun i hi => ?_
    simp only [suite, List.mem_cons, List.not_mem_nil, or_false] at hi
    obtain rfl | rfl := hi
    · exact resolves_supertest hp htests
    · exact hp.resolves_app (Slot.path_tests m.name).symm (h.name.notMem (by decide))
  · exact absurd hf List.not_mem_nil

/-- The sources of a model find what they name. -/
theorem served_modelFiles {fs : List File} (hfs : modelFiles Library.registry o models m = .ok fs) :
    ∀ f ∈ fs, f.language = some "typescript" → Served p f := by
  obtain ⟨record, schemas, handlers, hrecord, hschemas, hcontroller, -, rfl⟩ :=
    exists_of_modelFiles_eq_ok hfs
  intro f hf hlanguage
  simp only [← Slot.path_models, ← Slot.path_controllers, ← Slot.path_services,
    ← Slot.path_repositories, ← Slot.path_routes, ← Slot.path_validation, List.mem_append,
    List.mem_cons, List.not_mem_nil, or_false] at hf
  obtain ((rfl | hf) | (rfl | rfl | rfl | rfl | rfl)) | hf := hf
  · exact ⟨[], importsAmong_recordInterface h hrecord, fun i hi => absurd hi List.not_mem_nil⟩
  · rw [schemaFiles] at hschemas
    split at hschemas
    · obtain ⟨text, -, rfl⟩ := Except.map_eq_ok_iff.mp hschemas
      obtain rfl := List.mem_singleton.mp hf
      exact absurd (Option.some.inj hlanguage) (by decide)
    · cases hschemas
      exact absurd hf List.not_mem_nil
  · exact served_controller hp hm h hcontroller
  · exact served_service hp hm h
  · exact served_repository hp hm h
  · exact served_routes hp hm h
  · exact served_requestChecks hp h
  · exact served_suiteFiles hp h f hf

end Model

/-! ## The files of the login -/

section Login

variable {a : Auth}

/-- A file of the login is served where it is put if its imports are. -/
theorem served_placed {path content : String} {is : List Import}
    (himports : ImportsAmong content is) (hknown : is ⊆ loginImports)
    (h : ∀ i ∈ is, Resolves p (placed models (.source path content))
      (placedImport models i).source.toList) :
    Served p (placed models (.source path content)) := by
  refine ⟨_, importsAmong_placed himports hknown, List.forall_mem_map.mpr fun i hi => ?_⟩
  exact ⟨fits_placedImport (hknown hi), h i hi⟩

/-- An import whose module is the same in either place. -/
theorem resolves_placed {f : File} {i : Import} {module : String} (hplace : i.source = module)
    (haside : (relocateImport i).source = module) (h : Resolves p f module.toList) :
    Resolves p f (placedImport models i).source.toList := by
  rwa [source_placedImport, haside, hplace, ite_self]

theorem isPlain_auth : IsPlain "Auth" := isPlain_ofList (by decide)

variable (hp : IsEmitted o models p) (hauth : o.authEnabled = true)

include hp hauth

/-- What the service of the accounts imports is in the project. -/
theorem served_authService (hroles : ∀ r ∈ a.roleNames, OneLine r) {t : String}
    (ht : authService Library.registry o a = .ok t) :
    Served p (placed models (.source "src/services/AuthService.ts" t)) := by
  have hpath : (placed models (.source "src/services/AuthService.ts" t)).path =
      Slot.services.path "Auth" := path_placed_of_mem (by simp [File.source, loginPlaces])
  refine served_placed (importsAmong_authService hroles o ht) ?_ ?_
  · unfold authServiceImports
    split <;> simp [loginImports]
  · intro i hi
    obtain hi | hi := List.mem_append.mp hi
    · split at hi
      · rename_i htoken
        obtain rfl := List.mem_singleton.mp hi
        exact resolves_placed (by decide) (by decide)
          (resolves_token hp (decide_eq_true_eq.mp htoken))
      · exact absurd hi List.not_mem_nil
    · simp only [List.mem_cons, List.not_mem_nil, or_false] at hi
      obtain rfl | rfl | rfl := hi
      · exact resolves_placed (by decide) (by decide)
          (resolves_bcrypt hp hauth)
      · rw [source_accountRepository]
        exact resolves_accountRepository hp hauth hpath isPlain_auth
      · rw [source_accountModel]
        exact resolves_accountModel hp hauth hpath isPlain_auth

/-- What their controller imports is. -/
theorem served_authController :
    Served p (placed models
      (.source "src/controllers/AuthController.ts" (authController o).text)) := by
  have hpath : (placed models (.source "src/controllers/AuthController.ts"
      (authController o).text)).path = Slot.controllers.path "Auth" :=
    path_placed_of_mem (by simp [File.source, loginPlaces])
  have himports : (authController o).imports = [handlerImport,
      .parts ["AuthService"] "../services/AuthService",
      .parts ["CreateUserRequest", "LoginRequest"] "../models/User"] := rfl
  refine served_placed (tidy_authController o).importsAmong ?_ ?_
  · rw [himports]
    simp [loginImports]
  · intro i hi
    simp only [himports, List.mem_cons, List.not_mem_nil, or_false] at hi
    obtain rfl | rfl | rfl := hi
    · exact resolves_placed (by decide) (by decide)
        (resolves_express hp)
    · exact resolves_placed (by decide) (by decide)
        (resolves_authService hp hauth hpath isPlain_auth)
    · rw [source_accountModel]
      exact resolves_accountModel hp hauth hpath isPlain_auth

omit hauth in
/-- What their middleware imports is. -/
theorem served_authMiddleware (hstrategy : a.strategy = o.authentication.value) {t : String}
    (ht : authMiddleware Library.registry a = .ok t) :
    Served p (placed models (.source "src/middleware/auth.ts" t)) := by
  refine served_placed (importsAmong_authMiddleware ht) ?_ ?_
  · unfold authMiddlewareImports
    split <;> simp [loginImports]
  · intro i hi
    obtain rfl | hi := List.mem_cons.mp hi
    · exact resolves_placed (by decide) (by decide)
        (resolves_express hp)
    · split at hi
      · rename_i hjwt
        obtain rfl := List.mem_singleton.mp hi
        exact resolves_placed (by decide) (by decide)
          (resolves_token hp (hstrategy ▸ hjwt))
      · exact absurd hi List.not_mem_nil

/-- What the guard of the roles imports is. -/
theorem served_authorizationMiddleware (hroles : ∀ r ∈ a.roleNames, OneLine r) {t : String}
    (ht : authorizationMiddleware Library.registry a = .ok t) :
    Served p (placed models (.source "src/middleware/authorize.ts" t)) := by
  have hpath : (placed models (.source "src/middleware/authorize.ts" t)).path =
      Slot.middleware.path "authorize" := path_placed_of_mem (by simp [File.source, loginPlaces])
  refine served_placed (importsAmong_authorizationMiddleware hroles ht) ?_ ?_
  · simp [loginImports]
  · intro i hi
    simp only [List.mem_cons, List.not_mem_nil, or_false] at hi
    obtain rfl | rfl := hi
    · exact resolves_placed (by decide) (by decide)
        (resolves_express hp)
    · have hmem : (Slot.middleware, "auth") ∈ slots o models :=
        List.mem_append_left _ (List.mem_append_right _ (by simp [loginSlots, hauth]))
      have hresolve : resolve? (Slot.middleware.path "authorize").toList "./auth".toList =
          some (slotPath (.middleware, "auth")).toList := by
        decide
      exact resolves_placed (by decide) (by decide)
        (hp.resolves_of_resolve? (.inl (by decide)) (hpath ▸ hresolve) (path_mem_emittedPaths hmem))

/-- What the routes of the accounts import is. -/
theorem served_authRoutes :
    Served p (placed models (.source "src/routes/auth.ts" authRoutes.text)) := by
  have hpath : (placed models (.source "src/routes/auth.ts" authRoutes.text)).path =
      Slot.routes.path "auth" := path_placed_of_mem (by simp [File.source, loginPlaces])
  have hplain : IsPlain "auth" := isPlain_ofList (by decide)
  refine served_placed tidy_authRoutes.importsAmong ?_ ?_
  · simp [authRoutes, loginImports]
  · intro i hi
    simp only [authRoutes, List.mem_cons, List.not_mem_nil, or_false] at hi
    obtain rfl | rfl | rfl := hi
    · exact resolves_placed (by decide) (by decide)
        (resolves_express hp)
    · exact resolves_placed (by decide) (by decide)
        (resolves_authController hp hauth hpath hplain)
    · exact resolves_placed (by decide) (by decide)
        (resolves_authChecks hp hauth hpath hplain)

/-- What their repository imports is. -/
theorem served_userRepository :
    Served p (placed models (.source "src/repositories/UserRepository.ts"
      (userRepository o.database.value).text)) := by
  have hpath : (placed models (.source "src/repositories/UserRepository.ts"
      (userRepository o.database.value).text)).path = Slot.repositories.path (accountName models) :=
    path_placed_of_mem (by simp [File.source, loginPlaces])
  have hplain := isPlain_accountName models
  have himports : (userRepository o.database.value).imports ⊆
      [identifierImport, queryImport, documentImport, userImport] := by
    cases o.database.value <;> simp [userRepository, userTable, userCollection, Dialect.ofDatabase]
  refine served_placed (tidy_userRepository o.database.value).importsAmong ?_ ?_
  · refine List.Subset.trans himports ?_
    simp [loginImports]
  · intro i hi
    have hi := himports hi
    simp only [List.mem_cons, List.not_mem_nil, or_false] at hi
    obtain rfl | rfl | rfl | rfl := hi
    · exact resolves_placed (by decide) (by decide)
        (resolves_crypto)
    · exact resolves_placed (by decide) (by decide)
        (resolves_connection hp hpath hplain)
    · exact resolves_placed (by decide) (by decide)
        (resolves_connection hp hpath hplain)
    · rw [userImport, source_accountModel]
      exact resolves_accountModel hp hauth hpath hplain

omit hauth in
/-- What their checks import is. -/
theorem served_authChecks (hroles : ∀ r ∈ a.roleNames, OneLine r) :
    Served p (placed models (.source "src/validation/AuthValidation.ts" (authChecks a).text)) := by
  have hpath : (placed models (.source "src/validation/AuthValidation.ts"
      (authChecks a).text)).path = Slot.validation.path "Auth" :=
    path_placed_of_mem (by simp [File.source, loginPlaces])
  refine served_placed (tidy_authChecks hroles).importsAmong ?_ ?_
  · exact List.subset_append_right _ _
  · have hfixed : ∀ i ∈ bodyImports, (relocateImport i).source = i.source := by decide
    intro i hi
    exact resolves_placed rfl (hfixed i hi) (resolves_bodyImports hp hpath isPlain_auth i hi)

/-- The sources of the login find what they name, wherever they are put. -/
theorem served_loginFiles (hstrategy : a.strategy = o.authentication.value)
    (hroles : ∀ r ∈ a.roleNames, OneLine r) {gs : List File}
    (hgs : loginFiles Library.registry o a = .ok gs) :
    ∀ g ∈ gs, (placed models g).language = some "typescript" → Served p (placed models g) := by
  obtain ⟨users, husers, hgs⟩ := Except.bind_eq_ok_iff.mp hgs
  obtain ⟨service, hservice, hgs⟩ := Except.bind_eq_ok_iff.mp hgs
  obtain ⟨login, hlogin, hgs⟩ := Except.bind_eq_ok_iff.mp hgs
  obtain ⟨access, haccess, hgs⟩ := Except.bind_eq_ok_iff.mp hgs
  cases hgs
  intro g hg hlanguage
  simp only [List.mem_append, List.mem_cons, List.not_mem_nil, or_false] at hg
  obtain (rfl | rfl | rfl | rfl | rfl | rfl | rfl | rfl) | hg := hg
  · exact served_placed (importsAmong_userModel hroles o husers) (List.nil_subset _)
      fun i hi => absurd hi List.not_mem_nil
  · exact served_authService hp hauth hroles hservice
  · exact served_authController hp hauth
  · exact served_authMiddleware hp hstrategy hlogin
  · exact served_authorizationMiddleware hp hauth hroles haccess
  · exact served_authRoutes hp hauth
  · exact served_userRepository hp hauth
  · exact served_authChecks hp hroles
  · split at hg
    · obtain rfl := List.mem_singleton.mp hg
      have hsql : (placed models (.sql "src/schemas/user.sql"
          (userSchema (.ofDatabase o.database.value) a))).language = some "sql" := by
        unfold placed
        split <;> rfl
      exact absurd (Option.some.inj (hsql.symm.trans hlanguage)) (by decide)
    · exact absurd hg List.not_mem_nil

end Login

/-! ## The files that every service has -/

section Service

variable (hp : IsEmitted o models p)

include hp

/-- A router that is mounted is a file of the project. -/
theorem resolves_mount {f : File} (hf : f.path = "src/app.ts") (h : ∀ m ∈ models, m.Unbroken) :
    ∀ i ∈ (mounts o models).map Mount.importRouter, Resolves p f i.source.toList := by
  have hroutes (y : String) (hy : IsPlain y) (hmem : (Slot.routes, y) ∈ slots o models) :
      Resolves p f ("./routes/" ++ y).toList := by
    rw [← Slot.entryModule_routes]
    exact hp.resolves_entryModule hf .routes y hy (by decide) hmem
  refine List.forall_mem_map.mpr fun e he => ?_
  obtain he | he := List.mem_append.mp he
  · split at he
    · rename_i hauth
      obtain rfl := List.mem_singleton.mp he
      have hauthRoutes : "./routes/auth" = "./routes/" ++ "auth" := by decide
      dsimp only [Mount.importRouter, Import.source]
      rw [hauthRoutes]
      exact hroutes "auth" (isPlain_ofList (by decide)) (List.mem_append_left _
        (List.mem_append_right _ (by simp [loginSlots, hauth])))
    · exact absurd he List.not_mem_nil
  · obtain ⟨m, hm, rfl⟩ := List.mem_map.mp he
    dsimp only [Mount.importRouter, Import.source]
    exact hroutes m.routeName (isPlain_lower (h m hm).name)
      (modelSlots_subset_slots hm (by simp [modelSlots]))

/-- The modules beside the entry that every service has. -/
theorem resolves_besideEntry {f : File} (hf : f.path = "src/app.ts") :
    Resolves p f "./database/connection".toList ∧ Resolves p f "./middleware/cors".toList ∧
      Resolves p f "./middleware/logging".toList ∧
      Resolves p f "./middleware/validation".toList := by
  have hshared (t : Slot) (y : String) {path : String} (hy : IsPlain y)
      (ht : t.ending = t.suffix ++ ".ts") (hpath : t.entryModule y = path)
      (hmem : (t, y) ∈ sharedSlots) : Resolves p f path.toList :=
    hpath ▸ hp.resolves_entryModule hf t y hy ht (sharedSlots_subset_slots hmem)
  refine ⟨hshared .database "connection" ?_ ?_ ?_ ?_, hshared .middleware "cors" ?_ ?_ ?_ ?_,
    hshared .middleware "logging" ?_ ?_ ?_ ?_, hshared .middleware "validation" ?_ ?_ ?_ ?_⟩
  all_goals first
    | exact isPlain_ofList (by decide)
    | decide

/-- So is all that the application imports. -/
theorem resolves_applicationImports {f : File} (hf : f.path = "src/app.ts")
    (h : ∀ m ∈ models, m.Unbroken) :
    ∀ i ∈ applicationImports o models, Resolves p f i.source.toList := by
  obtain ⟨hconnection, hcors, hlogging, hvalidation⟩ := resolves_besideEntry hp hf
  have hgated {c : Prop} [Decidable c] {i : Import} (hi : c → Resolves p f i.source.toList) :
      ∀ j ∈ (if c then [i] else []), Resolves p f j.source.toList := by
    intro j hj
    obtain ⟨hc, hj⟩ := List.mem_ite_nil_right.mp hj
    exact List.mem_singleton.mp hj ▸ hi hc
  have hdatabase : ∀ i ∈ (if o.isRelational = true then []
      else [Import.parts ["connect"] "./database/connection"]),
      Resolves p f i.source.toList := by
    intro i hi
    obtain ⟨-, hi⟩ := List.mem_ite_nil_left.mp hi
    rw [List.mem_singleton.mp hi]
    exact hconnection
  unfold applicationImports
  refine List.forall_mem_append.mpr ⟨List.forall_mem_append.mpr ⟨List.forall_mem_append.mpr
    ⟨List.forall_mem_append.mpr ⟨List.forall_mem_append.mpr ⟨?_, hgated ?_⟩, hgated ?_⟩,
      hdatabase⟩, ?_⟩, resolves_mount hp hf h⟩
  all_goals
    simp only [List.forall_mem_cons, List.not_mem_nil, false_implies, implies_true, and_true,
      Import.source]
  · exact ⟨resolves_dotenv hp, resolves_express hp⟩
  · exact resolves_session hp
  · exact resolves_passport hp
  · exact ⟨hcors, hlogging, hvalidation⟩

/-- The sources that every service has find what they name. -/
theorem served_sharedFiles (h : ∀ m ∈ models, m.Unbroken) :
    ∀ f ∈ sharedFiles o models, Served p f := by
  have hhandler {f : File} : ∀ i ∈ [handlerImport], Resolves p f i.source.toList :=
    List.forall_mem_singleton.mpr (resolves_express hp)
  have hvalidated {f : File} : ∀ i ∈ [handlerImport, .parts ["validationResult"] "express-validator"],
      Resolves p f i.source.toList := by
    simp only [List.forall_mem_cons, List.not_mem_nil, false_implies, implies_true, and_true,
      Import.source]
    exact ⟨resolves_express hp, resolves_validator hp⟩
  unfold sharedFiles
  simp only [List.forall_mem_cons, List.not_mem_nil, false_implies, implies_true, and_true]
  refine ⟨?_, ?_, ?_, ?_, ?_⟩
  · exact served_of_tidy (tidy_connection o.database.value) (resolves_driver hp)
  · exact served_of_tidy tidy_corsMiddleware hhandler
  · exact served_of_tidy tidy_loggingMiddleware hhandler
  · exact served_of_tidy tidy_validationMiddleware hvalidated
  · exact served_of_tidy (tidy_application o fun m hm => (h m hm).toRoutable)
      (resolves_applicationImports hp rfl h)

end Service

/-! ## The project -/

/-- The names of the roles are single lines if those of the models are. -/
theorem oneLine_roleNames {a : Auth}
    (ha : authOf o models (models.flatMap (modelEndpoints o)) = .ok a)
    (h : ∀ m ∈ models, m.Unbroken) : ∀ r ∈ a.roleNames, OneLine r := by
  intro r hr
  obtain hr | ⟨m, hm, hr⟩ := (of_authOf_eq_ok ha).2.1 r hr
  · exact (by decide : ∀ r ∈ ["admin", "user"], OneLine r) r hr
  · exact (h m hm).role r hr

/-- A project that was built is emitted. -/
theorem isEmitted_of_build {r : Registry} {name : Option String} {moment : Nat}
    (h : build r o models name moment = .ok p) : IsEmitted o models p := by
  obtain ⟨a, fs, gs, hfs, -, hgs, -, rfl⟩ := exists_of_build_eq_ok h
  refine ⟨paths_eq_emittedPaths hfs hgs _, ?_⟩
  refine ⟨.config "package.json" "json" (packageJson o (name.getD "generated-api")), ?_, rfl, _, rfl⟩
  exact List.mem_append_left _ (List.mem_append_left _ (List.mem_append_left _ List.mem_cons_self))

/-- The sources of a project that was built find what they name. -/
theorem served_of_build (h : ∀ m ∈ models, m.Unbroken) {name : Option String} {moment : Nat}
    (hbuild : build Library.registry o models name moment = .ok p) :
    ∀ f ∈ p.files, f.language = some "typescript" → Served p f := by
  have hp := isEmitted_of_build hbuild
  obtain ⟨a, fs, gs, hfs, ha, hgs, -, hassembled⟩ := exists_of_build_eq_ok hbuild
  have hfiles : p.files = allFiles o name models fs gs := by
    rw [hassembled]
    rfl
  intro f hf hlanguage
  rw [hfiles, allFiles, List.mem_append, List.mem_append, List.mem_append] at hf
  obtain ((hf | hf) | hf) | hf := hf
  · have hroot : f.language ∈ [some "json", some "dotenv", some "markdown"] := by
      simp only [rootFiles, List.mem_cons, List.not_mem_nil, or_false] at hf
      obtain rfl | rfl | rfl | rfl := hf <;> simp [File.config]
    rw [hlanguage] at hroot
    exact absurd hroot (by decide)
  · obtain ⟨m, hm, files, hmodel, hf⟩ := exists_modelFiles_of_mem hfs hf
    exact served_modelFiles hp hm (h m hm) hmodel f hf hlanguage
  · cases hauth : o.authEnabled with
    | false =>
      rw [placedLoginFiles, hauth] at hgs
      cases hgs
      exact absurd hf List.not_mem_nil
    | true =>
      obtain ⟨files, hlogin, rfl⟩ := placedLoginFiles_eq_ok hgs hauth
      obtain ⟨g, hg, rfl⟩ := List.mem_map.mp hf
      exact served_loginFiles hp hauth (of_authOf_eq_ok ha).1 (oneLine_roleNames ha h) hlogin g hg
        hlanguage
  · exact served_sharedFiles hp h f hf

/-- **Every import of a project resolves.**  If the texts that its models hand on hold no line feed,
then every line of a TypeScript file that begins as an import names a module: another file of the
project, a package that the manifest declares, or one of Node. -/
theorem imports_resolve (h : ∀ m ∈ models, m.Unbroken) {name : Option String} {moment : Nat}
    (hbuild : build Library.registry o models name moment = .ok p) :
    ∀ f ∈ p.files, f.language = some "typescript" →
      ∀ l ∈ lines f.content.toList, importWord <+: l →
        ∃ module, specifier l = some module ∧ Resolves p f module := by
  intro f hf hlanguage l hl himport
  obtain ⟨is, himports, his⟩ := served_of_build h hbuild f hf hlanguage
  obtain ⟨i, hi, rfl⟩ := himports l hl himport
  exact ⟨i.source.toList, (his i hi).1.specifier_line, (his i hi).2⟩

/-- A model that is called `User`, for which the accounts of the login are moved aside. -/
def userModel : Model where
  id := none
  name := "User"
  fields := [⟨none, "email", .string, true, true, .null, [], none⟩]
  relationships := []
  metadata := .default
  createdAt := none
  updatedAt := none

theorem unbroken_userModel : userModel.Unbroken where
  name := isPlain_ofList (by decide)
  fieldName := by decide
  tableName := by simp [userModel, Model.Metadata.default]
  role := by simp [userModel, Model.Metadata.default]
  message := by simp [userModel]
  operand := by simp [userModel]

/-- Beside the login, a model named `User` does not clash with it. -/
theorem not_clashes_userModel : ¬Clashes .default [userModel] := by
  have hsegment : userModel.routeName = "user" := by decide
  simp only [Clashes, List.mem_singleton, exists_eq_left, hsegment]
  decide

/-- With its accounts moved aside, a project for a model named `User` has all that its files
import. -/
theorem imports_resolve_userModel :
    (∀ m ∈ [userModel], m.Unbroken) ∧
      ∃ p, build Library.registry .default [userModel] none 0 = .ok p ∧
        ∀ f ∈ p.files, f.language = some "typescript" →
          ∀ l ∈ lines f.content.toList, importWord <+: l →
            ∃ module, specifier l = some module ∧ Resolves p f module := by
  have h : ∀ m ∈ [userModel], m.Unbroken := List.forall_mem_singleton.mpr unbroken_userModel
  have hunfit : unfit? .default [userModel] = none := rfl
  obtain ⟨p, hbuild, -⟩ := exists_build_of_not_clashes hunfit (List.nodup_singleton _)
    (by simp [userModel, Model.Metadata.default]) not_clashes_userModel none 0
  exact ⟨h, p, hbuild, imports_resolve h hbuild⟩

end Scaffold.Project
