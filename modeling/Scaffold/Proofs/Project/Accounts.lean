import Scaffold.Proofs.Artifact.Rendered
import Scaffold.Proofs.Project.Modules
import Scaffold.Proofs.Project.Relocation

/-!
# Proofs/Project/Accounts — the files of the login, in their places or moved aside

The files of the login name a fixed collection of modules.  When they are moved aside, each of their
imports becomes the one of the moved accounts (`relocateLine?_line`), so a file of the login has
the same imports in either place, up to the name of the accounts (`importsAmong_placed`).
-/

namespace Scaffold.Project

open Artifact Options Template Text

/-- All imports of the files of the login. -/
def loginImports : List Import :=
  [handlerImport, routerImport, identifierImport, documentImport, queryImport, userImport,
    .whole "jwt" "jsonwebtoken", .whole "bcrypt" "bcryptjs",
    .parts ["UserRepository"] "../repositories/UserRepository",
    .parts ["User", "CreateUserRequest", "LoginRequest", "AuthResult"] "../models/User",
    .parts ["AuthService"] "../services/AuthService",
    .parts ["CreateUserRequest", "LoginRequest"] "../models/User",
    .parts ["AuthenticatedRequest"] "./auth",
    .parts ["AuthController"] "../controllers/AuthController",
    .parts ["validateRegister", "validateLogin"] "../validation/AuthValidation"] ++ bodyImports

/-- The imports of the login files are well formed, before and after the move. -/
theorem fits_loginImports : ∀ i ∈ loginImports, i.Fits ∧ (relocateImport i).Fits := by
  simp only [loginImports, handlerImport, routerImport, identifierImport, documentImport,
    queryImport, userImport, bodyImports, List.cons_append, List.nil_append, List.forall_mem_cons,
    List.not_mem_nil, false_implies, implies_true, and_true, relocateImport, relocateName,
    relocateModule, List.map_cons, List.map_nil, String.reduceEq, if_true, if_false, Import.Fits]
  repeat' first
    | with_reducible refine And.intro ?_ ?_
    | with_reducible exact quotable_ofList (by decide)

set_option maxRecDepth 20000 in
/-- A line that imports is moved to the line of the moved import. -/
theorem relocateLine?_line :
    ∀ i ∈ loginImports, relocateLine? i.line.toList = some (relocateImport i).line.toList := by
  simp only [loginImports, handlerImport, routerImport, identifierImport, documentImport,
    queryImport, userImport, bodyImports, List.cons_append, List.nil_append, List.forall_mem_cons,
    List.not_mem_nil, false_implies, implies_true, and_true, relocateImport, relocateName,
    relocateModule, List.map_cons, List.map_nil, String.reduceEq, if_true, if_false, Import.line,
    String.toList_append, toList_intercalate, joinWith]
  repeat rw [String.toList_ofList]
  decide +kernel

/-- A file of the login where it is put. -/
def placed (models : List Model) (g : File) : File :=
  if MovesAccounts models then g.relocate else g

/-- An import of the login where the accounts are put. -/
def placedImport (models : List Model) (i : Import) : Import :=
  if MovesAccounts models then relocateImport i else i

variable {models : List Model}

/-- A placed file has the imports of the file, placed. -/
theorem importsAmong_placed {path content : String} {is : List Import}
    (h : ImportsAmong content is) (hknown : is ⊆ loginImports) :
    ImportsAmong (placed models (.source path content)).content
      (is.map (placedImport models)) := by
  by_cases hmoves : MovesAccounts models
  · have hfile : placed models (.source path content) = (File.source path content).relocate :=
      if_pos hmoves
    have himport : placedImport models = relocateImport := funext fun i => if_pos hmoves
    rw [hfile, himport]
    exact importsAmong_relocateText h fun i hi => relocateLine?_line i (hknown hi)
  · have hfile : placed models (.source path content) = .source path content := if_neg hmoves
    have himport : placedImport models = id := funext fun i => if_neg hmoves
    rwa [hfile, himport, List.map_id]

/-- A placed import is well formed. -/
theorem fits_placedImport {i : Import} (hi : i ∈ loginImports) : (placedImport models i).Fits := by
  obtain ⟨hfits, hrelocated⟩ := fits_loginImports i hi
  unfold placedImport
  split
  · exact hrelocated
  · exact hfits

/-- The placed login files are the login files, each placed. -/
theorem placedLoginFiles_eq_ok {r : Registry} {o : Generation} {a : Auth} {fs : List File}
    (h : placedLoginFiles r o models a = .ok fs) (hauth : o.authEnabled = true) :
    ∃ gs, loginFiles r o a = .ok gs ∧ fs = gs.map (placed models) := by
  rw [placedLoginFiles, hauth, Bool.not_true, if_neg Bool.false_ne_true] at h
  by_cases hmoves : MovesAccounts models
  · rw [if_pos (any_routeName_iff.mpr hmoves)] at h
    obtain ⟨gs, hgs, rfl⟩ := Except.map_eq_ok_iff.mp h
    have hfile : placed models = File.relocate := funext fun g => if_pos hmoves
    exact ⟨gs, hgs, by rw [hfile]⟩
  · rw [if_neg (mt any_routeName_iff.mp hmoves)] at h
    have hfile : placed models = id := funext fun g => if_neg hmoves
    exact ⟨fs, h, by rw [hfile, List.map_id]⟩

/-! ## Paths and modules -/

theorem path_placed (g : File) : (placed models g).path =
    if MovesAccounts models then relocatePath g.path else g.path := by
  unfold placed
  split <;> rfl

/-- Where the files of the login are put, for a name of the accounts. -/
def loginPlaces (account : String) : List (String × Slot × String) :=
  [("src/models/User.ts", .models, account), ("src/services/AuthService.ts", .services, "Auth"),
    ("src/controllers/AuthController.ts", .controllers, "Auth"),
    ("src/middleware/auth.ts", .middleware, "auth"),
    ("src/middleware/authorize.ts", .middleware, "authorize"),
    ("src/routes/auth.ts", .routes, "auth"),
    ("src/repositories/UserRepository.ts", .repositories, account),
    ("src/validation/AuthValidation.ts", .validation, "Auth")]

theorem path_of_mem_loginPlaces : ∀ e ∈ loginPlaces "User", e.1 = e.2.1.path e.2.2 := by
  decide

theorem relocatePath_of_mem_loginPlaces :
    ∀ e ∈ loginPlaces "AuthUser", relocatePath e.1 = e.2.1.path e.2.2 := by
  decide +kernel

/-- Each login file is put at the path of its place. -/
theorem path_placed_of_mem {g : File} {s : Slot} {x : String}
    (h : (g.path, s, x) ∈ loginPlaces (accountName models)) : (placed models g).path = s.path x := by
  rw [path_placed]
  unfold accountName at h
  split
  · rename_i hmoves
    rw [if_pos hmoves] at h
    exact relocatePath_of_mem_loginPlaces _ h
  · rename_i hmoves
    rw [if_neg hmoves] at h
    exact path_of_mem_loginPlaces _ h

theorem source_placedImport (i : Import) : (placedImport models i).source =
    if MovesAccounts models then (relocateImport i).source else i.source := by
  unfold placedImport
  split <;> rfl

/-- What is named after the accounts, if its name says so in either place. -/
theorem ite_eq_accountName {α : Type} {f : String → α} {x y : α} (haside : x = f "AuthUser")
    (hplace : y = f "User") :
    (if MovesAccounts models then x else y) = f (accountName models) := by
  unfold accountName
  split
  · exact haside
  · exact hplace

theorem source_accountModel (names : List String) :
    (placedImport models (.parts names "../models/User")).source =
      "../models/" ++ accountName models := by
  have haside : relocateModule "../models/User" = "../models/" ++ "AuthUser" := by decide
  have hplace : "../models/User" = "../models/" ++ "User" := by decide
  rw [source_placedImport]
  exact ite_eq_accountName (f := fun account => "../models/" ++ account) haside hplace

theorem source_accountRepository (names : List String) :
    (placedImport models (.parts names "../repositories/UserRepository")).source =
      "../repositories/" ++ accountName models ++ "Repository" := by
  have haside : relocateModule "../repositories/UserRepository" =
      "../repositories/" ++ "AuthUser" ++ "Repository" := by
    decide
  have hplace : "../repositories/UserRepository" = "../repositories/" ++ "User" ++ "Repository" := by
    decide
  rw [source_placedImport]
  exact ite_eq_accountName (f := fun account => "../repositories/" ++ account ++ "Repository")
    haside hplace

theorem isPlain_accountName (models : List Model) : IsPlain (accountName models) := by
  unfold accountName
  split <;> exact isPlain_ofList (by decide)

/-! ## What the login needs -/

section Resolution

variable {o : Generation} {p : Project} {f : File} {s : Slot} {x : String}

/-- A file names a source of the login. -/
theorem resolves_login (hp : IsEmitted o models p) (hf : f.path = s.path x) (hx : IsPlain x)
    (t : Slot) (y : String) (hy : IsPlain y) (ht : t.ending = t.suffix ++ ".ts")
    (hmem : (t, y) ∈ loginSlots o models) : Resolves p f (t.module y).toList :=
  hp.resolves_module hf (hx.notMem (by decide)) hy ht
    (List.mem_append_left _ (List.mem_append_right _ hmem))

variable (hp : IsEmitted o models p) (hauth : o.authEnabled = true) (hf : f.path = s.path x)
  (hx : IsPlain x)

include hp hauth hf hx

theorem resolves_accountModel : Resolves p f ("../models/" ++ accountName models).toList := by
  rw [← Slot.module_models]
  exact resolves_login hp hf hx .models (accountName models) (isPlain_accountName models)
    (by decide) (by simp [loginSlots, hauth])

theorem resolves_accountRepository :
    Resolves p f ("../repositories/" ++ accountName models ++ "Repository").toList := by
  rw [← Slot.module_repositories]
  exact resolves_login hp hf hx .repositories (accountName models) (isPlain_accountName models)
    (by decide) (by simp [loginSlots, hauth])

theorem resolves_authService : Resolves p f "../services/AuthService".toList := by
  have hmodule : "../services/AuthService" = Slot.services.module "Auth" := by decide
  rw [hmodule]
  exact resolves_login hp hf hx .services "Auth" (isPlain_ofList (by decide)) (by decide)
    (by simp [loginSlots, hauth])

/-- The controller of the accounts is a file of the project. -/
theorem resolves_authController : Resolves p f "../controllers/AuthController".toList := by
  have hmodule : "../controllers/AuthController" = Slot.controllers.module "Auth" := by
    decide
  rw [hmodule]
  exact resolves_login hp hf hx .controllers "Auth" (isPlain_ofList (by decide)) (by decide)
    (by simp [loginSlots, hauth])

/-- So are their checks. -/
theorem resolves_authChecks : Resolves p f "../validation/AuthValidation".toList := by
  have hmodule : "../validation/AuthValidation" = Slot.validation.module "Auth" := by
    decide
  rw [hmodule]
  exact resolves_login hp hf hx .validation "Auth" (isPlain_ofList (by decide)) (by decide)
    (by simp [loginSlots, hauth])

theorem resolves_authMiddleware : Resolves p f "../middleware/auth".toList := by
  have hmodule : "../middleware/auth" = Slot.middleware.module "auth" := by decide
  rw [hmodule]
  exact resolves_login hp hf hx .middleware "auth" (isPlain_ofList (by decide)) (by decide)
    (by simp [loginSlots, hauth])

/-- So is the guard of the roles. -/
theorem resolves_authorizeMiddleware : Resolves p f "../middleware/authorize".toList := by
  have hmodule : "../middleware/authorize" = Slot.middleware.module "authorize" := by
    decide
  rw [hmodule]
  exact resolves_login hp hf hx .middleware "authorize" (isPlain_ofList (by decide)) (by decide)
    (by simp [loginSlots, hauth])

end Resolution

end Scaffold.Project
