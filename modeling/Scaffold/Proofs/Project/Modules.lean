import Scaffold.Proofs.Project.Paths
import Scaffold.Proofs.Text.Lines
import Scaffold.Proofs.Text.Names

/-!
# Proofs/Project/Modules — what the modules of a project stand for

A relative module is resolved from the folder of the file that names it, segment by segment; any
other module belongs to a package, which the manifest has to declare.  Between slots this comes down
to the paths of the project: `../folder/stem` names the file of that slot and stem
(`resolve?_module`).
-/

namespace Scaffold.Project

open Artifact Document Options Text

/-! ## Resolving -/

/-- One segment of a relative module, taken from a folder. -/
def walk (folder : List (List Char)) (segment : List Char) : Option (List (List Char)) :=
  if segment = ['.'] then some folder
  else if segment = ['.', '.'] then
    if folder = [] then none else some folder.dropLast
  else some (folder ++ [segment])

/-- The path of the source that a relative module names in the file at a path. -/
def resolve? (path module : List Char) : Option (List Char) :=
  ((pieces '/' module).foldlM walk (pieces '/' path).dropLast).map fun segments =>
    joinWith ['/'] segments ++ ['.', 't', 's']

def IsRelative (module : List Char) : Prop :=
  ['.', '/'] <+: module ∨ ['.', '.', '/'] <+: module

instance (module : List Char) : Decidable (IsRelative module) :=
  inferInstanceAs (Decidable (_ ∨ _))

/-- The package of a module: its first segment, and with a scope its first two. -/
def packageName (module : List Char) : List Char :=
  match pieces '/' module with
  | [] => []
  | scope :: segments =>
    if scope.head? = some '@' then joinWith ['/'] (scope :: segments.take 1) else scope

/-- The manifest declares the package, to run with or to build with. -/
def Declares (manifest : String) (package : List Char) : Prop :=
  ∃ members, manifest = documentText (.record members) ∧
    ∃ key ∈ ["dependencies", "devDependencies"], ∃ packages,
      members.lookup key = some (.record packages) ∧ ∃ e ∈ packages, e.1.toList = package

/-- A module that a file of the project names is there: a relative one is another file of the
project, any other comes with Node or from a package that the manifest declares. -/
def Resolves (p : Project) (f : File) (module : List Char) : Prop :=
  if IsRelative module then ∃ g ∈ p.files, resolve? f.path.toList module = some g.path.toList
  else module = "crypto".toList ∨
    ∃ g ∈ p.files, g.path = "package.json" ∧ Declares g.content (packageName module)

/-- A segment without dots leads one folder down. -/
theorem walk_of_notMem {folder : List (List Char)} {segment : List Char} (h : '.' ∉ segment) :
    walk folder segment = some (folder ++ [segment]) := by
  have hhere : segment ≠ ['.'] := by
    rintro rfl
    exact h List.mem_cons_self
  have hup : segment ≠ ['.', '.'] := by
    rintro rfl
    exact h List.mem_cons_self
  rw [walk, if_neg hhere, if_neg hup]

/-- Two segments make a file of the service. -/
theorem foldlM_walk_pair {folder name : List Char} (hfolder : '.' ∉ folder) (hname : '.' ∉ name)
    (start : List (List Char)) :
    [folder, name].foldlM walk start = some (start ++ [folder, name]) := by
  rw [List.foldlM_cons, walk_of_notMem hfolder]
  simp only [Option.bind_eq_bind, Option.bind_some, List.foldlM_cons, List.foldlM_nil,
    walk_of_notMem hname, List.append_assoc, List.cons_append, List.nil_append]
  rfl

/-- The segments of a path with two slashes. -/
theorem pieces_two {first folder name : List Char} (hfirst : '/' ∉ first) (hfolder : '/' ∉ folder)
    (hname : '/' ∉ name) :
    pieces '/' (first ++ '/' :: (folder ++ '/' :: name)) = [first, folder, name] := by
  rw [pieces_append_cons, pieces_append_cons, pieces_of_notMem hfirst, pieces_of_notMem hfolder,
    pieces_of_notMem hname]
  rfl

section Shapes

variable {folder name : List Char} (hfolder : '/' ∉ folder) (hname : '/' ∉ name)
  (hfolderDot : '.' ∉ folder) (hnameDot : '.' ∉ name)

include hfolder hname hfolderDot hnameDot

/-- From a folder of the service to another one. -/
theorem resolve?_across {here file : List Char} (hhere : '/' ∉ here) (hfile : '/' ∉ file) :
    resolve? (['s', 'r', 'c'] ++ '/' :: (here ++ '/' :: file))
        (['.', '.'] ++ '/' :: (folder ++ '/' :: name)) =
      some (['s', 'r', 'c'] ++ '/' :: (folder ++ '/' :: (name ++ ['.', 't', 's']))) := by
  rw [resolve?, pieces_two (by decide) hhere hfile, pieces_two (by decide) hfolder hname,
    List.foldlM_cons]
  have hup : walk [['s', 'r', 'c'], here] ['.', '.'] = some [['s', 'r', 'c']] := rfl
  simp only [List.dropLast, hup, Option.bind_eq_bind, Option.bind_some,
    foldlM_walk_pair hfolderDot hnameDot]
  simp [joinWith]

/-- From the entry of the service to a folder. -/
theorem resolve?_down {file : List Char} (hfile : '/' ∉ file) :
    resolve? (['s', 'r', 'c'] ++ '/' :: file) (['.'] ++ '/' :: (folder ++ '/' :: name)) =
      some (['s', 'r', 'c'] ++ '/' :: (folder ++ '/' :: (name ++ ['.', 't', 's']))) := by
  rw [resolve?, pieces_append_cons, pieces_of_notMem hfile, pieces_two (by decide) hfolder hname,
    pieces_of_notMem (by decide), List.foldlM_cons]
  have hhere : walk [['s', 'r', 'c']] ['.'] = some [['s', 'r', 'c']] := rfl
  simp only [List.cons_append, List.nil_append, List.dropLast, hhere, Option.bind_eq_bind,
    Option.bind_some, foldlM_walk_pair hfolderDot hnameDot]
  simp [joinWith]

end Shapes

/-! ## Slots -/

namespace Slot

/-- How the names of the sources in a slot end as modules. -/
def suffix : Slot → String
  | controllers => "Controller"
  | services => "Service"
  | repositories => "Repository"
  | validation => "Validation"
  | models | schemas | routes | tests | middleware | database => ""

/-- The module of a stem in the sources of the other folders. -/
def module (t : Slot) (stem : String) : String := "../" ++ t.folder ++ "/" ++ stem ++ t.suffix

theorem module_models (x : String) : models.module x = "../models/" ++ x := by
  rw [module, suffix, String.append_empty]
  exact congrArg (· ++ x) (by decide)

theorem module_controllers (x : String) :
    controllers.module x = "../controllers/" ++ x ++ "Controller" :=
  congrArg (· ++ x ++ "Controller") (by decide)

theorem module_services (x : String) : services.module x = "../services/" ++ x ++ "Service" :=
  congrArg (· ++ x ++ "Service") (by decide)

theorem module_repositories (x : String) :
    repositories.module x = "../repositories/" ++ x ++ "Repository" :=
  congrArg (· ++ x ++ "Repository") (by decide)

theorem module_validation (x : String) :
    validation.module x = "../validation/" ++ x ++ "Validation" :=
  congrArg (· ++ x ++ "Validation") (by decide)

theorem slash_notMem_ending (s : Slot) : '/' ∉ s.ending.toList := by
  cases s <;> decide

theorem dot_notMem_folder (s : Slot) : '.' ∉ s.folder.toList := by
  cases s <;> decide

theorem isPlain_suffix (s : Slot) : IsPlain s.suffix := by
  cases s <;> exact isPlain_ofList (by decide)

theorem toList_path_eq (s : Slot) (stem : String) : (s.path stem).toList =
    ['s', 'r', 'c'] ++ '/' :: (s.folder.toList ++ '/' :: (stem.toList ++ s.ending.toList)) := by
  have hsrc : "src/".toList = ['s', 'r', 'c'] ++ ['/'] := by decide
  rw [toList_path, hsrc, List.append_assoc, List.singleton_append]

theorem toList_module (t : Slot) (stem : String) : (t.module stem).toList =
    ['.', '.'] ++ '/' :: (t.folder.toList ++ '/' :: (stem.toList ++ t.suffix.toList)) := by
  have hup : "../".toList = ['.', '.'] ++ ['/'] := by decide
  have hslash : "/".toList = ['/'] := by decide
  simp only [module, String.toList_append, hup, hslash, List.append_assoc, List.cons_append,
    List.nil_append]

variable {s t : Slot} {x y : String}

/-- **The module of a stem names its file**, from any file of another slot. -/
theorem resolve?_module (hx : '/' ∉ x.toList) (hy : IsPlain y) (ht : t.ending = t.suffix ++ ".ts") :
    resolve? (s.path x).toList (t.module y).toList = some (t.path y).toList := by
  have hfile : '/' ∉ x.toList ++ s.ending.toList := by
    rw [List.mem_append]
    exact not_or.mpr ⟨hx, s.slash_notMem_ending⟩
  have hname {c : Char} (hc : isPlainAlnum c = false) : c ∉ y.toList ++ t.suffix.toList := by
    rw [List.mem_append]
    exact not_or.mpr ⟨hy.notMem hc, t.isPlain_suffix.notMem hc⟩
  have hts : ".ts".toList = ['.', 't', 's'] := by decide
  rw [toList_path_eq, toList_path_eq, toList_module, resolve?_across t.slash_notMem_folder
    (hname (by decide)) t.dot_notMem_folder (hname (by decide)) s.slash_notMem_folder hfile, ht,
    String.toList_append, hts, List.append_assoc]

end Slot

namespace Slot

/-! ### The entry -/

/-- The module of a stem in the entry of the service. -/
def entryModule (t : Slot) (stem : String) : String :=
  "./" ++ t.folder ++ "/" ++ stem ++ t.suffix

theorem entryModule_routes (x : String) : routes.entryModule x = "./routes/" ++ x := by
  rw [entryModule, suffix, String.append_empty]
  exact congrArg (· ++ x) (by decide)

theorem toList_entryModule (t : Slot) (stem : String) : (t.entryModule stem).toList =
    ['.'] ++ '/' :: (t.folder.toList ++ '/' :: (stem.toList ++ t.suffix.toList)) := by
  have hhere : "./".toList = ['.'] ++ ['/'] := by decide
  have hslash : "/".toList = ['/'] := by decide
  simp only [entryModule, String.toList_append, hhere, hslash, List.append_assoc, List.cons_append,
    List.nil_append]

/-- The module of a stem in the entry names its file. -/
theorem resolve?_entryModule {t : Slot} {y : String} (hy : IsPlain y)
    (ht : t.ending = t.suffix ++ ".ts") :
    resolve? "src/app.ts".toList (t.entryModule y).toList = some (t.path y).toList := by
  have hname {c : Char} (hc : isPlainAlnum c = false) : c ∉ y.toList ++ t.suffix.toList := by
    rw [List.mem_append]
    exact not_or.mpr ⟨hy.notMem hc, t.isPlain_suffix.notMem hc⟩
  have hentry : "src/app.ts".toList = ['s', 'r', 'c'] ++ '/' :: ['a', 'p', 'p', '.', 't', 's'] := by
    decide
  have hts : ".ts".toList = ['.', 't', 's'] := by decide
  rw [hentry, toList_path_eq, toList_entryModule, resolve?_down t.slash_notMem_folder
    (hname (by decide)) t.dot_notMem_folder (hname (by decide)) (by decide), ht,
    String.toList_append, hts, List.append_assoc]

/-- The tests name the entry. -/
theorem resolve?_app {s : Slot} {x : String} (hx : '/' ∉ x.toList) :
    resolve? (s.path x).toList "../app".toList = some "src/app.ts".toList := by
  have hfile : '/' ∉ x.toList ++ s.ending.toList := by
    rw [List.mem_append]
    exact not_or.mpr ⟨hx, s.slash_notMem_ending⟩
  have hentry : "src/app.ts".toList = ['s', 'r', 'c', '/', 'a', 'p', 'p', '.', 't', 's'] := by
    decide
  have happ : "../app".toList = ['.', '.', '/', 'a', 'p', 'p'] := by decide
  rw [hentry, happ, toList_path_eq, resolve?, pieces_two (by decide) s.slash_notMem_folder hfile]
  rfl

end Slot

/-! ## Modules of a project -/

/-- The modules of packages that emitted sources name, with their packages. -/
def packageModules : List (String × String) :=
  [("express", "express"), ("express-validator", "express-validator"), ("dotenv/config", "dotenv"),
    ("express-session", "express-session"), ("passport", "passport"), ("pg", "pg"),
    ("mysql2/promise", "mysql2"), ("mongodb", "mongodb"), ("jsonwebtoken", "jsonwebtoken"),
    ("bcryptjs", "bcryptjs"), ("supertest", "supertest")]

theorem packageName_packageModules : ∀ e ∈ packageModules,
    ¬IsRelative e.1.toList ∧ packageName e.1.toList = e.2.toList := by
  decide +kernel

theorem declares_packageJson (o : Generation) (name : String) {package : String}
    (h : package ∈ (Catalog.dependencies o ++ Catalog.devDependencies o).map (·.1)) :
    Declares (packageJson o name) package.toList := by
  rw [List.map_append, List.mem_append] at h
  have hkeys {t : Catalog.Table} (ht : package ∈ t.map (·.1)) :
      ∃ e ∈ t.map fun e => (e.1, Value.text e.2), e.1.toList = package.toList := by
    obtain ⟨e, he, rfl⟩ := List.mem_map.mp ht
    exact ⟨_, List.mem_map_of_mem he, rfl⟩
  refine ⟨_, rfl, ?_⟩
  obtain h | h := h
  · exact ⟨"dependencies", by simp, _, rfl, hkeys h⟩
  · exact ⟨"devDependencies", by simp, _, rfl, hkeys h⟩

section Resolution

variable {o : Generation} {models : List Model} {p : Project} {f : File}

theorem resolves_crypto : Resolves p f "crypto".toList := by
  rw [Resolves, if_neg (by decide)]
  exact .inl rfl

/-- The project has the emitted paths and its manifest. -/
structure IsEmitted (o : Generation) (models : List Model) (p : Project) : Prop where
  paths : p.files.map (·.path) = emittedPaths o models
  manifest : ∃ g ∈ p.files, g.path = "package.json" ∧ ∃ name, g.content = packageJson o name

theorem IsEmitted.exists_file (h : IsEmitted o models p) {path : String}
    (hpath : path ∈ emittedPaths o models) : ∃ g ∈ p.files, g.path = path := by
  rw [← h.paths] at hpath
  exact List.mem_map.mp hpath

/-- A package that is declared is found. -/
theorem IsEmitted.resolves_package (h : IsEmitted o models p) {e : String × String}
    (he : e ∈ packageModules)
    (hdeclared : e.2 ∈ (Catalog.dependencies o ++ Catalog.devDependencies o).map (·.1)) :
    Resolves p f e.1.toList := by
  obtain ⟨hbare, hpackage⟩ := packageName_packageModules e he
  obtain ⟨g, hg, hpath, name, hcontent⟩ := h.manifest
  rw [Resolves, if_neg hbare, hpackage]
  exact .inr ⟨g, hg, hpath, hcontent ▸ declares_packageJson o name hdeclared⟩

/-- So is a relative module whose path is emitted. -/
theorem IsEmitted.resolves_of_resolve? (h : IsEmitted o models p) {module : List Char}
    {path : String} (hrelative : IsRelative module)
    (hresolve : resolve? f.path.toList module = some path.toList)
    (hpath : path ∈ emittedPaths o models) : Resolves p f module := by
  obtain ⟨g, hg, rfl⟩ := h.exists_file hpath
  rw [Resolves, if_pos hrelative]
  exact ⟨g, hg, hresolve⟩

theorem path_mem_emittedPaths {e : Slot × String} (he : e ∈ slots o models) :
    slotPath e ∈ emittedPaths o models :=
  List.mem_append_left _ (List.mem_append_right _ (List.mem_map_of_mem he))

/-- So is the module of a slot from a file of any other. -/
theorem IsEmitted.resolves_module (h : IsEmitted o models p) {s t : Slot} {x y : String}
    (hf : f.path = s.path x) (hx : '/' ∉ x.toList) (hy : IsPlain y)
    (ht : t.ending = t.suffix ++ ".ts") (hmem : (t, y) ∈ slots o models) :
    Resolves p f (t.module y).toList := by
  refine h.resolves_of_resolve? ?_ (hf ▸ Slot.resolve?_module hx hy ht)
    (path_mem_emittedPaths hmem)
  rw [Slot.toList_module]
  exact .inr (List.prefix_append _ _)

theorem app_mem_emittedPaths : "src/app.ts" ∈ emittedPaths o models :=
  List.mem_append_right _ (List.mem_singleton_self _)

theorem IsEmitted.resolves_app (h : IsEmitted o models p) {s : Slot} {x : String}
    (hf : f.path = s.path x) (hx : '/' ∉ x.toList) : Resolves p f "../app".toList :=
  h.resolves_of_resolve? (.inr (by decide)) (hf ▸ Slot.resolve?_app hx) app_mem_emittedPaths

/-- And from the entry of the application. -/
theorem IsEmitted.resolves_entryModule (h : IsEmitted o models p) (hf : f.path = "src/app.ts")
    (t : Slot) (y : String) (hy : IsPlain y) (ht : t.ending = t.suffix ++ ".ts")
    (hmem : (t, y) ∈ slots o models) : Resolves p f (t.entryModule y).toList := by
  refine h.resolves_of_resolve? ?_ (hf ▸ Slot.resolve?_entryModule hy ht)
    (path_mem_emittedPaths hmem)
  rw [Slot.toList_entryModule]
  exact .inl (List.prefix_append _ _)

end Resolution

end Scaffold.Project
