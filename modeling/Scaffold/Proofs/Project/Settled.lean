import Scaffold.Proofs.Options.Omission
import Scaffold.Proofs.Project.Collision

/-!
# Proofs/Project/Settled — what the values of options decide

Whether a choice was made or left open is nothing that code is generated from.  For options with the
same values a project is made or refused in the same way, and what is made differs in its
description only (`buildNamed_of_settled`).  The description shows three choices as they were made,
so it tells which of these are open (`readme_eq_iff`).
-/

namespace Scaffold.Project

open Artifact Document Options Schema Template

/-! ## What the values of options decide -/

/-- The files at the root but the description of the project. -/
def settings (o : Generation) (packageName : String) : List File :=
  [.config "package.json" "json" (packageJson o packageName),
    .config "tsconfig.json" "json" (tsconfig o),
    .config ".env.example" "dotenv" (environmentExample o)]

/-- The description of a project as a file. -/
def readmeFile (o : Generation) (models : List Model) : File :=
  ⟨"README.md", readme o models, .documentation, some "markdown"⟩

section Settled

variable (r : Registry) (o : Generation) (models : List Model)

theorem packageJson_settled (packageName : String) :
    packageJson o.settled packageName = packageJson o packageName := rfl

theorem tsconfig_settled : tsconfig o.settled = tsconfig o := rfl

theorem environmentExample_settled : environmentExample o.settled = environmentExample o := rfl

theorem settings_settled (packageName : String) :
    settings o.settled packageName = settings o packageName := by
  rw [settings, settings, packageJson_settled, tsconfig_settled, environmentExample_settled]

theorem allModelFiles_settled : allModelFiles r o.settled models = allModelFiles r o models := rfl

theorem authOf_settled : authOf o.settled models (models.flatMap (modelEndpoints o.settled)) =
    authOf o models (models.flatMap (modelEndpoints o)) := rfl

theorem placedLoginFiles_settled (a : Auth) :
    placedLoginFiles r o.settled models a = placedLoginFiles r o models a := rfl

theorem sharedFiles_settled : sharedFiles o.settled models = sharedFiles o models := rfl

theorem allEndpoints_settled : allEndpoints o.settled models = allEndpoints o models := rfl

end Settled

/-! ## Other options -/

/-- A file with the description of a project for other options. -/
def File.reshown (o : Generation) (models : List Model) (f : File) : File :=
  if f.path = "README.md" then { f with content := readme o models } else f

/-- A project with other options. -/
def reshown (o : Generation) (p : Project) : Project :=
  { p with options := o, files := p.files.map (File.reshown o p.models) }

section Reshown

variable (o : Generation) (p : Project)

@[simp] theorem name_reshown : (p.reshown o).name = p.name := rfl

@[simp] theorem models_reshown : (p.reshown o).models = p.models := rfl

@[simp] theorem endpoints_reshown : (p.reshown o).endpoints = p.endpoints := rfl

@[simp] theorem options_reshown : (p.reshown o).options = o := rfl

end Reshown

@[simp] theorem File.path_reshown (o : Generation) (models : List Model) (f : File) :
    (f.reshown o models).path = f.path := by
  rw [File.reshown]
  split <;> rfl

@[simp] theorem File.kind_reshown (o : Generation) (models : List Model) (f : File) :
    (f.reshown o models).kind = f.kind := by
  rw [File.reshown]
  split <;> rfl

theorem File.reshown_of_ne {f : File} (h : f.path ≠ "README.md") (o : Generation)
    (models : List Model) : f.reshown o models = f := if_neg h

theorem reshown_readmeFile (o o' : Generation) (models : List Model) :
    (readmeFile o models).reshown o' models = readmeFile o' models := if_pos rfl

theorem File.reshown_congr {o o' : Generation} {models : List Model}
    (h : readme o' models = readme o models) : File.reshown o' models = File.reshown o models := by
  funext f
  rw [File.reshown, File.reshown, h]

theorem paths_reshown (o : Generation) (p : Project) : (p.reshown o).paths = p.paths := by
  rw [paths, reshown, List.map_map]
  exact List.map_congr_left fun f _ => f.path_reshown o p.models

variable {r : Registry} {o o' : Generation} {models : List Model} {moment : Nat}

/-! ## Generation -/

/-- Of all files the readme stands out. -/
theorem allFiles_eq (o : Generation) (name : Option String) (models : List Model)
    (fs gs : List File) : allFiles o name models fs gs =
      settings o (name.getD "generated-api") ++
        readmeFile o models :: (fs ++ gs ++ sharedFiles o models) := by
  simp only [allFiles, List.append_assoc]
  rfl

/-- Options that settle alike make the same files but for the readme. -/
theorem allFiles_eq_of_settled (h : o'.settled = o.settled) (name : Option String)
    (fs gs : List File) : allFiles o' name models fs gs =
      settings o (name.getD "generated-api") ++
        readmeFile o' models :: (fs ++ gs ++ sharedFiles o models) := by
  have hsettings (n : String) : settings o' n = settings o n :=
    Generation.eq_of_settled (f := fun o => settings o n) (fun o => settings_settled o n) h
  have hshared : sharedFiles o' models = sharedFiles o models :=
    Generation.eq_of_settled (f := fun o => sharedFiles o models)
      (fun o => sharedFiles_settled o models) h
  rw [allFiles_eq, hsettings, hshared]

theorem map_reshown_of_notMem {fs : List File} (h : "README.md" ∉ fs.map (·.path))
    (o : Generation) (models : List Model) : fs.map (File.reshown o models) = fs := by
  refine (List.map_congr_left fun f hf => ?_).trans (List.map_id fs)
  exact File.reshown_of_ne (fun heq => h (heq ▸ List.mem_map_of_mem hf)) o models

/-- So one list is the other with the options shown. -/
theorem allFiles_of_settled (h : o'.settled = o.settled) {name : Option String} {fs gs : List File}
    (hnodup : ((allFiles o name models fs gs).map (·.path)).Nodup) :
    allFiles o' name models fs gs =
      (allFiles o name models fs gs).map (File.reshown o' models) := by
  rw [allFiles_eq, List.map_append, List.map_cons, List.nodup_middle, List.nodup_cons,
    List.mem_append, not_or] at hnodup
  obtain ⟨⟨hbefore, hafter⟩, -⟩ := hnodup
  rw [allFiles_eq_of_settled h, allFiles_eq, List.map_append, List.map_cons,
    map_reshown_of_notMem hbefore, map_reshown_of_notMem hafter]
  rfl

/-- The paths are the same. -/
theorem paths_allFiles_of_settled (h : o'.settled = o.settled) (name : Option String)
    (fs gs : List File) : (allFiles o' name models fs gs).map (·.path) =
      (allFiles o name models fs gs).map (·.path) := by
  rw [allFiles_eq_of_settled h, allFiles_eq, List.map_append, List.map_append, List.map_cons,
    List.map_cons]
  rfl

/-- So is the project with the options shown. -/
theorem assembled_of_settled (h : o'.settled = o.settled) {name : Option String} {a : Auth}
    {files : List File} : assembled o' models name moment a (files.map (File.reshown o' models)) =
      (assembled o models name moment a files).reshown o' := by
  have hendpoints : allEndpoints o' models = allEndpoints o models :=
    Generation.eq_of_settled (f := fun o => allEndpoints o models)
      (fun o => allEndpoints_settled o models) h
  rw [assembled, hendpoints]
  rfl

/-- A project is built for options as for what they settle to, with the options shown. -/
theorem build_of_settled (h : o'.settled = o.settled) (name : Option String) :
    build r o' models name moment = (build r o models name moment).map (reshown o') := by
  have hmodels : allModelFiles r o' models = allModelFiles r o models :=
    Generation.eq_of_settled (f := fun o => allModelFiles r o models)
      (fun o => allModelFiles_settled r o models) h
  have hauth : authOf o' models (models.flatMap (modelEndpoints o')) =
      authOf o models (models.flatMap (modelEndpoints o)) :=
    Generation.eq_of_settled (f := fun o => authOf o models (models.flatMap (modelEndpoints o)))
      (fun o => authOf_settled o models) h
  have hlogin (a : Auth) : placedLoginFiles r o' models a = placedLoginFiles r o models a :=
    Generation.eq_of_settled (f := fun o => placedLoginFiles r o models a)
      (fun o => placedLoginFiles_settled r o models a) h
  cases hfs : allModelFiles r o models with
  | error f =>
    rw [build, build, hmodels, hfs]
    rfl
  | ok fs =>
    cases ha : authOf o models (models.flatMap (modelEndpoints o)) with
    | bad issues =>
      simp only [build, hmodels, hfs, hauth, ha, Checked.toExcept, Except.mapError, bind,
        Except.bind, Except.map]
    | ok a =>
      cases hgs : placedLoginFiles r o models a with
      | error f =>
        simp only [build, hmodels, hfs, hauth, ha, hlogin, hgs, Checked.toExcept,
          Except.mapError, bind, Except.bind, Except.map]
      | ok gs =>
        rw [build_eq (hmodels.trans hfs) (hauth.trans ha) ((hlogin a).trans hgs),
          build_eq hfs ha hgs]
        simp only [paths_allFiles_of_settled h]
        split
        · rename_i hrepeated
          rw [allFiles_of_settled h (repeatedPaths_eq_nil_iff.mp hrepeated),
            assembled_of_settled h]
          rfl
        · rfl

/-- **The project for options with the same values differs in what it shows only.** -/
theorem buildNamed_of_settled (h : o'.settled = o.settled) (r : Registry) (models : List Model)
    (name : Value) (moment : Nat) :
    buildNamed r o' models name moment = (buildNamed r o models name moment).map (reshown o') := by
  unfold buildNamed
  split
  · exact build_of_settled h none
  split
  · exact build_of_settled h _
  · rfl
  · rw [build_of_settled h]
    cases build r o models none moment with
    | error f => rfl
    | ok p =>
      simp only [Except.map, bind, Except.bind, pure, Except.pure]
      split <;> rfl

end Scaffold.Project

namespace Scaffold.Artifact

open Options Schema Text

/-! ## What shows whether a choice was made -/

/-- The room that the choices take that are shown. -/
def shownLength (o : Generation) : Nat :=
  o.framework.shown.length + o.database.shown.length + o.authentication.shown.length

/-- Only the choices that are shown take different room. -/
theorem length_readme {o o' : Generation} (h : o'.settled = o.settled) (models : List Model) :
    (readme o' models).length + shownLength o = (readme o models).length + shownLength o' := by
  have hstructure : structureLines o' = structureLines o :=
    Generation.eq_of_settled (f := structureLines) (fun _ => rfl) h
  obtain ⟨-, hdatabase, -, -, htests, hdocumentation⟩ := Generation.settled_eq_iff.mp h
  simp only [readme, length_paragraph, List.map_append, List.sum_append, hstructure, featureLines,
    hdatabase, htests, hdocumentation, List.map_cons, List.sum_cons, String.length_append,
    shownLength]
  omega

/-- The choices that are shown as they were made. -/
def shownKeys : List Key := [.plain "framework", .plain "database", .plain "authentication"]

section Reopened

variable {out : Key → Bool} {o o' : Generation} (h : o.Reopens out o')

include h

/-- The choices that are shown take the same room only if none of them is open now. -/
theorem forall_shownKeys (hlength : shownLength o' = shownLength o) :
    ∀ k ∈ shownKeys, out k = false := by
  have hframework := h.framework.length_shown (by rintro ⟨⟩ <;> decide)
  have hdatabase := h.database.length_shown (by rintro ⟨⟩ <;> decide)
  have hauthentication := h.authentication.length_shown (by rintro ⟨⟩ <;> decide)
  have hclosed {b : Bool} (hb : b.toNat = 0) : b = false := by
    cases b with
    | false => rfl
    | true => cases hb
  rw [shownLength, shownLength] at hlength
  rw [shownKeys, List.forall_mem_cons, List.forall_mem_cons, List.forall_mem_singleton]
  exact ⟨hclosed (by omega), hclosed (by omega), hclosed (by omega)⟩

/-- If none of them is open now, only the language can be. -/
theorem eq_of_forall_shownKeys (hout : ∀ k ∈ shownKeys, out k = false) :
    o' = { o with language := o'.language } := by
  obtain ⟨framework, database, authentication, language, includeTests, includeDocumentation⟩ := o'
  rw [shownKeys, List.forall_mem_cons, List.forall_mem_cons, List.forall_mem_singleton] at hout
  obtain ⟨hframework, hdatabase, hauthentication⟩ := hout
  obtain rfl : framework = o.framework := (hframework ▸ h.framework).eq_self
  obtain rfl : database = o.database := (hdatabase ▸ h.database).eq_self
  obtain rfl : authentication = o.authentication := (hauthentication ▸ h.authentication).eq_self
  obtain rfl : includeTests = o.includeTests := h.includeTests
  obtain rfl : includeDocumentation = o.includeDocumentation := h.includeDocumentation
  rfl

/-- **A description tells the choices that are open**, except for the language. -/
theorem readme_eq_iff (models : List Model) :
    readme o' models = readme o models ↔ ∀ k ∈ shownKeys, out k = false := by
  constructor
  · intro heq
    have hlength := length_readme h.settled_eq models
    rw [heq] at hlength
    exact forall_shownKeys h (Nat.add_left_cancel hlength).symm
  · intro hout
    rw [eq_of_forall_shownKeys h hout]
    rfl

end Reopened

end Scaffold.Artifact
