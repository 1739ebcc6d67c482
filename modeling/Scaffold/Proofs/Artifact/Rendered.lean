import Scaffold.Proofs.Artifact.Contexts
import Scaffold.Proofs.Artifact.Sources

/-!
# Proofs/Artifact/Rendered — the imports of the files that templates render

The notes of a template, with the texts of the context in their holes, are the import lines of what
is rendered from it (`importsAmong_of_notes`).  For each template of the library that makes a source
of the project these are stated as imports.
-/

namespace Scaffold.Artifact

open Document Model Options Project Template Text

theorem shown_bits (context : List (String × Item)) (s : String) :
    (Library.bits s).flatMap (Bit.shown context) = s.toList := by
  rw [Library.bits, List.flatMap_map]
  exact List.flatMap_singleton' s.toList

/-- The import lines of a rendered template are those that were noted for it and whose conditions
hold. -/
theorem importsAmong_of_notes {name source : String} {scope : Scope} {notes : List Note}
    (h : (name, source) ∈ Library.templates) (hreads : Reads source scope notes)
    {context : List (String × Item)} (hfits : Fits OneLine scope context) {t : String}
    (ht : fromTemplate Library.registry name context = .ok t) {is : List Import}
    (hnotes : ∀ n ∈ notes, ∀ l, n.Shows context l → ∃ i ∈ is, l = i.line.toList) :
    ImportsAmong t is := by
  intro l hl himport
  obtain ⟨n, hn, hshows⟩ := Library.exists_note_of_render h hreads hfits
    (Except.mapError_eq_ok_iff.mp ht) hl himport
  exact hnotes n hn l hshows

/-- A note without holes shows the line that it was made of. -/
theorem eq_of_shows_bits {context : List (String × Item)} {flags : List String} {s : String}
    {l : List Char} (h : Note.Shows context ⟨flags, Library.bits s⟩ l) : l = s.toList :=
  h.2.trans (shown_bits context s)

theorem line_handlerImport :
    handlerImport.line = r"import { Request, Response, NextFunction } from 'express';" := by
  decide

theorem line_tokenImport : (Import.whole "jwt" "jsonwebtoken").line =
    "import jwt from 'jsonwebtoken';" := by
  decide

/-! ## The files of a model -/

section Model

variable {m : Model}

theorem oneLine_typescript (t : FieldType) : OneLine (Catalog.facts t).typescript := by
  cases t <;> decide

/-- The interface of a record imports nothing. -/
theorem importsAmong_recordInterface (h : m.Unbroken) {t : String}
    (ht : recordInterface Library.registry m = .ok t) : ImportsAmong t [] := by
  have hfits : Fits OneLine Library.modelInterfaceScope (recordContext m) := by
    refine fits_recordContext h.name.oneLine fun f hf => ?_
    refine ⟨h.fieldName f (List.mem_filter.mp hf).1, oneLine_typescript f.type, ?_⟩
    split <;> decide
  exact importsAmong_of_notes (by simp [Library.templates]) Library.reads_modelInterface hfits ht
    fun n hn => absurd hn List.not_mem_nil

/-- The imports of the controller of a model. -/
def controllerImports (m : Model) : List Import :=
  [handlerImport, .parts [m.name ++ "Service"] ("../services/" ++ m.name ++ "Service"),
    .parts ["Create" ++ m.name ++ "Request", "Update" ++ m.name ++ "Request"]
      ("../models/" ++ m.name)]

/-- The imports of a controller name the model. -/
theorem fits_controllerImports (h : m.Unbroken) : ∀ i ∈ controllerImports m, i.Fits := by
  have hname := quotable_name h.toRoutable
  have hhandler : handlerImport.Fits := fits_common _ (by simp)
  refine List.forall_mem_cons.mpr ⟨hhandler, List.forall_mem_cons.mpr
    ⟨⟨?_, ?_⟩, List.forall_mem_singleton.mpr ⟨?_, ?_⟩⟩⟩
  · exact List.forall_mem_singleton.mpr (hname.append (by decide))
  · exact (Quotable.append (by decide) hname).append (by decide)
  · refine List.forall_mem_cons.mpr ⟨?_, List.forall_mem_singleton.mpr ?_⟩
    · exact (Quotable.append (by decide) hname).append (by decide)
    · exact (Quotable.append (by decide) hname).append (by decide)
  · exact Quotable.append (by decide) hname

/-- The controller of a model. -/
theorem importsAmong_controller (h : m.Unbroken) {t : String}
    (ht : controller Library.registry m = .ok t) : ImportsAmong t (controllerImports m) := by
  have hservice : OneLine (Naming.camel m.name ++ "Service") :=
    (Naming.isPlain_camel m.name).oneLine.append (by decide)
  refine importsAmong_of_notes (by simp [Library.templates]) Library.reads_controller
    (fits_controllerContext h.name.oneLine hservice) ht fun n hn l hl => ?_
  have hname : textAt [("modelName", textItem m.name),
      ("serviceVar", textItem (Naming.camel m.name ++ "Service"))] "modelName" = m.name.toList := rfl
  simp only [Library.controllerNotes, List.mem_cons, List.not_mem_nil, or_false] at hn
  obtain rfl | rfl | rfl := hn
  · refine ⟨handlerImport, List.mem_cons_self, ?_⟩
    rw [eq_of_shows_bits hl, line_handlerImport]
  · refine ⟨_, List.mem_cons_of_mem _ List.mem_cons_self, ?_⟩
    rw [hl.2]
    simp only [List.flatMap_append, List.flatMap_cons, List.flatMap_nil, shown_bits, Bit.shown,
      hname, Import.line, String.toList_append, toList_intercalate, List.map_cons, List.map_nil,
      joinWith]
    repeat rw [String.toList_ofList]
    simp only [List.append_assoc, List.cons_append, List.nil_append]
  · refine ⟨_, List.mem_cons_of_mem _ (List.mem_cons_of_mem _ List.mem_cons_self), ?_⟩
    rw [hl.2]
    simp only [List.flatMap_append, List.flatMap_cons, List.flatMap_nil, shown_bits, Bit.shown,
      hname, Import.line, String.toList_append, toList_intercalate, List.map_cons, List.map_nil,
      joinWith]
    repeat rw [String.toList_ofList]
    simp only [List.append_assoc, List.cons_append, List.nil_append]

end Model

/-! ## The files of the login -/

section Login

variable {a : Auth}

/-- The model of the accounts imports nothing. -/
theorem importsAmong_userModel (h : ∀ r ∈ a.roleNames, OneLine r) (o : Generation) {t : String}
    (ht : userModel Library.registry o a = .ok t) : ImportsAmong t [] := by
  have hunion : OneLine (" | ".intercalate (a.roleNames.map quoted)) :=
    oneLine_intercalate (by decide) (List.forall_mem_map.mpr fun r hr => oneLine_quoted (h r hr))
  have hshown : OneLine (if " | ".intercalate (a.roleNames.map quoted) = "" then "string"
      else " | ".intercalate (a.roleNames.map quoted)) := by
    split
    · decide
    · exact hunion
  exact importsAmong_of_notes (by simp [Library.templates]) Library.reads_userModel
    (fits_userModelContext hshown o.tokenAuth) ht fun n hn => absurd hn List.not_mem_nil

/-- The role of a new account is one of the roles, or the fixed one. -/
theorem oneLine_defaultRole (h : ∀ r ∈ a.roleNames, OneLine r) : OneLine a.defaultRole := by
  unfold Auth.defaultRole
  rw [List.getLastD_eq_getLast?]
  cases hlast : a.roleNames.getLast? with
  | none =>
    have huser : OneLine "user" := by decide
    exact huser
  | some r => exact h r (List.mem_of_getLast? hlast)

/-- The imports of the service that signs users in. -/
def authServiceImports (o : Generation) : List Import :=
  (if o.tokenAuth then [Import.whole "jwt" "jsonwebtoken"] else []) ++
    [Import.whole "bcrypt" "bcryptjs", .parts ["UserRepository"] "../repositories/UserRepository",
      .parts ["User", "CreateUserRequest", "LoginRequest", "AuthResult"] "../models/User"]

/-- The service of the login. -/
theorem importsAmong_authService (h : ∀ r ∈ a.roleNames, OneLine r) (o : Generation) {t : String}
    (ht : authService Library.registry o a = .ok t) : ImportsAmong t (authServiceImports o) := by
  refine importsAmong_of_notes (by simp [Library.templates]) Library.reads_authService
    (fits_authServiceContext (oneLine_defaultRole h) o.tokenAuth) ht fun n hn l hl => ?_
  simp only [Library.authServiceNotes, List.mem_cons, List.not_mem_nil, or_false] at hn
  rw [authServiceImports]
  obtain rfl | rfl | rfl | rfl := hn
  · have htoken : o.tokenAuth = true := by
      have hflag := hl.1 "tokenAuth" List.mem_cons_self
      simpa [List.lookup_cons, flagItem] using hflag
    rw [if_pos htoken, eq_of_shows_bits hl, ← line_tokenImport]
    exact ⟨_, List.mem_cons_self, rfl⟩
  · refine ⟨.whole "bcrypt" "bcryptjs", by simp, ?_⟩
    rw [eq_of_shows_bits hl]
    exact congrArg String.toList (by decide)
  · refine ⟨.parts ["UserRepository"] "../repositories/UserRepository", by simp, ?_⟩
    rw [eq_of_shows_bits hl]
    exact congrArg String.toList (by decide)
  · refine ⟨.parts ["User", "CreateUserRequest", "LoginRequest", "AuthResult"] "../models/User",
      by simp, ?_⟩
    rw [eq_of_shows_bits hl]
    exact congrArg String.toList (by decide)

/-- The imports of the middleware that requires a login. -/
def authMiddlewareImports (a : Auth) : List Import :=
  handlerImport :: if a.strategy = .jwt then [.whole "jwt" "jsonwebtoken"] else []

/-- The middleware of the login. -/
theorem importsAmong_authMiddleware {t : String}
    (ht : authMiddleware Library.registry a = .ok t) :
    ImportsAmong t (authMiddlewareImports a) := by
  unfold authMiddleware at ht
  split at ht
  · rename_i hstrategy
    have hfits : Fits OneLine [] [] := fits_nil
    refine importsAmong_of_notes (by simp [Library.templates]) Library.reads_tokenMiddleware hfits
      ht fun n hn l hl => ?_
    simp only [List.mem_cons, List.not_mem_nil, or_false] at hn
    rw [authMiddlewareImports, if_pos hstrategy]
    obtain rfl | rfl := hn
    · refine ⟨handlerImport, List.mem_cons_self, ?_⟩
      rw [eq_of_shows_bits hl, line_handlerImport]
    · refine ⟨_, List.mem_cons_of_mem _ List.mem_cons_self, ?_⟩
      rw [eq_of_shows_bits hl, line_tokenImport]
  · rename_i hstrategy
    cases ht
    rw [authMiddlewareImports, if_neg (by rw [hstrategy]; decide)]
    exact (tidy_sessionMiddleware (by decide) (by decide)).importsAmong
  · rename_i hstrategy _
    cases ht
    rw [authMiddlewareImports, if_neg hstrategy]
    exact (tidy_sessionMiddleware (oneLine_ofList (by decide)) (by decide)).importsAmong

/-- The middleware of the roles. -/
theorem importsAmong_authorizationMiddleware (h : ∀ r ∈ a.roleNames, OneLine r) {t : String}
    (ht : authorizationMiddleware Library.registry a = .ok t) :
    ImportsAmong t [handlerImport, .parts ["AuthenticatedRequest"] "./auth"] := by
  have hroles : ∀ r ∈ a.roles, OneLine r.name ∧ OneLine (upperFirst r.name) := by
    intro r hr
    have hname := h r.name (List.mem_map_of_mem hr)
    exact ⟨hname, oneLine_upperFirst hname⟩
  refine importsAmong_of_notes (by simp [Library.templates])
    Library.reads_authorizationMiddleware
    (fits_authorizationContext hroles (Json.oneLine_print _)) ht fun n hn l hl => ?_
  simp only [Library.authorizationNotes, List.mem_cons, List.not_mem_nil, or_false] at hn
  obtain rfl | rfl := hn
  · refine ⟨handlerImport, List.mem_cons_self, ?_⟩
    rw [eq_of_shows_bits hl, line_handlerImport]
  · refine ⟨_, List.mem_cons_of_mem _ List.mem_cons_self, ?_⟩
    rw [eq_of_shows_bits hl]
    exact congrArg String.toList (by decide)

end Login

end Scaffold.Artifact
