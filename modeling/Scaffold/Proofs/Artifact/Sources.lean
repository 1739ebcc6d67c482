import Scaffold.Proofs.Artifact.Bodies

/-!
# Proofs/Artifact/Sources — the import lines of every source file are those of its imports

A source file is **tidy** if its imports can stand on their lines and its body lines are no imports;
then the import lines of its text are those of its imports (`Tidy.importsAmong`).  All source files
of a project are tidy if the models are unbroken.
-/

namespace Scaffold.Artifact

open Document Model Options Template Text

/-- The imports can stand on their lines, and no other line is an import. -/
structure Source.Tidy (s : Source) : Prop where
  imports : ∀ i ∈ s.imports, i.Fits
  body : Body s.body

theorem Source.Tidy.importsAmong {s : Source} (h : s.Tidy) : ImportsAmong s.text s.imports :=
  importsAmong_text h.imports h.body

/-- What is read off the lines of a source that are neither imports nor empty. -/
theorem filterMap_lines_text {β : Type} {s : Source} (hs : s.Tidy) {f : List Char → Option β}
    (himport : ∀ i : Import, f i.line.toList = none) (hempty : f [] = none) :
    (Text.lines s.text.toList).filterMap f = s.body.filterMap fun l => f l.toList := by
  have himports : (s.imports.map Import.line).filterMap (fun l => f l.toList) = [] := by
    rw [List.filterMap_map, List.filterMap_eq_nil_iff]
    exact fun i _ => himport i
  have hlines : (s.lines.map String.toList).filterMap f = s.lines.filterMap fun l => f l.toList :=
    List.filterMap_map
  have hblank : (fun l : String => f l.toList) "" = none := hempty
  rw [Source.lines_text hs.imports hs.body, List.filterMap_append, hlines, Source.lines,
    List.filterMap_append, himports, List.nil_append,
    List.filterMap_cons_none (f := fun l : String => f l.toList) hblank,
    List.filterMap_cons_none hempty, List.filterMap_nil, List.append_nil]

theorem head?_import (i : Import) : i.line.toList.head? = some 'i' := by
  cases i <;> simp [Import.line]

/-- The imports that do not depend on a model. -/
theorem fits_common : ∀ i ∈ [handlerImport, routerImport, queryImport, documentImport,
    identifierImport, userImport] ++ bodyImports, i.Fits := by
  decide

/-! ## The same files in every project -/

theorem tidy_corsMiddleware : corsMiddleware.Tidy where
  imports := by decide
  body := body_corsMiddleware

theorem tidy_loggingMiddleware : loggingMiddleware.Tidy where
  imports := by decide
  body := body_loggingMiddleware

theorem tidy_validationMiddleware : validationMiddleware.Tidy where
  imports := by decide
  body := body_validationMiddleware

theorem tidy_authController (o : Generation) : (authController o).Tidy where
  imports := (by decide : ∀ i ∈ (authController .default).imports, i.Fits)
  body := body_authController o

theorem tidy_authRoutes : authRoutes.Tidy where
  imports := by decide
  body := body_authRoutes

theorem tidy_connection (d : Database) : (connection d).Tidy where
  imports := by cases d <;> decide
  body := body_connection d

theorem tidy_userRepository (d : Database) : (userRepository d).Tidy where
  imports := by cases d <;> decide
  body := body_userRepository d

theorem tidy_authChecks {a : Project.Auth} (h : ∀ r ∈ a.roleNames, OneLine r) :
    (authChecks a).Tidy where
  imports := (by decide : ∀ i ∈ bodyImports, i.Fits)
  body := body_authChecks h

theorem tidy_sessionMiddleware {lookup missing : String} (hlookup : OneLine lookup)
    (hmissing : OneLine missing) : (sessionMiddleware lookup missing).Tidy where
  imports := (by decide : ∀ i ∈ [handlerImport], i.Fits)
  body := body_sessionMiddleware hlookup hmissing

/-! ## The files of a model -/

section Model

variable {m : Model}

theorem quotable_name (h : m.Routable) : Quotable m.name :=
  ⟨h.name.oneLine, h.name.notMem (by decide)⟩

theorem fits_recordImport (h : m.Unbroken) : (recordImport m).Fits := by
  have hname := quotable_name h.toRoutable
  refine ⟨?_, Quotable.append (by decide) hname⟩
  simp only [List.forall_mem_cons, List.not_mem_nil, false_implies, implies_true, and_true]
  exact ⟨hname, (Quotable.append (by decide) hname).append (by decide),
    (Quotable.append (by decide) hname).append (by decide)⟩

theorem tidy_service (h : m.Unbroken) : (service m).Tidy where
  imports := by
    have hname := quotable_name h.toRoutable
    refine List.forall_mem_cons.mpr ⟨⟨?_, ?_⟩, List.forall_mem_singleton.mpr (fits_recordImport h)⟩
    · exact List.forall_mem_singleton.mpr (hname.append (by decide))
    · exact (Quotable.append (by decide) hname).append (by decide)
  body := body_service h

/-- The repository of a model, in each database. -/
theorem tidy_repository (h : m.Unbroken) (d : Database) : (repository d m).Tidy := by
  have hrecord := fits_recordImport h
  have hquery : queryImport.Fits := fits_common _ (by simp)
  have hdocument : documentImport.Fits := fits_common _ (by simp)
  have hidentifier : identifierImport.Fits := fits_common _ (by simp)
  cases d with
  | postgresql =>
    refine ⟨?_, body_relational h .postgresql⟩
    exact List.forall_mem_cons.mpr ⟨hquery, List.forall_mem_singleton.mpr hrecord⟩
  | mysql =>
    refine ⟨?_, body_relational h .mysql⟩
    exact List.forall_mem_cons.mpr ⟨hidentifier, List.forall_mem_cons.mpr
      ⟨hquery, List.forall_mem_singleton.mpr hrecord⟩⟩
  | mongodb =>
    refine ⟨?_, body_collection h⟩
    exact List.forall_mem_cons.mpr ⟨hidentifier, List.forall_mem_cons.mpr
      ⟨hdocument, List.forall_mem_singleton.mpr hrecord⟩⟩

theorem fits_guardImports (o : Generation) (m : Model) : ∀ i ∈ guardImports o m, i.Fits := by
  unfold guardImports
  split <;> decide

/-- The router of a model imports its controller and its checks, and what guards it. -/
theorem tidy_routes (h : m.Routable) (o : Generation) : (routes o m).Tidy where
  imports := by
    have hname := quotable_name h
    have hrouter : routerImport.Fits := fits_common _ (by simp)
    refine List.forall_mem_append.mpr ⟨?_, fits_guardImports o m⟩
    refine List.forall_mem_cons.mpr ⟨hrouter, List.forall_mem_cons.mpr
      ⟨⟨?_, ?_⟩, List.forall_mem_singleton.mpr ⟨?_, ?_⟩⟩⟩
    · exact List.forall_mem_singleton.mpr (hname.append (by decide))
    · exact (Quotable.append (by decide) hname).append (by decide)
    · exact List.forall_mem_singleton.mpr (Quotable.append (by decide) hname)
    · exact (Quotable.append (by decide) hname).append (by decide)
  body := body_routes h o

theorem tidy_requestChecks (h : m.Unbroken) : (requestChecks m).Tidy where
  imports := (by decide : ∀ i ∈ bodyImports, i.Fits)
  body := body_requestChecks h

theorem tidy_suite (h : m.Unbroken) (o : Generation) : (suite o m).Tidy where
  imports := (by decide : ∀ i ∈ [Import.whole "request" "supertest", .whole "app" "../app"],
    i.Fits)
  body := body_suite h o

end Model

/-! ## The entry -/

/-- A router is imported under its segment. -/
theorem fits_importRouter {o : Generation} {models : List Model} (h : ∀ m ∈ models, m.Routable) :
    ∀ i ∈ (mounts o models).map Mount.importRouter, i.Fits := by
  refine List.forall_mem_map.mpr fun e he => ?_
  obtain he | he := List.mem_append.mp he
  · split at he
    · rw [List.mem_singleton.mp he]
      exact ⟨by decide, by decide⟩
    · exact absurd he List.not_mem_nil
  · obtain ⟨m, hm, rfl⟩ := List.mem_map.mp he
    have hplain := isPlain_lower (h m hm).name
    have hsegment : Quotable m.routeName := ⟨hplain.oneLine, hplain.notMem (by decide)⟩
    exact ⟨hsegment.append (by decide), Quotable.append (by decide) hsegment⟩

/-- The entry imports the routers that it mounts. -/
theorem tidy_application (o : Generation) {models : List Model} (h : ∀ m ∈ models, m.Routable) :
    (application o models).Tidy where
  imports := by
    have hfixed : ∀ i ∈ [Import.effects "dotenv/config", .whole "express" "express",
        .whole "session" "express-session", .whole "passport" "passport",
        .parts ["connect"] "./database/connection", .parts ["corsMiddleware"] "./middleware/cors",
        .parts ["loggingMiddleware"] "./middleware/logging",
        .parts ["errorHandler"] "./middleware/validation"], i.Fits := by
      decide
    refine List.forall_mem_append.mpr ⟨fun i hi => hfixed i ?_, fits_importRouter h⟩
    simp only [List.mem_append, List.mem_ite_nil_right, List.mem_ite_nil_left, List.mem_cons,
      List.not_mem_nil, or_false] at hi ⊢
    grind
  body := body_application o h

end Scaffold.Artifact
