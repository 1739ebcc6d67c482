import Scaffold.Package.Build
import Scaffold.Project.Build
import Scaffold.Proofs.Document.Json
import Scaffold.Proofs.Format.Documents
import Scaffold.Proofs.Project.Assembly

/-!
# Proofs/Package/Manifest — the manifest among the files of a project

Packing reads the manifest back from the files of the project, formatted or not.  What it finds are
the tables that the manifest was written from (`manifestSections_of_manifest`), so the metadata of a
package can always be made (`exists_metadataOf`).
-/

namespace Scaffold.Artifact

open Catalog Document Json Options

/-! ## Documents as files -/

theorem toList_documentText (v : Value) :
    (documentText v).toList = write (.indented [' ', ' '] true) 0 v ++ ['\n'] := by
  rw [documentText, Json.print, String.toList_append, String.toList_ofList]
  rfl

theorem read_documentText {v : Value} (h : Legible depthLimit v) :
    Json.read (documentText v).toList = .ok v := by
  rw [toList_documentText]
  exact read_indented (List.forall_mem_cons.2 ⟨rfl, List.forall_mem_singleton.2 rfl⟩) true h

theorem parse?_documentText {v : Value} (h : Legible depthLimit v) :
    parse? (documentText v) = some v := by
  rw [parse?, read_documentText h]
  rfl

/-- A document that is formatted is still the same document. -/
theorem parse?_formatText (o : Format.Options) {v : Value} (h : Legible depthLimit v) :
    parse? (Format.formatText o (some "json") (documentText v)) = some v := by
  rw [parse?, Format.formatText_eq_of_read o (read_documentText h),
    read_indented (Format.blank_indentUnit o) false h]
  rfl

/-! ## The manifest -/

theorem legible_tableDocument (levels : Nat) {t : Table} (h : (t.map (·.1)).Nodup) :
    Legible (levels + 1) (tableDocument t) := by
  refine .record ?_ (List.forall_mem_map.2 fun e _ => .text levels e.2)
  rwa [List.map_map]

theorem nodup_keys_dependencies (o : Generation) : ((dependencies o).map (·.1)).Nodup := by
  rw [dependencies]
  cases o.database.value <;> cases o.authentication.value <;> decide

theorem nodup_keys_devDependencies (o : Generation) : ((devDependencies o).map (·.1)).Nodup := by
  rw [devDependencies]
  cases o.database.value <;> cases o.authentication.value <;> cases o.includeTests <;> decide

theorem nodup_keys_scripts (o : Generation) : ((scripts o).map (·.1)).Nodup := by
  have hkeys : (scripts o).map (·.1) = ["start", "dev", "build", "test"] := rfl
  rw [hkeys]
  decide

/-- The settings of the tests are legible two levels further down. -/
theorem legible_testSettings (levels : Nat) (o : Generation) :
    Legible (levels + 4) (testSettings o) := by
  rw [testSettings]
  cases o.isTypescript
  · refine .record (by decide) ?_
    simp only [Bool.false_eq_true, if_false, List.cons_append, List.nil_append,
      List.forall_mem_cons, List.not_mem_nil, false_implies, implies_true, and_true]
    refine ⟨.text _ _, .text _ _, .record (by decide) (List.forall_mem_singleton.2 (.list ?_))⟩
    simp only [List.forall_mem_cons, List.not_mem_nil, false_implies, implies_true, and_true]
    exact ⟨.text _ _, .record (by decide) (List.forall_mem_singleton.2 (.bool _ _))⟩
  · refine .record (by decide) ?_
    simp only [if_true, List.append_nil, List.forall_mem_cons, List.not_mem_nil, false_implies,
      implies_true, and_true]
    exact ⟨.text _ _, .text _ _⟩

/-- **The manifest can be read back.** -/
theorem legible_manifest (o : Generation) (packageName : String) :
    Legible depthLimit (manifest o packageName) := by
  have htables : ∀ t ∈ [scripts o, dependencies o, devDependencies o],
      Legible 989 (tableDocument t) := by
    simp only [List.forall_mem_cons, List.not_mem_nil, false_implies, implies_true, and_true]
    exact ⟨legible_tableDocument 988 (nodup_keys_scripts o),
      legible_tableDocument 988 (nodup_keys_dependencies o),
      legible_tableDocument 988 (nodup_keys_devDependencies o)⟩
  simp only [List.forall_mem_cons, List.not_mem_nil, false_implies, implies_true, and_true]
    at htables
  obtain ⟨hscripts, hdependencies, hdevDependencies⟩ := htables
  have hmembers : ∀ e ∈ [("name", Value.text packageName), ("version", .text "1.0.0"),
      ("description", .text "Generated API project"), ("main", .text "dist/app.js"),
      ("scripts", tableDocument (scripts o)), ("dependencies", tableDocument (dependencies o)),
      ("devDependencies", tableDocument (devDependencies o))], Legible 989 e.2 := by
    simp only [List.forall_mem_cons, List.not_mem_nil, false_implies, implies_true, and_true]
    exact ⟨.text _ _, .text _ _, .text _ _, .text _ _, hscripts, hdependencies, hdevDependencies⟩
  rw [manifest]
  split
  · exact .record (by simp) (List.forall_mem_append.2
      ⟨hmembers, List.forall_mem_singleton.2 (legible_testSettings 985 o)⟩)
  · rw [List.append_nil]
    exact .record (by simp) hmembers

end Scaffold.Artifact

namespace Scaffold.Package

open Artifact Catalog Document Options Project Schema

/-! ## What is found in the manifest -/

theorem isJson_tableDocument (t : Table) : (tableDocument t).IsJson :=
  .record (List.forall_mem_map.2 fun e _ => .text e.2)

theorem section?_tableDocument (t : Table) : section? (tableDocument t) = some (tableDocument t) := by
  cases t <;> rfl

/-- A table of texts is read as it is. -/
theorem textMap_go_eq (t : Table) :
    textMap.go (t.map fun e => (.text e.1, .text e.2)) = .ok t := by
  induction t with
  | nil => rfl
  | cons e t ih =>
    rw [List.map_cons, textMap.go, ih]
    rfl

/-- A table is read from its document. -/
theorem textMap_tableDocument (t : Table) : textMap (tableDocument t) = .ok t := by
  have hentries : (tableDocument t).entries? = some (t.map fun e => (.text e.1, .text e.2)) := by
    rw [tableDocument, Value.entries?, List.map_map]
    exact congrArg some (List.map_congr_left fun e _ => rfl)
  rw [textMap, hentries]
  exact textMap_go_eq t

/-- A table that is a member of the manifest is found there. -/
theorem named_manifest {o : Generation} {packageName name : String} {t : Table}
    (h : ∃ members, manifest o packageName = .record members ∧
      members.lookup name = some (tableDocument t)) :
    ((manifest o packageName).member? name).getD .null = tableDocument t := by
  obtain ⟨members, hrecord, hlookup⟩ := h
  rw [hrecord, Value.member?, Members.get?, hlookup, Option.map_some, Option.getD_some,
    (isJson_tableDocument t).takenOut_eq]

/-- **The tables of a manifest are found in it.** -/
theorem read?_manifest {content : String} {o : Generation} {packageName : String}
    (h : Json.parse? content = some (manifest o packageName)) :
    Sections.read? content = some ⟨tableDocument (dependencies o),
      tableDocument (devDependencies o), tableDocument (scripts o)⟩ := by
  have hmapping : ¬(!(manifest o packageName).isMapping) = true := Bool.false_ne_true
  rw [Sections.read?, h]
  dsimp only
  rw [if_neg hmapping, named_manifest (t := dependencies o) ⟨_, rfl, rfl⟩,
    named_manifest (t := devDependencies o) ⟨_, rfl, rfl⟩,
    named_manifest (t := scripts o) ⟨_, rfl, rfl⟩]
  simp only [section?_tableDocument]
  rfl

/-- **The metadata of a package can be made** if the manifest is there, and hold its tables. -/
theorem exists_metadataOf (e : Export) {p : Project} {f : File} {packageName : String}
    (hfile : p.file? "package.json" = some f)
    (h : Json.parse? f.content = some (manifest p.options packageName)) :
    ∃ m, metadataOf e p = .ok m ∧ m.dependencies = dependencies p.options ∧
      m.devDependencies = devDependencies p.options ∧ m.scripts = scripts p.options := by
  have hsections : manifestSections p = ⟨tableDocument (dependencies p.options),
      tableDocument (devDependencies p.options), tableDocument (scripts p.options)⟩ := by
    rw [manifestSections, hfile]
    dsimp only
    rw [read?_manifest h, Option.getD_some]
  rw [metadataOf, hsections]
  dsimp only
  rw [textMap_tableDocument, textMap_tableDocument, textMap_tableDocument]
  exact ⟨_, rfl, rfl, rfl, rfl⟩

end Scaffold.Package
