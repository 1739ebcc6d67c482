import Scaffold.Proofs.Package.Contents
import Scaffold.Proofs.Project.Settled

/-!
# Proofs/Package/Omission — packages of which options were left out

Packing looks at the values of options, but for the features, the first of which show the choices as
they were made.  So a package of a project for other options with the same values differs in its
description and these features (`build_reshown`).

`defaults_omitted` follows an input whose defaults are left out through the whole of generation and
packing: nothing is different unless a choice is left out that is shown (`shows_open_framework`).
-/

namespace Scaffold.Package

open Artifact Document Options Project Schema Template

/-! ## Features and files -/

/-- The features that name the choices. -/
def shownFeatures (o : Generation) : List String :=
  [o.framework.shown ++ " framework", o.database.shown ++ " database",
    o.authentication.shown ++ " authentication"]

/-- A package of a project for other options. -/
def reshown (o : Generation) (models : List Model) (k : Package) : Package :=
  { k with
    files := k.files.map (File.reshown o models)
    metadata := { k.metadata with features := shownFeatures o ++ k.metadata.features.drop 3 } }

variable {e e' : Export} {p : Project} {o' : Generation}

/-- The first three features show the options, the others show what was settled. -/
theorem features_reshown (he : e'.settled = e.settled) (ho : o'.settled = p.options.settled) :
    features e' (p.reshown o') = shownFeatures o' ++ (features e p).drop 3 := by
  have hexport : features e' (p.reshown o') = features e (p.reshown o') :=
    Export.eq_of_settled (f := fun e => features e (p.reshown o')) (fun _ => rfl) he
  obtain ⟨-, -, -, -, htests, hdocumentation⟩ := Generation.settled_eq_iff.mp ho
  rw [hexport]
  simp only [features, Project.reshown, htests, hdocumentation]
  rfl

/-- Only the readme shows the options. -/
theorem file?_reshown {path : String} (h : path ≠ "README.md") (o : Generation) (p : Project) :
    (p.reshown o).file? path = p.file? path := by
  rw [file?, Project.reshown, List.find?_map]
  have hsame : ((fun f : File => f.path == path) ∘ File.reshown o p.models) =
      fun f => f.path == path := by
    funext f
    simp
  rw [hsame, ← file?]
  cases hfind : p.file? path with
  | none => rfl
  | some f =>
    have hpath : f.path = path := by simpa using List.find?_some hfind
    rw [Option.map_some, File.reshown_of_ne (hpath ▸ h)]

/-- Files that stay at their paths repeat where they did. -/
theorem firstRepeated?_map {g : File → File} (hg : ∀ f, (g f).path = f.path) (fs : List File) :
    File.firstRepeated? (fs.map g) = File.firstRepeated? fs := by
  rw [File.firstRepeated?, File.firstRepeated?]
  generalize ([] : List String) = seen
  induction fs generalizing seen with
  | nil => rfl
  | cons f fs ih => rw [List.map_cons, File.firstRepeated?.go, File.firstRepeated?.go, hg, ih]

theorem distinctFiles_map {g : File → File} (hg : ∀ f, (g f).path = f.path) (fs : List File) :
    distinctFiles (fs.map g) = (distinctFiles fs).map (List.map g) := by
  rw [distinctFiles, distinctFiles, firstRepeated?_map hg]
  cases File.firstRepeated? fs <;> rfl

/-- The metadata shows the options among the features only. -/
theorem metadataOf_reshown (he : e'.settled = e.settled) (ho : o'.settled = p.options.settled) :
    metadataOf e' (p.reshown o') = (metadataOf e p).map fun m =>
      { m with features := shownFeatures o' ++ m.features.drop 3 } := by
  have hmanifest : manifestSections (p.reshown o') = manifestSections p := by
    rw [manifestSections, file?_reshown (by decide), ← manifestSections]
  obtain ⟨hframework, hdatabase, hauthentication, hlanguage, -, -⟩ :=
    Generation.settled_eq_iff.mp ho
  obtain ⟨-, -, -, htemplate⟩ := Export.settled_eq_iff.mp he
  simp only [metadataOf, hmanifest, features_reshown he ho, options_reshown, name_reshown,
    models_reshown, endpoints_reshown, hframework, hdatabase, hauthentication, hlanguage, htemplate,
    Checked.map_seq₃]

theorem basicFiles_settled (o : Generation) : basicFiles o.settled = basicFiles o := rfl

/-- The tiers have the same files with another readme. -/
theorem tierFiles_reshown (ho : o'.settled = p.options.settled) (t : Tier) :
    tierFiles (p.reshown o') t = (tierFiles p t).map (File.reshown o' p.models) := by
  have hnone : "README.md" ∉ (tierFiles p t).map (·.path) := fun hmem =>
    absurd ((paths_tierFiles p t).subset hmem) (by decide)
  rw [map_reshown_of_notMem hnone]
  have hbasic : basicFiles (p.reshown o').options = basicFiles p.options :=
    Generation.eq_of_settled (f := basicFiles) basicFiles_settled ho
  have henterprise : enterpriseFiles (p.reshown o') = enterpriseFiles p := by
    have htoken : (p.reshown o').options.tokenAuth = p.options.tokenAuth :=
      Generation.eq_of_settled (f := Generation.tokenAuth) (fun _ => rfl) ho
    simp only [enterpriseFiles, deployment, clusterEnvironment, htoken, name_reshown]
  cases t with
  | basic => exact hbasic
  | advanced => rw [tierFiles, tierFiles, hbasic]
  | enterprise => rw [tierFiles, tierFiles, hbasic, henterprise]

/-- So has the export. -/
theorem exportedFiles_reshown (he : e'.settled = e.settled) (ho : o'.settled = p.options.settled) :
    exportedFiles e' (p.reshown o') = (exportedFiles e p).map (File.reshown o' p.models) := by
  obtain ⟨-, htests, hdocumentation, htemplate⟩ := Export.settled_eq_iff.mp he
  have hexported : isExported e' ∘ File.reshown o' p.models = isExported e := by
    funext f
    rw [Function.comp_apply, isExported, isExported, File.kind_reshown, htests, hdocumentation]
  rw [exportedFiles, exportedFiles, List.map_append, htemplate, tierFiles_reshown ho,
    Project.reshown, List.filter_map, hexported]

/-- The instructions do not show the options. -/
theorem instructions_reshown (he : e'.settled = e.settled) (ho : o'.settled = p.options.settled) :
    instructions e' (p.reshown o') = instructions e p := by
  obtain ⟨-, htests, -, -⟩ := Export.settled_eq_iff.mp he
  obtain ⟨-, hdatabase, hauthentication, -, hsuites, -⟩ := Generation.settled_eq_iff.mp ho
  have henabled : o'.authEnabled = p.options.authEnabled := by
    rw [Generation.authEnabled, hauthentication, ← Generation.authEnabled]
  simp only [instructions, setupLines, paths_reshown, options_reshown, name_reshown, models_reshown, htests,
    hdatabase, hauthentication, hsuites, henabled]

/-- A project that shows other options is packed like the first, with these options shown. -/
theorem build_reshown (he : e'.settled = e.settled) (ho : o'.settled = p.options.settled) :
    build e' (p.reshown o') = (build e p).map (reshown o' p.models) := by
  rw [build, build, metadataOf_reshown he ho, exportedFiles_reshown he ho,
    instructions_reshown he ho, distinctFiles_map (File.path_reshown o' p.models)]
  cases metadataOf e p with
  | bad issues => rfl
  | ok m =>
    cases distinctFiles (exportedFiles e p) with
    | bad issues => rfl
    | ok fs => simp only [Checked.map, Checked.andThen, Checked.under, reshown, Project.reshown]

/-! ## Projects that are made -/

section Made

variable {r : Registry} {o : Generation} {models : List Model} {name : Value} {moment : Nat}
  (h : buildNamed r o models name moment = .ok p)

include h

theorem reshown_self : p.reshown o = p := by
  have hbuild := buildNamed_of_settled rfl r models name moment (o := o)
  rw [h] at hbuild
  exact (Except.ok.inj hbuild).symm

/-- A project that was built has the models and options it was built for, and their readme. -/
theorem parts_of_buildNamed :
    p.models = models ∧ p.options = o ∧ readmeFile o models ∈ p.files := by
  obtain ⟨n, -, hbuild⟩ := exists_build_of_buildNamed h
  obtain ⟨a, fs, gs, -, -, -, -, rfl⟩ := exists_of_build_eq_ok hbuild
  refine ⟨rfl, rfl, ?_⟩
  change readmeFile o models ∈ allFiles o n models fs gs
  rw [allFiles_eq]
  exact List.mem_append_right _ List.mem_cons_self

/-- The files are the same exactly if the readme is. -/
theorem files_reshown_iff :
    (p.reshown o').files = p.files ↔ readme o' models = readme o models := by
  obtain ⟨hmodels, -, hmem⟩ := parts_of_buildNamed h
  have hself : p.files.map (File.reshown o models) = p.files := by
    have hfiles := congrArg Project.files (reshown_self h)
    rwa [Project.reshown, hmodels] at hfiles
  rw [Project.reshown, hmodels]
  constructor
  · intro heq
    have hsame := List.map_inj_left.mp (heq.trans hself.symm) _ hmem
    rw [reshown_readmeFile, reshown_readmeFile, readmeFile, readmeFile, File.mk.injEq] at hsame
    exact hsame.2.1
  · intro heq
    rw [File.reshown_congr heq, hself]

/-- A package shows the options it was packed for. -/
theorem package_reshown_self {k : Package} (hk : build e p = .ok k) : k.reshown o models = k := by
  obtain ⟨hmodels, hoptions, -⟩ := parts_of_buildNamed h
  have hsettled : o.settled = p.options.settled := by rw [hoptions]
  have hbuild := build_reshown (e := e) rfl hsettled
  rw [reshown_self h, hk, hmodels] at hbuild
  exact (Checked.ok.inj hbuild).symm

/-- Leaving options out shows in a package exactly if one of them is shown. -/
theorem package_reshown_iff {out : Key → Bool} (hreopens : o.Reopens out o') {k : Package}
    (hk : build e p = .ok k) :
    k.reshown o' models = k ↔ ∀ key ∈ shownKeys, out key = false := by
  have hself := package_reshown_self h hk
  constructor
  · intro heq
    have hfeatures := congrArg (fun k => k.metadata.features) (heq.trans hself.symm)
    have hshown : shownFeatures o' = shownFeatures o := List.append_cancel_right hfeatures
    simp only [shownFeatures, List.cons.injEq, String.append_left_inj, and_true] at hshown
    obtain ⟨hframework, hdatabase, hauthentication⟩ := hshown
    refine forall_shownKeys hreopens ?_
    rw [shownLength, hframework, hdatabase, hauthentication, ← shownLength]
  · intro hout
    have hreadme := (readme_eq_iff hreopens models).mpr hout
    have hshown : shownFeatures o' = shownFeatures o := by
      rw [eq_of_forall_shownKeys hreopens hout]
      rfl
    rw [reshown, File.reshown_congr hreadme, hshown, ← reshown, hself]

end Made

/-- **What leaving out options changes.**  Options that are left out where they have their defaults
are read with the same values.  A project is made as before, or refused as before, and packed as
before; but where the framework, the database or the authentication is left out, the description of
the project and its features name the kind of the choice now. -/
theorem defaults_omitted {v w : Value} {ns ls : List String} {o : Generation}
    (ho : generationSection.coerce v = .ok o) (hv : generationSection.GivesDefaults v ns)
    (he : exportSection.coerce w = .ok e) (hw : exportSection.GivesDefaults w ls) :
    ∃ o' e', generationSection.coerce (v.without ns) = .ok o' ∧
      exportSection.coerce (w.without ls) = .ok e' ∧
      o'.document = o.document ∧ e'.document = e.document ∧
      ∀ r models name moment,
        buildNamed r o' models name moment =
          (buildNamed r o models name moment).map (Project.reshown o') ∧
        ∀ p, buildNamed r o models name moment = .ok p →
          ∃ k, build e p = .ok k ∧ build e' (p.reshown o') = .ok (k.reshown o' models) ∧
            ((p.reshown o').files = p.files ↔ ∀ key ∈ shownKeys, leftOut v key ns = false) ∧
            (k.reshown o' models = k ↔ ∀ key ∈ shownKeys, leftOut v key ns = false) := by
  obtain ⟨o', ho', hreopens⟩ := exists_coerce_generation ho hv
  obtain ⟨e', he', hexport⟩ := exists_coerce_export he hw
  refine ⟨o', e', ho', he', Generation.eq_of_settled (fun _ => rfl) hreopens.settled_eq,
    Export.eq_of_settled (fun _ => rfl) hexport.settled_eq, fun r models name moment => ?_⟩
  refine ⟨buildNamed_of_settled hreopens.settled_eq r models name moment, fun p hp => ?_⟩
  obtain ⟨k, hk, -⟩ := exists_packs (isPackable_of_isMade ⟨p, hp, .inl rfl⟩) e
  obtain ⟨hmodels, hoptions, -⟩ := parts_of_buildNamed hp
  have hsettled : o'.settled = p.options.settled := by rw [hoptions, hreopens.settled_eq]
  refine ⟨k, hk, ?_, (files_reshown_iff hp).trans (readme_eq_iff hreopens models),
    package_reshown_iff hp hreopens hk⟩
  rw [build_reshown hexport.settled_eq hsettled, hk, hmodels]
  rfl

/-- The language and the tests may be left out where they are as by default. -/
theorem defaults_omitted_language :
    ∃ o e o' e',
      generationSection.coerce (.record [("database", .text "mysql"),
        ("language", .text "typescript")]) = .ok o ∧
      exportSection.coerce (.record [("template", .text "advanced"),
        ("includeTests", .bool true)]) = .ok e ∧
      generationSection.coerce (.record [("database", .text "mysql")]) = .ok o' ∧
      exportSection.coerce (.record [("template", .text "advanced")]) = .ok e' ∧
      ∀ r models name moment p, buildNamed r o models name moment = .ok p →
        ∃ p' k, buildNamed r o' models name moment = .ok p' ∧ p'.files = p.files ∧
          build e p = .ok k ∧ build e' p' = .ok k := by
  have hlanguage : generationSection.GivesDefaults (.record [("database", .text "mysql"),
      ("language", .text "typescript")]) ["language"] :=
    Section.givesDefaults_singleton (k := .plain "language") (by decide) rfl rfl
  have htests : exportSection.GivesDefaults (.record [("template", .text "advanced"),
      ("includeTests", .bool true)]) ["includeTests"] :=
    Section.givesDefaults_singleton (k := includeTestsKey) (by decide) rfl rfl
  obtain ⟨o', e', ho', he', -, -, hbuild⟩ := defaults_omitted rfl hlanguage rfl htests
  refine ⟨_, _, o', e', rfl, rfl, ho', he', fun r models name moment p hp => ?_⟩
  obtain ⟨hproject, hpackage⟩ := hbuild r models name moment
  obtain ⟨k, hk, hk', hfiles, hsame⟩ := hpackage p hp
  have hkept : ∀ key ∈ shownKeys, leftOut (.record [("database", .text "mysql"),
      ("language", .text "typescript")]) key ["language"] = false := by decide
  refine ⟨p.reshown o', k, ?_, hfiles.mpr hkept, hk, ?_⟩
  · rw [hproject, hp]
    rfl
  · rw [hk', hsame.mpr hkept]

/-- Options of which the framework is given, as it is by default. -/
def onExpress : Generation := { Generation.default with framework := .made .express }

/-- A framework that is left out is not shown as one that is given. -/
theorem shows_open_framework :
    generationSection.GivesDefaults (.record [("framework", .text "express")]) ["framework"] ∧
      generationSection.coerce (.record [("framework", .text "express")]) = .ok onExpress ∧
      generationSection.coerce (.record []) = .ok .default ∧
      ∃ p p' k k', buildNamed Template.Library.registry onExpress [] .null 0 = .ok p ∧
        buildNamed Template.Library.registry .default [] .null 0 = .ok p' ∧ p'.files ≠ p.files ∧
        build .default p = .ok k ∧ build .default p' = .ok k' ∧
        k.metadata.features.head? = some "express framework" ∧
        k'.metadata.features.head? = some "Framework.EXPRESS framework" := by
  have hgives : generationSection.GivesDefaults (.record [("framework", .text "express")])
      ["framework"] :=
    Section.givesDefaults_singleton (k := .plain "framework") (by decide) rfl rfl
  have hreopens : onExpress.Reopens (fun k => leftOut (.record [("framework", .text "express")]) k
      ["framework"]) .default := by
    obtain ⟨o', ho', hreopens⟩ := exists_coerce_generation (o := onExpress) rfl hgives
    cases ho'
    exact hreopens
  have hclashes : ¬Clashes onExpress [] := by
    unfold Clashes
    decide
  have hnames : (([] : List Model).map Model.routeName).Nodup := List.nodup_nil
  obtain ⟨p, hbuild, -⟩ := exists_build_of_not_clashes rfl hnames (by decide) hclashes none 0
  have hp : buildNamed Template.Library.registry onExpress [] .null 0 = .ok p := hbuild
  obtain ⟨hmodels, hoptions, -⟩ := parts_of_buildNamed hp
  obtain ⟨k, hk, -⟩ := exists_packs (isPackable_of_isMade ⟨p, hp, .inl rfl⟩) .default
  refine ⟨hgives, rfl, rfl, p, p.reshown .default, k, k.reshown .default [], hp, ?_, ?_, hk, ?_,
    ?_, rfl⟩
  · rw [buildNamed_of_settled hreopens.settled_eq, hp]
    rfl
  · rw [ne_eq, files_reshown_iff hp, readme_eq_iff hreopens]
    decide
  · rw [build_reshown rfl (by rw [hoptions, hreopens.settled_eq]), hk, hmodels]
    rfl
  · rw [← package_reshown_self hp hk]
    rfl

end Scaffold.Package
