import Scaffold.Proofs.Artifact.References
import Scaffold.Proofs.Project.Endpoints
import Scaffold.Proofs.Project.Gated
import Scaffold.Proofs.Project.Tables

/-!
# Proofs/Project/Independence — models share nothing but the names of their tables

The files of a model are made from the model and the options; of the other models they show only the
tables that its relationships lead to (`modelFiles_congr`).  So a model has the same files and the
same endpoints in any two projects that agree on these tables, and another order of the models moves
whole blocks of files and endpoints: apart from what is composed of all models, every file stays as
it is (`emission_independent`).
-/

namespace Scaffold.Project

open Artifact Model Options Template

/-- Two lists of models lead the relationships of a model to the same tables. -/
def SameTargets (models models' : List Model) (m : Model) : Prop :=
  ∀ e ∈ m.relationships, targetTable models e.targetModel = targetTable models' e.targetModel

/-- The paths of the files that are composed of all models: the overview, the entry and the files of
the login. -/
def composedPaths (o : Generation) (models : List Model) : List String :=
  ["README.md", "src/app.ts"] ++ (loginSlots o models).map slotPath

/-- What another order of its models makes of a project. -/
structure Reordered (r : Registry) (o : Generation) (models models' : List Model)
    (p p' : Project) : Prop where
  /-- The files of each model are the same block, and the blocks stand in the order of the models. -/
  files : ∃ (block : Model → List File) (before before' behind behind' : List File),
    (∀ m ∈ models, modelFiles r o models m = .ok (block m) ∧
      modelFiles r o models' m = .ok (block m)) ∧
    p.files = before ++ models.flatMap block ++ behind ∧
    p'.files = before' ++ models'.flatMap block ++ behind' ∧
    before'.map (·.path) = before.map (·.path) ∧ behind'.map (·.path) = behind.map (·.path)
  endpoints : ∃ rest, p.endpoints = models.flatMap (modelEndpoints o) ++ rest ∧
    p'.endpoints = models'.flatMap (modelEndpoints o) ++ rest
  /-- No file changes but those that are composed of all models. -/
  contents : ∀ path ∉ composedPaths o models, p'.file? path = p.file? path

variable {r : Registry} {o : Generation} {models models' : List Model} {m : Model}
  {name name' : Option String} {moment moment' : Nat} {p p' : Project}

/-! ## The files of one model -/

/-- The schema of a model depends on the other models only by the tables it points at. -/
theorem schema_congr (h : SameTargets models models' m) (d : Database) :
    schema r d models m = schema r d models' m := by
  have hitems : m.relationships.map (relationshipItem models) =
      m.relationships.map (relationshipItem models') :=
    List.map_congr_left fun e he => by rw [relationshipItem, relationshipItem, h e he]
  simp only [schema, schemaContext, hitems]

/-- **The files of a model depend on the other models through the tables of its targets alone.** -/
theorem modelFiles_congr (h : SameTargets models models' m) :
    modelFiles r o models m = modelFiles r o models' m := by
  simp only [modelFiles, schemaFiles, schema_congr h]

/-- The files of the models are a block for each model. -/
theorem allModelFiles_eq_ok_iff {fs : List File} :
    allModelFiles r o models = .ok fs ↔ ∃ block : Model → List File,
      (∀ m ∈ models, modelFiles r o models m = .ok (block m)) ∧ fs = models.flatMap block := by
  rw [allModelFiles, Except.map_eq_ok_iff]
  constructor
  · rintro ⟨groups, hgroups, rfl⟩
    let block (m : Model) : List File := (modelFiles r o models m).toOption.getD []
    have hblock : ∀ m ∈ models, modelFiles r o models m = .ok (block m) := by
      intro m hm
      obtain ⟨fs, -, hfs⟩ := Except.exists_result_of_mem_mapM hgroups hm
      have hvalue : block m = fs := by
        simp only [block, hfs]
        rfl
      rw [hfs, hvalue]
    refine ⟨block, hblock, ?_⟩
    have hmap : models.mapM (modelFiles r o models) = .ok (models.map block) :=
      Except.mapM_eq_ok_iff.mpr (List.forall₂_map_right_iff.mpr (List.forall₂_same.mpr hblock))
    rw [hmap] at hgroups
    cases hgroups
    rw [List.flatMap_def]
  · rintro ⟨block, hblock, rfl⟩
    refine ⟨models.map block, ?_, by rw [List.flatMap_def]⟩
    exact Except.mapM_eq_ok_iff.mpr (List.forall₂_map_right_iff.mpr (List.forall₂_same.mpr hblock))

/-- A model has its files and its endpoints in its project, each as one block. -/
theorem infix_of_build (h : build r o models name moment = .ok p) (hm : m ∈ models) :
    (∃ fs, modelFiles r o models m = .ok fs ∧ fs <:+: p.files) ∧
      modelEndpoints o m <:+: p.endpoints := by
  obtain ⟨a, fs, gs, hfs, -, -, -, rfl⟩ := exists_of_build_eq_ok h
  obtain ⟨block, hblock, rfl⟩ := allModelFiles_eq_ok_iff.mp hfs
  refine ⟨⟨block m, hblock m hm, ?_⟩, ?_⟩
  · rw [List.flatMap_def]
    refine (List.infix_of_mem_flatten (List.mem_map_of_mem hm)).trans ?_
    exact ⟨rootFiles o (name.getD "generated-api") models, gs ++ sharedFiles o models, by
      simp only [assembled, allFiles, List.append_assoc]⟩
  · exact (List.infix_of_mem_flatten (List.mem_map_of_mem hm)).trans
      (List.prefix_append _ _).isInfix

/-! ## Another order of the models -/

/-- The table of an unknown target is made up from its name. -/
theorem targetTable_of_notMem {n : String} (h : n ∉ models.map (·.name)) :
    targetTable models n = Text.lower n ++ "s" := by
  have hfind : models.reverse.find? (·.name == n) = none := by
    refine List.find?_eq_none.mpr fun m hm hname => h ?_
    exact List.mem_map.mpr ⟨m, List.mem_reverse.mp hm, beq_iff_eq.mp hname⟩
  simp only [targetTable, hfind]

/-- Models with different names lead to the same tables in any order. -/
theorem sameTargets_of_perm (hnames : (models.map (·.name)).Nodup) (h : models.Perm models')
    (m : Model) : SameTargets models models' m := by
  intro e _
  have hnames' : (models'.map (·.name)).Nodup := ((h.map _).nodup_iff).mp hnames
  by_cases hmem : e.targetModel ∈ models.map (·.name)
  · obtain ⟨t, ht, hname⟩ := List.mem_map.mp hmem
    rw [← hname, tableName_eq_targetTable hnames ht,
      tableName_eq_targetTable hnames' (h.mem_iff.mp ht)]
  · rw [targetTable_of_notMem hmem, targetTable_of_notMem (mt (h.map _).mem_iff.mpr hmem)]

theorem movesAccounts_perm (h : models.Perm models') :
    MovesAccounts models ↔ MovesAccounts models' := by
  simp only [MovesAccounts, h.mem_iff]

theorem loginSlots_perm (h : models.Perm models') : loginSlots o models = loginSlots o models' := by
  simp only [loginSlots, accountName, accountSegment, movesAccounts_perm h]

theorem emittedPaths_perm (h : models.Perm models') :
    (emittedPaths o models).Perm (emittedPaths o models') := by
  rw [emittedPaths, emittedPaths, slots, slots, loginSlots_perm h]
  refine .append_right _ (.append_left _ (.map _ ?_))
  exact .append_right _ (.append_right _ (h.flatMap_right _))

/-- A project that was built has no two models of one name: their files would have one path. -/
theorem nodup_names_of_build (h : build r o models name moment = .ok p) :
    (models.map (·.name)).Nodup :=
  nodup_map_of_build (k := .models) (by simp [modelSlots]) h

/-- The files of a project that are not composed of all models are there in any order of these. -/
theorem mem_files_of_perm (hperm : models.Perm models') (h : build r o models name moment = .ok p)
    (h' : build r o models' name moment = .ok p') {f : File} (hf : f ∈ p.files)
    (hpath : f.path ∉ composedPaths o models) : f ∈ p'.files := by
  have hnames := nodup_names_of_build h
  obtain ⟨a, fs, gs, hfs, -, hgs, -, rfl⟩ := exists_of_build_eq_ok h
  obtain ⟨a', fs', gs', hfs', -, -, -, rfl⟩ := exists_of_build_eq_ok h'
  obtain ⟨hcomposed, hlogin⟩ := not_or.mp (mt List.mem_append.mpr hpath)
  simp only [List.mem_cons, List.not_mem_nil, or_false, not_or] at hcomposed
  simp only [assembled, allFiles, List.mem_append] at hf ⊢
  obtain ((hf | hf) | hf) | hf := hf
  · simp only [rootFiles, List.mem_cons, List.not_mem_nil, or_false] at hf ⊢
    obtain rfl | rfl | rfl | rfl := hf
    · simp
    · simp
    · simp
    · exact absurd rfl hcomposed.1
  · obtain ⟨m, hm, block, hblock, hf⟩ := exists_modelFiles_of_mem hfs hf
    obtain ⟨block', hblock', hsubset⟩ := exists_modelFiles_subset hfs' (hperm.mem_iff.mp hm)
    rw [modelFiles_congr (sameTargets_of_perm hnames hperm m), hblock'] at hblock
    cases hblock
    exact .inl (.inl (.inr (hsubset hf)))
  · exact absurd (paths_placedLoginFiles hgs ▸ List.mem_map_of_mem hf) hlogin
  · simp only [sharedFiles, List.mem_cons, List.not_mem_nil, or_false] at hf ⊢
    obtain rfl | rfl | rfl | rfl | rfl := hf
    · simp
    · simp
    · simp
    · simp
    · exact absurd rfl hcomposed.2

theorem composedPaths_perm (h : models.Perm models') :
    composedPaths o models = composedPaths o models' := by
  rw [composedPaths, composedPaths, loginSlots_perm h]

theorem of_file?_eq_some {path : String} {f : File} (h : p.file? path = some f) :
    f ∈ p.files ∧ f.path = path := by
  have hpath := List.find?_some h
  exact ⟨List.mem_of_find?_eq_some h, beq_iff_eq.mp hpath⟩

/-- The order of the models shows only in the files that are composed of all of them. -/
theorem file?_eq_of_perm (hperm : models.Perm models') (h : build r o models name moment = .ok p)
    (h' : build r o models' name moment = .ok p') {path : String}
    (hpath : path ∉ composedPaths o models) : p'.file? path = p.file? path := by
  cases hfile : p.file? path with
  | some f =>
    obtain ⟨hf, rfl⟩ := of_file?_eq_some hfile
    exact file?_path (nodup_paths_of_build h') (mem_files_of_perm hperm h h' hf hpath)
  | none =>
    refine List.find?_eq_none.mpr fun f hf hfpath => ?_
    obtain rfl := beq_iff_eq.mp hfpath
    have hmem := mem_files_of_perm hperm.symm h' h hf (composedPaths_perm hperm ▸ hpath)
    exact List.find?_eq_none.mp hfile f hmem hfpath

/-- **Another order of the models moves whole blocks.** -/
theorem reordered_of_perm (hperm : models.Perm models') (h : build r o models name moment = .ok p)
    (h' : build r o models' name moment = .ok p') : Reordered r o models models' p p' := by
  have hnames := nodup_names_of_build h
  refine ⟨?_, ?_, fun path hpath => file?_eq_of_perm hperm h h' hpath⟩
  · obtain ⟨a, fs, gs, hfs, -, hgs, -, rfl⟩ := exists_of_build_eq_ok h
    obtain ⟨a', fs', gs', hfs', -, hgs', -, rfl⟩ := exists_of_build_eq_ok h'
    obtain ⟨block, hblock, rfl⟩ := allModelFiles_eq_ok_iff.mp hfs
    have hsame : ∀ m ∈ models, modelFiles r o models' m = .ok (block m) := fun m hm =>
      modelFiles_congr (sameTargets_of_perm hnames hperm m) ▸ hblock m hm
    have hmodels' : allModelFiles r o models' = .ok (models'.flatMap block) :=
      allModelFiles_eq_ok_iff.mpr ⟨block, fun m hm => hsame m (hperm.mem_iff.mpr hm), rfl⟩
    obtain rfl := Except.ok.inj (hfs'.symm.trans hmodels')
    refine ⟨block, rootFiles o (name.getD "generated-api") models,
      rootFiles o (name.getD "generated-api") models', gs ++ sharedFiles o models,
      gs' ++ sharedFiles o models', fun m hm => ⟨hblock m hm, hsame m hm⟩, ?_, ?_, rfl, ?_⟩
    · simp only [assembled, allFiles, List.append_assoc]
    · simp only [assembled, allFiles, List.append_assoc]
    · rw [List.map_append, List.map_append, paths_placedLoginFiles hgs',
        paths_placedLoginFiles hgs, loginSlots_perm hperm, paths_sharedFiles, paths_sharedFiles]
  · obtain ⟨a, fs, gs, -, -, -, -, rfl⟩ := exists_of_build_eq_ok h
    obtain ⟨a', fs', gs', -, -, -, -, rfl⟩ := exists_of_build_eq_ok h'
    exact ⟨if o.authEnabled then loginEndpoints else [], rfl, rfl⟩

/-- If there is a project for one order of the models, there is one for every order. -/
theorem exists_build_of_perm (hperm : models.Perm models')
    (h : build Library.registry o models name moment = .ok p) :
    ∃ p', build Library.registry o models' name moment = .ok p' := by
  have hfit : unfit? o models = none := by
    cases hunfit : unfit? o models with
    | none => rfl
    | some u => rw [build_of_unfit hunfit] at h; cases h
  have hroles : ∀ m ∈ models, "" ∉ m.metadata.allowedRoles := by
    intro m hm hrole
    rw [build_of_empty_role hfit ⟨m, hm, hrole⟩] at h
    cases h
  have hpaths := nodup_paths_of_build h
  rw [Project.paths, (isEmitted_of_build h).paths, (emittedPaths_perm hperm).nodup_iff] at hpaths
  have hfit' : unfit? o models' = none := List.findSome?_eq_none_iff.mpr fun m hm =>
    List.findSome?_eq_none_iff.mp hfit m (hperm.mem_iff.mpr hm)
  obtain ⟨p', -, hbuild⟩ :=
    exists_build hfit' (fun m hm => hroles m (hperm.mem_iff.mpr hm)) name moment
  rw [if_pos (repeatedPaths_eq_nil_iff.mpr hpaths)] at hbuild
  exact ⟨p', hbuild⟩

/-- **What a model makes of a project is independent of the other models.**  Under lists of models
that lead its relationships to the same tables, a model has the same files, or the same failure, and
in the projects of such lists it has the same block of files and of endpoints.  If a project is made
from models, one is made from them in any other order; it has the same blocks in that order, and
apart from the overview, the entry and the files of the login it has the same contents. -/
theorem emission_independent (o : Generation) :
    (∀ (r : Registry) (models models' : List Model) (m : Model), SameTargets models models' m →
      modelFiles r o models m = modelFiles r o models' m ∧
      ∀ (name name' : Option String) (moment moment' : Nat) (p p' : Project),
        m ∈ models → m ∈ models' → build r o models name moment = .ok p →
        build r o models' name' moment' = .ok p' →
        (∃ fs, modelFiles r o models m = .ok fs ∧ fs <:+: p.files ∧ fs <:+: p'.files) ∧
          modelEndpoints o m <:+: p.endpoints ∧ modelEndpoints o m <:+: p'.endpoints) ∧
    ∀ (models models' : List Model) (name : Option String) (moment : Nat),
      models.Perm models' →
      (∀ p, build Library.registry o models name moment = .ok p →
        ∃ p', build Library.registry o models' name moment = .ok p') ∧
      ∀ (r : Registry) (p p' : Project), build r o models name moment = .ok p →
        build r o models' name moment = .ok p' → Reordered r o models models' p p' := by
  refine ⟨fun r models models' m hsame => ⟨modelFiles_congr hsame, ?_⟩, ?_⟩
  · intro name name' moment moment' p p' hm hm' h h'
    obtain ⟨⟨fs, hfs, hfiles⟩, hendpoints⟩ := infix_of_build h hm
    obtain ⟨⟨fs', hfs', hfiles'⟩, hendpoints'⟩ := infix_of_build h' hm'
    rw [← modelFiles_congr hsame, hfs] at hfs'
    cases hfs'
    exact ⟨⟨fs, hfs, hfiles, hfiles'⟩, hendpoints, hendpoints'⟩
  · intro models models' name moment hperm
    exact ⟨fun p h => exists_build_of_perm hperm h, fun r p p' h h' => reordered_of_perm hperm h h'⟩

/-- Replies to the posts that editors write. -/
def replyModel : Model where
  id := none
  name := "Reply"
  fields := []
  relationships := [⟨none, .oneToMany, "Reply", "BlogPost", "postId", "id", true⟩]
  metadata := .default
  createdAt := none
  updatedAt := none

/-- The replies name the table of the posts, behind which they stand in one list and not in the
other; the accounts are moved aside. -/
theorem emission_independent_replyModel :
    SameTargets [editedModel, replyModel] [replyModel, userModel, editedModel] replyModel ∧
      modelFiles Library.registry .default [editedModel, replyModel] replyModel =
        modelFiles Library.registry .default [replyModel, userModel, editedModel] replyModel ∧
      ∃ p p', build Library.registry .default [replyModel, userModel, editedModel] none 0 = .ok p ∧
        build Library.registry .default [userModel, editedModel, replyModel] none 0 = .ok p' ∧
        Reordered Library.registry .default [replyModel, userModel, editedModel]
          [userModel, editedModel, replyModel] p p' := by
  have hsegments : replyModel.routeName = "reply" ∧ userModel.routeName = "user" ∧
      editedModel.routeName = "blogpost" := by
    decide
  have hsame : SameTargets [editedModel, replyModel] [replyModel, userModel, editedModel]
      replyModel :=
    List.forall_mem_singleton.mpr (by decide)
  obtain ⟨hone, hall⟩ := emission_independent .default
  refine ⟨hsame, (hone Library.registry _ _ replyModel hsame).1, ?_⟩
  have hnames : ([replyModel, userModel, editedModel].map Model.routeName).Nodup := by
    simp [hsegments]
  have hfilled : ∀ m ∈ [replyModel, userModel, editedModel], "" ∉ m.metadata.allowedRoles := by
    simp [replyModel, userModel, editedModel, Model.Metadata.default]
  have hclashes : ¬Clashes .default [replyModel, userModel, editedModel] := by
    simp only [Clashes, List.mem_cons, List.not_mem_nil, or_false, exists_eq_or_imp, exists_eq_left,
      hsegments]
    decide
  obtain ⟨p, hbuild, -⟩ := exists_build_of_not_clashes rfl hnames hfilled hclashes none 0
  have hperm : [replyModel, userModel, editedModel].Perm [userModel, editedModel, replyModel] := by
    exact (List.perm_append_singleton replyModel [userModel, editedModel]).symm
  obtain ⟨p', hbuild'⟩ := (hall _ _ none 0 hperm).1 p hbuild
  exact ⟨p, p', hbuild, hbuild', (hall _ _ none 0 hperm).2 _ p p' hbuild hbuild'⟩

end Scaffold.Project
