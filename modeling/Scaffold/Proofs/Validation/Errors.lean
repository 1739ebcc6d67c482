import Scaffold.Proofs.Validation.Completion

/-!
# Proofs/Validation/Errors — the errors found in entities

An entity is well-formed, so the errors in a list of entities are those of names that repeat and of
relationships whose ends are not there.  They are stated here from the entities alone
(`expectedErrors`): each with its message and its place, fields first, then models, then
relationships.  Validation finds exactly these, in this order (`errors_of_entities`).
-/

namespace Scaffold.Validation

open Document Model

/-! ## What is wrong with a list of entities -/

/-- Fields of the `i`-th model with the name of one before them. -/
def duplicateFieldErrors (i : Nat) (m : Model) : List Finding :=
  (List.repeats Field.name m.fields).map fun (f, j) =>
    error .duplicateField s!"Duplicate field name: {f.name}" s!"models[{i}].fields[{j}].name"

/-- Models with the name of one before them, without regard to case. -/
def duplicateModelErrors (models : List Model) : List Finding :=
  (List.repeats routeName models).map fun (m, i) =>
    error .duplicateModel s!"Duplicate model name: {m.name}" s!"models[{i}].name"

/-- The model that a relationship leads to: the first that has exactly the name. -/
def targetModel? (models : List Model) (rel : Relationship) : Option Model :=
  models.find? (·.name = rel.targetModel)

/-- The ends of a relationship that are not there.  Those of fields are sought once the model that
the relationship leads to is found. -/
def relationshipErrors (models : List Model) (owner : Model) (place : String)
    (rel : Relationship) : List Finding :=
  match targetModel? models rel with
  | none => [error .targetModelNotFound s!"Target model '{rel.targetModel}' does not exist"
      s!"{place}.targetModel"]
  | some target =>
    (if rel.sourceField ∈ owner.fields.map (·.name) then [] else [error .sourceFieldNotFound
      s!"Source field '{rel.sourceField}' does not exist in model '{owner.name}'"
      s!"{place}.sourceField"]) ++
    (if rel.targetField ∈ target.fields.map (·.name) then [] else [error .targetFieldNotFound
      s!"Target field '{rel.targetField}' does not exist in model '{rel.targetModel}'"
      s!"{place}.targetField"])

/-- All errors in a list of entities. -/
def expectedErrors (models : List Model) : List Finding :=
  models.zipIdx.flatMap (fun (m, i) => duplicateFieldErrors i m) ++
    duplicateModelErrors models ++
    models.zipIdx.flatMap fun (m, i) => m.relationships.zipIdx.flatMap fun (rel, r) =>
      relationshipErrors models m s!"models[{i}].relationships[{r}]" rel

/-- The ends of a relationship are there. -/
structure Resolves (models : List Model) (owner : Model) (rel : Relationship) : Prop where
  source : rel.sourceField ∈ owner.fields.map (·.name)
  target : ∃ t, targetModel? models rel = some t ∧ rel.targetField ∈ t.fields.map (·.name)

/-! ## Fields -/

theorem errors_ite_warning {c : Prop} [Decidable c] {code : Code} {message place : String} :
    (if c then [] else [warning code message place]).filter (·.isError) = [] := by
  split <;> rfl

theorem errors_map_under (outer : String) (fs : List Finding) :
    (fs.map (·.under outer)).filter (·.isError) =
      (fs.filter (·.isError)).map (·.under outer) := by
  rw [List.filter_map]
  rfl

/-- The errors about the names of fields that come after those in `before`. -/
theorem errors_fieldNameFindings {seen before : List String} (hseen : ∀ n, n ∈ seen ↔ n ∈ before)
    (i : Nat) {docs : List Value} {fields : List Field}
    (hnames : docs.map (look · "name") = fields.map fun f => .text f.name) :
    (fieldNameFindings seen i docs).filter (·.isError) =
      (List.repeatsAfter Field.name before i fields).map fun (f, j) =>
        error .duplicateField s!"Duplicate field name: {f.name}" s!"fields[{j}].name" := by
  induction docs generalizing seen before i fields with
  | nil =>
    rcases fields with _ | ⟨f, fields⟩
    · rfl
    · cases hnames
  | cons d docs ih =>
    rcases fields with _ | ⟨f, fields⟩
    · cases hnames
    · obtain ⟨hname, hrest⟩ := List.cons.inj hnames
      have hname : look d "name" = .text f.name := hname
      have hseen' : ∀ n, n ∈ f.name :: seen ↔ n ∈ before ++ [f.name] := fun n => by
        rw [List.mem_cons, List.mem_append, List.mem_singleton, hseen, or_comm]
      rw [fieldNameFindings, hname]
      simp only [List.filter_append, errors_ite_warning, List.append_nil, ih hseen' (i + 1) hrest,
        List.repeatsAfter_cons, List.map_append, List.contains_eq_mem, decide_eq_true_eq, hseen]
      by_cases hf : f.name ∈ before
      · rw [if_pos hf, if_pos hf]
        rfl
      · rw [if_neg hf, if_neg hf]
        rfl

theorem place_of_field (i j : Nat) :
    placeUnder s!"models[{i}]" s!"fields[{j}].name" = s!"models[{i}].fields[{j}].name" := by
  have hne (a b c : String) (ha : a ≠ "") : a ++ b ++ c ≠ "" := by simp [ha]
  have hmodel : s!"models[{i}]" ≠ "" := hne _ _ _ (by decide)
  have hfield : s!"fields[{j}].name" ≠ "" := hne _ _ _ (by decide)
  rw [placeUnder, if_neg hmodel, if_neg hfield]
  simp only [String.append_assoc, toString]
  rfl

/-- The errors of one entity are those of its fields. -/
theorem errors_validateModel (i : Nat) (m : Model) :
    ((validateModel (.entity m)).findings.map (·.under s!"models[{i}]")).filter (·.isError) =
      duplicateFieldErrors i m := by
  have hname : look m.document "name" = .text m.name := (shows_document m).name
  have hseen (n : String) : n ∈ [] ↔ n ∈ [] := Iff.rfl
  have hfields := errors_fieldNameFindings hseen 0
    (shows_document m).fieldNames
  have hmodel : (validateModel (.entity m)).findings.filter (·.isError) =
      (List.repeats Field.name m.fields).map fun (f, j) =>
        error .duplicateField s!"Duplicate field name: {f.name}" s!"fields[{j}].name" := by
    have hwarning {c : Prop} [Decidable c] {code : Code} {message place : String} :
        (if c then [warning code message place] else []).filter (·.isError) = [] := by
      split <;> rfl
    have hdocument : (Subject.entity m).document Model.document = m.document := rfl
    rw [validateModel, hdocument, hname]
    simp only [Result.ofFindings, subjectFindings, List.filter_append, errors_ite_warning, hwarning,
      List.nil_append, List.append_nil]
    exact hfields
  rw [errors_map_under, hmodel, List.map_map]
  refine List.map_congr_left fun e _ => ?_
  exact congrArg (Finding.mk .error Code.duplicateField.text s!"Duplicate field name: {e.1.name}")
    (place_of_field i e.2)

theorem errors_modelFindings (models : List Model) :
    (modelFindings 0 (models.map .entity)).filter (·.isError) =
      models.zipIdx.flatMap fun (m, i) => duplicateFieldErrors i m := by
  rw [modelFindings, List.filter_flatMap, List.zipIdx_map, List.flatMap_map]
  exact congrArg List.flatten (List.map_congr_left fun e _ => errors_validateModel e.2 e.1)

/-! ## Models -/

/-- The errors about the names of models that come after those in `before`. -/
theorem modelNameFindings_eq {seen before : List String} (hseen : ∀ n, n ∈ seen ↔ n ∈ before)
    (i : Nat) (models : List Model) :
    modelNameFindings seen i (models.map Model.document) =
      (List.repeatsAfter routeName before i models).map fun (m, i) =>
        error .duplicateModel s!"Duplicate model name: {m.name}" s!"models[{i}].name" := by
  induction models generalizing seen before i with
  | nil => rfl
  | cons m models ih =>
    have hseen' : ∀ n, n ∈ Text.lower m.name :: seen ↔ n ∈ before ++ [m.routeName] := fun n => by
      rw [List.mem_cons, List.mem_append, List.mem_singleton, hseen, or_comm, routeName]
    rw [List.map_cons, modelNameFindings, (shows_document m).name]
    simp only [ih hseen' (i + 1), List.repeatsAfter_cons, List.map_append, List.contains_eq_mem,
      decide_eq_true_eq, hseen]
    have hkey : Text.lower m.name = m.routeName := rfl
    rw [hkey]
    by_cases hm : m.routeName ∈ before
    · rw [if_pos hm, if_pos hm]
      rfl
    · rw [if_neg hm, if_neg hm]
      rfl

/-! ## Relationships -/

/-- The document of a model is found under its name. -/
theorem modelNamed?_documents (models : List Model) (n : String) :
    modelNamed? (models.map Model.document) n =
      (models.find? (·.name = n)).map Model.document := by
  have hname (m : Model) : (nameOf? m.document == some n) = decide (m.name = n) := by
    rw [nameOf?, (shows_document m).name, Bool.eq_iff_iff]
    simp [Value.text?]
  rw [modelNamed?_eq_find?, List.find?_map]
  simp only [Function.comp_def, hname]

/-- The findings about a relationship are the ends that are not there. -/
theorem relationshipFindings_document (models : List Model) (owner : Model) (place : String)
    (rel : Relationship) :
    relationshipFindings (models.map Model.document) owner.document place rel.document =
      relationshipErrors models owner place rel := by
  have htarget : look rel.document "target_model" "targetModel" = .text rel.targetModel := rfl
  have hsource : look rel.document "source_field" "sourceField" = .text rel.sourceField := rfl
  have hfield : look rel.document "target_field" "targetField" = .text rel.targetField := rfl
  have hnamed := modelNamed?_documents models rel.targetModel
  rw [relationshipFindings, complaints, relationshipErrors, htarget, hsource, hfield, Value.text?,
    Option.bind_some, hnamed, ← targetModel?]
  rcases targetModel? models rel with _ | target
  · rfl
  · have hshown (s : String) : (Value.text s).shown = s := rfl
    simp only [Option.map_some, (shows_document owner).fieldNames,
      (shows_document target).fieldNames, (shows_document owner).name, isAmong_text_iff,
      List.map_append, apply_ite (List.map _), List.map_nil, List.map_singleton, Complaint.finding,
      hshown]

/-- The findings about relationships are the expected ones in order. -/
theorem findings_relationships (models : List Model) :
    (validateRelationships (models.map Model.document)).findings =
      models.zipIdx.flatMap fun (m, i) => m.relationships.zipIdx.flatMap fun (rel, r) =>
        relationshipErrors models m s!"models[{i}].relationships[{r}]" rel := by
  rw [findings_validateRelationships]
  simp only [List.zipIdx_map, List.flatMap_map, lookItems_relationships, Prod.map,
    relationshipFindings_document, id_eq]

/-- All of them are errors. -/
theorem isError_of_mem_relationshipErrors {models : List Model} {owner : Model} {place : String}
    {rel : Relationship} {f : Finding} (h : f ∈ relationshipErrors models owner place rel) :
    f.isError = true := by
  rw [relationshipErrors] at h
  split at h
  · rw [List.mem_singleton.1 h]
    rfl
  · rcases List.mem_append.1 h with h | h <;> split at h
    all_goals first
      | exact absurd h List.not_mem_nil
      | rw [List.mem_singleton.1 h]; rfl

/-! ## All errors -/

theorem documents_of_entities (models : List Model) :
    (models.map Subject.entity).map (·.document Model.document) = models.map Model.document :=
  List.map_map

/-- The messages about entities show texts. -/
theorem unsayable?_documents (models : List Model) :
    unsayable? (models.map Model.document) = none := by
  refine unsayable?_eq_none_iff.2 fun v hv => ?_
  obtain ⟨d, hd, rel, hrel, c, hc, hv⟩ := mem_shownValues_iff.1 hv
  obtain ⟨m, -, rfl⟩ := List.mem_map.1 hd
  rw [lookItems_relationships] at hrel
  obtain ⟨r, -, rfl⟩ := List.mem_map.1 hrel
  have hmem := mem_of_mem_complaints hc hv
  simp only [List.mem_cons, List.not_mem_nil, or_false] at hmem
  rcases hmem with rfl | rfl | rfl | rfl
  · rfl
  · rfl
  · rfl
  · rw [(shows_document m).name]
    rfl

/-- Entities have texts as targets, so the search for cycles among them ends well. -/
theorem exists_validateModels_entities (models : List Model) :
    ∃ cycles, validateModels (models.map .entity) =
      .ok ⟨ruleFindings (models.map .entity), cycles⟩ := by
  have hfit : ∀ v ∈ models.map Model.document, HasFitTargets v := by
    rw [List.forall_mem_map]
    intro m _
    rw [HasFitTargets, lookItems_relationships, List.forall_mem_map]
    intro rel _
    rfl
  obtain ⟨g, hg, -⟩ := exists_graphOf hfit
  refine ⟨g.cycles.map Graph.cycleText, ?_⟩
  rw [validateModels_eq, documents_of_entities, unsayable?_documents, circularReferences, hg]
  rfl

/-- The errors that all rules find are those that are expected. -/
theorem errors_ruleFindings (models : List Model) :
    (ruleFindings (models.map .entity)).filter (·.isError) = expectedErrors models := by
  have hseen (n : String) : n ∈ [] ↔ n ∈ [] := Iff.rfl
  rw [ruleFindings, documents_of_entities, List.filter_append, List.filter_append, errors_modelFindings,
    modelNameFindings_eq hseen 0 models, findings_relationships,
    expectedErrors, duplicateModelErrors, List.repeats_eq]
  refine congrArg₂ _ (congrArg _ (List.filter_eq_self.2 ?_)) (List.filter_eq_self.2 ?_)
  · rintro f hf
    obtain ⟨e, -, rfl⟩ := List.mem_map.1 hf
    rfl
  · rintro f hf
    obtain ⟨e, -, hf⟩ := List.mem_flatMap.1 hf
    obtain ⟨e', -, hf⟩ := List.mem_flatMap.1 hf
    exact isError_of_mem_relationshipErrors hf

/-- There are none exactly if the relationship resolves. -/
theorem relationshipErrors_eq_nil_iff {models : List Model} {owner : Model} {place : String}
    {rel : Relationship} :
    relationshipErrors models owner place rel = [] ↔ Resolves models owner rel := by
  rw [relationshipErrors]
  rcases htarget : targetModel? models rel with _ | t
  · refine iff_of_false (List.cons_ne_nil _ _) ?_
    rintro ⟨-, t, ht, -⟩
    rw [htarget] at ht
    cases ht
  · simp only [List.append_eq_nil_iff, ite_eq_left_iff, List.cons_ne_nil, imp_false, not_not]
    constructor
    · rintro ⟨hsource, hfield⟩
      exact ⟨hsource, t, htarget, hfield⟩
    · rintro ⟨hsource, t', ht', hfield⟩
      rw [htarget] at ht'
      cases ht'
      exact ⟨hsource, hfield⟩

/-- Nothing is found about the members of a list exactly if nothing is wrong with any of them. -/
theorem flatMap_zipIdx_eq_nil_iff {α β : Type} {f : α × Nat → List β} {p : α → Prop}
    (h : ∀ x i, f (x, i) = [] ↔ p x) {xs : List α} :
    xs.zipIdx.flatMap f = [] ↔ ∀ x ∈ xs, p x := by
  rw [List.flatMap_eq_nil_iff]
  constructor
  · intro hf x hx
    obtain ⟨i, hi⟩ := List.mem_iff_getElem?.1 hx
    exact (h x i).1 (hf (x, i) (List.mk_mem_zipIdx_iff_getElem?.2 hi))
  · rintro hp ⟨x, i⟩ he
    exact (h x i).2 (hp x (List.fst_mem_of_mem_zipIdx he))

/-- Nothing is expected of models that are sound. -/
theorem expectedErrors_eq_nil_iff {models : List Model} :
    expectedErrors models = [] ↔
      (∀ m ∈ models, (m.fields.map (·.name)).Nodup) ∧ (models.map routeName).Nodup ∧
        ∀ m ∈ models, ∀ rel ∈ m.relationships, Resolves models m rel := by
  rw [expectedErrors, List.append_eq_nil_iff, List.append_eq_nil_iff, and_assoc]
  refine and_congr ?_ (and_congr ?_ ?_)
  · refine flatMap_zipIdx_eq_nil_iff fun m i => ?_
    dsimp only
    rw [duplicateFieldErrors, List.map_eq_nil_iff, List.repeats_eq_nil_iff]
  · rw [duplicateModelErrors, List.map_eq_nil_iff, List.repeats_eq_nil_iff]
  · exact flatMap_zipIdx_eq_nil_iff fun m i =>
      flatMap_zipIdx_eq_nil_iff fun rel r => relationshipErrors_eq_nil_iff

/-- The rules find an error in entities exactly if one is expected. -/
theorem isValid_entities_iff {models : List Model} {r : Result}
    (h : validateModels (models.map .entity) = .ok r) :
    r.isValid = true ↔ expectedErrors models = [] := by
  obtain ⟨cycles, hr⟩ := exists_validateModels_entities models
  cases h.symm.trans hr
  rw [← errors_ruleFindings, List.filter_eq_nil_iff, isValid_iff, Clean]
  simp only [Bool.not_eq_true]

/-- **Validation finds exactly the errors that are there**, in order and each at its place.  So a
list of entities is valid exactly if names are unique and every relationship resolves, whatever the
warnings and the cycles. -/
theorem errors_of_entities (models : List Model) :
    ∃ r, validateModels (models.map .entity) = .ok r ∧ r.errors = expectedErrors models ∧
      (r.isValid = true ↔
        (∀ m ∈ models, (m.fields.map (·.name)).Nodup) ∧ (models.map routeName).Nodup ∧
          ∀ m ∈ models, ∀ rel ∈ m.relationships, Resolves models m rel) := by
  obtain ⟨cycles, hr⟩ := exists_validateModels_entities models
  exact ⟨_, hr, errors_ruleFindings models,
    (isValid_entities_iff hr).trans expectedErrors_eq_nil_iff⟩

end Scaffold.Validation
