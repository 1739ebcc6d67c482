import Scaffold.Proofs.Validation.Errors

/-!
# Proofs/Validation/Agreement — documents and the entities read from them

The rules look at a few members only: names, what makes a primary key, and the ends of
relationships.  Of documents in which these agree (`Alike`) they find the same, rule by rule.  A
document and the entity read from it are alike if no relationship spells an end twice with different
values, and if no field is called unique by anything but a truth value (`alike_of_read`); so
validation of both has the same result (`validateModels_raw_eq_entity`).
-/

namespace Scaffold.Validation

open Document Model Schema

/-! ## What the rules look at -/

/-- Fields that no rule tells apart. -/
structure FieldAlike (v w : Value) : Prop where
  name : look v "name" = look w "name"
  isPrimaryKey : isPrimaryKey v = isPrimaryKey w

/-- Relationships that no rule tells apart. -/
structure RelationshipAlike (v w : Value) : Prop where
  targetModel : look v "target_model" "targetModel" = look w "target_model" "targetModel"
  sourceField : look v "source_field" "sourceField" = look w "source_field" "sourceField"
  targetField : look v "target_field" "targetField" = look w "target_field" "targetField"

/-- Documents of models that no rule about models tells apart. -/
structure Alike (v w : Value) : Prop where
  name : look v "name" = look w "name"
  fields : List.Forall₂ FieldAlike (lookItems v "fields") (lookItems w "fields")
  relationships : List.Forall₂ RelationshipAlike (lookItems v "relationships")
    (lookItems w "relationships")

variable {v w : Value} {vs ws : List Value}

/-! ## One model -/

theorem map_look_name_congr (h : List.Forall₂ FieldAlike vs ws) :
    vs.map (look · "name") = ws.map (look · "name") := by
  induction h with
  | nil => rfl
  | cons hvw _ ih => rw [List.map_cons, List.map_cons, ih, hvw.name]

theorem fieldNames_congr (h : Alike v w) : fieldNames v = fieldNames w := by
  rw [fieldNames, fieldNames, map_look_name_congr h.fields]

theorem any_isPrimaryKey_congr (h : List.Forall₂ FieldAlike vs ws) :
    vs.any isPrimaryKey = ws.any isPrimaryKey := by
  induction h with
  | nil => rfl
  | cons hvw _ ih => rw [List.any_cons, List.any_cons, ih, hvw.isPrimaryKey]

/-- Alike fields have the same findings. -/
theorem fieldNameFindings_congr (h : List.Forall₂ FieldAlike vs ws) (seen : List String)
    (i : Nat) : fieldNameFindings seen i vs = fieldNameFindings seen i ws := by
  induction h generalizing seen i with
  | nil => rfl
  | cons hvw _ ih =>
    rw [fieldNameFindings, fieldNameFindings, hvw.name]
    simp only [ih]

theorem isEmpty_congr {R : Value → Value → Prop} (h : List.Forall₂ R vs ws) :
    vs.isEmpty = ws.isEmpty := by
  cases h <;> rfl

/-- Well-formed models whose documents are alike have the same findings. -/
theorem validateModel_congr {s t : Subject Model}
    (hs : subjectFindings .schema Model.read s = []) (ht : subjectFindings .schema Model.read t = [])
    (h : Alike (s.document Model.document) (t.document Model.document)) :
    validateModel s = validateModel t := by
  rw [validateModel, validateModel, hs, ht, h.name, fieldNameFindings_congr h.fields,
    isEmpty_congr h.fields, any_isPrimaryKey_congr h.fields]

/-! ## Models together -/

/-- So have the names of alike models. -/
theorem modelNameFindings_congr (h : List.Forall₂ Alike vs ws) (seen : List String) (i : Nat) :
    modelNameFindings seen i vs = modelNameFindings seen i ws := by
  induction h generalizing seen i with
  | nil => rfl
  | cons hvw _ ih =>
    rw [modelNameFindings, modelNameFindings, hvw.name]
    simp only [ih]

/-- Alike models are found under the same names. -/
theorem modelNamed?_congr (h : List.Forall₂ Alike vs ws) (n : String) :
    Option.Rel Alike (modelNamed? vs n) (modelNamed? ws n) := by
  rw [modelNamed?_eq_find?, modelNamed?_eq_find?]
  induction h with
  | nil => exact .none
  | @cons v w _ _ hvw _ ih =>
    have hname : nameOf? v = nameOf? w := congrArg Value.text? hvw.name
    rw [List.find?_cons, List.find?_cons, hname]
    split
    · exact .some hvw
    · exact ih

/-- What is wrong with a relationship is the same, and so are the values that are shown. -/
theorem complaints_congr (h : List.Forall₂ Alike vs ws) {owner owner' rel rel' : Value}
    (howner : Alike owner owner') (hrel : RelationshipAlike rel rel') :
    complaints vs owner rel = complaints ws owner' rel' := by
  rw [complaints, complaints, hrel.targetModel, hrel.sourceField, hrel.targetField, howner.name,
    fieldNames_congr howner]
  rcases (look rel' "target_model" "targetModel").text? with _ | n
  · rfl
  · have hnamed := modelNamed?_congr h n
    rw [Option.bind_some, Option.bind_some]
    generalize modelNamed? vs n = x, modelNamed? ws n = y at hnamed
    rcases hnamed with hvw | _
    · simp only [fieldNames_congr hvw]
    · rfl

theorem relationshipFindings_congr (h : List.Forall₂ Alike vs ws) {owner owner' rel rel' : Value}
    (howner : Alike owner owner') (hrel : RelationshipAlike rel rel') (place : String) :
    relationshipFindings vs owner place rel = relationshipFindings ws owner' place rel' := by
  rw [relationshipFindings, relationshipFindings, complaints_congr h howner hrel]

theorem flatMap_zipIdx_congr {α : Type} {R : Value → Value → Prop} {f g : Value × Nat → List α}
    (hfg : ∀ v w i, R v w → f (v, i) = g (w, i)) (h : List.Forall₂ R vs ws) (i : Nat) :
    (vs.zipIdx i).flatMap f = (ws.zipIdx i).flatMap g := by
  induction h generalizing i with
  | nil => rfl
  | cons hvw _ ih =>
    rw [List.zipIdx_cons, List.zipIdx_cons, List.flatMap_cons, List.flatMap_cons, hfg _ _ i hvw, ih]

theorem flatMap_congr {α : Type} {R : Value → Value → Prop} {f g : Value → List α}
    (hfg : ∀ v w, R v w → f v = g w) (h : List.Forall₂ R vs ws) : vs.flatMap f = ws.flatMap g := by
  induction h with
  | nil => rfl
  | cons hvw _ ih => rw [List.flatMap_cons, List.flatMap_cons, hfg _ _ hvw, ih]

theorem unsayable?_congr (h : List.Forall₂ Alike vs ws) : unsayable? vs = unsayable? ws := by
  rw [unsayable?, unsayable?, shownValues, shownValues]
  refine congrArg _ (flatMap_congr (fun v w hvw => ?_) h)
  refine flatMap_congr (fun rel rel' hrel => ?_) hvw.relationships
  rw [complaints_congr h hvw hrel]

/-- Their relationships have the same findings. -/
theorem validateRelationships_congr (h : List.Forall₂ Alike vs ws) :
    (validateRelationships vs).findings = (validateRelationships ws).findings := by
  rw [findings_validateRelationships, findings_validateRelationships]
  refine flatMap_zipIdx_congr (fun v w i hvw => ?_) h 0
  exact flatMap_zipIdx_congr (fun rel rel' r hrel => relationshipFindings_congr h hvw hrel _)
    hvw.relationships 0

/-! ## Cycles -/

/-- They lead along the same edges. -/
theorem edgesAmong_congr (h : List.Forall₂ RelationshipAlike vs ws) (names found : List String) :
    edgesAmong names found vs = edgesAmong names found ws := by
  induction h generalizing found with
  | nil => rfl
  | cons hvw _ ih =>
    rw [edgesAmong, edgesAmong, hvw.targetModel]
    simp only [ih]

theorem modelNames_congr (h : List.Forall₂ Alike vs ws) : modelNames vs = modelNames ws := by
  have hnames : (vs.filterMap fun m => (look m "name").text?) =
      ws.filterMap fun m => (look m "name").text? := by
    induction h with
    | nil => rfl
    | cons hvw _ ih => rw [List.filterMap_cons, List.filterMap_cons, hvw.name, ih]
  rw [modelNames, modelNames, hnames]

/-- The first of each name are alike. -/
theorem firstOfName_congr (h : List.Forall₂ Alike vs ws) (seen : List String) :
    List.Forall₂ (fun e e' => e.1 = e'.1 ∧ Alike e.2 e'.2) (firstOfName seen vs)
      (firstOfName seen ws) := by
  induction h generalizing seen with
  | nil => exact .nil
  | cons hvw _ ih =>
    rw [firstOfName, firstOfName, hvw.name]
    split
    · split
      · exact ih seen
      · exact .cons ⟨rfl, hvw⟩ (ih _)
    · exact ih seen

/-- So alike models have the same cycles. -/
theorem circularReferences_congr (h : List.Forall₂ Alike vs ws) :
    circularReferences vs = circularReferences ws := by
  have hfirst := firstOfName_congr h []
  rw [circularReferences, circularReferences, graphOf, graphOf, modelNames_congr h]
  generalize firstOfName [] vs = es, firstOfName [] ws = es' at hfirst
  refine congrArg _ ?_
  induction hfirst with
  | nil => rfl
  | @cons e e' _ _ hee' _ ih =>
    obtain ⟨n, m⟩ := e
    obtain ⟨rfl, halike⟩ := hee'
    rw [List.mapM_cons, List.mapM_cons, ih]
    dsimp only
    rw [edgesAmong_congr halike.relationships]

/-! ## All rules -/

/-- **What the rules do not tell apart has the same result.** -/
theorem validateModels_congr {subjects subjects' : List (Subject Model)}
    (h : List.Forall₂ (fun s t => subjectFindings .schema Model.read s = [] ∧
      subjectFindings .schema Model.read t = [] ∧
      Alike (s.document Model.document) (t.document Model.document)) subjects subjects') :
    validateModels subjects = validateModels subjects' := by
  have halike : List.Forall₂ Alike (subjects.map (·.document Model.document))
      (subjects'.map (·.document Model.document)) :=
    List.forall₂_map_left_iff.2 (List.forall₂_map_right_iff.2 (h.imp fun _ _ hst => hst.2.2))
  have hmodels (i : Nat) : modelFindings i subjects = modelFindings i subjects' := by
    clear halike
    induction h generalizing i with
    | nil => rfl
    | cons hst _ ih =>
      rw [modelFindings_cons, modelFindings_cons, ih, validateModel_congr hst.1 hst.2.1 hst.2.2]
  rw [validateModels_eq, validateModels_eq, unsayable?_congr halike,
    circularReferences_congr halike, ruleFindings,
    ruleFindings, hmodels, modelNameFindings_congr halike, validateRelationships_congr halike]

/-! ## Documents and entities -/

/-- Whether a field is unique is left open or given by a truth value. -/
def PlainlyUnique (v : Value) : Prop :=
  v.member? "unique" = none ∨ ∃ b, v.member? "unique" = some (.bool b)

/-- A plain uniqueness counts as what it is read as. -/
theorem isTruthy_unique_of_read {b : Bool} (hplain : PlainlyUnique v)
    (h : Schema.optional v (.plain "unique") false bool = .ok b) :
    (look v "unique").isTruthy = b := by
  rw [Schema.optional, find?_plain] at h
  rw [look_eq]
  rcases hplain with hnone | ⟨b', hb'⟩
  · rw [hnone] at h ⊢
    cases h
    rfl
  · rw [hb'] at h ⊢
    cases h
    rfl

/-- A field is like the document of what it is read as. -/
theorem fieldAlike_of_read (hv : v.IsJson) (hplain : PlainlyUnique v) {f : Field}
    (h : Field.read v = .ok f) : FieldAlike v f.document := by
  obtain ⟨hname, htype, hunique, -⟩ := of_field_read hv h
  have hname' : look f.document "name" = .text f.name := rfl
  have htype' : look f.document "type" = .text (Named.text f.type) := rfl
  have hunique' : (look f.document "unique").isTruthy = f.unique := rfl
  refine ⟨hname.trans hname'.symm, ?_⟩
  rw [isPrimaryKey, isPrimaryKey, hname, hname', htype, htype',
    isTruthy_unique_of_read hplain hunique, hunique']

theorem relationshipAlike_of_read (hv : v.IsJson) (honce : SpelledOnce v) {r : Relationship}
    (h : Relationship.read v = .ok r) : RelationshipAlike v r.document :=
  let ⟨htarget, hsource, hfield⟩ := of_relationship_read hv honce h
  ⟨htarget, hsource, hfield⟩

/-- What a document must keep to for the rules to see in it what is read from it. -/
structure IsPlain (v : Value) : Prop where
  isJson : v.IsJson
  spelledOnce : ∀ rel ∈ lookItems v "relationships", SpelledOnce rel
  plainlyUnique : ∀ f ∈ lookItems v "fields", PlainlyUnique f

/-- **A plain document and the entity read from it are alike.** -/
theorem alike_of_read (hv : IsPlain v) {m : Model} (h : Model.read v = .ok m) :
    Alike v m.document := by
  obtain ⟨hname, hfields, hrelationships⟩ := of_model_read hv.isJson h
  have hdefaults : ∀ f ∈ m.fields, f.default.IsJson := fun f hf => by
    obtain ⟨x, hx, hread⟩ := hfields.exists_of_mem_right hf
    have hjson := isJson_of_mem_lookItems hv.isJson hx
    exact holds_default Value.partwise_isJson .null hjson hjson hread
  refine ⟨hname.trans (shows_document m).name.symm, ?_, ?_⟩
  · rw [lookItems_fields hdefaults, List.forall₂_map_right_iff]
    refine ((List.forall₂_and_left _ _).2 ⟨fun x hx => hx, hfields⟩).imp fun x f ⟨hx, hread⟩ => ?_
    exact fieldAlike_of_read (isJson_of_mem_lookItems hv.isJson hx) (hv.plainlyUnique x hx) hread
  · rw [lookItems_relationships, List.forall₂_map_right_iff]
    refine ((List.forall₂_and_left _ _).2 ⟨fun x hx => hx, hrelationships⟩).imp fun x r ⟨hx, hread⟩ => ?_
    exact relationshipAlike_of_read (isJson_of_mem_lookItems hv.isJson hx) (hv.spelledOnce x hx)
      hread

/-- Models that are read are read one by one. -/
theorem forall₂_of_readAll {docs : List Value} {ms : List Model}
    (h : Model.readAll docs = .ok ms) :
    List.Forall₂ (fun v m => Model.read v = .ok m) docs ms := by
  induction docs generalizing ms with
  | nil =>
    cases h
    exact .nil
  | cons v docs ih =>
    rw [readAll] at h
    rcases hv : Model.read v with m | issues
    · rw [hv] at h
      obtain ⟨ms', hms', rfl⟩ := Checked.map_eq_ok_iff.1 h
      exact .cons hv (ih hms')
    · rw [hv] at h
      cases h

/-- **Validation of documents and of the entities read from them has the same result**: the same
findings in the same order and the same cycles. -/
theorem validateModels_raw_eq_entity {docs : List Value} (hplain : ∀ v ∈ docs, IsPlain v)
    {ms : List Model} (h : Model.readAll docs = .ok ms) :
    ∃ r, validateModels (docs.map .raw) = .ok r ∧ validateModels (ms.map .entity) = .ok r := by
  have hall : List.Forall₂ (fun s t => subjectFindings .schema Model.read s = [] ∧
      subjectFindings .schema Model.read t = [] ∧
      Alike (s.document Model.document) (t.document Model.document))
      (docs.map Subject.raw) (ms.map Subject.entity) := by
    rw [List.forall₂_map_left_iff, List.forall₂_map_right_iff]
    refine ((List.forall₂_and_left _ _).2 ⟨hplain, forall₂_of_readAll h⟩).imp fun v m ⟨hv, hread⟩ => ?_
    have hfindings : subjectFindings .schema Model.read (.raw v) = [] := by
      rw [subjectFindings, hread, schemaFindings]
    exact ⟨hfindings, rfl, alike_of_read hv hread⟩
  obtain ⟨cycles, hr⟩ := exists_validateModels_entities ms
  exact ⟨_, (validateModels_congr hall).trans hr, hr⟩

/-- A relationship to a model, whose ends are spelled as in documents. -/
def linkTo (target : String) : Value :=
  .record [("type", .text "oneToMany"), ("sourceModel", .text ""), ("targetModel", .text target),
    ("sourceField", .text "id"), ("targetField", .text "key")]

theorem isPlain_modelDocument (name target : String) :
    IsPlain (modelDocument name [linkTo target]) where
  isJson := by
    refine isJson_modelDocument name (List.forall_mem_singleton.2 (.record ?_))
    simp only [List.forall_mem_cons, List.not_mem_nil, false_implies, implies_true, and_true]
    exact ⟨.text _, .text _, .text _, .text _, .text _⟩
  spelledOnce := by
    refine List.forall_mem_singleton.2 ?_
    intro k hk x y hx hy
    simp only [List.mem_cons, List.not_mem_nil, or_false] at hk
    rcases hk with rfl | rfl | rfl <;> cases hx
  plainlyUnique := List.forall_mem_singleton.2 (.inr ⟨true, rfl⟩)

/-- Two models that refer to each other, one with a name in small letters, and to a field that
neither has. -/
theorem validateModels_raw_eq_entity_mutual :
    ∃ ms, Model.readAll [modelDocument "a" [linkTo "B"], modelDocument "B" [linkTo "a"]] = .ok ms ∧
      ∃ r, validateModels ([modelDocument "a" [linkTo "B"],
          modelDocument "B" [linkTo "a"]].map .raw) = .ok r ∧
        validateModels (ms.map .entity) = .ok r := by
  refine ⟨_, rfl, validateModels_raw_eq_entity ?_ rfl⟩
  exact List.forall_mem_cons.2
    ⟨isPlain_modelDocument "a" "B", List.forall_mem_singleton.2 (isPlain_modelDocument "B" "a")⟩

end Scaffold.Validation
