import Scaffold.Proofs.Validation.Cycles
import Scaffold.Proofs.Validation.Subjects

/-!
# Proofs/Validation/Completion — what all rules find, and when validation comes to a result

The rules over a list of models are run one after another, and the search for cycles comes last.
The findings are those of each model under its place, then those about the names of the models,
then those about their relationships (`ruleFindings`); the search adds its cycles to them or ends
without a result (`validateModels_eq`).

The rules report whatever is wrong with a document and go on, as long as their messages can be
written: the one about a relationship may have to show a whole number of too many digits.  The search
for cycles does not go on: it looks every target up by its name, and a list or a mapping cannot be
looked up.  So validation comes to a result exactly if every message can be written and the models
that stand for their names have no such target (`validateModels_completes`).  Where there is one, the
rule for relationships has found it before the search ends at it, and the finding is lost.
-/

namespace Scaffold.Validation

open Document

/-! ## What the rules find -/

theorem Finding.under_empty (f : Finding) : f.under "" = f := by
  rw [under, placeUnder, if_pos rfl]

theorem map_under_empty (fs : List Finding) : fs.map (·.under "") = fs := by
  simp only [Finding.under_empty, List.map_id']

/-- The findings about each model by itself, under its place; the first is the `i`-th. -/
def modelFindings (i : Nat) (subjects : List (Subject Model)) : List Finding :=
  (subjects.zipIdx i).flatMap fun (s, n) =>
    (validateModel s).findings.map (·.under s!"models[{n}]")

/-- The findings of all rules, in the order in which they are made. -/
def ruleFindings (subjects : List (Subject Model)) : List Finding :=
  modelFindings 0 subjects ++
    modelNameFindings [] 0 (subjects.map (·.document Model.document)) ++
    (validateRelationships (subjects.map (·.document Model.document))).findings

theorem modelFindings_cons (i : Nat) (s : Subject Model) (subjects : List (Subject Model)) :
    modelFindings i (s :: subjects) =
      (validateModel s).findings.map (·.under s!"models[{i}]") ++ modelFindings (i + 1) subjects := by
  rw [modelFindings, List.zipIdx_cons, List.flatMap_cons]
  rfl

/-- Models are validated one after the other. -/
theorem validateEach_eq (i : Nat) (r : Result) (subjects : List (Subject Model)) :
    validateEach i r subjects = ⟨r.findings ++ modelFindings i subjects, r.cycles⟩ := by
  induction subjects generalizing i r with
  | nil => rw [validateEach, modelFindings, List.zipIdx_nil, List.flatMap_nil, List.append_nil]
  | cons s subjects ih =>
    have hcycles : (r.merge s!"models[{i}]" (validateModel s)).cycles = r.cycles := rfl
    rw [validateEach, ih, hcycles, modelFindings_cons, Result.merge, List.append_assoc]

theorem findings_validateRelationships (models : List Value) :
    (validateRelationships models).findings = models.zipIdx.flatMap fun (m, i) =>
      (lookItems m "relationships").zipIdx.flatMap fun (rel, r) =>
        relationshipFindings models m s!"models[{i}].relationships[{r}]" rel := by
  simp only [validateRelationships, Result.ofFindings, List.mapIdx_eq_zipIdx_map, List.flatMap]

/-- **All rules are run**, and then the cycles are sought, unless a message cannot be written. -/
theorem validateModels_eq (subjects : List (Subject Model)) :
    validateModels subjects = match unsayable? (subjects.map (·.document Model.document)) with
      | some u => .error (.unwritable u)
      | none => (circularReferences (subjects.map (·.document Model.document))).map
        fun cycles => ⟨ruleFindings subjects, cycles⟩ := by
  rw [validateModels, validateEach_eq]
  simp only [Result.merge, Result.empty, map_under_empty, List.nil_append]
  rfl

/-! ## Messages that cannot be written -/

/-- The messages about a relationship show its ends and the name of its model. -/
theorem mem_of_mem_complaints {models : List Value} {owner rel v : Value} {c : Complaint}
    (hc : c ∈ complaints models owner rel) (hv : v ∈ c.values) :
    v ∈ [targetOf rel, look rel "source_field" "sourceField", look rel "target_field" "targetField",
      look owner "name"] := by
  have htarget : look rel "target_model" "targetModel" = targetOf rel := rfl
  rw [complaints, htarget] at hc
  split at hc
  · rw [List.mem_singleton.1 hc] at hv
    rw [List.mem_singleton.1 hv]
    exact List.mem_cons_self
  · rcases List.mem_append.1 hc with hc | hc <;> split at hc
    · cases hc
    · rw [List.mem_singleton.1 hc] at hv
      simp only [Complaint.values, List.mem_cons, List.not_mem_nil, or_false] at hv
      rcases hv with rfl | rfl <;> simp
    · cases hc
    · rw [List.mem_singleton.1 hc] at hv
      simp only [Complaint.values, List.mem_cons, List.not_mem_nil, or_false] at hv
      rcases hv with rfl | rfl <;> simp

theorem mem_shownValues_iff {models : List Value} {v : Value} :
    v ∈ shownValues models ↔ ∃ m ∈ models, ∃ rel ∈ lookItems m "relationships",
      ∃ c ∈ complaints models m rel, v ∈ c.values := by
  simp only [shownValues, List.mem_flatMap]

theorem unsayable?_eq_none_iff {models : List Value} :
    unsayable? models = none ↔ ∀ v ∈ shownValues models, v.unspelled? = none :=
  List.findSome?_eq_none_iff

/-- In JSON documents whose whole numbers can be written, so can every message. -/
theorem unspelled?_of_mem_shownValues {models : List Value}
    (h : ∀ m ∈ models, m.IsJson ∧ m.unspelled? = none) :
    ∀ v ∈ shownValues models, v.unspelled? = none := by
  intro v hv
  obtain ⟨m, hm, rel, hrel, c, hc, hv⟩ := mem_shownValues_iff.1 hv
  obtain ⟨hjson, hspelled⟩ := h m hm
  have hlook {x : Value} (hx : x.IsJson) (hxs : x.unspelled? = none) (name other : String) :
      (look x name other).unspelled? = none :=
    holds_look Value.partwise_unspelled? rfl hx hxs name other
  have hrelJson := isJson_of_mem_lookItems hjson hrel
  have hrelSpelled : rel.unspelled? = none :=
    holds_of_mem_lookItems Value.partwise_unspelled? hjson hspelled hrel
  have hmem := mem_of_mem_complaints hc hv
  simp only [List.mem_cons, List.not_mem_nil, or_false] at hmem
  rcases hmem with rfl | rfl | rfl | rfl
  · exact hlook hrelJson hrelSpelled _ _
  · exact hlook hrelJson hrelSpelled _ _
  · exact hlook hrelJson hrelSpelled _ _
  · exact hlook hjson hspelled _ _

/-! ## Targets that cannot be looked up -/

/-- The first target of a model that cannot be looked up. -/
def unfitTarget? (m : Value) : Option Value :=
  ((lookItems m "relationships").map targetOf).find? (!·.isKey)

/-- The first such target among the models that stand for their names. -/
def firstUnfit? (models : List Value) : Option Value :=
  (firstOfName [] models).findSome? fun e => unfitTarget? e.2

theorem unfitTarget?_eq_none_iff {m : Value} : unfitTarget? m = none ↔ HasFitTargets m := by
  rw [unfitTarget?, List.find?_eq_none, List.forall_mem_map, HasFitTargets]
  simp only [Bool.not_eq_true', Bool.not_eq_false]

/-- An unfit target is that of a relationship. -/
theorem of_unfitTarget?_eq_some {m t : Value} (h : unfitTarget? m = some t) :
    ∃ rel ∈ lookItems m "relationships", targetOf rel = t ∧ t.isKey = false := by
  obtain ⟨rel, hrel, htarget⟩ := List.mem_map.1 (List.mem_of_find?_eq_some h)
  have hunfit := List.find?_some h
  rw [Bool.not_eq_true'] at hunfit
  exact ⟨rel, hrel, htarget, hunfit⟩

/-- The models that stand for names are the first of them. -/
theorem mem_firstOfName_iff {seen : List String} {ms : List Value} {n : String} {m : Value} :
    (n, m) ∈ firstOfName seen ms ↔ n ∉ seen ∧ modelNamed? ms n = some m := by
  induction ms generalizing seen with
  | nil => simp [firstOfName, modelNamed?]
  | cons d ms ih =>
    rcases hd : nameOf? d with _ | k
    · rw [firstOfName_cons_of_eq_none seen hd, ih, modelNamed?_eq_find?, modelNamed?_eq_find?,
        List.find?_cons, hd]
      rfl
    · rw [firstOfName_cons_of_eq_some seen hd, modelNamed?_eq_find?, List.find?_cons, hd]
      rcases eq_or_ne k n with rfl | hne
      · have hmem : (k, m) ∉ firstOfName (k :: seen) ms := fun h =>
          (ih.1 h).1 List.mem_cons_self
        have hmem' : k ∈ seen → (k, m) ∉ firstOfName seen ms := fun hk h => (ih.1 h).1 hk
        by_cases hk : k ∈ seen
        · simp [hk, hmem']
        · simp [hk, hmem, eq_comm]
      · have hrest : (some k == some n) = false := by simpa using hne
        rw [hrest, ← modelNamed?_eq_find?]
        by_cases hk : k ∈ seen
        · simp [hk, ih]
        · simp [hk, ih, Ne.symm hne]

/-- None is unfit if all the first models of a name have fit targets. -/
theorem firstUnfit?_eq_none_iff {models : List Value} :
    firstUnfit? models = none ↔
      ∀ n m, modelNamed? models n = some m → HasFitTargets m := by
  rw [firstUnfit?, List.findSome?_eq_none_iff]
  constructor
  · intro h n m hm
    exact unfitTarget?_eq_none_iff.1 (h (n, m) (mem_firstOfName_iff.2 ⟨List.not_mem_nil, hm⟩))
  · rintro h ⟨n, m⟩ he
    exact unfitTarget?_eq_none_iff.2 (h n m (mem_firstOfName_iff.1 he).2)

/-- The first unfit target is one of such a model. -/
theorem of_firstUnfit?_eq_some {models : List Value} {t : Value}
    (h : firstUnfit? models = some t) :
    ∃ n m, modelNamed? models n = some m ∧
      ∃ rel ∈ lookItems m "relationships", targetOf rel = t ∧ t.isKey = false := by
  obtain ⟨⟨n, m⟩, he, ht⟩ := List.exists_of_findSome?_eq_some h
  exact ⟨n, m, (mem_firstOfName_iff.1 he).2, of_unfitTarget?_eq_some ht⟩

/-! ## The search -/

/-- An unfit target stops the search for edges. -/
theorem edgesAmong_eq_error {names : List String} (found : List String) {rels : List Value}
    {t : Value} (h : (rels.map targetOf).find? (!·.isKey) = some t) :
    edgesAmong names found rels = .error (.unhashable t.barredKind) := by
  induction rels generalizing found with
  | nil => cases h
  | cons rel rels ih =>
    have hrel : look rel "target_model" "targetModel" = targetOf rel := rfl
    rw [List.map_cons, List.find?_cons] at h
    rw [edgesAmong, hrel]
    rcases hkey : (targetOf rel).isKey with _ | _
    · rw [hkey] at h
      cases h
      rfl
    · rw [hkey, Bool.not_true] at h
      rw [Bool.not_true, if_neg Bool.false_ne_true]
      split
      · exact ih _ h
      · exact ih _ h

/-- The search ends at the first target that cannot be looked up. -/
theorem graphOf_eq_error {models : List Value} {t : Value} (h : firstUnfit? models = some t) :
    graphOf models = .error (.unhashable t.barredKind) := by
  have hunfit (e : String × Value) (t : Value) (ht : unfitTarget? e.2 = some t) :
      (e.1, ·) <$> edgesAmong (modelNames models) [] (lookItems e.2 "relationships") =
        .error (.unhashable t.barredKind) := by
    rw [edgesAmong_eq_error [] ht]
    rfl
  have hfit (e : String × Value) (he : unfitTarget? e.2 = none) :
      ∃ g, (e.1, ·) <$> edgesAmong (modelNames models) [] (lookItems e.2 "relationships") =
        .ok g := by
    obtain ⟨ts, hts, -⟩ := exists_edgesAmong (modelNames models) [] (unfitTarget?_eq_none_iff.1 he)
    exact ⟨(e.1, ts), Except.map_eq_ok_iff.2 ⟨ts, hts, rfl⟩⟩
  rw [graphOf]
  exact Except.mapM_eq_error hunfit hfit h

/-- Without one there is a graph. -/
theorem exists_graphOf_of_firstUnfit? {models : List Value} (h : firstUnfit? models = none) :
    ∃ g, graphOf models = .ok g := by
  have hfit : ∀ e ∈ firstOfName [] models, HasFitTargets e.2 := fun e he =>
    unfitTarget?_eq_none_iff.1 (List.findSome?_eq_none_iff.1 h e he)
  obtain ⟨g, hg, -⟩ := exists_mapM_edgesAmong (modelNames models) hfit
  exact ⟨g, hg⟩

/-! ## What has been found before -/

theorem text?_eq_none_of_isKey {v : Value} (h : v.isKey = false) : v.text? = none := by
  rcases v <;> first | rfl | cases h

/-- The rule for relationships finds a target that cannot be looked up. -/
theorem mem_ruleFindings_of_unfit {subjects : List (Subject Model)} {m rel : Value}
    (hm : m ∈ subjects.map (·.document Model.document))
    (hrel : rel ∈ lookItems m "relationships") (hunfit : (targetOf rel).isKey = false) :
    ∃ place, error .targetModelNotFound
      s!"Target model '{(targetOf rel).shown}' does not exist" place ∈ ruleFindings subjects := by
  have hfinding (place : String) :
      relationshipFindings (subjects.map (·.document Model.document)) m place rel =
        [error .targetModelNotFound s!"Target model '{(targetOf rel).shown}' does not exist"
          s!"{place}.targetModel"] := by
    have htarget : look rel "target_model" "targetModel" = targetOf rel := rfl
    rw [relationshipFindings, complaints, htarget, text?_eq_none_of_isKey hunfit]
    rfl
  obtain ⟨i, hi⟩ := List.mem_iff_getElem?.1 hm
  obtain ⟨j, hj⟩ := List.mem_iff_getElem?.1 hrel
  let place := s!"models[{i}].relationships[{j}]"
  refine ⟨s!"{place}.targetModel", List.mem_append_right _ ?_⟩
  rw [findings_validateRelationships]
  refine List.mem_flatMap.2 ⟨(m, i), List.mk_mem_zipIdx_iff_getElem?.2 hi,
    List.mem_flatMap.2 ⟨(rel, j), List.mk_mem_zipIdx_iff_getElem?.2 hj, ?_⟩⟩
  dsimp only
  rw [hfinding]
  exact List.mem_singleton_self _

/-! ## The result -/

/-- A message that cannot be written comes before a target that cannot be looked up, and without
either there is a result. -/
theorem validateModels_cases (subjects : List (Subject Model)) :
    let docs := subjects.map (·.document Model.document)
    (∃ e, unsayable? docs = some e ∧ validateModels subjects = .error (.unwritable e)) ∨
      (∃ t, unsayable? docs = none ∧ firstUnfit? docs = some t ∧
        validateModels subjects = .error (.unhashable t.barredKind)) ∨
      ∃ r, unsayable? docs = none ∧ firstUnfit? docs = none ∧ validateModels subjects = .ok r := by
  intro docs
  rw [validateModels_eq, circularReferences]
  rcases hsay : unsayable? docs with _ | e
  · rcases hfirst : firstUnfit? docs with _ | t
    · obtain ⟨g, hg⟩ := exists_graphOf_of_firstUnfit? hfirst
      rw [hg]
      exact .inr (.inr ⟨_, rfl, rfl, rfl⟩)
    · rw [graphOf_eq_error hfirst]
      exact .inr (.inl ⟨t, rfl, rfl, rfl⟩)
  · exact .inl ⟨e, rfl, rfl⟩

/-- **Validation comes to a result exactly if every message can be written and every target of a
model that stands for its name can be looked up.**  In JSON documents whose whole numbers can be
written every message can.  Without a result there is a value that a message cannot show, or else
the kind of a target that cannot be looked up, which the rules have reported. -/
theorem validateModels_completes (subjects : List (Subject Model)) :
    let docs := subjects.map (·.document Model.document)
    ((∃ r, validateModels subjects = .ok r) ↔
      (∀ v ∈ shownValues docs, v.unspelled? = none) ∧
        ∀ n m, modelNamed? docs n = some m → HasFitTargets m) ∧
    ((∀ v ∈ docs, v.IsJson ∧ v.unspelled? = none) →
      ∀ v ∈ shownValues docs, v.unspelled? = none) ∧
    ∀ u, validateModels subjects = .error u →
      (∃ v ∈ shownValues docs, ∃ e, v.unspelled? = some e ∧ u = .unwritable e) ∨
      (∀ v ∈ shownValues docs, v.unspelled? = none) ∧
        ∃ n m, modelNamed? docs n = some m ∧
          ∃ rel ∈ lookItems m "relationships",
            (targetOf rel).isKey = false ∧ u = .unhashable (targetOf rel).barredKind ∧
            ∃ place, error .targetModelNotFound
              s!"Target model '{(targetOf rel).shown}' does not exist" place ∈
                ruleFindings subjects := by
  intro docs
  rw [← firstUnfit?_eq_none_iff, ← unsayable?_eq_none_iff]
  refine ⟨?_, fun h => unsayable?_eq_none_iff.2 (unspelled?_of_mem_shownValues h), ?_⟩
  · obtain ⟨e, hsay, h⟩ | ⟨t, hsay, hfirst, h⟩ | ⟨r, hsay, hfirst, h⟩ := validateModels_cases subjects
    · exact iff_of_false (by rw [h]; rintro ⟨r, ⟨⟩⟩) (by rw [hsay]; rintro ⟨⟨⟩, -⟩)
    · exact iff_of_false (by rw [h]; rintro ⟨r, ⟨⟩⟩) (by rw [hfirst]; rintro ⟨-, ⟨⟩⟩)
    · exact iff_of_true ⟨r, h⟩ ⟨hsay, hfirst⟩
  · intro u hu
    obtain ⟨e, hsay, h⟩ | ⟨t, hsay, hfirst, h⟩ | ⟨r, -, -, h⟩ := validateModels_cases subjects
    · cases hu.symm.trans h
      obtain ⟨v, hv, he⟩ := List.exists_of_findSome?_eq_some hsay
      exact .inl ⟨v, hv, e, he, rfl⟩
    · cases hu.symm.trans h
      obtain ⟨n, m, hm, rel, hrel, rfl, hunfit⟩ := of_firstUnfit?_eq_some hfirst
      exact .inr ⟨hsay, n, m, hm, rel, hrel, hunfit, rfl,
        mem_ruleFindings_of_unfit (List.mem_of_find?_eq_some hm) hrel hunfit⟩
    · cases hu.symm.trans h

/-- A model whose relationship has a list of names as its target. -/
def withListedTarget : Value :=
  modelDocument "A" [.record [("type", .text "oneToMany"), ("sourceModel", .text "A"),
    ("targetModel", .list [.text "B"]), ("sourceField", .text "id"), ("targetField", .text "id")]]

theorem isJson_withListedTarget : withListedTarget.IsJson := by
  refine isJson_modelDocument "A" (List.forall_mem_singleton.2 (.record ?_))
  simp only [List.forall_mem_cons, List.not_mem_nil, false_implies, implies_true, and_true]
  exact ⟨.text _, .text _, .list (List.forall_mem_singleton.2 (.text _)), .text _, .text _⟩

/-- Validation ends without a result at a document that is JSON. -/
theorem exists_json_without_result : ∃ docs : List Value, (∀ v ∈ docs, v.IsJson) ∧
    ¬∃ r, validateModels (docs.map .raw) = .ok r := by
  refine ⟨[withListedTarget], List.forall_mem_singleton.2 isJson_withListedTarget, ?_⟩
  rintro ⟨r, hr⟩
  have hkind : validateModels ([withListedTarget].map .raw) = .error (.unhashable "list") := by
    rw [validateModels_eq]
    rfl
  rw [hkind] at hr
  cases hr

end Scaffold.Validation
