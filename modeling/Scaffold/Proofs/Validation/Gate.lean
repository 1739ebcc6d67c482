import Scaffold.Proofs.Schema.Explained
import Scaffold.Proofs.Validation.Reading
import Scaffold.Validation.Basic

/-!
# Proofs/Validation/Gate — what the absence of errors promises

Models are generated from once no error has been found in their documents.  Then the documents are
read; the names of the models differ in more than case, those of the fields of a model differ, and
the ends of every relationship are there — provided that no relationship spells one of them twice
(`gate_sound`).  With two spellings the rules look at one end and the project is made with the other
(`valid_with_ghost`).
-/

namespace Scaffold.Validation

open Document Model Schema

/-! ## No errors -/

/-- Nothing that was found is an error. -/
def Clean (fs : List Finding) : Prop := ∀ f ∈ fs, f.isError = false

theorem clean_append {fs gs : List Finding} : Clean (fs ++ gs) ↔ Clean fs ∧ Clean gs :=
  List.forall_mem_append

theorem clean_map_under {outer : String} {fs : List Finding} :
    Clean (fs.map (·.under outer)) ↔ Clean fs :=
  List.forall_mem_map

theorem isValid_iff {r : Result} : r.isValid = true ↔ Clean r.findings := by
  simp [Result.isValid, Clean]

theorem clean_of_merge {r other : Result} {outer : String}
    (h : Clean (r.merge outer other).findings) : Clean r.findings ∧ Clean other.findings := by
  obtain ⟨hr, hother⟩ := clean_append.mp h
  exact ⟨hr, clean_map_under.mp hother⟩

theorem not_clean_error {code : Code} {message place : String} {fs : List Finding} :
    ¬Clean (error code message place :: fs) :=
  fun h => Bool.noConfusion (h _ List.mem_cons_self)

theorem not_of_clean_ite {c : Prop} [Decidable c] {code : Code} {message place : String}
    (h : Clean (if c then [error code message place] else [])) : ¬c := by
  intro hc
  rw [if_pos hc] at h
  exact not_clean_error h

theorem of_clean_ite {c : Prop} [Decidable c] {code : Code} {message place : String}
    (h : Clean (if c then [] else [error code message place])) : c := by
  by_contra hc
  rw [if_neg hc] at h
  exact not_clean_error h

/-- What holds for the findings of a list holds for those of each of its members. -/
theorem exists_clean_of_mapIdx {α : Type} {f : Nat → α → List Finding} {xs : List α}
    (h : Clean (xs.mapIdx f).flatten) {x : α} (hx : x ∈ xs) : ∃ i, Clean (f i x) := by
  obtain ⟨i, hi, rfl⟩ := List.getElem_of_mem hx
  refine ⟨i, fun g hg => h g (List.mem_flatten.mpr ⟨_, ?_, hg⟩)⟩
  exact List.mem_mapIdx.mpr ⟨i, hi, rfl⟩

/-! ## One model -/

/-- What passes the schema is read. -/
theorem exists_read_of_clean {v : Value} (h : Clean (subjectFindings .schema Model.read (.raw v))) :
    ∃ m, Model.read v = .ok m := by
  have h : Clean (schemaFindings .schema (Model.read v)) := h
  cases hread : Model.read v with
  | ok m => exact ⟨m, rfl⟩
  | bad issues =>
    rw [hread] at h
    obtain ⟨i, hi⟩ := List.exists_mem_of_ne_nil issues fun hnil =>
      explained_read v (hread.trans (congrArg Checked.bad hnil))
    exact Bool.noConfusion (h _ (List.mem_map_of_mem hi))

/-- Keys that were seen before are errors: `findings` goes over parts by name and adds the key of
each name to those that it has seen. -/
theorem nodup_keys_of_clean {findings : List String → Nat → List Value → List Finding}
    {k : String → String}
    (hstep : ∀ {seen i v vs n}, look v "name" = .text n → Clean (findings seen i (v :: vs)) →
      k n ∉ seen ∧ Clean (findings (k n :: seen) (i + 1) vs))
    {seen : List String} {i : Nat} {vs : List Value} {names : List String}
    (hnames : vs.map (look · "name") = names.map .text) (h : Clean (findings seen i vs)) :
    (names.map k).Nodup ∧ ∀ n ∈ names, k n ∉ seen := by
  induction vs generalizing seen i names with
  | nil =>
    cases names with
    | nil => exact ⟨List.nodup_nil, List.forall_mem_nil _⟩
    | cons n ns => cases hnames
  | cons v vs ih =>
    cases names with
    | nil => cases hnames
    | cons n ns =>
      obtain ⟨hname, hrest⟩ := List.cons.inj hnames
      obtain ⟨hseen, hfollowing⟩ := hstep hname h
      obtain ⟨hnodup, hnew⟩ := ih hrest hfollowing
      refine ⟨List.nodup_cons.mpr ⟨fun hn => ?_, hnodup⟩, List.forall_mem_cons.mpr ⟨hseen, ?_⟩⟩
      · obtain ⟨n', hn', heq⟩ := List.mem_map.mp hn
        exact hnew n' hn' (heq ▸ List.mem_cons_self)
      · exact fun n' hn' hmem => hnew n' hn' (List.mem_cons_of_mem _ hmem)

/-- Without an error, no field has the name of one before it. -/
theorem nodup_of_clean_fieldNameFindings {i : Nat} {fields : List Value} {names : List String}
    (hnames : fields.map (look · "name") = names.map .text)
    (h : Clean (fieldNameFindings [] i fields)) : names.Nodup := by
  have hkeys := (nodup_keys_of_clean (k := id) (fun {seen i v vs n} hname h => ?_) hnames h).1
  · rwa [List.map_id] at hkeys
  · rw [fieldNameFindings, hname] at h
    obtain ⟨h, hfollowing⟩ := clean_append.mp h
    exact ⟨fun hn => not_of_clean_ite (clean_append.mp h).1 (List.contains_iff_mem.mpr hn),
      hfollowing⟩

/-! ## Models together -/

/-- Without an error, no model has the name of one before it, whatever its case. -/
theorem nodup_of_clean_modelNameFindings {i : Nat} {models : List Value} {names : List String}
    (hnames : models.map (look · "name") = names.map .text)
    (h : Clean (modelNameFindings [] i models)) : (names.map Text.lower).Nodup := by
  refine (nodup_keys_of_clean (fun {seen i v vs n} hname h => ?_) hnames h).1
  rw [modelNameFindings, hname] at h
  obtain ⟨h, hfollowing⟩ := clean_append.mp h
  exact ⟨fun hn => not_of_clean_ite h (List.contains_iff_mem.mpr hn), hfollowing⟩

theorem isAmong_text_iff {α : Type} {s : String} {xs : List α} {f : α → String} :
    isAmong (.text s) (xs.map fun x => .text (f x)) = true ↔ s ∈ xs.map f := by
  have hsame (t : String) : (Value.text s).same (.text t) = true ↔ t = s := by
    rw [Value.same, beq_iff_eq, eq_comm]
  simp only [isAmong, List.any_map, List.any_eq_true, List.mem_map, Function.comp_apply, hsame]

/-- A model is found under its own name. -/
theorem of_modelNamed?_eq_some {models : List Value} {name : String} {v : Value}
    (h : modelNamed? models name = some v) : v ∈ models ∧ look v "name" = .text name := by
  refine ⟨List.mem_of_find?_eq_some h, ?_⟩
  have hname := List.find?_some h
  split at hname
  · rename_i n hn
    rw [hn, beq_iff_eq.mp hname]
  · cases hname

/-- Without an error, the ends of a relationship are there. -/
theorem exists_of_clean_relationshipFindings {models : List Value} {owner rel : Value}
    {place : String} {target source field : String}
    (htarget : look rel "target_model" "targetModel" = .text target)
    (hsource : look rel "source_field" "sourceField" = .text source)
    (hfield : look rel "target_field" "targetField" = .text field)
    (h : Clean (relationshipFindings models owner place rel)) :
    isAmong (.text source) (fieldNames owner) = true ∧ ∃ t ∈ models, look t "name" = .text target ∧
      isAmong (.text field) (fieldNames t) = true := by
  rw [relationshipFindings, complaints, htarget, hsource, hfield] at h
  cases hfind : (Value.text target).text?.bind (modelNamed? models) with
  | none =>
    rw [hfind] at h
    exact absurd h not_clean_error
  | some t =>
    rw [hfind] at h
    simp only [List.map_append, apply_ite (List.map _), List.map_nil, List.map_singleton] at h
    obtain ⟨hsourceClean, hfieldClean⟩ := clean_append.mp h
    obtain ⟨hmem, hname⟩ := of_modelNamed?_eq_some hfind
    exact ⟨of_clean_ite hsourceClean, t, hmem, hname, of_clean_ite hfieldClean⟩

/-! ## All rules -/

/-- Clean findings are clean for each model. -/
theorem clean_of_validateEach {i : Nat} {r : Result} {ms : List (Subject Model)}
    (h : Clean (validateEach i r ms).findings) :
    Clean r.findings ∧ ∀ m ∈ ms, Clean (validateModel m).findings := by
  induction ms generalizing i r with
  | nil => exact ⟨h, by simp⟩
  | cons m ms ih =>
    obtain ⟨hmerged, hms⟩ := ih h
    obtain ⟨hr, hm⟩ := clean_of_merge hmerged
    exact ⟨hr, List.forall_mem_cons.mpr ⟨hm, hms⟩⟩

/-- A result without an error is there if the computation comes to one. -/
theorem exists_valid (subjects : List (Subject Model))
    (h : (validateModels subjects).toOption.any (·.isValid) = true) :
    ∃ r, validateModels subjects = .ok r ∧ r.isValid = true := by
  cases hr : validateModels subjects with
  | error u =>
    rw [hr] at h
    cases h
  | ok r =>
    rw [hr] at h
    exact ⟨r, rfl, h⟩

/-- Without an error, none of the rules has found one. -/
theorem clean_of_valid {subjects : List (Subject Model)} {r : Result}
    (h : validateModels subjects = .ok r) (hvalid : r.isValid = true) :
    (∀ s ∈ subjects, Clean (validateModel s).findings) ∧
      Clean (modelNameFindings [] 0 (subjects.map (·.document Model.document))) ∧
      Clean (validateRelationships (subjects.map (·.document Model.document))).findings := by
  rw [validateModels] at h
  split at h
  · cases h
  obtain ⟨cycles, -, rfl⟩ := Except.map_eq_ok_iff.mp h
  obtain ⟨hmodels, hrelationships⟩ := clean_of_merge (isValid_iff.mp hvalid)
  obtain ⟨heach, hnames⟩ := clean_of_merge hmodels
  exact ⟨(clean_of_validateEach heach).2, hnames, hrelationships⟩

/-- A result without errors is clean in all its parts. -/
theorem clean_of_valid_raw {docs : List Value} {r : Result}
    (h : validateModels (docs.map .raw) = .ok r) (hvalid : r.isValid = true) :
    (∀ v ∈ docs, Clean (validateModel (.raw v)).findings) ∧
      Clean (modelNameFindings [] 0 docs) ∧ Clean (validateRelationships docs).findings := by
  have hdocs : (docs.map Subject.raw).map (·.document Model.document) = docs := by
    rw [List.map_map]
    exact List.map_id' docs
  obtain ⟨heach, hnames, hrelationships⟩ := clean_of_valid h hvalid
  rw [hdocs] at hnames hrelationships
  exact ⟨fun v hv => heach _ (List.mem_map_of_mem hv), hnames, hrelationships⟩

/-- Models that are read one by one are read together. -/
theorem exists_readAll {docs : List Value} (h : ∀ v ∈ docs, ∃ m, Model.read v = .ok m) :
    ∃ ms, Model.readAll docs = .ok ms ∧ List.Forall₂ (fun v m => Model.read v = .ok m) docs ms := by
  induction docs with
  | nil => exact ⟨[], rfl, .nil⟩
  | cons v vs ih =>
    obtain ⟨⟨m, hm⟩, hvs⟩ := List.forall_mem_cons.mp h
    obtain ⟨ms, hms, hall⟩ := ih hvs
    exact ⟨m :: ms, by rw [readAll, hm, hms]; rfl, .cons hm hall⟩

/-- Their names are read as they stand. -/
theorem map_look_name {docs : List Value} (hjson : ∀ v ∈ docs, v.IsJson) {ms : List Model}
    (h : List.Forall₂ (fun v m => Model.read v = .ok m) docs ms) :
    docs.map (look · "name") = (ms.map (·.name)).map .text := by
  induction h with
  | nil => rfl
  | cons hread _ ih =>
    obtain ⟨hfirst, hrest⟩ := List.forall_mem_cons.mp hjson
    rw [List.map_cons, ih hrest, (of_model_read hfirst hread).1]
    rfl

/-- **What the absence of errors promises.**  If no error is found in JSON documents, they are read
as models whose names differ in more than case and whose fields have different names.  If no
relationship spells one of its ends twice, the ends of each are there as well: its target is one of
the models, and its fields are fields of the models that it joins. -/
theorem gate_sound {docs : List Value} (hjson : ∀ v ∈ docs, v.IsJson) {r : Result}
    (h : validateModels (docs.map .raw) = .ok r) (hvalid : r.isValid = true) :
    ∃ ms, Model.readAll docs = .ok ms ∧ (ms.map fun m => Text.lower m.name).Nodup ∧
      (∀ m ∈ ms, (m.fields.map (·.name)).Nodup) ∧
      ((∀ v ∈ docs, ∀ rel ∈ lookItems v "relationships", SpelledOnce rel) →
        ∀ m ∈ ms, ∀ rel ∈ m.relationships, rel.sourceField ∈ m.fields.map (·.name) ∧
          ∃ t ∈ ms, t.name = rel.targetModel ∧ rel.targetField ∈ t.fields.map (·.name)) := by
  obtain ⟨hmodels, hnames, hrelationships⟩ := clean_of_valid_raw h hvalid
  have hread : ∀ v ∈ docs, ∃ m, Model.read v = .ok m := fun v hv =>
    exists_read_of_clean (clean_append.mp (clean_append.mp (clean_append.mp
      (clean_append.mp (hmodels v hv)).1).1).1).1
  obtain ⟨ms, hms, hall⟩ := exists_readAll hread
  refine ⟨ms, hms, ?_, fun m hm => ?_, fun honce m hm rel hrel => ?_⟩
  · have hnodup := nodup_of_clean_modelNameFindings (map_look_name hjson hall) hnames
    rwa [List.map_map] at hnodup
  · obtain ⟨v, hv, hvm⟩ := hall.exists_of_mem_right hm
    have hfields : (lookItems v "fields").map (look · "name") =
        (m.fields.map (·.name)).map .text := by
      rw [List.map_map]
      exact fieldNames_eq (hjson v hv) hvm
    have hclean := (clean_append.mp (clean_append.mp (clean_append.mp (hmodels v hv)).1).1).2
    exact nodup_of_clean_fieldNameFindings hfields hclean
  · obtain ⟨v, hv, hvm⟩ := hall.exists_of_mem_right hm
    obtain ⟨x, hx, hxrel⟩ := (of_model_read (hjson v hv) hvm).2.2.exists_of_mem_right hrel
    obtain ⟨i, hclean⟩ := exists_clean_of_mapIdx hrelationships hv
    obtain ⟨j, hclean⟩ := exists_clean_of_mapIdx hclean hx
    obtain ⟨htarget, hsource, hfield⟩ :=
      of_relationship_read (isJson_of_mem_lookItems (hjson v hv) hx) (honce v hv x hx) hxrel
    obtain ⟨hsourceAmong, t, ht, htname, hfieldAmong⟩ :=
      exists_of_clean_relationshipFindings htarget hsource hfield hclean
    obtain ⟨m', hm', htm⟩ := hall.exists_of_mem_left ht
    rw [(of_model_read (hjson t ht) htm).1] at htname
    rw [fieldNames_eq (hjson v hv) hvm] at hsourceAmong
    rw [fieldNames_eq (hjson t ht) htm] at hfieldAmong
    exact ⟨isAmong_text_iff.mp hsourceAmong, m', hm', Value.text.inj htname,
      isAmong_text_iff.mp hfieldAmong⟩

/-- The document of a model with an identifier and with relationships. -/
def modelDocument (name : String) (relationships : List Value) : Value :=
  .record [("name", .text name),
    ("fields", .list [.record [("name", .text "id"), ("type", .text "uuid"),
      ("unique", .bool true)]]),
    ("relationships", .list relationships)]

theorem isJson_modelDocument (name : String) {rels : List Value} (h : ∀ rel ∈ rels, rel.IsJson) :
    (modelDocument name rels).IsJson := by
  refine .record ?_
  simp only [List.forall_mem_cons, List.not_mem_nil, false_implies, implies_true, and_true]
  refine ⟨.text _, .list (List.forall_mem_singleton.mpr (.record ?_)), .list h⟩
  simp only [List.forall_mem_cons, List.not_mem_nil, false_implies, implies_true, and_true]
  exact ⟨.text _, .text _, .bool _⟩

/-- The documents of authors and of books, which refer to their authors; the relationship may have
more members. -/
def library (more : Members) : List Value :=
  [modelDocument "Author" [], modelDocument "Book" [.record ([("type", Value.text "oneToMany"),
    ("sourceModel", .text "Book"), ("target_model", .text "Author"), ("sourceField", .text "id"),
    ("targetField", .text "id")] ++ more)]]

theorem isJson_library {more : Members} (h : ∀ e ∈ more, e.2.IsJson) :
    ∀ v ∈ library more, v.IsJson := by
  refine List.forall_mem_cons.mpr
    ⟨isJson_modelDocument "Author" (by simp), List.forall_mem_singleton.mpr ?_⟩
  refine isJson_modelDocument "Book"
    (List.forall_mem_singleton.mpr (.record (List.forall_mem_append.mpr ⟨?_, h⟩)))
  simp only [List.forall_mem_cons, List.not_mem_nil, false_implies, implies_true, and_true]
  exact ⟨.text _, .text _, .text _, .text _, .text _⟩

/-- Books whose relationship spells each of its ends once. -/
theorem gate_sound_library :
    (∀ v ∈ library [], v.IsJson) ∧ ∃ r, validateModels ((library []).map .raw) = .ok r ∧
      r.isValid = true ∧ ∃ ms, Model.readAll (library []) = .ok ms ∧
        (ms.map fun m => Text.lower m.name).Nodup ∧ (∀ m ∈ ms, (m.fields.map (·.name)).Nodup) ∧
        ∀ m ∈ ms, ∀ rel ∈ m.relationships, rel.sourceField ∈ m.fields.map (·.name) ∧
          ∃ t ∈ ms, t.name = rel.targetModel ∧ rel.targetField ∈ t.fields.map (·.name) := by
  have hjson : ∀ v ∈ library [], v.IsJson := isJson_library (by simp)
  have honce : ∀ v ∈ library [], ∀ rel ∈ lookItems v "relationships", SpelledOnce rel := by
    refine List.forall_mem_cons.mpr ⟨fun rel hrel => absurd hrel List.not_mem_nil,
      List.forall_mem_singleton.mpr (List.forall_mem_singleton.mpr ?_)⟩
    intro k hk x y hx hy
    simp only [List.mem_cons, List.not_mem_nil, or_false] at hk
    obtain rfl | rfl | rfl := hk
    · cases hy
    · cases hx
    · cases hx
  obtain ⟨r, hr, hvalid⟩ := exists_valid ((library []).map .raw) (by decide +kernel)
  obtain ⟨ms, hms, hnames, hfields, hends⟩ := gate_sound hjson hr hvalid
  exact ⟨hjson, r, hr, hvalid, ms, hms, hnames, hfields, hends honce⟩

/-- The rules look for the target under one spelling, and the project is made with the other: no
error is found, and the model refers to one that is not there. -/
theorem valid_with_ghost :
    let docs := library [("targetModel", .text "Ghost")]
    (∀ v ∈ docs, v.IsJson) ∧ (∃ r, validateModels (docs.map .raw) = .ok r ∧ r.isValid = true) ∧
      ∃ ms, Model.readAll docs = .ok ms ∧
        ∃ m ∈ ms, ∃ rel ∈ m.relationships, ∀ t ∈ ms, t.name ≠ rel.targetModel := by
  intro docs
  refine ⟨isJson_library (List.forall_mem_singleton.mpr (.text "Ghost")),
    exists_valid _ (by decide +kernel), _, rfl, _, List.mem_cons_of_mem _ List.mem_cons_self, _,
    List.mem_cons_self, ?_⟩
  decide

end Scaffold.Validation
