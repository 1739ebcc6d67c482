import Scaffold.Job.Run
import Scaffold.Proofs.Validation.Gate

/-!
# Proofs/Validation/Subjects — the names that validation keeps apart

A list of models may hold documents and entities.  Of both the rules see the names that are read
from them (`Subject.Shows`), so in a list without errors the names of the models differ in more than
case, and the names of the fields of each model differ (`names_of_valid`).  In a list of entities
without errors every relationship leads to one of them (`exists_target_of_valid`).
-/

namespace Scaffold.Document.Value

/-- The value is a record with a text under `name`. -/
def IsNamed (n : String) (v : Value) : Prop :=
  ∃ ms, v = record ms ∧ ms.lookup "name" = some (text n)

/-- A filled member is found where it was. -/
theorem lookup_fillMembers (whole : Nat → Value) (level : Nat) (key : String)
    (ms : List (String × Value)) :
    (fillMembers whole level ms).lookup key = (ms.lookup key).map (fill whole level) := by
  induction ms with
  | nil => rfl
  | cons e ms ih =>
    rw [fillMembers, List.lookup_cons, List.lookup_cons]
    split
    · rfl
    · exact ih

theorem fillItems_eq_map (whole : Nat → Value) (level : Nat) (xs : List Value) :
    fillItems whole level xs = xs.map (fill whole level) := by
  induction xs with
  | nil => rfl
  | cons x xs ih => rw [fillItems, ih, List.map_cons]

namespace IsNamed

variable {n : String} {v : Value}

theorem fill (h : v.IsNamed n) (whole : Nat → Value) (level : Nat) :
    (v.fill whole level).IsNamed n := by
  obtain ⟨ms, rfl, hname⟩ := h
  refine ⟨_, rfl, ?_⟩
  rw [lookup_fillMembers, hname]
  rfl

theorem takenOut (h : v.IsNamed n) (whole : Value → Value) : (v.takenOut whole).IsNamed n := by
  rw [Value.takenOut]
  split
  · exact h.fill _ 0
  · exact h

theorem look_eq (h : v.IsNamed n) : Validation.look v "name" = text n := by
  obtain ⟨ms, rfl, hname⟩ := h
  rw [Validation.look_eq, member?, Members.get?, hname]
  rfl

end IsNamed

end Scaffold.Document.Value

namespace Scaffold.Validation

open Document Model Schema

/-! ## What the rules see of a subject -/

/-- The rules see the names of a model and of its fields. -/
structure Shows (v : Value) (m : Model) : Prop where
  name : look v "name" = .text m.name
  fieldNames : fieldNames v = m.fields.map fun f => .text f.name

theorem isNamed_field (f : Field) : f.document.IsNamed f.name := ⟨_, rfl, rfl⟩

/-- Fields are named as they were written. -/
theorem map_look_items {fs : List Field} {write : Field → Value}
    (h : ∀ f, (write f).IsNamed f.name) :
    (Value.list (fs.map write)).items.map (look · "name") = fs.map fun f => .text f.name := by
  rw [Value.items, List.zipIdx_map, List.map_map, List.map_map]
  conv_rhs => rw [← List.zipIdx_map_fst 0 fs, List.map_map]
  exact List.map_congr_left fun e _ => ((h e.1).takenOut _).look_eq

/-- The document of a model shows it. -/
theorem shows_document (m : Model) : Shows m.document m where
  name := Value.IsNamed.look_eq ⟨_, rfl, rfl⟩
  fieldNames := by
    have htaken (whole : Value → Value) : ∃ write : Field → Value,
        (∀ f, (write f).IsNamed f.name) ∧
          (Value.list (m.fields.map Field.document)).takenOut whole = .list (m.fields.map write) := by
      unfold Value.takenOut
      split
      · refine ⟨_, fun f => (isNamed_field f).fill (fun n => whole (.again n)) 1, ?_⟩
        rw [Value.fill, Value.fillItems_eq_map, List.map_map]
        rfl
      · exact ⟨_, isNamed_field, rfl⟩
    obtain ⟨members, hdocument, hmember⟩ : ∃ members, m.document = .record members ∧
        members.lookup "fields" = some (.list (m.fields.map Field.document)) := ⟨_, rfl, rfl⟩
    obtain ⟨write, hwrite, hlist⟩ :=
      htaken fun part => .record (Members.put "fields" part members)
    have hlook : look m.document "fields" = .list (m.fields.map write) := by
      rw [look_eq, hdocument, Value.member?, Members.get?, hmember, ← hlist]
      rfl
    rw [Validation.fieldNames, lookItems, hlook]
    exact map_look_items hwrite

/-- Items that are a list of documents are looked up as they are. -/
theorem lookItems_of_lookup {members : Members} {name : String} {xs : List Value}
    (h : members.lookup name = some (.list xs)) (hjson : ∀ x ∈ xs, x.IsJson) :
    lookItems (.record members) name = xs := by
  have hlist : (Value.list xs).IsJson := .list hjson
  have hlook : look (.record members) name = .list xs := by
    rw [look_eq, Value.member?, Members.get?, h, Option.map_some, Option.getD_some,
      hlist.takenOut_eq]
  rw [lookItems, hlook, hlist.items_eq]

/-- The rules see the relationships of an entity. -/
theorem lookItems_relationships (m : Model) :
    lookItems m.document "relationships" = m.relationships.map Relationship.document :=
  lookItems_of_lookup rfl (List.forall_mem_map.mpr fun r _ => r.isJson_document)

/-- The rules see the fields of an entity, if the defaults refer to nothing around them. -/
theorem lookItems_fields {m : Model} (h : ∀ f ∈ m.fields, f.default.IsJson) :
    lookItems m.document "fields" = m.fields.map Field.document :=
  lookItems_of_lookup rfl (List.forall_mem_map.mpr fun f hf => f.isJson_document (h f hf))

/-- The subject is an entity or a JSON document. -/
def Subject.IsJson : Subject Model → Prop
  | .raw v => v.IsJson
  | .entity _ => True

/-- A subject that is read shows the model. -/
theorem Subject.shows {s : Subject Model} (hjson : s.IsJson) {m : Model} (h : s.read = .ok m) :
    Shows (s.document Model.document) m := by
  cases s with
  | raw v => exact ⟨(of_model_read hjson h).1, fieldNames_eq hjson h⟩
  | entity m' =>
    cases h
    exact shows_document m

/-- Entities are read one by one. -/
theorem forall₂_of_entities {subjects : List (Subject Model)} {ms : List Model}
    (h : Job.entities subjects = .ok ms) :
    List.Forall₂ (fun s m => Subject.read s = .ok m) subjects ms := by
  induction subjects generalizing ms with
  | nil => cases h; exact .nil
  | cons s rest ih =>
    rw [Job.entities] at h
    cases hs : s.read with
    | bad issues => rw [hs] at h; cases h
    | ok m =>
      rw [hs] at h
      obtain ⟨ms', hms', rfl⟩ := Checked.map_eq_ok_iff.mp h
      exact .cons hs (ih hms')

/-! ## Names without errors -/

/-- **Without an error, names are kept apart**: those of the models whatever their case, and those of
the fields of each model. -/
theorem names_of_valid {subjects : List (Subject Model)} (hjson : ∀ s ∈ subjects, s.IsJson)
    {r : Result} (h : validateModels subjects = .ok r) (hvalid : r.isValid = true) {ms : List Model}
    (hms : Job.entities subjects = .ok ms) :
    (ms.map Model.routeName).Nodup ∧ ∀ m ∈ ms, (m.fields.map (·.name)).Nodup := by
  obtain ⟨hmodels, hnames, -⟩ := clean_of_valid h hvalid
  have hall := forall₂_of_entities hms
  have hlook : (subjects.map (·.document Model.document)).map (look · "name") =
      (ms.map (·.name)).map .text := by
    clear hms h hmodels hnames
    induction hall with
    | nil => rfl
    | cons hread _ ih =>
      obtain ⟨hfirst, hrest⟩ := List.forall_mem_cons.mp hjson
      rw [List.map_cons, List.map_cons, ih hrest, (Subject.shows hfirst hread).name]
      rfl
  refine ⟨?_, fun m hm => ?_⟩
  · have hnodup := nodup_of_clean_modelNameFindings hlook hnames
    rwa [List.map_map] at hnodup
  · obtain ⟨s, hs, hread⟩ := hall.exists_of_mem_right hm
    have hfields := (Subject.shows (hjson s hs) hread).fieldNames
    have hclean := (clean_append.mp (clean_append.mp (clean_append.mp (hmodels s hs)).1).1).2
    refine nodup_of_clean_fieldNameFindings ?_ hclean
    rw [List.map_map]
    exact hfields

/-! ## Relationships without errors -/

/-- **Without an error, every relationship of an entity leads to an entity of the list.** -/
theorem exists_target_of_valid {models : List Model} {r : Result}
    (h : validateModels (models.map .entity) = .ok r) (hvalid : r.isValid = true) {m : Model}
    (hm : m ∈ models) {rel : Relationship} (hrel : rel ∈ m.relationships) :
    ∃ t ∈ models, t.name = rel.targetModel := by
  obtain ⟨-, -, hclean⟩ := clean_of_valid h hvalid
  have hdocuments : (models.map Subject.entity).map (·.document Model.document) =
      models.map Model.document := List.map_map
  rw [hdocuments] at hclean
  obtain ⟨i, hclean⟩ := exists_clean_of_mapIdx hclean (List.mem_map_of_mem hm)
  have hseen : rel.document ∈ lookItems m.document "relationships" :=
    lookItems_relationships m ▸ List.mem_map_of_mem hrel
  obtain ⟨j, hclean⟩ := exists_clean_of_mapIdx hclean hseen
  have htarget : look rel.document "target_model" "targetModel" = .text rel.targetModel := rfl
  have hsource : look rel.document "source_field" "sourceField" = .text rel.sourceField := rfl
  have hfield : look rel.document "target_field" "targetField" = .text rel.targetField := rfl
  obtain ⟨-, t, ht, hname, -⟩ := exists_of_clean_relationshipFindings htarget hsource hfield hclean
  obtain ⟨m', hm', rfl⟩ := List.mem_map.mp ht
  exact ⟨m', hm', Value.text.inj ((shows_document m').name.symm.trans hname)⟩

end Scaffold.Validation
