import Scaffold.Proofs.Document.Json
import Scaffold.Proofs.Outcome

/-!
# Proofs/Validation/Reading — what the rules see and what is read

The rules look at a document, and a project is made from what is read from it.  Under one spelling
both find the same: the name of a model, and its fields and relationships item by item.  Of a member
with two spellings the rules take one and reading takes the other, so they agree only where a
document does not give both with different values (`SpelledOnce`).  The documents of the parts of a
model are JSON, those of fields if the defaults are.
-/

/-! ## The documents of entities -/

namespace Scaffold.Model

open Document

theorem isJson_optionalText (s : Option String) : (optionalText s).IsJson := by
  cases s <;> constructor

theorem Operand.isJson_document (o : Operand) : o.document.IsJson := by
  cases o <;> constructor

theorem Rule.isJson_document (r : Rule) : r.document.IsJson := by
  refine .record ?_
  simp only [List.forall_mem_cons, List.not_mem_nil, false_implies, implies_true, and_true]
  exact ⟨.text _, r.operand.isJson_document, isJson_optionalText _⟩

/-- The document of a field is JSON if its default is. -/
theorem Field.isJson_document {f : Field} (hdefault : f.default.IsJson) : f.document.IsJson := by
  refine .record ?_
  simp only [List.forall_mem_cons, List.not_mem_nil, false_implies, implies_true, and_true]
  have hrules : ∀ v ∈ f.rules.map Rule.document, v.IsJson :=
    List.forall_mem_map.mpr fun r _ => r.isJson_document
  exact ⟨isJson_optionalText _, .text _, .text _, .bool _, .bool _, hdefault, .list hrules,
    isJson_optionalText _⟩

theorem Relationship.isJson_document (r : Relationship) : r.document.IsJson := by
  refine .record ?_
  simp only [List.forall_mem_cons, List.not_mem_nil, false_implies, implies_true, and_true]
  exact ⟨isJson_optionalText _, .text _, .text _, .text _, .text _, .text _, .bool _⟩

theorem Metadata.isJson_document (m : Metadata) : m.document.IsJson := by
  refine .record ?_
  simp only [List.forall_mem_cons, List.not_mem_nil, false_implies, implies_true, and_true]
  have hroles : ∀ v ∈ m.allowedRoles.map Value.text, v.IsJson :=
    List.forall_mem_map.mpr fun s _ => .text s
  exact ⟨isJson_optionalText _, .bool _, .bool _, isJson_optionalText _, .bool _, .list hroles⟩

end Scaffold.Model

namespace Scaffold.Schema

open Document

variable {α β : Type} {v : Value}

namespace Checked

theorem under_eq_ok_iff {step : Step} {x : Checked α} {a : α} : x.under step = .ok a ↔ x = .ok a := by
  cases x <;> simp [under]

theorem map_eq_ok_iff {f : α → β} {x : Checked α} {b : β} :
    x.map f = .ok b ↔ ∃ a, x = .ok a ∧ f a = b := by
  cases x <;> simp [map]

theorem map_seq₃ {γ δ ε : Type} (g : δ → ε) (f : α → β → γ → δ) (x : Checked α) (y : Checked β)
    (z : Checked γ) :
    (f <$> x <*> y <*> z).map g = (fun a b c => g (f a b c)) <$> x <*> y <*> z := by
  cases x <;> cases y <;> cases z <;> rfl

end Checked

theorem find?_plain (name : String) (v : Value) :
    (Key.plain name).find? v = (v.member? name).map fun x => (name, x) := by
  have hspelling : (Key.plain name).spelling = name := rfl
  rw [Key.find?, hspelling]
  split
  · rename_i x hx
    rw [hx]
    rfl
  · rfl

/-- A required setting is found and read. -/
theorem required_eq_ok_iff {k : Key} {read : Value → Checked α} {a : α} :
    required v k read = .ok a ↔ ∃ used x, k.find? v = some (used, x) ∧ read x = .ok a := by
  rw [required]
  split
  · rename_i hfind
    simp [hfind]
  · rename_i used x hfind
    rw [Checked.under_eq_ok_iff, hfind]
    simp

/-- A choice is read from its text. -/
theorem eq_text_of_choice_eq_ok [Named α] (hv : v.IsJson) {a : α} (h : choice v = .ok a) :
    v = .text (Named.text a) := by
  rw [choice] at h
  split at h
  · rename_i b hb
    cases h
    obtain ⟨s, hs, hchoice⟩ := Option.bind_eq_some_iff.mp hb
    have htext : Named.text a = s := by simpa using List.find?_some hchoice
    rw [htext]
    cases hv with
    | text t => cases hs; rfl
    | _ => cases hs
  · cases h

/-- The items of a list are read one by one. -/
theorem forall₂_of_itemsFrom_eq_ok {read : Value → Checked α} {i : Nat} {xs : List Value}
    {as : List α} (h : itemsFrom read i xs = .ok as) :
    List.Forall₂ (fun x a => read x = .ok a) xs as := by
  induction xs generalizing i as with
  | nil => cases h; exact .nil
  | cons x xs ih =>
    obtain ⟨f, bs, hf, hbs, rfl⟩ := Checked.apply_eq_ok_iff.mp h
    obtain ⟨a, ha, rfl⟩ := Checked.map_eq_ok_iff.mp hf
    exact .cons (Checked.under_eq_ok_iff.mp ha) (ih hbs)

/-- A list is read item by item. -/
theorem forall₂_of_listOf_eq_ok {read : Value → Checked α} {as : List α} (hv : v.IsJson)
    (h : listOf read v = .ok as) : List.Forall₂ (fun x a => read x = .ok a) v.items as := by
  rw [listOf] at h
  cases hv with
  | list _ => exact forall₂_of_itemsFrom_eq_ok h
  | _ => cases h

end Scaffold.Schema

namespace Scaffold.Validation

open Document Model Schema

variable {α : Type} {v : Value}

/-! ## Members with one spelling -/

theorem look_eq (v : Value) (name : String) : look v name = (v.member? name).getD .null := by
  rw [look, Option.or_self]

/-- A text that was read is what is looked up. -/
theorem look_eq_text (hv : v.IsJson) {name s : String} {read : Value → Checked α} {a : α}
    (hread : ∀ x, x.IsJson → read x = .ok a → x = .text s)
    (h : required v (.plain name) read = .ok a) : look v name = .text s := by
  obtain ⟨used, x, hfind, hx⟩ := required_eq_ok_iff.mp h
  rw [find?_plain] at hfind
  obtain ⟨y, hy, heq⟩ := Option.map_eq_some_iff.mp hfind
  cases heq
  rw [look_eq, hy]
  exact hread x (hv.of_member? hy) hx

theorem look_eq_text_of_boundedText (hv : v.IsJson) {name s : String} {least : Nat}
    {most : Option Nat} (h : required v (.plain name) (boundedText least most) = .ok s) :
    look v name = .text s :=
  look_eq_text hv (fun _ hx hread => eq_of_text_eq_ok hx (text_eq_ok_of_boundedText hread)) h

/-- So are items that were read. -/
theorem forall₂_lookItems (hv : v.IsJson) {name : String} {read : Value → Checked α} {as : List α}
    (h : optional v (.plain name) [] (listOf read) = .ok as) :
    List.Forall₂ (fun x a => read x = .ok a) (lookItems v name) as := by
  rw [Schema.optional, find?_plain] at h
  rw [lookItems, look_eq]
  cases hx : v.member? name with
  | none =>
    rw [hx] at h
    cases h
    exact .nil
  | some x =>
    rw [hx] at h
    exact forall₂_of_listOf_eq_ok (hv.of_member? hx) (Checked.under_eq_ok_iff.mp h)

/-- What a document has, each item under a name has. -/
theorem holds_of_mem_lookItems {P : Value → Prop} (hP : Value.Partwise P) (hv : v.IsJson) (h : P v) {name : String}
    {x : Value} (hx : x ∈ lookItems v name) : P x := by
  rw [lookItems, look_eq] at hx
  cases hmember : v.member? name with
  | none =>
    rw [hmember] at hx
    exact absurd hx List.not_mem_nil
  | some y =>
    rw [hmember] at hx
    exact hP.of_mem_items (hv.of_member? hmember) (hP.of_member? hv h hmember) hx

theorem isJson_of_mem_lookItems (hv : v.IsJson) {name : String} {x : Value}
    (hx : x ∈ lookItems v name) : x.IsJson :=
  holds_of_mem_lookItems Value.partwise_isJson hv hv hx

/-- What a document has, and null, a member has under either of two spellings. -/
theorem holds_look {P : Value → Prop} (hP : Value.Partwise P) (hnull : P .null) (hv : v.IsJson)
    (h : P v) (name other : String) : P (look v name other) := by
  rw [look]
  cases hmember : (v.member? name).or (v.member? other) with
  | none => exact hnull
  | some x =>
    obtain hx | ⟨-, hx⟩ := Option.or_eq_some_iff.mp hmember
    · exact hP.of_member? hv h hx
    · exact hP.of_member? hv h hx

/-! ## Models and fields -/

/-- What a document has, and null, a part has that is read as it is. -/
theorem holds_of_optional {P : Value → Prop} (hP : Value.Partwise P) (hnull : P .null)
    (hv : v.IsJson) (hPv : P v) {k : Key} {x : Value}
    (h : Schema.optional v k .null .ok = .ok x) : P x := by
  rw [Schema.optional] at h
  split at h
  · cases h
    exact hnull
  · rename_i used y hfind
    cases h
    exact hP.of_find? hv hPv hfind

/-- What is read from a field: its name, its type, whether it is unique, its default and its
rules. -/
theorem of_field_read (hv : v.IsJson) {f : Field} (h : Field.read v = .ok f) :
    look v "name" = .text f.name ∧ look v "type" = .text (Named.text f.type) ∧
      Schema.optional v (.plain "unique") false bool = .ok f.unique ∧
      Schema.optional v Field.defaultKey .null .ok = .ok f.default ∧
      List.Forall₂ (fun x r => Rule.read x = .ok r) (lookItems v "validation") f.rules := by
  rw [Field.read, entity] at h
  split at h
  · obtain ⟨_, _, h₁, -, rfl⟩ := Checked.apply_eq_ok_iff.mp h
    obtain ⟨_, _, h₂, hrules, rfl⟩ := Checked.apply_eq_ok_iff.mp h₁
    obtain ⟨_, _, h₃, hdefault, rfl⟩ := Checked.apply_eq_ok_iff.mp h₂
    obtain ⟨_, _, h₄, hunique, rfl⟩ := Checked.apply_eq_ok_iff.mp h₃
    obtain ⟨_, _, h₅, -, rfl⟩ := Checked.apply_eq_ok_iff.mp h₄
    obtain ⟨_, type, h₆, htype, rfl⟩ := Checked.apply_eq_ok_iff.mp h₅
    obtain ⟨_, name, h₇, hname, rfl⟩ := Checked.apply_eq_ok_iff.mp h₆
    obtain ⟨_, -, rfl⟩ := Checked.map_eq_ok_iff.mp h₇
    exact ⟨look_eq_text_of_boundedText hv hname,
      look_eq_text hv (fun _ hx => eq_text_of_choice_eq_ok hx) htype, hunique, hdefault,
      forall₂_lookItems hv hrules⟩
  · cases h

/-- What a document has, and null, the default has that is read from it. -/
theorem holds_default {P : Value → Prop} (hP : Value.Partwise P) (hnull : P .null) (hv : v.IsJson)
    (hPv : P v) {f : Field} (h : Field.read v = .ok f) : P f.default :=
  holds_of_optional hP hnull hv hPv (of_field_read hv h).2.2.2.1

/-- If the whole numbers of a document can be written, so can an operand that is read from it. -/
theorem unspelled?_operand (hv : v.IsJson) (hspelled : v.unspelled? = none) {r : Rule}
    (h : Rule.read v = .ok r) : r.operand.document.unspelled? = none := by
  rw [Rule.read, entity] at h
  split at h
  · obtain ⟨_, _, h₁, -, rfl⟩ := Checked.apply_eq_ok_iff.mp h
    obtain ⟨_, operand, h₂, hoperand, rfl⟩ := Checked.apply_eq_ok_iff.mp h₁
    obtain ⟨_, -, rfl⟩ := Checked.map_eq_ok_iff.mp h₂
    obtain ⟨used, x, hfind, hread⟩ := required_eq_ok_iff.mp hoperand
    have hx : x.unspelled? = none := Value.partwise_unspelled?.of_find? hv hspelled hfind
    cases hv.of_find? hfind with
    | int n => cases hread; exact hx
    | real y => cases hread; rfl
    | text s => cases hread; rfl
    | bool b => cases hread; cases b <;> rfl
    | _ => cases hread
  · cases h

/-- What is read from a model: its name, its fields and its relationships. -/
theorem of_model_read (hv : v.IsJson) {m : Model} (h : Model.read v = .ok m) :
    look v "name" = .text m.name ∧
      List.Forall₂ (fun x f => Field.read x = .ok f) (lookItems v "fields") m.fields ∧
      List.Forall₂ (fun x r => Relationship.read x = .ok r) (lookItems v "relationships")
        m.relationships := by
  rw [Model.read, entity] at h
  split at h
  · obtain ⟨_, _, h₁, -, rfl⟩ := Checked.apply_eq_ok_iff.mp h
    obtain ⟨_, _, h₂, -, rfl⟩ := Checked.apply_eq_ok_iff.mp h₁
    obtain ⟨_, _, h₃, -, rfl⟩ := Checked.apply_eq_ok_iff.mp h₂
    obtain ⟨_, rels, h₄, hrels, rfl⟩ := Checked.apply_eq_ok_iff.mp h₃
    obtain ⟨_, fields, h₅, hfields, rfl⟩ := Checked.apply_eq_ok_iff.mp h₄
    obtain ⟨_, name, h₆, hname, rfl⟩ := Checked.apply_eq_ok_iff.mp h₅
    obtain ⟨_, -, rfl⟩ := Checked.map_eq_ok_iff.mp h₆
    exact ⟨look_eq_text_of_boundedText hv hname,
      forall₂_lookItems hv hfields, forall₂_lookItems hv hrels⟩
  · cases h

/-- The rules see the names of the fields that are read. -/
theorem fieldNames_eq (hv : v.IsJson) {m : Model} (h : Model.read v = .ok m) :
    fieldNames v = m.fields.map fun f => .text f.name := by
  have hfields := (of_model_read hv h).2.1
  have hjson : ∀ x ∈ lookItems v "fields", x.IsJson := fun x hx => isJson_of_mem_lookItems hv hx
  rw [fieldNames]
  generalize lookItems v "fields" = xs, m.fields = fs at hfields hjson
  induction hfields with
  | nil => rfl
  | cons hx _ ih =>
    obtain ⟨hfirst, hrest⟩ := List.forall_mem_cons.mp hjson
    rw [List.map_cons, List.map_cons, (of_field_read hfirst hx).1, ih hrest]

/-! ## Members with two spellings -/

/-- Of the members of a relationship that have two spellings, none is given twice with different
values. -/
def SpelledOnce (rel : Value) : Prop :=
  ∀ k ∈ [Relationship.targetModelKey, Relationship.sourceFieldKey, Relationship.targetFieldKey],
    ∀ x y, rel.member? k.name = some x → rel.member? k.spelling = some y → x = y

/-- Where both spellings agree it makes no difference which one is looked up. -/
theorem look_eq_text_of_agree (hv : v.IsJson) {k : Key} {s : String}
    (hagree : ∀ x y, v.member? k.name = some x → v.member? k.spelling = some y → x = y)
    (h : required v k text = .ok s) : look v k.name k.spelling = .text s := by
  obtain ⟨used, x, hfind, hx⟩ := required_eq_ok_iff.mp h
  have hlook : look v k.name k.spelling = x := by
    rw [Key.find?] at hfind
    rw [look]
    cases hname : v.member? k.name with
    | none =>
      cases hspelling : v.member? k.spelling with
      | none => simp [hname, hspelling] at hfind
      | some z => simp_all
    | some y =>
      cases hspelling : v.member? k.spelling with
      | none => simp_all
      | some z =>
        rw [hspelling] at hfind
        cases hfind
        exact hagree y x hname hspelling
  rw [hlook]
  exact eq_of_text_eq_ok (hv.of_find? hfind) hx

/-- What is read from a relationship whose members are spelled once. -/
theorem of_relationship_read (hv : v.IsJson) (honce : SpelledOnce v) {r : Relationship}
    (h : Relationship.read v = .ok r) :
    look v "target_model" "targetModel" = .text r.targetModel ∧
      look v "source_field" "sourceField" = .text r.sourceField ∧
      look v "target_field" "targetField" = .text r.targetField := by
  rw [Relationship.read, entity] at h
  split at h
  · obtain ⟨_, _, h₁, -, rfl⟩ := Checked.apply_eq_ok_iff.mp h
    obtain ⟨_, _, h₂, htargetField, rfl⟩ := Checked.apply_eq_ok_iff.mp h₁
    obtain ⟨_, _, h₃, hsourceField, rfl⟩ := Checked.apply_eq_ok_iff.mp h₂
    obtain ⟨_, _, h₄, htargetModel, rfl⟩ := Checked.apply_eq_ok_iff.mp h₃
    obtain ⟨_, _, h₅, -, rfl⟩ := Checked.apply_eq_ok_iff.mp h₄
    obtain ⟨_, _, h₆, -, rfl⟩ := Checked.apply_eq_ok_iff.mp h₅
    obtain ⟨_, -, rfl⟩ := Checked.map_eq_ok_iff.mp h₆
    exact ⟨look_eq_text_of_agree hv (honce _ (by simp)) htargetModel,
      look_eq_text_of_agree hv (honce _ (by simp)) hsourceField,
      look_eq_text_of_agree hv (honce _ (by simp)) htargetField⟩
  · cases h

end Scaffold.Validation
