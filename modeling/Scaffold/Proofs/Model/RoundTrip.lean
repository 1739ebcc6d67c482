import Scaffold.Model.Basic
import Scaffold.Proofs.Schema.Spelling

/-!
# Proofs/Model/RoundTrip — a model in either spelling, and read back from its document

The keys of the parts of a model share no spelling.  So a field, a relationship or metadata that are
respelled are read as before, and a model is whose members are respelled, and what they hold.

Rules, relationships and metadata are read back from their documents as they are.  A field is if its
name has a length that is allowed and its default refers to nothing around it, and a model if this
holds of its fields; reading a document has made sure of both.  The moments are left out: a document
writes them as stamps, so a model comes back as it was where they are not given (`read_document`).
-/

namespace Scaffold.Model

open Document Schema

variable {v v' : Value} {α : Type} {k : Key} {read : Value → Checked α} {default : α}

/-! ## Keys -/

/-- The keys under which a field is read. -/
def Field.keys : List Key :=
  [.plain "id", .plain "name", .plain "type", .plain "required", .plain "unique", defaultKey,
    .plain "validation", .plain "description"]

/-- The keys under which a relationship is read. -/
def Relationship.keys : List Key :=
  [.plain "id", .plain "type", sourceModelKey, targetModelKey, sourceFieldKey, targetFieldKey,
    cascadeDeleteKey]

/-- The keys under which metadata are read. -/
def Metadata.keys : List Key :=
  [tableNameKey, .plain "timestamps", softDeleteKey, .plain "description", requiresAuthKey,
    allowedRolesKey]

theorem Field.apart_keys : Key.Apart keys := by decide

theorem Relationship.apart_keys : Key.Apart keys := by decide

theorem Metadata.apart_keys : Key.Apart keys := by decide

/-! ## Respelled parts of a model -/

/-- An object respelled whose members hold what they did. -/
abbrev Reworded (keys : List Key) : Value → Value → Prop := Respelled keys fun _ => Eq

namespace Reworded

variable {keys : List Key}

theorem isJson (h : Reworded keys v v') (hv : v.IsJson) : v'.IsJson :=
  Respelled.isJson h hv fun _ _ _ heq hx => heq ▸ hx

theorem reads_rel (h : Reworded keys v v') (hv : v.IsJson) (hapart : Key.Apart keys)
    (hk : k ∈ keys) : Option.Rel (Reads read) (k.value? v) (k.value? v') :=
  Respelled.reads_rel h hv (h.isJson hv) hapart hk fun _ _ _ _ heq _ _ => heq ▸ fun _ hok => hok

section Members

variable (h : Reworded keys v v') (hv : v.IsJson) (hapart : Key.Apart keys) (hk : k ∈ keys)
include h hv hapart hk

theorem optional : (Schema.optional v k default read).Below (Schema.optional v' k default read) :=
  .optional (h.reads_rel hv hapart hk)

theorem required : (Schema.required v k read).Below (Schema.required v' k read) :=
  .required (h.reads_rel hv hapart hk)

end Members

end Reworded

theorem Field.reads (h : Reworded Field.keys v v') (hv : v.IsJson) : Reads Field.read v v' := by
  have hapart := apart_keys
  refine Reads.entity h.isMapping (.seq (.seq (.seq (.seq (.seq (.seq (.seq
    (.map (h.optional hv hapart ?_) mk) (h.required hv hapart ?_)) (h.required hv hapart ?_))
    (h.optional hv hapart ?_)) (h.optional hv hapart ?_)) (h.optional hv hapart ?_))
    (h.optional hv hapart ?_)) (h.optional hv hapart ?_))
  all_goals decide

/-- A relationship is read alike from every respelling. -/
theorem Relationship.reads (h : Reworded Relationship.keys v v') (hv : v.IsJson) :
    Reads Relationship.read v v' := by
  have hapart := apart_keys
  refine Reads.entity h.isMapping (.seq (.seq (.seq (.seq (.seq (.seq
    (.map (h.optional hv hapart ?_) mk) (h.required hv hapart ?_)) (h.required hv hapart ?_))
    (h.required hv hapart ?_)) (h.required hv hapart ?_)) (h.required hv hapart ?_))
    (h.optional hv hapart ?_))
  all_goals decide

theorem Metadata.reads (h : Reworded Metadata.keys v v') (hv : v.IsJson) :
    Reads Metadata.read v v' := by
  have hapart := apart_keys
  refine Reads.entity h.isMapping (.seq (.seq (.seq (.seq (.seq
    (.map (h.optional hv hapart ?_) mk) (h.optional hv hapart ?_)) (h.optional hv hapart ?_))
    (h.optional hv hapart ?_)) (h.optional hv hapart ?_)) (h.optional hv hapart ?_))
  all_goals decide

end Scaffold.Model

/-! ## Respelled models -/

namespace Scaffold.Model

open Document Schema Model

variable {v v' : Value}

/-- The keys under which a model is read. -/
def keys : List Key :=
  [.plain "id", .plain "name", .plain "fields", .plain "relationships", .plain "metadata",
    createdAtKey, updatedAtKey]

theorem apart_keys : Key.Apart keys := by decide

/-- How what a member of a model holds may be respelled: fields, relationships and metadata in
themselves, and nothing else. -/
def PartRespelled (s : String) : Value → Value → Prop :=
  if s = "fields" then Itemwise (Reworded Field.keys)
  else if s = "relationships" then Itemwise (Reworded Relationship.keys)
  else if s = "metadata" then Reworded Metadata.keys
  else Eq

theorem partRespelled_eq {s : String} (h : s ∉ ["fields", "relationships", "metadata"]) :
    PartRespelled s = Eq := by
  simp only [List.mem_cons, not_or] at h
  rw [PartRespelled, if_neg h.1, if_neg h.2.1, if_neg h.2.2.1]

/-- A part is no less a document when it is respelled. -/
theorem isJson_of_partRespelled {s : String} {x x' : Value} (h : PartRespelled s x x')
    (hx : x.IsJson) : x'.IsJson := by
  rw [PartRespelled] at h
  split_ifs at h
  · exact h.isJson hx fun _ _ hrel => hrel.isJson
  · exact h.isJson hx fun _ _ hrel => hrel.isJson
  · exact h.isJson hx
  · exact h ▸ hx

/-- A respelled model is read as the same model. -/
theorem reads (h : Respelled keys PartRespelled v v') (hv : v.IsJson) : Reads read v v' := by
  have hv' : v'.IsJson := h.isJson hv fun _ _ _ => isJson_of_partRespelled
  -- what a member holds is read alike in each part, and stays the same elsewhere
  have hpart {α : Type} {name : String} {read : Value → Checked α} (hk : .plain name ∈ keys)
      (hread : ∀ x x', PartRespelled name x x' → x.IsJson → x'.IsJson → Reads read x x') :
      Option.Rel (Reads read) ((Key.plain name).value? v) ((Key.plain name).value? v') :=
    h.reads_rel hv hv' apart_keys hk fun s hs => by
      obtain rfl := List.mem_singleton.mp hs
      exact hread
  have hsame {α : Type} {k : Key} {read : Value → Checked α} (hk : k ∈ keys)
      (hkey : ∀ s ∈ k.names, s ∉ ["fields", "relationships", "metadata"]) :
      Option.Rel (Reads read) (k.value? v) (k.value? v') :=
    h.reads_rel hv hv' apart_keys hk fun s hs x x' hx _ _ => by
      rw [partRespelled_eq (hkey s hs)] at hx
      exact hx ▸ fun _ hok => hok
  refine Reads.entity h.isMapping (.seq (.seq (.seq (.seq (.seq (.seq
    (.map (.optional (hsame ?_ ?_)) Model.mk) (.required (hsame ?_ ?_)))
    (.optional (hpart ?_ ?fields))) (.optional (hpart ?_ ?relationships)))
    (.optional (hpart ?_ ?metadata))) (.optional (hsame ?_ ?_))) (.optional (hsame ?_ ?_)))
  case fields =>
    exact fun x x' (hx : Itemwise _ x x') hjson hjson' =>
      hx.reads hjson hjson' fun _ _ hrel hitem _ => Field.reads hrel hitem
  case relationships =>
    exact fun x x' (hx : Itemwise _ x x') hjson hjson' =>
      hx.reads hjson hjson' fun _ _ hrel hitem _ => Relationship.reads hrel hitem
  case metadata => exact fun x x' hx hjson _ => Metadata.reads hx hjson
  all_goals decide

end Scaffold.Model

namespace Scaffold.Schema

open Document

variable {α β : Type} {k : Key} {x : Value} {ms : Members} {read : Value → Checked α}
  {a default : α}

namespace Checked

theorem map_ok {x : Checked α} {a : α} (f : α → β) (h : x = .ok a) : f <$> x = .ok (f a) := h ▸ rfl

theorem seq_ok {f : Checked (α → β)} {g : α → β} {x : Checked α} {a : α} (hf : f = .ok g)
    (h : x = .ok a) : f <*> x = .ok (g a) := hf ▸ h ▸ rfl

end Checked

/-! ## Values that are read back -/

theorem entity_of_isMapping {v : Value} (kind : String) (hv : v.isMapping = true)
    (h : read v = .ok a) : entity kind read v = .ok a := by
  rwa [entity, if_pos hv]

theorem required_of_lookup (hms : (Value.record ms).IsJson) (hx : ms.lookup k.spelling = some x)
    (hread : read x = .ok a) : required (.record ms) k read = .ok a := by
  have hvalue : k.value? (.record ms) = some x := by
    rw [Key.value?_eq, member?_record hms, hx, Option.some_or]
  exact (required_eq_ok_iff_value? _ k read).mpr ⟨x, hvalue, hread⟩

theorem optional_of_lookup (hms : (Value.record ms).IsJson) (hx : ms.lookup k.spelling = some x)
    (hread : read x = .ok a) : optional (.record ms) k default read = .ok a := by
  have hvalue : k.value? (.record ms) = some x := by
    rw [Key.value?_eq, member?_record hms, hx, Option.some_or]
  exact (optional_eq_ok_iff _ k default read).mpr (.inr ⟨x, hvalue, hread⟩)

/-- A list of documents is read back if each of them is. -/
theorem listOf_map {document : α → Value} {as : List α} (hjson : ∀ a ∈ as, (document a).IsJson)
    (hread : ∀ a ∈ as, read (document a) = .ok a) :
    listOf read (.list (as.map document)) = .ok as := by
  have hitems (i : Nat) : itemsFrom read i (as.map document) = .ok as := by
    clear hjson
    induction as generalizing i with
    | nil => rfl
    | cons a as ih =>
      obtain ⟨ha, has⟩ := List.forall_mem_cons.mp hread
      rw [List.map_cons, itemsFrom, ha, ih has]
      rfl
  have hlist : (Value.list (as.map document)).IsJson := .list (List.forall_mem_map.mpr hjson)
  rw [listOf, Value.sequence?, hlist.items_eq]
  exact hitems 0

end Scaffold.Schema

namespace Scaffold.Model

open Document Schema

open Checked (map_ok seq_ok)

theorem nullable_optionalText (s : Option String) : nullable text (optionalText s) = .ok s := by
  cases s <;> rfl

theorem Operand.read_document (o : Operand) : read o.document = .ok o := by
  cases o <;> rfl

theorem choice_ruleKind (k : RuleKind) : choice (.text (Named.text k)) = .ok k := by
  cases k <;> rfl

theorem choice_fieldType (t : FieldType) : choice (.text (Named.text t)) = .ok t := by
  cases t <;> rfl

theorem choice_cardinality (c : Cardinality) : choice (.text (Named.text c)) = .ok c := by
  cases c <;> rfl

namespace Rule

theorem read_document (r : Rule) : read r.document = .ok r := by
  have hjson := r.isJson_document
  refine entity_of_isMapping _ rfl (seq_ok (seq_ok
    (map_ok mk (required_of_lookup hjson rfl ?kind)) (required_of_lookup hjson rfl ?operand))
    (optional_of_lookup hjson rfl ?message))
  case kind => exact choice_ruleKind r.kind
  case operand => exact r.operand.read_document
  case message => exact nullable_optionalText r.message

end Rule

namespace Field

variable {f : Field}

/-- A field is read back if its name has a length that is allowed. -/
theorem read_document (hname : boundedText 1 (some 100) (.text f.name) = .ok f.name)
    (hdefault : f.default.IsJson) : read f.document = .ok f := by
  have hjson := f.isJson_document hdefault
  refine entity_of_isMapping _ rfl (seq_ok (seq_ok (seq_ok (seq_ok (seq_ok (seq_ok (seq_ok
    (map_ok mk (optional_of_lookup hjson rfl ?id)) (required_of_lookup hjson rfl hname))
    (required_of_lookup hjson rfl ?type)) (optional_of_lookup hjson rfl rfl))
    (optional_of_lookup hjson rfl rfl)) (optional_of_lookup hjson rfl rfl))
    (optional_of_lookup hjson rfl ?rules)) (optional_of_lookup hjson rfl ?description))
  case id => exact nullable_optionalText f.id
  case type => exact choice_fieldType f.type
  case rules => exact listOf_map (fun r _ => r.isJson_document) fun r _ => r.read_document
  case description => exact nullable_optionalText f.description

end Field

namespace Relationship

theorem read_document (r : Relationship) : read r.document = .ok r := by
  have hjson := r.isJson_document
  refine entity_of_isMapping _ rfl (seq_ok (seq_ok (seq_ok (seq_ok (seq_ok (seq_ok
    (map_ok mk (optional_of_lookup hjson rfl ?id)) (required_of_lookup hjson rfl ?cardinality))
    (required_of_lookup hjson rfl rfl)) (required_of_lookup hjson rfl rfl))
    (required_of_lookup hjson rfl rfl)) (required_of_lookup hjson rfl rfl))
    (optional_of_lookup hjson rfl rfl))
  case id => exact nullable_optionalText r.id
  case cardinality => exact choice_cardinality r.cardinality

end Relationship

namespace Metadata

theorem read_document (m : Metadata) : read m.document = .ok m := by
  have hjson := m.isJson_document
  refine entity_of_isMapping _ rfl (seq_ok (seq_ok (seq_ok (seq_ok (seq_ok
    (map_ok mk (optional_of_lookup hjson rfl ?tableName)) (optional_of_lookup hjson rfl rfl))
    (optional_of_lookup hjson rfl rfl)) (optional_of_lookup hjson rfl ?description))
    (optional_of_lookup hjson rfl rfl)) (optional_of_lookup hjson rfl ?allowedRoles))
  case tableName => exact nullable_optionalText m.tableName
  case description => exact nullable_optionalText m.description
  case allowedRoles => exact listOf_map (fun s _ => .text s) fun s _ => rfl

end Metadata

end Scaffold.Model

namespace Scaffold.Model

open Document Schema Model

open Checked (map_ok seq_ok)

variable {v : Value} {m : Model}

/-- The document says neither when the model was made nor when it was changed. -/
def Undated (v : Value) : Prop :=
  ∀ k ∈ [createdAtKey, updatedAtKey], ∀ x, k.value? v = some x → x = .null

/-! ## What reading has made sure of -/

theorem boundedText_of_required (hv : v.IsJson) {name s : String} {least : Nat} {most : Option Nat}
    (h : required v (.plain name) (boundedText least most) = .ok s) :
    boundedText least most (.text s) = .ok s := by
  obtain ⟨x, hx, hread⟩ := (required_eq_ok_iff_value? v _ _).mp h
  have heq : x = .text s :=
    eq_of_text_eq_ok (isJson_of_value? hv hx) (text_eq_ok_of_boundedText hread)
  rwa [← heq]

/-- A name that was read is within its bounds. -/
theorem Field.boundedText_name (hv : v.IsJson) {f : Field} (h : Field.read v = .ok f) :
    boundedText 1 (some 100) (.text f.name) = .ok f.name := by
  rw [Field.read, entity] at h
  split at h
  · obtain ⟨_, _, h₁, -, rfl⟩ := Checked.apply_eq_ok_iff.mp h
    obtain ⟨_, _, h₂, -, rfl⟩ := Checked.apply_eq_ok_iff.mp h₁
    obtain ⟨_, _, h₃, -, rfl⟩ := Checked.apply_eq_ok_iff.mp h₂
    obtain ⟨_, _, h₄, -, rfl⟩ := Checked.apply_eq_ok_iff.mp h₃
    obtain ⟨_, _, h₅, -, rfl⟩ := Checked.apply_eq_ok_iff.mp h₄
    obtain ⟨_, _, h₆, -, rfl⟩ := Checked.apply_eq_ok_iff.mp h₅
    obtain ⟨_, name, h₇, hname, rfl⟩ := Checked.apply_eq_ok_iff.mp h₆
    obtain ⟨_, -, rfl⟩ := Checked.map_eq_ok_iff.mp h₇
    exact boundedText_of_required hv hname
  · cases h

theorem eq_none_of_undated {k : Key} (hk : k ∈ [createdAtKey, updatedAtKey]) (hundated : Undated v)
    {t : Option Calendar.Moment} (h : optional v k none (nullable moment) = .ok t) : t = none := by
  obtain ⟨-, ht⟩ | ⟨x, hx, hread⟩ := (optional_eq_ok_iff v k none _).mp h
  · exact ht
  · obtain rfl := hundated k hk x hx
    cases hread
    rfl

/-- So is that of a model; and without times in the document the model has none. -/
theorem of_read (hv : v.IsJson) (h : read v = .ok m) :
    boundedText 1 (some 100) (.text m.name) = .ok m.name ∧
      (Undated v → m.createdAt = none ∧ m.updatedAt = none) := by
  rw [read, entity] at h
  split at h
  · obtain ⟨_, updatedAt, h₁, hupdatedAt, rfl⟩ := Checked.apply_eq_ok_iff.mp h
    obtain ⟨_, createdAt, h₂, hcreatedAt, rfl⟩ := Checked.apply_eq_ok_iff.mp h₁
    obtain ⟨_, _, h₃, -, rfl⟩ := Checked.apply_eq_ok_iff.mp h₂
    obtain ⟨_, _, h₄, -, rfl⟩ := Checked.apply_eq_ok_iff.mp h₃
    obtain ⟨_, _, h₅, -, rfl⟩ := Checked.apply_eq_ok_iff.mp h₄
    obtain ⟨_, name, h₆, hname, rfl⟩ := Checked.apply_eq_ok_iff.mp h₅
    obtain ⟨_, -, rfl⟩ := Checked.map_eq_ok_iff.mp h₆
    exact ⟨boundedText_of_required hv hname, fun hundated =>
      ⟨eq_none_of_undated (by simp) hundated hcreatedAt,
        eq_none_of_undated (by simp) hundated hupdatedAt⟩⟩
  · cases h

/-! ## Models -/

/-- A model without times is a JSON document if its defaults are. -/
theorem isJson_document (hfields : ∀ f ∈ m.fields, f.default.IsJson)
    (hcreatedAt : m.createdAt = none) (hupdatedAt : m.updatedAt = none) : m.document.IsJson := by
  refine .record ?_
  simp only [List.forall_mem_cons, List.not_mem_nil, false_implies, implies_true, and_true]
  have hfs : ∀ v ∈ m.fields.map Field.document, v.IsJson :=
    List.forall_mem_map.mpr fun f hf => f.isJson_document (hfields f hf)
  have hrels : ∀ v ∈ m.relationships.map Relationship.document, v.IsJson :=
    List.forall_mem_map.mpr fun r _ => r.isJson_document
  rw [hcreatedAt, hupdatedAt]
  exact ⟨isJson_optionalText _, .text _, .list hfs, .list hrels, m.metadata.isJson_document, .null,
    .null⟩

/-- **A model is read back from its document.** -/
theorem read_document (hv : v.IsJson) (h : read v = .ok m) (hundated : Undated v) :
    read m.document = .ok m := by
  obtain ⟨hname, hdates⟩ := of_read hv h
  obtain ⟨hcreatedAt, hupdatedAt⟩ := hdates hundated
  have hfields : ∀ f ∈ m.fields, f.default.IsJson ∧ Field.read f.document = .ok f := by
    intro f hf
    obtain ⟨x, hx, hread⟩ := (Validation.of_model_read hv h).2.1.exists_of_mem_right hf
    have hjson : x.IsJson := Validation.isJson_of_mem_lookItems hv hx
    have hdefault : f.default.IsJson :=
      Validation.holds_default Value.partwise_isJson .null hjson hjson hread
    exact ⟨hdefault, f.read_document (Field.boundedText_name hjson hread) hdefault⟩
  have hjson := m.isJson_document (fun f hf => (hfields f hf).1) hcreatedAt hupdatedAt
  refine entity_of_isMapping _ rfl (seq_ok (seq_ok (seq_ok (seq_ok (seq_ok (seq_ok
    (map_ok mk (optional_of_lookup hjson rfl ?id)) (required_of_lookup hjson rfl hname))
    (optional_of_lookup hjson rfl ?fields)) (optional_of_lookup hjson rfl ?relationships))
    (optional_of_lookup hjson rfl ?metadata)) (optional_of_lookup hjson rfl ?createdAt))
    (optional_of_lookup hjson rfl ?updatedAt))
  case id => exact nullable_optionalText m.id
  case fields =>
    exact listOf_map (fun f hf => f.isJson_document (hfields f hf).1) fun f hf => (hfields f hf).2
  case relationships => exact listOf_map (fun r _ => r.isJson_document) fun r _ => r.read_document
  case metadata => exact m.metadata.read_document
  case createdAt => rw [hcreatedAt]; rfl
  case updatedAt => rw [hupdatedAt]; rfl

/-- **A model is what its document says, in either spelling.**  A model that was read from a document
without moments is read again from its own document; and from the document with any members of the
model, its fields, its relationships or its metadata under the names of their keys. -/
theorem read_round_trip (hv : v.IsJson) (h : read v = .ok m) :
    (Undated v → read m.document = .ok m) ∧
      ∀ v', Respelled keys PartRespelled v v' → read v' = .ok m :=
  ⟨read_document hv h, fun _ hrespelled => reads hrespelled hv m h⟩

/-- Members of a field and of the metadata by their names, and those of a model as they were. -/
theorem read_round_trip_written :
    let v := Value.record [("name", .text "Person"),
      ("fields", .list [.record [("name", .text "age"), ("type", .text "integer"),
        ("defaultValue", .int 1)]]), ("metadata", .record [("tableName", .text "people")])]
    let v' := Value.record [("name", .text "Person"),
      ("fields", .list [.record [("name", .text "age"), ("type", .text "integer"),
        ("default_value", .int 1)]]), ("metadata", .record [("table_name", .text "people")])]
    ∃ m, read v = .ok m ∧ read m.document = .ok m ∧ read v' = .ok m := by
  intro v v'
  have hfield : (Value.record [("name", .text "age"), ("type", .text "integer"),
      ("defaultValue", .int 1)]).IsJson := .record (by simp [Value.IsJson.text, Value.IsJson.int])
  have hv : v.IsJson := by
    refine .record ?_
    simp only [List.forall_mem_cons, List.not_mem_nil, false_implies, implies_true, and_true]
    exact ⟨.text _, .list (by simpa using hfield), .record (by simp [Value.IsJson.text])⟩
  have hread : read v = .ok ⟨none, "Person",
      [⟨none, "age", .integer, false, false, .int 1, [], none⟩], [],
      ⟨some "people", true, false, none, true, []⟩, none, none⟩ := by rfl
  have hundated : Undated v := by
    intro k hk x hx
    simp at hk
    obtain rfl | rfl := hk <;> cases hx
  have hrespelled : Respelled keys PartRespelled v v' := by
    have hage : Reworded Field.keys (.record [("name", .text "age"), ("type", .text "integer"),
        ("defaultValue", .int 1)]) (.record [("name", .text "age"), ("type", .text "integer"),
        ("default_value", .int 1)]) :=
      .record [Field.defaultKey] (by decide) (by decide)
        (.cons ⟨rfl, rfl⟩ (.cons ⟨rfl, rfl⟩ (.cons ⟨rfl, rfl⟩ .nil)))
    have htable : Reworded Metadata.keys (.record [("tableName", .text "people")])
        (.record [("table_name", .text "people")]) :=
      .record [Metadata.tableNameKey] (by decide) (by decide) (.cons ⟨rfl, rfl⟩ .nil)
    have hfields : Itemwise (Reworded Field.keys) _ _ := .list (.cons hage .nil)
    exact .record [] (by decide) (by decide)
      (.cons ⟨rfl, rfl⟩ (.cons ⟨rfl, hfields⟩ (.cons ⟨rfl, htable⟩ .nil)))
  obtain ⟨hdocument, hrespell⟩ := read_round_trip hv hread
  exact ⟨_, hread, hdocument hundated, hrespell v' hrespelled⟩

end Scaffold.Model
