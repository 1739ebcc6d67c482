import Mathlib.Data.List.Nodup
import Mathlib.Data.String.Basic
import Scaffold.Template.Session
import Scaffold.Proofs.Template.Library

/-!
# Proofs/Template/Session — a registry in use holds what was registered last

The registrations of a session are read off its requests and answers.  Behind any requests the
registry **holds** them: under each name the text that was registered last, with the nodes that this
text reads as, and under no other name anything (`holds_handle` for one request, `holds_serve` for
all).  All that a registry answers follows from this (`serves_latest`), and a registration that is
refused leaves it as it was.
-/

namespace Scaffold.Template

/-! ## What was registered -/

/-- The registration that a request made, as its answer tells. -/
def registration? : Request × Except Failure Answer → Option (String × String)
  | (.add name source, .ok _) => some (name, source)
  | _ => none

/-- The registrations that requests made, first to last. -/
def registrations (qs : List Request) (as : List (Except Failure Answer)) :
    List (String × String) :=
  (qs.zip as).filterMap registration?

/-- The text that was registered last under a name. -/
def latest? (made : List (String × String)) (name : String) : Option String :=
  made.reverse.lookup name

/-- The latest registration is what a name stands for. -/
theorem latest?_append_singleton (made : List (String × String)) (name source n : String) :
    latest? (made ++ [(name, source)]) n = if n = name then some source else latest? made n := by
  rw [latest?, List.reverse_append, List.reverse_singleton, List.singleton_append, List.lookup_cons]
  by_cases h : n = name
  · rw [if_pos h, beq_iff_eq.mpr h]
  · rw [if_neg h, beq_eq_false_iff_ne.mpr h]
    rfl

theorem isSome_latest?_iff {made : List (String × String)} {name : String} :
    (latest? made name).isSome = true ↔ name ∈ made.map (·.1) := by
  rw [latest?, List.lookup_isSome_iff]
  simp

namespace Registry

/-- A stored template has the text `source`, and the nodes that it reads as. -/
def IsReading (e : Entry) (source : String) : Prop :=
  e.source = source ∧ Node.parse source = .ok e.nodes

/-- Under each name the registry has what was registered last, and nothing under other names. -/
structure Holds (r : Registry) (made : List (String × String)) : Prop where
  nodup : (r.entries.map (·.1)).Nodup
  latest : ∀ name, Option.Rel IsReading (r.find? name) (latest? made name)

/-! ## What one registration does -/

theorem mem_map_put {name n : String} {e : Entry} {es : List (String × Entry)} :
    n ∈ (add.put name e es).map (·.1) ↔ n = name ∨ n ∈ es.map (·.1) := by
  induction es with
  | nil => simp [add.put]
  | cons f es ih =>
    rw [add.put]
    split
    · rename_i hf
      simp [hf]
    · rw [List.map_cons, List.mem_cons, ih, List.map_cons, List.mem_cons]
      tauto

/-- Names stay distinct when one is put in. -/
theorem nodup_put (name : String) (e : Entry) {es : List (String × Entry)}
    (h : (es.map (·.1)).Nodup) : ((add.put name e es).map (·.1)).Nodup := by
  induction es with
  | nil => exact List.nodup_singleton name
  | cons f es ih =>
    obtain ⟨hf, hes⟩ := List.nodup_cons.mp h
    rw [add.put]
    split
    · exact List.nodup_cons.mpr ⟨hf, hes⟩
    · rename_i hne
      refine List.nodup_cons.mpr ⟨fun hmem => ?_, ih hes⟩
      exact (mem_map_put.mp hmem).elim hne hf

variable {r r' : Registry} {made : List (String × String)}

/-- A registration keeps the registry in step with the history. -/
theorem Holds.add (h : r.Holds made) {name source : String} (hadd : r.add name source = .ok r') :
    r'.Holds (made ++ [(name, source)]) := by
  obtain ⟨ns, hns, hfind⟩ := add_eq_ok hadd
  constructor
  · obtain ⟨ns', -, rfl⟩ := Except.map_eq_ok_iff.mp hadd
    exact nodup_put name _ h.nodup
  · intro n
    rw [hfind, latest?_append_singleton]
    split
    · exact .some ⟨rfl, hns⟩
    · exact h.latest n

/-- A template is registered, or it is rejected with the error of its source. -/
theorem add_eq (r : Registry) (name source : String) :
    (∃ ns r', Node.parse source = .ok ns ∧ r.add name source = .ok r') ∨
      ∃ m, Node.parse source = .error m ∧ r.add name source = .error m := by
  rw [Registry.add]
  cases Node.parse source with
  | ok ns => exact .inl ⟨ns, _, rfl, rfl⟩
  | error m => exact .inr ⟨m, rfl, rfl⟩

/-- So do many. -/
theorem Holds.addAll {ts : List (String × String)} (h : r.Holds made)
    (hadd : r.addAll ts = .ok r') : r'.Holds (made ++ ts) := by
  induction ts generalizing r made with
  | nil =>
    cases hadd
    rwa [List.append_nil]
  | cons t ts ih =>
    rw [Registry.addAll] at hadd
    split at hadd
    · rename_i r₁ hr₁
      have hrest := ih (h.add hr₁) hadd
      rwa [List.append_assoc] at hrest
    · cases hadd

theorem holds_opened {library : Bool} {given : List (String × String)}
    (h : opened library given = .ok r) : r.Holds (initial library given) := by
  have hempty : empty.Holds [] := ⟨List.nodup_nil, fun _ => .none⟩
  exact hempty.addAll h

/-! ## What a session does -/

/-- **One request** registers what its answer tells, and else leaves the registry alone. -/
theorem holds_handle (h : r.Holds made) (q : Request) :
    (r.handle q).1.Holds (made ++ (registration? (q, (r.handle q).2)).toList) := by
  cases q with
  | add name source =>
    rw [handle]
    split
    · rename_i r' hadd
      exact h.add hadd
    · exact (List.append_nil made).symm ▸ h
  | render | renderText | source | has | names | size => exact (List.append_nil made).symm ▸ h

/-- **Behind any requests** the registry holds what they have registered. -/
theorem holds_serve (h : r.Holds made) (qs : List Request) :
    (r.serve qs).1.Holds (made ++ registrations qs (r.serve qs).2) := by
  induction qs generalizing r made with
  | nil =>
    change r.Holds (made ++ [])
    rwa [List.append_nil]
  | cons q qs ih =>
    have hrest := ih (holds_handle h q)
    have hcons (a : Except Failure Answer) (as : List (Except Failure Answer)) :
        registrations (q :: qs) (a :: as) =
          (registration? (q, a)).toList ++ registrations qs as := by
      rw [registrations, List.zip_cons_cons, List.filterMap_cons]
      cases registration? (q, a) <;> rfl
    rw [List.append_assoc, ← hcons] at hrest
    exact hrest

/-! ## What a registry answers -/

section Answers

variable (h : r.Holds made)
include h

theorem Holds.isSome_find? (name : String) :
    (r.find? name).isSome = (latest? made name).isSome := by
  have hlatest := h.latest name
  generalize r.find? name = e, latest? made name = s at hlatest
  cases hlatest <;> rfl

/-- The registry serves the latest source. -/
theorem Holds.source_eq (name : String) :
    r.source name = (latest? made name).elim (.error (.notFound name)) .ok := by
  have hlatest := h.latest name
  rw [Registry.source]
  generalize r.find? name = e, latest? made name = s at hlatest
  cases hlatest with
  | some hreading => exact congrArg Except.ok hreading.1
  | none => rfl

theorem Holds.has_iff {name : String} : r.has name = true ↔ name ∈ made.map (·.1) := by
  rw [has, h.isSome_find?, isSome_latest?_iff]

theorem Holds.mem_names_iff {name : String} : name ∈ r.names ↔ name ∈ made.map (·.1) := by
  rw [names, List.mem_mergeSort, ← h.has_iff, has, find?, List.lookup_isSome_iff]
  simp

/-- It lists its names in order. -/
theorem Holds.pairwise_names : r.names.Pairwise (· < ·) := by
  have hsorted : r.names.Pairwise (· ≤ ·) := by
    have hpairwise : (r.entries.map (·.1) |>.mergeSort fun a b => decide (a ≤ b)).Pairwise
        fun a b => decide (a ≤ b) :=
      List.pairwise_mergeSort (fun a b c => by simpa using le_trans)
        (fun a b => by simpa using le_total a b) _
    simpa [names] using hpairwise
  have hnodup : r.names.Nodup := (List.mergeSort_perm _ _).nodup_iff.mpr h.nodup
  exact (hsorted.and hnodup).imp fun hab => lt_of_le_of_ne hab.1 hab.2

/-- A registered template is rendered as its text is. -/
theorem Holds.render_eq (name : String) (context : Item) :
    r.render name context = r.source name >>= (renderText · context) := by
  have hlatest := h.latest name
  rw [Registry.render, Registry.source]
  generalize r.find? name = e, latest? made name = s at hlatest
  cases hlatest with
  | @some e source hreading =>
    obtain ⟨rfl, hparse⟩ := hreading
    change _ = renderText e.source context
    rw [renderText, hparse]
  | none => rfl

end Answers

/-- A registration that is refused changes no answer that is given later. -/
theorem serve_add_of_malformed {name source : String} {m : Malformed}
    (h : Node.parse source = .error m) (r : Registry) (later : List Request) :
    r.serve (.add name source :: later) =
      ((r.serve later).1, .error (.malformed m) :: (r.serve later).2) := by
  obtain ⟨ns, -, hns, -⟩ | ⟨m', hm', hadd⟩ := r.add_eq name source
  · cases h.symm.trans hns
  · cases h.symm.trans hm'
    rw [serve, handle, hadd]

/-- **A registry in use holds what was registered last.**  However it was opened and whatever it was
asked for, the text of a name is the one that was registered last under it; the names, in order and
each once, are those that were registered; a registered template is rendered as its text is; and
what is no template is refused, as if it had never been offered. -/
theorem serves_latest {library : Bool} {given : List (String × String)}
    (hopened : opened library given = .ok r) (qs : List Request) :
    let s := (r.serve qs).1
    let made := initial library given ++ registrations qs (r.serve qs).2
    (∀ name, s.source name = (latest? made name).elim (.error (.notFound name)) .ok) ∧
      (s.names.Pairwise (· < ·) ∧ s.size = s.names.length ∧
        ∀ name, name ∈ s.names ↔ name ∈ made.map (·.1)) ∧
      (∀ name, s.has name = true ↔ name ∈ made.map (·.1)) ∧
      (∀ name context, s.render name context = s.source name >>= (renderText · context)) ∧
      (∀ name source, (s.handle (.add name source)).2 = .ok .done ↔
        ∃ ns, Node.parse source = .ok ns) ∧
      ∀ name source m, Node.parse source = .error m → ∀ later,
        s.serve (.add name source :: later) =
          ((s.serve later).1, .error (.malformed m) :: (s.serve later).2) := by
  intro s made
  have h : s.Holds made := holds_serve (holds_opened hopened) qs
  refine ⟨h.source_eq, ⟨h.pairwise_names, ?_, fun name => h.mem_names_iff⟩, fun name => h.has_iff,
    h.render_eq, fun name source => ?_, fun name source m hm later =>
    serve_add_of_malformed hm s later⟩
  · rw [size, names, List.length_mergeSort, List.length_map]
  · rw [handle]
    obtain ⟨ns, s', hns, hadd⟩ | ⟨m, hm, hadd⟩ := s.add_eq name source
    · rw [hadd, hns]
      simp
    · rw [hadd, hm]
      simp

/-- A text that is overwritten is gone, and one that is no template takes no one's place. -/
theorem serves_latest_overwritten :
    ∃ r, opened false [("greet", r"Hi {{name}}")] = .ok r ∧
      (r.serve [.add "greet" r"Bye {{name}}", .add "greet" r"{{#if a}}"]).1.source "greet" =
        .ok r"Bye {{name}}" := by
  have hopened : opened false [("greet", r"Hi {{name}}")] =
      .ok ⟨[("greet", ⟨r"Hi {{name}}", [.text "Hi ", .name "name" r"{{name}}"]⟩)]⟩ := by cbv
  refine ⟨_, hopened, ?_⟩
  obtain ⟨hsource, -⟩ :=
    serves_latest hopened [.add "greet" r"Bye {{name}}", .add "greet" r"{{#if a}}"]
  have hmade : initial false [("greet", r"Hi {{name}}")] ++
      registrations [.add "greet" r"Bye {{name}}", .add "greet" r"{{#if a}}"]
        (Registry.serve ⟨[("greet", ⟨r"Hi {{name}}", [.text "Hi ", .name "name" r"{{name}}"]⟩)]⟩
          [.add "greet" r"Bye {{name}}", .add "greet" r"{{#if a}}"]).2 =
      [("greet", r"Hi {{name}}")] ++ [("greet", r"Bye {{name}}")] := by decide +kernel
  rw [hsource "greet", hmade, latest?_append_singleton, if_pos rfl]
  rfl

end Registry

end Scaffold.Template
