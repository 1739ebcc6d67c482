import Mathlib.Logic.Basic
import Scaffold.Proofs.Artifact.Bodies
import Scaffold.Proofs.Project.Collision
import Scaffold.Proofs.Validation.Subjects

/-!
# Proofs/Project/Gated — what models without an error can come to

Models in which no error has been found are read, and a project is made from them unless files
collide, a default or an operand cannot be shown, or a role has an empty name (`outcome_of_valid`).
The rules look at none of these.  Nothing in a JSON document whose whole numbers can be written stands
in the way, but an empty role does even where nobody logs in (`valid_with_empty_role`).
-/

namespace Scaffold.Project

open Artifact Document Model Options Schema Template Validation

/-! ## Roles with an empty name -/

/-- A role without a name is not admitted. -/
theorem admitRoles_of_empty {roles : List Role} (h : ∀ r ∈ roles, r.name ≠ "")
    {names : List String} (hnames : "" ∈ names) : admitRoles roles names = .bad [emptyName] := by
  induction names generalizing roles with
  | nil => exact absurd hnames List.not_mem_nil
  | cons name names ih =>
    rw [admitRoles]
    by_cases hname : name = ""
    · rw [hname, admitRole_empty (by simpa using h)]
      rfl
    · have hrest : "" ∈ names := (List.mem_cons.mp hnames).resolve_left (Ne.symm hname)
      rw [admitRole_eq_ok roles hname]
      refine ih (fun r hr => ?_) hrest
      split at hr
      · exact h r hr
      · obtain hr | hr := List.mem_append.mp hr
        · exact h r hr
        · rwa [List.mem_singleton.mp hr]

/-- A model that allows such a role breaks off the generation. -/
theorem build_of_empty_role {o : Generation} {models : List Model} (hfit : unfit? o models = none)
    (hroles : ∃ m ∈ models, "" ∈ m.metadata.allowedRoles) (name : Option String) (moment : Nat) :
    build Library.registry o models name moment = .error (.role [emptyName]) := by
  obtain ⟨fs, hfs⟩ := exists_allModelFiles hfit
  have hauth : authOf o models (models.flatMap (modelEndpoints o)) = .bad [emptyName] := by
    rw [authOf, admitRoles_of_empty (by decide) (List.mem_flatMap.mpr hroles)]
    rfl
  simp only [build, hfs, hauth]
  rfl

/-! ## JSON documents -/

/-- A model can be shown that is read from a JSON document whose whole numbers can be written. -/
theorem unfitModel?_of_read (o : Generation) {v : Value} (hv : v.IsJson)
    (hspelled : v.unspelled? = none) {m : Model} (h : Model.read v = .ok m) :
    unfitModel? o m = none := by
  have hfield : ∀ f ∈ m.fields, ∃ x : Value, x.IsJson ∧ x.unspelled? = none ∧
      Field.read x = .ok f := by
    intro f hf
    obtain ⟨x, hx, hread⟩ := (of_model_read hv h).2.1.exists_of_mem_right hf
    exact ⟨x, isJson_of_mem_lookItems hv hx,
      holds_of_mem_lookItems Value.partwise_unspelled? hv hspelled hx, hread⟩
  have hdefaults : unfitIn? m = none := by
    refine unfitIn?_of_isJson (fun f hf => ?_) fun f hf => ?_
    · obtain ⟨x, hx, -, hread⟩ := hfield f hf
      exact holds_default Value.partwise_isJson .null hx hx hread
    · obtain ⟨x, hx, hxs, hread⟩ := hfield f hf
      exact holds_default Value.partwise_unspelled? rfl hx hxs hread
  have hoperands : unwrittenOperand? m = none := by
    refine List.findSome?_eq_none_iff.mpr fun f hf => List.findSome?_eq_none_iff.mpr fun op hop => ?_
    obtain ⟨x, hx, hxs, hread⟩ := hfield f (List.mem_filter.mp hf).1
    obtain ⟨r, hr, rfl⟩ := exists_rule_of_mem_chainOperands hop
    obtain ⟨y, hy, hrule⟩ := (of_field_read hx hread).2.2.2.2.exists_of_mem_right hr
    exact unspelled?_operand (isJson_of_mem_lookItems hx hy)
      (holds_of_mem_lookItems Value.partwise_unspelled? hx hxs hy) hrule
  rw [unfitModel?, hdefaults, hoperands, ite_self, Option.none_or]

/-! ## Models without an error -/

/-- Subjects that are read are entities. -/
theorem exists_entities {subjects : List (Subject Model)}
    (h : ∀ s ∈ subjects, ∃ m, Subject.read s = .ok m) : ∃ ms, Job.entities subjects = .ok ms := by
  induction subjects with
  | nil => exact ⟨[], rfl⟩
  | cons s subjects ih =>
    obtain ⟨⟨m, hm⟩, hrest⟩ := List.forall_mem_cons.mp h
    obtain ⟨ms, hms⟩ := ih hrest
    exact ⟨m :: ms, by rw [Job.entities, hm, hms]; rfl⟩

/-- Models in which no error has been found are read. -/
theorem exists_entities_of_valid {subjects : List (Subject Model)} {r : Result}
    (h : validateModels subjects = .ok r) (hvalid : r.isValid = true) :
    ∃ ms, Job.entities subjects = .ok ms := by
  refine exists_entities fun s hs => ?_
  have hclean := (clean_of_valid h hvalid).1 s hs
  cases s with
  | entity m => exact ⟨m, rfl⟩
  | raw v =>
    exact exists_read_of_clean (clean_append.mp (clean_append.mp (clean_append.mp
      (clean_append.mp hclean).1).1).1).1

/-- **What models without an error come to.**  They are read, and under all options a project is
made from them or files collide, unless something in the files cannot be shown or a role has an empty
name.  What cannot be shown is met first: a default in a relational schema, or an operand in the
request checks.  JSON documents whose whole numbers can be written hold nothing of the kind. -/
theorem outcome_of_valid {subjects : List (Subject Model)} {r : Result}
    (h : validateModels subjects = .ok r) (hvalid : r.isValid = true) :
    ∃ ms, Job.entities subjects = .ok ms ∧
      ((∀ s ∈ subjects, ∃ v : Value, s = .raw v ∧ v.IsJson ∧ v.unspelled? = none) →
        ∀ o, unfit? o ms = none) ∧
      ∀ (o : Generation) (name : Option String) (moment : Nat),
        (((∃ p, build Library.registry o ms name moment = .ok p) ∨
            ∃ paths, build Library.registry o ms name moment = .error (.collision paths)) ↔
          unfit? o ms = none ∧ ∀ m ∈ ms, "" ∉ m.metadata.allowedRoles) ∧
        (∀ u, unfit? o ms = some u →
          build Library.registry o ms name moment = .error (.artifact (.unwritable u))) ∧
        (unfit? o ms = none → (∃ m ∈ ms, "" ∈ m.metadata.allowedRoles) →
          build Library.registry o ms name moment = .error (.role [emptyName])) := by
  obtain ⟨ms, hms⟩ := exists_entities_of_valid h hvalid
  refine ⟨ms, hms, fun hjson o => List.findSome?_eq_none_iff.mpr fun m hm => ?_,
    fun o name moment => ⟨?_, fun u hu => build_of_unfit hu name moment, fun hfit hroles =>
      build_of_empty_role hfit hroles name moment⟩⟩
  · obtain ⟨s, hs, hread⟩ := (forall₂_of_entities hms).exists_of_mem_right hm
    obtain ⟨v, rfl, hv, hspelled⟩ := hjson s hs
    exact unfitModel?_of_read o hv hspelled hread
  · constructor
    · intro hbuilt
      have hfit : unfit? o ms = none := by
        cases hunfit : unfit? o ms with
        | none => rfl
        | some u =>
          rw [build_of_unfit hunfit] at hbuilt
          obtain ⟨_, ⟨⟩⟩ | ⟨_, ⟨⟩⟩ := hbuilt
      refine ⟨hfit, fun m hm hrole => ?_⟩
      rw [build_of_empty_role hfit ⟨m, hm, hrole⟩] at hbuilt
      obtain ⟨_, ⟨⟩⟩ | ⟨_, ⟨⟩⟩ := hbuilt
    · rintro ⟨hfit, hroles⟩
      obtain ⟨p, -, hbuild⟩ := exists_build hfit hroles name moment
      rw [hbuild]
      split
      · exact .inl ⟨p, rfl⟩
      · exact .inr ⟨_, rfl⟩

/-- The document of notes, which some roles may write. -/
def notesDocument (roles : List String) : Value :=
  .record [("name", .text "Note"),
    ("fields", .list [.record [("name", .text "id"), ("type", .text "uuid"),
      ("unique", .bool true)]]),
    ("metadata", .record [("allowedRoles", .list (roles.map .text))])]

/-- Options for a service without a login. -/
def withoutLogin : Generation :=
  { Generation.default with authentication := .made .none }

/-- Notes that editors may write. -/
theorem outcome_of_valid_editor :
    ∃ r, validateModels [.raw (notesDocument ["editor"])] = .ok r ∧ r.isValid = true ∧
      ∃ ms, Job.entities [.raw (notesDocument ["editor"])] = .ok ms ∧
        ((∃ p, build Library.registry withoutLogin ms none 0 = .ok p) ∨
          ∃ paths, build Library.registry withoutLogin ms none 0 = .error (.collision paths)) := by
  obtain ⟨r, hr, hvalid⟩ := exists_valid [.raw (notesDocument ["editor"])]
    (by decide +kernel)
  obtain ⟨ms, hms, -, houtcome⟩ := outcome_of_valid hr hvalid
  refine ⟨r, hr, hvalid, ms, hms, (houtcome withoutLogin none 0).1.mpr ?_⟩
  cases hms
  exact ⟨rfl, List.forall_mem_singleton.mpr (by decide)⟩

/-- Notes with an empty role: no error is found, and there is no project, though nobody logs in. -/
theorem valid_with_empty_role :
    ∃ r, validateModels [.raw (notesDocument [""])] = .ok r ∧ r.isValid = true ∧
      ∃ ms, Job.entities [.raw (notesDocument [""])] = .ok ms ∧
        build Library.registry withoutLogin ms none 0 = .error (.role [emptyName]) := by
  refine ⟨_, rfl, by decide +kernel, _, rfl, build_of_empty_role rfl ?_ none 0⟩
  exact ⟨_, List.mem_singleton_self _, List.mem_singleton_self ""⟩

end Scaffold.Project
