import Scaffold.Proofs.Artifact.RoleLists
import Scaffold.Proofs.Artifact.SignIn
import Scaffold.Proofs.Project.Endpoints
import Scaffold.Proofs.Project.Gated

/-!
# Proofs/Project/RoleClosure — every role that a project names is one of its roles

The roles of a project are collected once, and its guards, its suites and the files of its login are
made from the models and from this collection.  Each name is added where it is first met, so the
collection has no name twice and misses none (`names_of_build`).  What the guards name and the suites
sign in with are names of the collection, and the files of the login list all of it
(`roles_closed`).
-/

namespace Scaffold.Project

open Artifact Options Template Text

/-! ## Collecting the roles -/

/-- Roles with different names stay so, and every name that is met becomes one. -/
theorem of_admitRoles_eq_ok {roles rs : List Role} {names : List String}
    (hnodup : (roles.map (·.name)).Nodup) (h : admitRoles roles names = .ok rs) :
    (rs.map (·.name)).Nodup ∧ roles <+: rs ∧ ∀ n ∈ names, n ∈ rs.map (·.name) := by
  induction names generalizing roles with
  | nil =>
    cases h
    exact ⟨hnodup, List.prefix_rfl, fun n hn => absurd hn List.not_mem_nil⟩
  | cons name names ih =>
    obtain ⟨admitted, hroles, h⟩ := admitRoles_cons_eq_ok h
    have hadmitted : (admitted.map (·.name)).Nodup ∧ roles <+: admitted ∧
        name ∈ admitted.map (·.name) := by
      obtain ⟨hmem, rfl⟩ | ⟨hnew, rfl⟩ := of_admitRole_eq_ok hroles
      · exact ⟨hnodup, List.prefix_rfl, hmem⟩
      · rw [List.map_append, List.nodup_append']
        refine ⟨⟨hnodup, List.nodup_singleton _, ?_⟩, List.prefix_append _ _, ?_⟩
        · simpa [readerRole] using hnew
        · simp [readerRole]
    obtain ⟨hrest, hfirst, hmem⟩ := ih hadmitted.1 h
    refine ⟨hrest, hadmitted.2.1.trans hfirst, List.forall_mem_cons.mpr ⟨?_, hmem⟩⟩
    exact (hfirst.map _).subset hadmitted.2.2

/-- The roles are distinct, begin with the usual two and are all that a model allows. -/
theorem names_of_authOf_eq_ok {o : Generation} {models : List Model} {endpoints : List Endpoint}
    {a : Auth} (h : authOf o models endpoints = .ok a) :
    a.roleNames.Nodup ∧ ["admin", "user"] <+: a.roleNames ∧
      ∀ m ∈ models, ∀ n ∈ m.metadata.allowedRoles, n ∈ a.roleNames := by
  obtain ⟨roles, hroles, rfl⟩ := exists_of_authOf_eq_ok h
  obtain ⟨hnodup, hfirst, hmem⟩ := of_admitRoles_eq_ok (by decide) hroles
  refine ⟨hnodup, ?_, fun m hm n hn => hmem n (List.mem_flatMap.mpr ⟨m, hm, hn⟩)⟩
  exact hfirst.map fun r => r.name

section Built

variable {r : Registry} {o : Generation} {models : List Model} {name : Option String} {moment : Nat}
  {p : Project}

/-- **The roles of a project that was built have different names**, the default ones first, and
every role that a model allows is among them. -/
theorem names_of_build (h : build r o models name moment = .ok p) :
    p.auth.roleNames.Nodup ∧ ["admin", "user"] <+: p.auth.roleNames ∧
      ∀ m ∈ models, ∀ n ∈ m.metadata.allowedRoles, n ∈ p.auth.roleNames := by
  obtain ⟨a, fs, gs, -, ha, -, -, rfl⟩ := exists_of_build_eq_ok h
  exact names_of_authOf_eq_ok ha

end Built

/-! ## The closure -/

/-- **Every role that a project names is one of its roles.**  These have different names, the default
ones first; the guards of its models name no other role and the suites sign in with no other, and
the accounts that the suites sign in with may do what they do; the files of the login list exactly
these roles, and the role of an account that names none is one of them. -/
theorem roles_closed {o : Generation} {models : List Model} {name : Option String} {moment : Nat}
    {p : Project} (h : build Library.registry o models name moment = .ok p) :
    p.auth.roleNames.Nodup ∧ ["admin", "user"] <+: p.auth.roleNames ∧
      (∀ m ∈ models, UsesRoles o m p.auth.roleNames) ∧ NamesRoles o p.auth := by
  obtain ⟨hnodup, hfirst, hallowed⟩ := names_of_build h
  have hadmin : "admin" ∈ p.auth.roleNames := hfirst.subset List.mem_cons_self
  have huser : "user" ∈ p.auth.roleNames :=
    hfirst.subset (List.mem_cons_of_mem _ List.mem_cons_self)
  exact ⟨hnodup, hfirst, fun m hm => usesRoles hadmin huser (hallowed m hm),
    namesRoles o (List.ne_nil_of_mem hadmin)⟩

/-- Posts that editors write, beside the model of the accounts' name. -/
theorem exists_build_editedModel :
    ∃ p, build Library.registry .default [userModel, editedModel] none 0 = .ok p := by
  have hsegments : userModel.routeName = "user" ∧ editedModel.routeName = "blogpost" := by
    decide
  have hnames : ([userModel, editedModel].map Model.routeName).Nodup := by
    simp [hsegments]
  have hfilled : ∀ m ∈ [userModel, editedModel], "" ∉ m.metadata.allowedRoles := by
    simp [userModel, editedModel, Model.Metadata.default]
  have hclashes : ¬Clashes .default [userModel, editedModel] := by
    simp only [Clashes, List.mem_cons, List.not_mem_nil, or_false, exists_eq_or_imp, exists_eq_left,
      hsegments]
    decide
  obtain ⟨p, hbuild, -⟩ := exists_build_of_not_clashes rfl hnames hfilled hclashes none 0
  exact ⟨p, hbuild⟩

/-- Two models and the roles of their project. -/
theorem roles_closed_editedModel :
    ∃ p, build Library.registry .default [userModel, editedModel] none 0 = .ok p ∧
      p.auth.roleNames.Nodup ∧ ["admin", "user"] <+: p.auth.roleNames ∧
      (∀ m ∈ [userModel, editedModel], UsesRoles .default m p.auth.roleNames) ∧
      NamesRoles .default p.auth := by
  obtain ⟨p, hbuild⟩ := exists_build_editedModel
  exact ⟨p, hbuild, roles_closed hbuild⟩

end Scaffold.Project
