import Scaffold.Proofs.Outcome
import Scaffold.Project.Build

/-!
# Proofs/Project/Assembly — the parts of a project that was built

A project is assembled from the files of its models, its authentication and the files of its login
(`build_eq`).  Conversely, a project that was built has these parts and no path twice
(`exists_of_build_eq_ok`).

Its authentication has the default roles and behind them the roles that its models name, each with
the permission to read (`exists_authOf`).  Only an empty name stands in the way.
-/

namespace Scaffold.Project

open Artifact Document Options Schema

/-! ## Parts -/

/-- All files of a project, from those of its models and those of its login. -/
def allFiles (o : Generation) (name : Option String) (models : List Model)
    (modelFiles loginFiles : List File) : List File :=
  rootFiles o (name.getD "generated-api") models ++ modelFiles ++ loginFiles ++
    sharedFiles o models

/-- All endpoints of a project. -/
def allEndpoints (o : Generation) (models : List Model) : List Endpoint :=
  models.flatMap (modelEndpoints o) ++ if o.authEnabled then loginEndpoints else []

/-- A project that is put together. -/
def assembled (o : Generation) (models : List Model) (name : Option String) (moment : Nat)
    (a : Auth) (files : List File) : Project where
  name := name.getD (defaultName moment)
  models := models
  endpoints := allEndpoints o models
  auth := a
  files := files
  openApi := interfaceDocument (name.getD (defaultName moment))
  options := o

section Parts

variable {r : Template.Registry} {o : Generation} {models : List Model} {name : Option String}
  {moment : Nat}

/-- A project is put together if its paths are distinct and all its files are there. -/
theorem build_eq {a : Auth} {fs gs : List File} (hmodels : allModelFiles r o models = .ok fs)
    (hauth : authOf o models (models.flatMap (modelEndpoints o)) = .ok a)
    (hlogin : placedLoginFiles r o models a = .ok gs) :
    build r o models name moment =
      let files := allFiles o name models fs gs
      let repeated := repeatedPaths (files.map (·.path))
      if repeated = [] then .ok (assembled o models name moment a files)
      else .error (.collision repeated) := by
  simp only [build, hmodels, hauth, hlogin, Except.mapError, Schema.Checked.toExcept, bind,
    Except.bind]
  split
  · rename_i hrepeated
    exact (if_pos hrepeated).symm
  · rename_i hrepeated
    exact (if_neg hrepeated).symm

/-- **What a project that was built consists of.** -/
theorem exists_of_build_eq_ok {p : Project} (h : build r o models name moment = .ok p) :
    ∃ a fs gs, allModelFiles r o models = .ok fs ∧
      authOf o models (models.flatMap (modelEndpoints o)) = .ok a ∧
      placedLoginFiles r o models a = .ok gs ∧
      repeatedPaths ((allFiles o name models fs gs).map (·.path)) = [] ∧
      p = assembled o models name moment a (allFiles o name models fs gs) := by
  obtain ⟨fs, hfs, hrest⟩ := Except.bind_eq_ok_iff.mp h
  obtain ⟨a, ha, hrest⟩ := Except.bind_eq_ok_iff.mp hrest
  obtain ⟨gs, hgs, -⟩ := Except.bind_eq_ok_iff.mp hrest
  have hmodels := Except.mapError_eq_ok_iff.mp hfs
  have hlogin := Except.mapError_eq_ok_iff.mp hgs
  have hauth : authOf o models (models.flatMap (modelEndpoints o)) = .ok a := by
    have hchecked := Except.mapError_eq_ok_iff.mp ha
    cases hread : authOf o models (models.flatMap (modelEndpoints o)) with
    | ok b => rw [hread] at hchecked; exact congrArg _ (Except.ok.inj hchecked)
    | bad issues => rw [hread] at hchecked; cases hchecked
  simp only [build_eq hmodels hauth hlogin] at h
  refine ⟨a, fs, gs, hmodels, hauth, hlogin, ?_⟩
  split at h
  · exact ⟨‹_›, (Except.ok.inj h).symm⟩
  · cases h

/-- **What the files of a model consist of.**  All operands of its request checks can be written. -/
theorem exists_of_modelFiles_eq_ok {m : Model} {fs : List File}
    (h : modelFiles r o models m = .ok fs) :
    ∃ record schemas handlers, recordInterface r m = .ok record ∧
      schemaFiles r o models m = .ok schemas ∧ controller r m = .ok handlers ∧
      unwrittenOperand? m = none ∧
      fs = [File.source ("src/models/" ++ m.name ++ ".ts") record] ++ schemas ++
        [File.source ("src/controllers/" ++ m.name ++ "Controller.ts") handlers,
          .source ("src/services/" ++ m.name ++ "Service.ts") (service m).text,
          .source ("src/repositories/" ++ m.name ++ "Repository.ts")
            (repository o.database.value m).text,
          .source ("src/routes/" ++ m.routeName ++ ".ts") (routes o m).text,
          .source ("src/validation/" ++ m.name ++ "Validation.ts") (requestChecks m).text] ++
        suiteFiles o m := by
  obtain ⟨record, hrecord, h⟩ := Except.bind_eq_ok_iff.mp h
  obtain ⟨schemas, hschemas, h⟩ := Except.bind_eq_ok_iff.mp h
  obtain ⟨handlers, hhandlers, h⟩ := Except.bind_eq_ok_iff.mp h
  obtain ⟨checks, hchecks, h⟩ := Except.bind_eq_ok_iff.mp h
  rw [requestFile] at hchecks
  split at hchecks
  · cases hchecks
  · cases hchecks
    exact ⟨record, schemas, handlers, hrecord, hschemas, hhandlers, ‹_›, (Except.ok.inj h).symm⟩

/-- A file of the models is a file of one of them. -/
theorem exists_modelFiles_of_mem {fs : List File} (h : allModelFiles r o models = .ok fs) {f : File}
    (hf : f ∈ fs) : ∃ m ∈ models, ∃ gs, modelFiles r o models m = .ok gs ∧ f ∈ gs := by
  obtain ⟨groups, hgroups, rfl⟩ := Except.map_eq_ok_iff.mp h
  obtain ⟨gs, hgs, hf⟩ := List.mem_flatten.mp hf
  obtain ⟨m, hm, hmodel⟩ := Except.exists_of_mem_mapM hgroups hgs
  exact ⟨m, hm, gs, hmodel, hf⟩

/-- Every model has its files among those of the models. -/
theorem exists_modelFiles_subset {fs : List File} (h : allModelFiles r o models = .ok fs)
    {m : Model} (hm : m ∈ models) : ∃ gs, modelFiles r o models m = .ok gs ∧ gs ⊆ fs := by
  obtain ⟨groups, hgroups, rfl⟩ := Except.map_eq_ok_iff.mp h
  obtain ⟨gs, hgs, hmodel⟩ := Except.exists_result_of_mem_mapM hgroups hm
  exact ⟨gs, hmodel, fun f hf => List.mem_flatten.mpr ⟨gs, hgs, hf⟩⟩

end Parts

/-! ## Roles -/

/-- A role that a model brings: it may read. -/
def readerRole (name : String) : Role := ⟨name, ["read"]⟩

theorem boundedText_one {s : String} (h : s ≠ "") : boundedText 1 none (.text s) = .ok s := by
  have hlength : ¬s.length < 1 := by
    rw [Nat.lt_one_iff, String.length_eq_zero_iff]
    exact h
  rw [boundedText, text, Checked.andThen, if_neg hlength]

/-- A role with a name is admitted once. -/
theorem admitRole_eq_ok (roles : List Role) {name : String} (h : name ≠ "") :
    admitRole roles name =
      .ok (if roles.any (·.name == name) then roles else roles ++ [readerRole name]) := by
  have hread : Role.read (.record [("name", .text name), ("permissions", .list [.text "read"])]) =
      (((boundedText 1 none (.text name)).under (.name "name")).map Role.mk).apply
        (.ok ["read"]) := rfl
  rw [admitRole, hread, boundedText_one h]
  split <;> rfl

/-- Roles with names are admitted, each new one as a reader. -/
theorem exists_admitRoles (roles : List Role) {names : List String} (h : "" ∉ names) :
    ∃ extra, admitRoles roles names = .ok (roles ++ extra) ∧
      ∀ r ∈ extra, ∃ n ∈ names, r = readerRole n := by
  induction names generalizing roles with
  | nil => exact ⟨[], by rw [List.append_nil]; rfl, by simp⟩
  | cons name names ih =>
    obtain ⟨hname, hnames⟩ := not_or.mp (mt List.mem_cons.mpr h)
    rw [admitRoles, admitRole_eq_ok roles (Ne.symm hname)]
    split
    · obtain ⟨extra, hextra, hmem⟩ := ih roles hnames
      refine ⟨extra, hextra, fun r hr => ?_⟩
      obtain ⟨n, hn, hrn⟩ := hmem r hr
      exact ⟨n, List.mem_cons_of_mem name hn, hrn⟩
    · obtain ⟨extra, hextra, hmem⟩ := ih (roles ++ [readerRole name]) hnames
      refine ⟨readerRole name :: extra, ?_, fun r hr => ?_⟩
      · rw [Checked.andThen, hextra, List.append_assoc, List.singleton_append]
      · obtain rfl | hr := List.mem_cons.mp hr
        · exact ⟨name, List.mem_cons_self, rfl⟩
        · obtain ⟨n, hn, hrn⟩ := hmem r hr
          exact ⟨n, List.mem_cons_of_mem name hn, hrn⟩

/-- **The authentication of a project**: the default roles and those that its models name. -/
theorem exists_authOf (o : Generation) {models : List Model} (endpoints : List Endpoint)
    (h : ∀ m ∈ models, "" ∉ m.metadata.allowedRoles) :
    ∃ extra, authOf o models endpoints = .ok
        { strategy := o.authentication.value, roles := Role.defaults ++ extra
          protectedRoutes := (endpoints.filter (·.authenticated)).map Endpoint.routeKey } ∧
      ∀ r ∈ extra, ∃ m ∈ models, ∃ n ∈ m.metadata.allowedRoles, r = readerRole n := by
  have hnames : "" ∉ models.flatMap (·.metadata.allowedRoles) := by
    intro hmem
    obtain ⟨m, hm, hrole⟩ := List.mem_flatMap.mp hmem
    exact h m hm hrole
  obtain ⟨extra, hextra, hmem⟩ := exists_admitRoles Role.defaults hnames
  refine ⟨extra, by rw [authOf, hextra]; rfl, fun r hr => ?_⟩
  obtain ⟨n, hn, hrn⟩ := hmem r hr
  obtain ⟨m, hm, hrole⟩ := List.mem_flatMap.mp hn
  exact ⟨m, hm, n, hrole, hrn⟩

/-! ## Where the roles come from -/

/-- What is wrong with an empty name. -/
def emptyName : Issue := ⟨.tooShort 1, [.name "name"]⟩

theorem admitRole_empty {roles : List Role} (h : "" ∉ roles.map (·.name)) :
    admitRole roles "" = .bad [emptyName] := by
  have hnew : ¬roles.any (·.name == "") = true := by simpa using h
  rw [admitRole, if_neg hnew]
  rfl

/-- A name is that of a role already, or a role of this name comes behind the others. -/
theorem of_admitRole_eq_ok {roles rs : List Role} {name : String}
    (h : admitRole roles name = .ok rs) :
    name ∈ roles.map (·.name) ∧ rs = roles ∨
      name ∉ roles.map (·.name) ∧ rs = roles ++ [readerRole name] := by
  by_cases hmem : name ∈ roles.map (·.name)
  · have hany : roles.any (·.name == name) = true := by simpa using hmem
    rw [admitRole, if_pos hany] at h
    cases h
    exact .inl ⟨hmem, rfl⟩
  · refine .inr ⟨hmem, ?_⟩
    by_cases hname : name = ""
    · subst hname
      rw [admitRole_empty hmem] at h
      cases h
    · have hany : ¬roles.any (·.name == name) = true := by simpa using hmem
      rw [admitRole_eq_ok roles hname, if_neg hany] at h
      cases h
      rfl

/-- Roles are admitted one after the other. -/
theorem admitRoles_cons_eq_ok {roles rs : List Role} {name : String} {names : List String}
    (h : admitRoles roles (name :: names) = .ok rs) :
    ∃ admitted, admitRole roles name = .ok admitted ∧ admitRoles admitted names = .ok rs := by
  rw [admitRoles] at h
  cases hroles : admitRole roles name with
  | bad issues =>
    rw [hroles] at h
    cases h
  | ok admitted =>
    rw [hroles] at h
    exact ⟨admitted, rfl, h⟩

/-- An admitted role was there before, or it was asked for. -/
theorem mem_of_admitRoles_eq_ok {roles rs : List Role} {names : List String}
    (h : admitRoles roles names = .ok rs) :
    ∀ r ∈ rs, r ∈ roles ∨ ∃ n ∈ names, r = readerRole n := by
  induction names generalizing roles with
  | nil =>
    cases h
    exact fun r hr => .inl hr
  | cons name names ih =>
    obtain ⟨admitted, hroles, h⟩ := admitRoles_cons_eq_ok h
    intro r hr
    obtain hr | ⟨n, hn, rfl⟩ := ih h r hr
    · obtain ⟨-, rfl⟩ | ⟨-, rfl⟩ := of_admitRole_eq_ok hroles
      · exact .inl hr
      · refine (List.mem_append.mp hr).imp_right fun hr => ?_
        exact ⟨name, List.mem_cons_self, List.mem_singleton.mp hr⟩
    · exact .inr ⟨n, List.mem_cons_of_mem name hn, rfl⟩

section Auth

variable {o : Generation} {models : List Model} {endpoints : List Endpoint} {a : Auth}

/-- What the accounts are made of. -/
theorem exists_of_authOf_eq_ok (h : authOf o models endpoints = .ok a) :
    ∃ roles, admitRoles Role.defaults (models.flatMap (·.metadata.allowedRoles)) = .ok roles ∧
      a = ⟨o.authentication.value, roles,
        (endpoints.filter (·.authenticated)).map Endpoint.routeKey⟩ := by
  rw [authOf] at h
  cases hroles : admitRoles Role.defaults (models.flatMap (·.metadata.allowedRoles)) with
  | bad issues =>
    rw [hroles] at h
    cases h
  | ok roles =>
    rw [hroles] at h
    cases h
    exact ⟨roles, rfl, rfl⟩

/-- A role of a project is one of the default ones, or one of its models brings it. -/
theorem mem_roles_of_authOf_eq_ok (h : authOf o models endpoints = .ok a) :
    ∀ r ∈ a.roles, r ∈ Role.defaults ∨
      ∃ m ∈ models, ∃ n ∈ m.metadata.allowedRoles, r = readerRole n := by
  obtain ⟨roles, hroles, rfl⟩ := exists_of_authOf_eq_ok h
  intro r hr
  refine (mem_of_admitRoles_eq_ok hroles r hr).imp_right fun ⟨n, hn, hrn⟩ => ?_
  obtain ⟨m, hm, hn⟩ := List.mem_flatMap.mp hn
  exact ⟨m, hm, n, hn, hrn⟩

/-- A project with an authentication has the asked strategy, the roles of its models beside the
default ones, and its guarded endpoints. -/
theorem of_authOf_eq_ok (h : authOf o models endpoints = .ok a) :
    a.strategy = o.authentication.value ∧
      (∀ n ∈ a.roleNames, n ∈ ["admin", "user"] ∨ ∃ m ∈ models, n ∈ m.metadata.allowedRoles) ∧
      a.protectedRoutes = (endpoints.filter (·.authenticated)).map Endpoint.routeKey := by
  have hnames : ∀ n ∈ a.roleNames, n ∈ ["admin", "user"] ∨
      ∃ m ∈ models, n ∈ m.metadata.allowedRoles := by
    refine List.forall_mem_map.mpr fun r hr => ?_
    obtain hr | ⟨m, hm, n, hn, rfl⟩ := mem_roles_of_authOf_eq_ok h r hr
    · exact .inl (List.mem_map_of_mem hr)
    · exact .inr ⟨m, hm, hn⟩
  obtain ⟨roles, hroles, rfl⟩ := exists_of_authOf_eq_ok h
  exact ⟨rfl, hnames, rfl⟩

end Auth

end Scaffold.Project
