import Scaffold.Proofs.Artifact.Mounts
import Scaffold.Proofs.Artifact.Routing
import Scaffold.Proofs.Project.Imports

/-!
# Proofs/Project/Endpoints — the endpoints of a project are what its service answers

The entry of a project mounts routers; the file of each is found through its import, and its lines
register routes.  What a service answers according to these texts (`servedAccesses`) is what the
endpoints of its project say (`endpoints_served`).
-/

namespace Scaffold

open Artifact Project Text

/-- What an endpoint says about who may ask for what. -/
def Project.Endpoint.access (e : Endpoint) : Access := ⟨e.method, e.path, e.authenticated, e.roles⟩

namespace Project

/-! ## Reading a project -/

/-- The file of a router that the entry imports. -/
def routerFile? (p : Project) (entry : File) (router : List Char) : Option File := do
  let module ← moduleOf? entry.content router
  let path ← resolve? entry.path.toList module
  p.file? (String.ofList path)

/-- What the service answers below a mount. -/
def mountedAccesses (p : Project) (entry : File) (mount : String × List Char) : List Access :=
  match p.routerFile? entry mount.2 with
  | some router => accesses mount.1 router.content
  | none => []

/-- What the service answers through the routers that it mounts. -/
def servedAccesses (p : Project) : List Access :=
  match p.file? "src/app.ts" with
  | some entry => (mountsOf entry.content).flatMap (p.mountedAccesses entry)
  | none => []

end Project

end Scaffold

namespace Scaffold.Project

open Artifact Options Template Text

variable {r : Registry} {o : Generation} {models : List Model} {name : Option String} {moment : Nat}
  {p : Project}

/-! ## Files -/

theorem file?_path (hpaths : p.paths.Nodup) {f : File} (hf : f ∈ p.files) :
    p.file? f.path = some f := by
  refine find?_eq_some_of_unique hf (beq_self_eq_true _) fun g hg hpath => ?_
  exact List.inj_on_of_nodup_map hpaths hg hf (beq_iff_eq.mp hpath)

open Renaming in
/-- The router of the login mentions no account, so it is the same when these are moved aside. -/
theorem relocateText_authRoutes : relocateText authRoutes.text = authRoutes.text := by
  have hmethod : (lower (Schema.Named.text Method.post)).toList = ['p', 'o', 's', 't'] := by
    decide
  have hchars : accountTable.apply (accountModule.apply (accountRepository.apply
      (accountType.apply authRoutes.text.toList))) = authRoutes.text.toList := by
    simp only [authRoutes, routerImport, Source.text, Source.lines, Import.line, Route.line,
      Guard.handlers, toList_paragraph, List.map_cons, List.map_nil, List.cons_append,
      List.nil_append, List.flatMap_cons, List.flatMap_nil, String.toList_append,
      toList_intercalate, joinWith, hmethod]
    repeat rw [String.toList_ofList]
    decide +kernel
  rw [relocateText, hchars, String.ofList_toList]

/-- The router of the login, where the accounts are put. -/
theorem placed_authRoutes (models : List Model) :
    placed models (.source "src/routes/auth.ts" authRoutes.text) =
      .source (Slot.routes.path "auth") authRoutes.text := by
  have hpath : Slot.routes.path "auth" = "src/routes/auth.ts" := by decide
  rw [hpath, placed]
  split
  · rw [File.relocate, File.source]
    dsimp only
    rw [relocateText_authRoutes]
    rfl
  · rfl

/-- The routes of a model are among its files. -/
theorem routes_mem_modelFiles {m : Model} {files : List File}
    (h : modelFiles r o models m = .ok files) :
    .source (Slot.routes.path m.routeName) (routes o m).text ∈ files := by
  obtain ⟨record, schemas, handlers, -, -, -, -, rfl⟩ := exists_of_modelFiles_eq_ok h
  rw [Slot.path_routes]
  simp

/-- The routes of the accounts are among the login files. -/
theorem authRoutes_mem_loginFiles {a : Auth} {files : List File}
    (h : loginFiles r o a = .ok files) :
    .source "src/routes/auth.ts" authRoutes.text ∈ files := by
  obtain ⟨users, -, h⟩ := Except.bind_eq_ok_iff.mp h
  obtain ⟨service, -, h⟩ := Except.bind_eq_ok_iff.mp h
  obtain ⟨login, -, h⟩ := Except.bind_eq_ok_iff.mp h
  obtain ⟨access, -, h⟩ := Except.bind_eq_ok_iff.mp h
  cases h
  simp

theorem application_mem_sharedFiles (o : Generation) (models : List Model) :
    .source "src/app.ts" (application o models).text ∈ sharedFiles o models := by
  simp [sharedFiles]

/-- A project that was built has its routers and its entry in their places. -/
theorem exists_routers_of_build (h : build r o models name moment = .ok p) :
    (∀ m ∈ models, p.file? (Slot.routes.path m.routeName) =
      some (.source (Slot.routes.path m.routeName) (routes o m).text)) ∧
    (o.authEnabled = true → p.file? (Slot.routes.path "auth") =
      some (.source (Slot.routes.path "auth") authRoutes.text)) ∧
    p.file? "src/app.ts" = some (.source "src/app.ts" (application o models).text) := by
  have hpaths := nodup_paths_of_build h
  obtain ⟨a, fs, gs, hfs, -, hgs, -, rfl⟩ := exists_of_build_eq_ok h
  refine ⟨fun m hm => ?_, fun hauth => ?_, ?_⟩
  · obtain ⟨files, hmodel, hsubset⟩ := exists_modelFiles_subset hfs hm
    exact file?_path hpaths (List.mem_append_left _ (List.mem_append_left _
      (List.mem_append_right _ (hsubset (routes_mem_modelFiles hmodel)))))
  · obtain ⟨files, hlogin, rfl⟩ := placedLoginFiles_eq_ok hgs hauth
    have hplaced := List.mem_map_of_mem (f := placed models) (authRoutes_mem_loginFiles hlogin)
    rw [placed_authRoutes] at hplaced
    exact file?_path hpaths (List.mem_append_left _ (List.mem_append_right _ hplaced))
  · exact file?_path hpaths
      (List.mem_append_right _ (application_mem_sharedFiles o models))

/-! ## What is served -/

/-- A router is found through its import in the entry. -/
theorem mountedAccesses_segment (h : ∀ m ∈ models, m.Routable) {x content : String}
    (hx : x ∈ segments o models)
    (hrouter : p.file? (Slot.routes.path x) = some (.source (Slot.routes.path x) content)) :
    p.mountedAccesses (.source "src/app.ts" (application o models).text)
      ("/" ++ x, (x ++ "Routes").toList) = accesses ("/" ++ x) content := by
  have hplain := isPlain_of_mem_segments (o := o) (fun m hm => (h m hm).name) x hx
  have hresolve : resolve? "src/app.ts".toList ("./routes/" ++ x).toList =
      some (Slot.routes.path x).toList := by
    rw [← Slot.entryModule_routes]
    exact Slot.resolve?_entryModule hplain (by decide)
  have hfile : p.routerFile? (.source "src/app.ts" (application o models).text)
      (x ++ "Routes").toList = some (.source (Slot.routes.path x) content) := by
    simp only [routerFile?, File.source, moduleOf?_application h hx, hresolve,
      Option.bind_eq_bind, Option.bind_some, String.ofList_toList]
    exact hrouter
  rw [mountedAccesses, hfile]
  rfl

/-- The endpoints of a model say what its routes say. -/
theorem map_access_modelEndpoints (o : Generation) (m : Model) :
    (modelEndpoints o m).map Endpoint.access =
      (routeTable o m).map (Route.access ("/" ++ m.routeName)) := by
  simp [modelEndpoints, routeTable, Endpoint.describe, Endpoint.access, Route.access, below]

/-- What a service answers: the routes of the login and those of its models. -/
theorem servedAccesses_of_build (hname : ∀ m ∈ models, IsPlain m.name)
    (hroles : ∀ m ∈ models, ∀ s ∈ m.metadata.allowedRoles, IsPlain s)
    (h : build r o models name moment = .ok p) :
    p.servedAccesses =
      (if o.authEnabled then
        [⟨.post, "/auth/register", false, []⟩, ⟨.post, "/auth/login", false, []⟩] else []) ++
      (models.flatMap (modelEndpoints o)).map Endpoint.access := by
  obtain ⟨hmodels, hauth, hentry⟩ := exists_routers_of_build h
  have hroutable : ∀ m ∈ models, m.Routable := fun m hm =>
    ⟨hname m hm, fun s hs => (hroles m hm s hs).oneLine⟩
  have hlogin : (if o.authEnabled = true then ["auth"] else []).flatMap (fun x =>
        p.mountedAccesses (.source "src/app.ts" (application o models).text)
          ("/" ++ x, (x ++ "Routes").toList)) =
      if o.authEnabled then
        [⟨.post, "/auth/register", false, []⟩, ⟨.post, "/auth/login", false, []⟩] else [] := by
    split
    · rename_i henabled
      have hmem : "auth" ∈ segments o models := by
        rw [segments, if_pos henabled]
        exact List.mem_append_left _ (List.mem_singleton_self _)
      rw [List.flatMap_singleton, mountedAccesses_segment hroutable hmem (hauth henabled),
        accesses_authRoutes]
      decide
    · rfl
  have hmodel : ∀ m ∈ models,
      p.mountedAccesses (.source "src/app.ts" (application o models).text)
        ("/" ++ m.routeName, (m.routeName ++ "Routes").toList) =
      (modelEndpoints o m).map Endpoint.access := by
    intro m hm
    have hmem : m.routeName ∈ segments o models :=
      List.mem_append_right _ (List.mem_map_of_mem hm)
    rw [mountedAccesses_segment hroutable hmem (hmodels m hm),
      accesses_routes (hname m hm) (hroles m hm), map_access_modelEndpoints]
  rw [servedAccesses, hentry]
  dsimp only [File.source]
  rw [mountsOf_application o hroutable, List.flatMap_map, segments, List.flatMap_append,
    List.flatMap_map, List.map_flatMap]
  exact congrArg₂ (· ++ ·) hlogin (List.flatMap_congr hmodel)

/-! ## Route keys -/

/-- The segment that a route key names: what stands behind the first slash of its path. -/
def segmentOf? (key : String) : Option (List Char) := (pieces '/' key.toList)[1]?

theorem notMem_text_method (x : Method) :
    ' ' ∉ (Schema.Named.text x).toList ∧ '/' ∉ (Schema.Named.text x).toList := by
  cases x <;> decide

theorem toList_routeKey (e : Endpoint) :
    e.routeKey.toList = (Schema.Named.text e.method).toList ++ ' ' :: e.path.toList := by
  have hkey : e.routeKey = Schema.Named.text e.method ++ " " ++ e.path := rfl
  simp [hkey]

/-- A key names the method and the path. -/
theorem routeKey_inj {e e' : Endpoint} (h : e.routeKey = e'.routeKey) :
    e.method = e'.method ∧ e.path = e'.path := by
  have hlist := congrArg String.toList h
  rw [toList_routeKey, toList_routeKey] at hlist
  obtain ⟨hmethod, hpath⟩ :=
    append_cons_inj (notMem_text_method e.method).1 (notMem_text_method e'.method).1 hlist
  refine ⟨?_, String.toList_injective hpath⟩
  have htext : ∀ x y : Method, (Schema.Named.text x).toList = (Schema.Named.text y).toList → x = y := by
    intro x y
    cases x <;> cases y <;> decide
  exact htext _ _ hmethod

/-- The first segment of a path is read off its key. -/
theorem segmentOf?_routeKey {e : Endpoint} {x : List Char} (hx : '/' ∉ x)
    (hpath : e.path.toList = '/' :: x ∨ ∃ rest, e.path.toList = '/' :: (x ++ '/' :: rest)) :
    segmentOf? e.routeKey = some x := by
  have hmethod : '/' ∉ (Schema.Named.text e.method).toList ++ [' '] := by
    rw [List.mem_append]
    exact not_or.mpr ⟨(notMem_text_method e.method).2, by decide⟩
  have hkey {cs : List Char} (hcs : e.path.toList = '/' :: cs) :
      segmentOf? e.routeKey = (pieces '/' cs)[0]? := by
    rw [segmentOf?, toList_routeKey, hcs, List.append_cons, pieces_append_cons,
      pieces_of_notMem hmethod]
    rfl
  obtain hpath | ⟨rest, hpath⟩ := hpath
  · rw [hkey hpath, pieces_of_notMem hx]
    rfl
  · rw [hkey hpath, pieces_append_cons, pieces_of_notMem hx]
    rfl

/-- The endpoints of a model stand under its segment. -/
theorem segmentOf?_modelEndpoints {m : Model} (h : IsPlain m.name) (o : Generation) :
    ∀ e ∈ modelEndpoints o m, segmentOf? e.routeKey = some m.routeName.toList := by
  have hsegment : '/' ∉ m.routeName.toList := (isPlain_lower h).notMem (by decide)
  have hall : ("/" ++ m.routeName).toList = '/' :: m.routeName.toList := by
    simp
  have hone : ("/" ++ m.routeName ++ "/:id").toList =
      '/' :: (m.routeName.toList ++ '/' :: [':', 'i', 'd']) := by
    simp
  intro e he
  refine segmentOf?_routeKey hsegment ?_
  simp only [modelEndpoints, Endpoint.describe, List.mem_cons, List.not_mem_nil, or_false] at he
  obtain rfl | rfl | rfl | rfl | rfl := he
  · exact .inl hall
  · exact .inl hall
  all_goals exact .inr ⟨_, hone⟩

/-- The endpoints of one model have different keys. -/
theorem nodup_routeKey_modelEndpoints (o : Generation) (m : Model) :
    ((modelEndpoints o m).map Endpoint.routeKey).Nodup := by
  have hpaths : "/" ++ m.routeName ≠ "/" ++ m.routeName ++ "/:id" := by
    intro h
    have hlength := congrArg String.length h
    rw [String.length_append (_ ++ _)] at hlength
    exact absurd hlength (Nat.ne_of_lt (Nat.lt_add_of_pos_right (by decide)))
  have happart : (modelEndpoints o m).Pairwise fun e e' =>
      ¬(e.method = e'.method ∧ e.path = e'.path) := by
    simp [modelEndpoints, Endpoint.describe, hpaths]
  exact List.pairwise_map.mpr (happart.imp fun hne hkey => hne (routeKey_inj hkey))

/-- **No two endpoints of a project share a method and a path.** -/
theorem nodup_routeKey_allEndpoints (hname : ∀ m ∈ models, IsPlain m.name)
    (hnames : (models.map Model.routeName).Nodup)
    (hauth : o.authEnabled = true → ∀ m ∈ models, m.routeName ≠ "auth") :
    ((allEndpoints o models).map Endpoint.routeKey).Nodup := by
  have hlogin : ∀ e ∈ loginEndpoints, segmentOf? e.routeKey = some "auth".toList := by
    decide
  have hmodels : ((models.flatMap (modelEndpoints o)).map Endpoint.routeKey).Nodup := by
    rw [List.map_flatMap, List.nodup_flatMap]
    refine ⟨fun m _ => nodup_routeKey_modelEndpoints o m, ?_⟩
    refine (List.pairwise_map.mp hnames).imp_of_mem fun {m m'} hm hm' hne => ?_
    rintro key hkey hkey'
    obtain ⟨e, he, rfl⟩ := List.mem_map.mp hkey
    obtain ⟨e', he', heq⟩ := List.mem_map.mp hkey'
    have hsegment := segmentOf?_modelEndpoints (hname m hm) o e he
    rw [← heq, segmentOf?_modelEndpoints (hname m' hm') o e' he'] at hsegment
    exact hne (String.toList_injective (Option.some.inj hsegment)).symm
  rw [allEndpoints, List.map_append, List.nodup_append]
  refine ⟨hmodels, ?_, ?_⟩
  · split
    · decide
    · exact List.nodup_nil
  · rintro key hkey _ hkey' rfl
    obtain ⟨e, he, rfl⟩ := List.mem_map.mp hkey
    obtain ⟨m, hm, he⟩ := List.mem_flatMap.mp he
    obtain ⟨e', he', heq⟩ := List.mem_map.mp hkey'
    obtain ⟨henabled, he'⟩ := List.mem_ite_nil_right.mp he'
    have hsegment := segmentOf?_modelEndpoints (hname m hm) o e he
    rw [← heq, hlogin e' he'] at hsegment
    exact hauth henabled m hm (String.toList_injective (Option.some.inj hsegment)).symm

/-! ## The endpoints of a project -/

/-- No model of a project with accounts has their segment. -/
theorem ne_auth_of_build (hnames : (models.map Model.routeName).Nodup)
    (h : build r o models name moment = .ok p) (hauth : o.authEnabled = true) :
    ∀ m ∈ models, m.routeName ≠ "auth" := by
  intro m hm heq
  have hpaths := nodup_paths_of_build h
  rw [Project.paths, (isEmitted_of_build h).paths] at hpaths
  exact (nodup_emittedPaths_iff hnames).mp hpaths ⟨hauth, .inl ⟨m, hm, heq⟩⟩

/-- **The endpoints of a project are what its service answers.**  What can be read off the mounts of
the entry and the routers that these name, each as often as it is there, is what the endpoints say;
there are five for each model, in the order of the models, and two for the login; no two have one
route key, and the protected routes are the keys of those that need a login. -/
theorem endpoints_served (hname : ∀ m ∈ models, IsPlain m.name)
    (hnames : (models.map Model.routeName).Nodup)
    (hroles : ∀ m ∈ models, ∀ s ∈ m.metadata.allowedRoles, IsPlain s)
    (h : build r o models name moment = .ok p) :
    p.servedAccesses.Perm (p.endpoints.map Endpoint.access) ∧
      p.endpoints.map (·.modelName) = models.flatMap (fun m => List.replicate 5 m.name) ++
        (if o.authEnabled then ["User", "User"] else []) ∧
      (p.endpoints.map Endpoint.routeKey).Nodup ∧
      p.auth.protectedRoutes = (p.endpoints.filter (·.authenticated)).map Endpoint.routeKey := by
  obtain ⟨a, fs, gs, -, ha, -, -, hassembled⟩ := exists_of_build_eq_ok h
  have hendpoints : p.endpoints = allEndpoints o models := by
    rw [hassembled]
    rfl
  have hauth : p.auth = a := by
    rw [hassembled]
    rfl
  rw [hendpoints, hauth]
  refine ⟨?_, ?_, nodup_routeKey_allEndpoints hname hnames (ne_auth_of_build hnames h), ?_⟩
  · rw [servedAccesses_of_build hname hroles h, allEndpoints, List.map_append]
    refine List.perm_append_comm.trans (.append_left _ ?_)
    split
    · decide
    · exact .refl _
  · rw [allEndpoints, List.map_append, List.map_flatMap]
    congr 1
    split <;> rfl
  · have hopen : (if o.authEnabled then loginEndpoints else []).filter (·.authenticated) = [] := by
      split <;> rfl
    rw [(of_authOf_eq_ok ha).2.2, allEndpoints, List.filter_append, hopen, List.append_nil]

/-- A model that editors alone may write. -/
def editedModel : Model where
  id := none
  name := "BlogPost"
  fields := []
  relationships := []
  metadata := { Model.Metadata.default with requiresAuth := true, allowedRoles := ["editor"] }
  createdAt := none
  updatedAt := none

/-- The accounts are moved aside for one of these models, and the other is guarded. -/
theorem endpoints_served_editedModel :
    (∀ m ∈ [userModel, editedModel], IsPlain m.name) ∧
      ([userModel, editedModel].map Model.routeName).Nodup ∧
      (∀ m ∈ [userModel, editedModel], ∀ s ∈ m.metadata.allowedRoles, IsPlain s) ∧
      ∃ p, build Library.registry .default [userModel, editedModel] none 0 = .ok p ∧
        p.servedAccesses.Perm (p.endpoints.map Endpoint.access) ∧
        p.endpoints.map (·.modelName) =
          [userModel, editedModel].flatMap (fun m => List.replicate 5 m.name) ++
            (if Generation.default.authEnabled then ["User", "User"] else []) ∧
        (p.endpoints.map Endpoint.routeKey).Nodup ∧
        p.auth.protectedRoutes =
          (p.endpoints.filter (·.authenticated)).map Endpoint.routeKey := by
  have hsegments : userModel.routeName = "user" ∧ editedModel.routeName = "blogpost" := by
    decide
  have hname : ∀ m ∈ [userModel, editedModel], IsPlain m.name := by
    simp only [List.forall_mem_cons, List.not_mem_nil, false_implies, implies_true, and_true]
    exact ⟨isPlain_ofList (by decide), isPlain_ofList (by decide)⟩
  have hnames : ([userModel, editedModel].map Model.routeName).Nodup := by
    simp [hsegments]
  have hroles : ∀ m ∈ [userModel, editedModel], ∀ s ∈ m.metadata.allowedRoles, IsPlain s := by
    have heditor : IsPlain "editor" := isPlain_ofList (by decide)
    simp [userModel, editedModel, Model.Metadata.default, heditor]
  have hfilled : ∀ m ∈ [userModel, editedModel], "" ∉ m.metadata.allowedRoles := by
    simp [userModel, editedModel, Model.Metadata.default]
  have hclashes : ¬Clashes .default [userModel, editedModel] := by
    simp only [Clashes, List.mem_cons, List.not_mem_nil, or_false, exists_eq_or_imp, exists_eq_left,
      hsegments]
    decide
  obtain ⟨p, hbuild, -⟩ := exists_build_of_not_clashes rfl hnames hfilled hclashes none 0
  exact ⟨hname, hnames, hroles, p, hbuild, endpoints_served hname hnames hroles hbuild⟩

end Scaffold.Project
