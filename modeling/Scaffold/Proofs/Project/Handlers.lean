import Mathlib.Data.List.Lattice
import Mathlib.Data.List.Pairwise
import Scaffold.Proofs.Project.Endpoints
import Scaffold.Proofs.Project.Tables

/-!
# Proofs/Project/Handlers — the handlers of a service that stand in the way of others

The entry of a service answers `GET /health` by itself, before it mounts any router, and the paths of
a model come from its name alone.  When a project is built its files are compared with each other,
its paths of requests are not; so its handlers are different for some names only
(`handledKeys_nodup_iff`).
-/

namespace Scaffold

open Artifact Options Project Text

/-- The route key of the handler that a line of the entry registers. -/
def Artifact.ownKey? (l : List Char) : Option String :=
  (afterWord? "app.get('".toList l).map fun rest =>
    "GET " ++ String.ofList (rest.takeWhile (· ≠ '\''))

/-- The route keys that the entry of a service answers by itself. -/
def Artifact.ownKeys (content : String) : List String := (lines content.toList).filterMap ownKey?

/-- What a project answers: the question for its health, and its endpoints. -/
def Project.handledKeys (p : Project) : List String :=
  "GET /health" :: p.endpoints.map Endpoint.routeKey

/-- What a request asks for, and where. -/
def Project.Endpoint.target (e : Endpoint) : Method × String := (e.method, e.path)

/-- The paths of a model are not those of another handler. -/
structure Model.IsApart (o : Generation) (models : List Model) (m : Model) : Prop where
  health : m.routeName ≠ "health"
  models : ∀ m' ∈ models, m.routeName ≠ m'.routeName ++ "/:id"
  login : o.authEnabled = true → m.routeName ≠ "auth/login" ∧ m.routeName ≠ "auth/register"

end Scaffold

namespace Scaffold.Project

open Artifact Options Template Text

variable {r : Registry} {o : Generation} {models : List Model} {name : Option String} {moment : Nat}
  {p : Project}

/-! ## The handler of the entry -/

/-- The line that registers the handler for the health of a service. -/
def healthLine : String := r"app.get('/health', (req, res) => {"

/-- The lines of a paragraph are lines of its text. -/
theorem mem_lines_paragraph {ls : List String} {l : String} (hl : OneLine l) (h : l ∈ ls) :
    l.toList ∈ lines (paragraph ls).toList := by
  induction ls with
  | nil => exact absurd h List.not_mem_nil
  | cons x ls ih =>
    rw [toList_paragraph_cons, lines, pieces_append_cons, List.mem_append]
    obtain rfl | h := List.mem_cons.mp h
    · rw [pieces_of_notMem hl]
      exact .inl (List.mem_singleton_self _)
    · exact .inr (ih h)

/-- The application handles its health. -/
theorem health_mem_ownKeys (o : Generation) (models : List Model) :
    "GET /health" ∈ ownKeys (application o models).text := by
  have hmem : healthLine ∈ (application o models).lines := by
    refine List.mem_append_right _ (List.mem_cons_of_mem _ ?_)
    exact List.mem_append_left _ (List.mem_append_left _ (List.mem_append_left _
      (List.mem_append_right _ (.tail _ (.head _)))))
  exact List.mem_filterMap.mpr ⟨_, mem_lines_paragraph (by decide) hmem, by decide⟩

/-! ## Targets -/

/-- The route key of a target. -/
def targetKey (t : Method × String) : String := Schema.Named.text t.1 ++ " " ++ t.2

theorem targetKey_injective : Function.Injective targetKey := fun t t' h => by
  have hkeys : (Endpoint.describe t.2 t.1 "" .read .anyone "").routeKey =
      (Endpoint.describe t'.2 t'.1 "" .read .anyone "").routeKey := h
  obtain ⟨hmethod, hpath⟩ := routeKey_inj hkeys
  exact Prod.ext hmethod hpath

/-- What a project answers, as targets. -/
def handledTargets (o : Generation) (models : List Model) : List (Method × String) :=
  (.get, "/health") :: (allEndpoints o models).map Endpoint.target

theorem handledKeys_of_build (h : build r o models name moment = .ok p) :
    p.handledKeys = (handledTargets o models).map targetKey := by
  obtain ⟨a, fs, gs, -, -, -, -, hassembled⟩ := exists_of_build_eq_ok h
  rw [hassembled, handledKeys, handledTargets, List.map_cons, List.map_map]
  rfl

/-- The targets of a model. -/
def modelTargets (m : Model) : List (Method × String) :=
  let base := "/" ++ m.routeName
  let one := base ++ "/:id"
  [(.post, base), (.get, base), (.get, one), (.put, one), (.delete, one)]

theorem map_target_modelEndpoints (o : Generation) (m : Model) :
    (modelEndpoints o m).map Endpoint.target = modelTargets m := rfl

theorem mem_modelTargets_iff {m : Model} {x : Method} {path : String} :
    (x, path) ∈ modelTargets m ↔
      path = "/" ++ m.routeName ∧ (x = .post ∨ x = .get) ∨
        path = "/" ++ (m.routeName ++ "/:id") ∧ (x = .get ∨ x = .put ∨ x = .delete) := by
  cases x <;> simp [modelTargets, String.append_assoc]

theorem below_ne (s : String) : s ≠ s ++ "/:id" := fun h => by
  have hlength := congrArg String.length h
  rw [String.length_append] at hlength
  exact absurd hlength (Nat.ne_of_lt (Nat.lt_add_of_pos_right (by decide)))

/-- Models of different segments share a target only if one has its records where the other has its
own path. -/
theorem disjoint_modelTargets_iff {m m' : Model} (hne : m.routeName ≠ m'.routeName) :
    (modelTargets m).Disjoint (modelTargets m') ↔
      m.routeName ≠ m'.routeName ++ "/:id" ∧ m'.routeName ≠ m.routeName ++ "/:id" := by
  have hown (m : Model) : ((.get, "/" ++ m.routeName) : Method × String) ∈ modelTargets m :=
    mem_modelTargets_iff.mpr (.inl ⟨rfl, .inr rfl⟩)
  have hbelow {m m' : Model} (h : m.routeName = m'.routeName ++ "/:id") :
      ((.get, "/" ++ m.routeName) : Method × String) ∈ modelTargets m' :=
    mem_modelTargets_iff.mpr (.inr ⟨congrArg ("/" ++ ·) h, .inl rfl⟩)
  refine ⟨fun h => ⟨fun heq => h (hown m) (hbelow heq), fun heq => h (hbelow heq) (hown m')⟩, ?_⟩
  rintro ⟨hapart, hapart'⟩ ⟨x, path⟩ hmem hmem'
  obtain ⟨rfl, -⟩ | ⟨rfl, -⟩ := mem_modelTargets_iff.mp hmem <;>
    obtain ⟨h, -⟩ | ⟨h, -⟩ := mem_modelTargets_iff.mp hmem'
  · exact hne ((String.append_right_inj "/").mp h)
  · exact hapart ((String.append_right_inj "/").mp h)
  · exact hapart' ((String.append_right_inj "/").mp h).symm
  · exact hne ((String.append_left_inj "/:id").mp ((String.append_right_inj "/").mp h))

theorem nodup_modelTargets (m : Model) : (modelTargets m).Nodup := by
  have hone := below_ne ("/" ++ m.routeName)
  simp [modelTargets, hone]

/-! ## Fixed handlers -/

theorem ne_below_of_notMem {s t : String} (h : '/' ∉ t.toList) : s ++ "/:id" ≠ t := by
  rintro rfl
  exact h (by simp)

/-- A model shadows it if its segment is that of the health. -/
theorem health_mem_modelTargets_iff {m : Model} :
    (.get, "/health") ∈ modelTargets m ↔ m.routeName = "health" := by
  have hhealth : "/health" = "/" ++ "health" := by decide
  rw [mem_modelTargets_iff, hhealth, String.append_right_inj, String.append_right_inj]
  refine ⟨?_, fun h => .inl ⟨h.symm, .inr rfl⟩⟩
  rintro (⟨h, -⟩ | ⟨h, -⟩)
  · exact h.symm
  · exact absurd h.symm (ne_below_of_notMem (by decide))

theorem post_mem_modelTargets_iff {m : Model} {s : String} :
    (.post, "/" ++ s) ∈ modelTargets m ↔ m.routeName = s := by
  rw [mem_modelTargets_iff, String.append_right_inj]
  simp [eq_comm]

/-- A model shadows the login if its segment is one of the login. -/
theorem disjoint_loginEndpoints_iff {m : Model} :
    (modelTargets m).Disjoint (loginEndpoints.map Endpoint.target) ↔
      m.routeName ≠ "auth/login" ∧ m.routeName ≠ "auth/register" := by
  have htargets : loginEndpoints.map Endpoint.target =
      [(.post, "/" ++ "auth/login"), (.post, "/" ++ "auth/register")] := by decide
  rw [htargets, List.disjoint_comm, List.disjoint_cons_left, List.disjoint_cons_left,
    post_mem_modelTargets_iff, post_mem_modelTargets_iff]
  simp

/-- A project that was built has no two models of one segment: their routers would have one path. -/
theorem nodup_flatMap_modelTargets_iff (hnames : (models.map Model.routeName).Nodup) :
    (models.flatMap modelTargets).Nodup ↔
      ∀ m ∈ models, ∀ m' ∈ models, m.routeName ≠ m'.routeName ++ "/:id" := by
  have hnames := List.pairwise_map.mp hnames
  rw [List.nodup_flatMap]
  refine ⟨fun h m hm m' hm' heq => ?_, fun h => ⟨fun m _ => nodup_modelTargets m, ?_⟩⟩
  · have hne : m.routeName ≠ m'.routeName := fun hsame => below_ne m'.routeName (hsame ▸ heq)
    have hsymm : Std.Symm (Function.onFun List.Disjoint modelTargets) :=
      ⟨fun _ _ hdisjoint => List.Disjoint.symm hdisjoint⟩
    have hdisjoint := List.Pairwise.forall h.2 hm hm' fun hsame => hne (congrArg Model.routeName hsame)
    exact ((disjoint_modelTargets_iff hne).mp hdisjoint).1 heq
  · refine hnames.imp_of_mem fun {m m'} hm hm' hne => ?_
    exact (disjoint_modelTargets_iff hne).mpr ⟨h m hm m' hm', h m' hm' m hm⟩

/-- Nothing is handled twice exactly if every model is apart. -/
theorem nodup_handledTargets_iff (hnames : (models.map Model.routeName).Nodup) :
    (handledTargets o models).Nodup ↔ ∀ m ∈ models, m.IsApart o models := by
  have hhealth : (.get, "/health") ∉ models.flatMap modelTargets ↔
      ∀ m ∈ models, m.routeName ≠ "health" := by
    simp only [List.mem_flatMap, health_mem_modelTargets_iff, not_exists, not_and, ne_eq]
  have hlogin : (models.flatMap modelTargets).Disjoint
      ((if o.authEnabled then loginEndpoints else []).map Endpoint.target) ↔
      ∀ m ∈ models, o.authEnabled = true →
        m.routeName ≠ "auth/login" ∧ m.routeName ≠ "auth/register" := by
    split
    · rename_i hauth
      simp only [hauth, true_implies, ← disjoint_loginEndpoints_iff, List.disjoint_left,
        List.mem_flatMap]
      grind
    · rename_i hauth
      simp [hauth, List.disjoint_right]
  have hfixed : (.get, "/health") ∉
      (if o.authEnabled then loginEndpoints else []).map Endpoint.target ∧
      ((if o.authEnabled then loginEndpoints else []).map Endpoint.target).Nodup := by
    split <;> decide
  rw [handledTargets, allEndpoints, List.map_append, List.map_flatMap]
  simp only [map_target_modelEndpoints]
  rw [List.nodup_cons, List.mem_append, not_or, List.nodup_append', hhealth, hlogin,
    nodup_flatMap_modelTargets_iff hnames]
  refine ⟨fun h m hm => ⟨h.1.1 m hm, h.2.1 m hm, h.2.2.2 m hm⟩, fun h => ?_⟩
  exact ⟨⟨fun m hm => (h m hm).health, hfixed.1⟩, fun m hm => (h m hm).models, hfixed.2,
    fun m hm => (h m hm).login⟩

theorem nodup_handledKeys_iff (h : build r o models name moment = .ok p) :
    p.handledKeys.Nodup ↔ ∀ m ∈ models, m.IsApart o models := by
  rw [handledKeys_of_build h, List.nodup_map_iff targetKey_injective]
  exact nodup_handledTargets_iff (nodup_map_of_build (k := .routes) (by simp [modelSlots]) h)

theorem exists_entry_of_build (h : build r o models name moment = .ok p) :
    ∃ entry, p.file? "src/app.ts" = some entry ∧ "GET /health" ∈ ownKeys entry.content := by
  obtain ⟨-, -, hentry⟩ := exists_routers_of_build h
  exact ⟨_, hentry, health_mem_ownKeys o models⟩

/-- **When the handlers of a project are different**: exactly when no model has the segment of the
health, one of the paths of the login, or a path below another model as its segment. -/
theorem handledKeys_nodup_iff (h : build r o models name moment = .ok p) :
    (∃ entry, p.file? "src/app.ts" = some entry ∧ "GET /health" ∈ ownKeys entry.content) ∧
      (p.handledKeys.Nodup ↔ ∀ m ∈ models, m.IsApart o models) :=
  ⟨exists_entry_of_build h, nodup_handledKeys_iff h⟩

/-- Two ledgers stand in no one's way. -/
theorem handledKeys_nodup_ledgers :
    let models := [ledger "Invoice" none, ledger "Contract" none]
    ∃ p, build Library.registry .default models none 0 = .ok p ∧
      (∃ entry, p.file? "src/app.ts" = some entry ∧ "GET /health" ∈ ownKeys entry.content) ∧
      p.handledKeys.Nodup := by
  intro models
  obtain ⟨p, hp⟩ : ∃ p, build Library.registry .default models none 0 = .ok p :=
    exists_build_ledgers rfl (by decide) (by decide) (by decide)
  have hsegments : models.map Model.routeName = ["invoice", "contract"] := by decide
  have hapart : ∀ s ∈ models.map Model.routeName, s ≠ "health" ∧
      (∀ t ∈ models.map Model.routeName, s ≠ t ++ "/:id") ∧
      s ≠ "auth/login" ∧ s ≠ "auth/register" := by
    rw [hsegments]
    decide
  obtain ⟨hentry, hiff⟩ := handledKeys_nodup_iff hp
  refine ⟨p, hp, hentry, hiff.mpr fun m hm => ?_⟩
  obtain ⟨hhealth, hothers, hlogin⟩ := hapart _ (List.mem_map_of_mem hm)
  exact ⟨hhealth, fun m' hm' => hothers _ (List.mem_map_of_mem hm'), fun _ => hlogin⟩

/-- No rule refuses a model that is named for the health, and its list is never reached. -/
theorem handledKeys_clash_health :
    let models := [ledger "Health" none]
    ∃ r, Validation.validateModels (models.map .entity) = .ok r ∧ r.errors = [] ∧
      ∃ p, build Library.registry .default models none 0 = .ok p ∧
        (∃ entry, p.file? "src/app.ts" = some entry ∧ "GET /health" ∈ ownKeys entry.content) ∧
        ¬p.handledKeys.Nodup := by
  intro models
  obtain ⟨p, hp⟩ : ∃ p, build Library.registry .default models none 0 = .ok p :=
    exists_build_ledgers rfl (by decide) (by decide) (by decide)
  have hhealth : (ledger "Health" none).routeName = "health" := by decide
  refine ⟨_, rfl, by decide +kernel, p, hp, exists_entry_of_build hp, fun hnodup => ?_⟩
  exact ((nodup_handledKeys_iff hp).mp hnodup _ (List.mem_singleton_self _)).health hhealth

end Scaffold.Project
