import Scaffold.Proofs.Artifact.Calls
import Scaffold.Proofs.Artifact.Sources

/-!
# Proofs/Artifact/Routing — what a router answers, read off its lines

A line of a router that registers a route is a call: of a method of the router, with a path and the
handlers of a request.  The handlers tell who may ask: `authenticateToken` asks for a login, and
`authorize` names the roles.  Read in this way, the file of a router answers what the routes
say that it was made of (`accesses_routes`, `accesses_authRoutes`).
-/

namespace Scaffold.Artifact

open Options Project Text

/-! ## Reading -/

/-- A method and a path that are answered, and who may ask. -/
structure Access where
  method : Method
  path : String
  /-- Only whoever is logged in may ask. -/
  authenticated : Bool
  /-- The roles of which one is needed; none stands for all. -/
  roles : List String
deriving DecidableEq, Repr

/-- The method that a function of a router registers. -/
def method? (function : List Char) : Option Method :=
  (afterWord? "router.".toList function).bind fun name =>
    (Schema.Named.all (α := Method)).find? fun x => (lower (Schema.Named.text x)).toList = name

/-- The roles that a handler admits. -/
def admittedRoles (handler : List Char) : List String :=
  match Call.read? handler with
  | some c => if c.function = "authorize".toList then c.arguments.filterMap quotedText? else []
  | none => []

/-- A path below another one. -/
def below (base path : String) : String := if path = "/" then base else base ++ path

/-- The route that a line registers with a router that is mounted at a path. -/
def access? (base : String) (l : List Char) : Option Access := do
  let c ← Call.read? l
  let method ← method? c.function
  match c.arguments with
  | path :: handlers =>
    let path ← quotedText? path
    return {
      method, path := below base path
      authenticated := handlers.contains "authenticateToken".toList
      roles := handlers.flatMap admittedRoles }
  | [] => none

/-- The routes that a router at a path registers. -/
def accesses (base : String) (content : String) : List Access :=
  (lines content.toList).filterMap (access? base)

/-! ## Handlers -/

/-- The handler takes no part in saying who may ask. -/
structure Indifferent (handler : String) : Prop where
  level : Level handler.toList
  flush : Call.Flush handler.toList
  uncalled : '(' ∉ handler.toList
  other : handler ≠ "authenticateToken"

/-- The member of an object that both have plain names. -/
theorem indifferent_member {object member : String} (hobject : IsPlain object) (hne : object ≠ "")
    (hmember : IsPlain member) : Indifferent (object ++ "." ++ member) := by
  have hlist : (object ++ "." ++ member).toList = object.toList ++ '.' :: member.toList := by
    have hdot : ".".toList = ['.'] := by decide
    rw [String.toList_append, String.toList_append, hdot, List.append_assoc, List.singleton_append]
  have hnotMem {c : Char} (hc : isPlainAlnum c = false) (hdot : c ≠ '.') :
      c ∉ (object ++ "." ++ member).toList := by
    rw [hlist, List.mem_append, List.mem_cons]
    exact not_or.mpr ⟨hobject.notMem hc, not_or.mpr ⟨hdot, hmember.notMem hc⟩⟩
  refine ⟨?_, ?_, hnotMem (by decide) (by decide), ?_⟩
  · exact level_of_notMem (hnotMem (by decide) (by decide)) (hnotMem (by decide) (by decide))
      (hnotMem (by decide) (by decide))
  · rw [hlist]
    cases hcs : object.toList with
    | nil => exact absurd (String.toList_eq_nil_iff.mp hcs) hne
    | cons c cs =>
      exact Call.flush_cons (isBlank_eq_false (hobject c (hcs ▸ List.mem_cons_self))) _
  · intro h
    have hdot : '.' ∈ "authenticateToken".toList := by
      rw [← h, hlist]
      exact List.mem_append_right _ List.mem_cons_self
    exact absurd hdot (by decide)

theorem Indifferent.admittedRoles_eq {handler : String} (h : Indifferent handler) :
    admittedRoles handler.toList = [] := by
  rw [admittedRoles, Call.read?_eq_none h.uncalled]

/-- The call that admits roles, character by character. -/
theorem toList_authorize (roles : List String) :
    ("authorize(" ++ ", ".intercalate (roles.map quoted) ++ ")").toList =
      "authorize".toList ++
        '(' :: (joinWith [',', ' '] (roles.map fun r => (quoted r).toList) ++ ')' :: []) := by
  have hopen : "authorize(".toList = "authorize".toList ++ ['('] := by decide
  have hcomma : ", ".toList = [',', ' '] := by decide
  have hclose : ")".toList = [')'] := by decide
  rw [String.toList_append, String.toList_append, toList_intercalate, hopen, hcomma, hclose,
    List.map_map, List.append_assoc, List.append_assoc, List.singleton_append]
  rfl

section Guard

variable {g : Guard} (h : ∀ r ∈ g.roles, IsPlain r)

include h

/-- The roles of a guard can be read off its handlers. -/
theorem flatMap_admittedRoles_handlers :
    (g.handlers.map String.toList).flatMap admittedRoles = g.roles := by
  have htoken : admittedRoles "authenticateToken".toList = [] := by decide
  fun_cases Guard.handlers g with
  | case1 => rfl
  | case2 =>
    rw [List.map_singleton, List.flatMap_singleton, htoken]
    rfl
  | case3 roles hne =>
    have hroles : ∀ r ∈ roles, '\'' ∉ r.toList := fun r hr => (h r hr).notMem (by decide)
    have hread : Call.read? ("authorize(" ++ ", ".intercalate (roles.map quoted) ++ ")").toList =
        some ⟨"authorize".toList, roles.map fun r => (quoted r).toList⟩ := by
      rw [toList_authorize]
      refine Call.read?_append (by decide) (by simpa using hne)
        (List.forall_mem_map.mpr fun s hs => ⟨?_, flush_quoted s⟩) []
      have hplain := h s hs
      exact level_quoted (hplain.notMem (by decide)) (hplain.notMem (by decide))
        (hplain.notMem (by decide))
    have hquoted : (roles.map fun r => (quoted r).toList).filterMap quotedText? = roles := by
      rw [List.filterMap_map]
      exact (List.filterMap_congr fun r hr => quotedText?_quoted (hroles r hr)).trans
        List.filterMap_some
    simp only [List.map_cons, List.map_nil, List.flatMap_cons, List.flatMap_nil, htoken,
      List.nil_append, List.append_nil, Guard.roles]
    rw [admittedRoles, hread]
    simpa using hquoted

/-- Each handler of a guard is a name or a call with its brackets closed. -/
theorem level_handlers : ∀ p ∈ g.handlers, Level p.toList ∧ Call.Flush p.toList := by
  have htoken : Level "authenticateToken".toList ∧ Call.Flush "authenticateToken".toList := by
    decide
  fun_cases Guard.handlers g with
  | case1 => simp
  | case2 => simpa using htoken
  | case3 roles _ =>
    simp only [List.forall_mem_cons, List.not_mem_nil, false_implies, implies_true, and_true]
    refine ⟨htoken, ?_, ?_⟩
    · have hnotMem {c : Char} (hc : isPlainAlnum c = false) (hcomma : c ≠ ',') (hblank : c ≠ ' ')
          (hquote : c ≠ '\'') : c ∉ joinWith [',', ' '] (roles.map fun r => (quoted r).toList) := by
        refine notMem_joinWith (by simp [hcomma, hblank]) (List.forall_mem_map.mpr fun r hr => ?_)
        rw [toList_quoted]
        simp [hquote, (h r hr).notMem hc]
      have hinner : depthBehind? 1 (joinWith [',', ' '] (roles.map fun r => (quoted r).toList)) =
          some 1 :=
        depthBehind?_of_notMem (hnotMem (by decide) (by decide) (by decide) (by decide))
          (hnotMem (by decide) (by decide) (by decide) (by decide)) (by simp)
      have hopen : depthBehind? 0 "authorize(".toList = some 1 := by decide
      have hstart : "authorize(".toList = "authorize".toList ++ ['('] := by decide
      rw [toList_authorize, Level, List.append_cons, ← hstart, depthBehind?_append hopen,
        depthBehind?_append hinner]
      rfl
    · rw [toList_authorize]
      exact Call.flush_cons (by decide) _

omit h in
theorem contains_authenticateToken (g : Guard) :
    (g.handlers.map String.toList).contains "authenticateToken".toList = decide (g ≠ .anyone) := by
  fun_cases Guard.handlers g with
  | case1 => rfl
  | case2 => decide
  | case3 roles _ => simp

end Guard

/-! ## Routes -/

/-- What a route answers below a path. -/
def Route.access (base : String) (r : Route) : Access :=
  ⟨r.method, below base r.path, r.guard ≠ .anyone, r.guard.roles⟩

/-- The texts of a route can be told apart on its line. -/
structure Route.Legible (r : Route) : Prop where
  path : '\'' ∉ r.path.toList ∧ Level (quoted r.path).toList
  roles : ∀ s ∈ r.guard.roles, IsPlain s
  handlers : ∀ p ∈ r.handlers, Indifferent p
  handled : r.handlers ≠ []

/-- A route is a call on the router, with the path and the handlers as arguments. -/
theorem Route.Legible.toList_line {r : Route} (h : r.Legible) : r.line.toList =
    ("router." ++ lower (Schema.Named.text r.method)).toList ++
      '(' :: (joinWith [',', ' '] ((quoted r.path).toList ::
        (r.guard.handlers ++ r.handlers).map String.toList) ++ ')' :: [';']) := by
  have hopen : "('".toList = ['(', '\''] := by decide
  have hcomma : "', ".toList = ['\'', ',', ' '] := by decide
  have hsep : ", ".toList = [',', ' '] := by decide
  have hclose : ");".toList = [')', ';'] := by decide
  have hne : (r.guard.handlers ++ r.handlers).map String.toList ≠ [] := by
    simp [h.handled]
  obtain ⟨p, ps, hps⟩ := List.exists_cons_of_ne_nil hne
  rw [line, hps, joinWith, toList_quoted, ← hps]
  simp only [String.toList_append, toList_intercalate, hopen, hcomma, hsep, hclose,
    List.append_assoc, List.cons_append, List.nil_append]

theorem method?_line (x : Method) :
    method? ("router." ++ lower (Schema.Named.text x)).toList = some x := by
  cases x <;> decide

/-- **The line of a route says what the route answers.** -/
theorem Route.Legible.access?_line {r : Route} (h : r.Legible) (base : String) :
    access? base r.line.toList = some (r.access base) := by
  have hfunction : '(' ∉ ("router." ++ lower (Schema.Named.text r.method)).toList := by
    cases r.method <;> decide
  have harguments : ∀ b ∈ (quoted r.path).toList ::
      (r.guard.handlers ++ r.handlers).map String.toList, Level b ∧ Call.Flush b := by
    rw [List.forall_mem_cons, List.forall_mem_map, List.forall_mem_append]
    exact ⟨⟨h.path.2, flush_quoted r.path⟩, level_handlers h.roles, fun p hp =>
      ⟨(h.handlers p hp).level, (h.handlers p hp).flush⟩⟩
  have hindifferent : (r.handlers.map String.toList).flatMap admittedRoles = [] := by
    rw [List.flatMap_map, List.flatMap_eq_nil_iff]
    exact fun p hp => (h.handlers p hp).admittedRoles_eq
  have htoken : (r.handlers.map String.toList).contains "authenticateToken".toList = false := by
    rw [← Bool.not_eq_true, List.contains_iff_mem]
    rintro hmem
    obtain ⟨p, hp, heq⟩ := List.mem_map.mp hmem
    exact (h.handlers p hp).other (String.toList_injective heq)
  have hcontains : ((r.guard.handlers ++ r.handlers).map String.toList).contains
      "authenticateToken".toList = decide (r.guard ≠ .anyone) := by
    rw [List.map_append, List.contains_append, htoken, contains_authenticateToken, Bool.or_false]
  have hroles : ((r.guard.handlers ++ r.handlers).map String.toList).flatMap admittedRoles =
      r.guard.roles := by
    rw [List.map_append, List.flatMap_append, hindifferent, List.append_nil,
      flatMap_admittedRoles_handlers h.roles]
  rw [access?, h.toList_line, Call.read?_append hfunction (List.cons_ne_nil _ _) harguments]
  simp only [Option.bind_eq_bind, Option.bind_some, method?_line, quotedText?_quoted h.path.1,
    hcontains, hroles]
  rfl

/-- A line that registers a route begins with the router. -/
theorem access?_eq_none {base : String} {l : List Char} (h : ¬"router.".toList <+: l) :
    access? base l = none := by
  rw [access?]
  cases hread : Call.read? l with
  | none => rfl
  | some c =>
    obtain ⟨rest, rfl⟩ := Call.exists_eq_of_read? hread
    have hmethod : method? c.function = none := by
      rw [method?, Option.bind_eq_none_iff]
      intro name hname
      rw [eq_append_of_afterWord? hname, List.append_assoc] at h
      exact absurd (List.prefix_append _ _) h
    simp only [Option.bind_eq_bind, Option.bind_some, hmethod, Option.bind_none]

/-! ## Routers -/

theorem access?_of_head {base : String} {l : List Char} (h : l.head? ≠ some 'r') :
    access? base l = none := by
  refine access?_eq_none fun hprefix => h ?_
  obtain ⟨rest, rfl⟩ := hprefix
  rfl

theorem accesses_text {s : Source} (hs : s.Tidy) (base : String) :
    accesses base s.text = s.body.filterMap fun l => access? base l.toList := by
  refine filterMap_lines_text hs (fun i => access?_of_head ?_) (access?_of_head (by simp))
  rw [head?_import]
  decide

section Model

variable {m : Model}

theorem isPlain_controllerVar (m : Model) : IsPlain (controllerVar m) :=
  (Naming.isPlain_camel m.name).append (isPlain_ofList (by decide))

theorem controllerVar_ne (m : Model) : controllerVar m ≠ "" := by
  rw [controllerVar, ne_eq, String.append_eq_empty_iff]
  exact fun h => absurd h.2 (by decide)

variable (h : IsPlain m.name) (hroles : ∀ r ∈ m.metadata.allowedRoles, IsPlain r) (o : Generation)

include h hroles

/-- The routes of a model can be told apart. -/
theorem legible_routeTable : ∀ r ∈ routeTable o m, r.Legible := by
  have hhandler {name : String} (hname : IsPlain name) :
      Indifferent (controllerVar m ++ "." ++ name) :=
    indifferent_member (isPlain_controllerVar m) (controllerVar_ne m) hname
  have hchecks {name : String} (hname : IsPlain name) :
      Indifferent ("validate" ++ m.name ++ "." ++ name) := by
    refine indifferent_member ((isPlain_ofList (by decide)).append h) ?_ hname
    rw [ne_eq, String.append_eq_empty_iff]
    exact fun h => absurd h.1 (by decide)
  have hwrite : ∀ s ∈ (writeGuard o m).roles, IsPlain s := by
    unfold writeGuard
    split
    · exact hroles
    · exact fun s hs => absurd hs List.not_mem_nil
  have hdelete : ∀ s ∈ (deleteGuard o m).roles, IsPlain s := by
    unfold deleteGuard
    split
    · exact List.forall_mem_singleton.mpr (isPlain_ofList (by decide))
    · exact fun s hs => absurd hs List.not_mem_nil
  have hanyone : ∀ s ∈ Guard.anyone.roles, IsPlain s := fun s hs => absurd hs List.not_mem_nil
  have hall : '\'' ∉ "/".toList ∧ Level (quoted "/").toList := by decide
  have hone : '\'' ∉ "/:id".toList ∧ Level (quoted "/:id").toList := by decide
  have hplain {cs : List Char} (hcs : cs.all isPlainAlnum = true) : IsPlain (String.ofList cs) :=
    isPlain_ofList hcs
  unfold routeTable
  simp only [List.forall_mem_cons, List.not_mem_nil, false_implies, implies_true, and_true]
  refine ⟨⟨hall, hwrite, ?_, List.cons_ne_nil _ _⟩, ⟨hall, hanyone, ?_, List.cons_ne_nil _ _⟩,
    ⟨hone, hanyone, ?_, List.cons_ne_nil _ _⟩, ⟨hone, hwrite, ?_, List.cons_ne_nil _ _⟩,
    ⟨hone, hdelete, ?_, List.cons_ne_nil _ _⟩⟩
  all_goals
    simp only [List.forall_mem_cons, List.not_mem_nil, false_implies, implies_true, and_true]
  · exact ⟨hchecks (hplain (by decide)), hhandler (hplain (by decide))⟩
  · exact hhandler (hplain (by decide))
  · exact hhandler (hplain (by decide))
  · exact ⟨hchecks (hplain (by decide)), hhandler (hplain (by decide))⟩
  · exact hhandler (hplain (by decide))

/-- **A router answers what its routes say.** -/
theorem accesses_routes (base : String) :
    accesses base (routes o m).text = (routeTable o m).map (Route.access base) := by
  have hdeclared : access? base ("const " ++ controllerVar m ++ " = new " ++ m.name ++
      "Controller();").toList = none :=
    access?_of_head (by simp)
  have htable : ((routeTable o m).map Route.line).filterMap (fun l => access? base l.toList) =
      (routeTable o m).map (Route.access base) := by
    rw [List.filterMap_map]
    exact (List.filterMap_congr fun r hr =>
      (legible_routeTable h hroles o r hr).access?_line base).trans
        (congrFun (List.filterMap_eq_map (f := Route.access base)) _)
  have hfirst : access? base "const router = Router();".toList = none :=
    access?_of_head (by decide)
  have hlast : access? base "export default router;".toList = none := access?_of_head (by decide)
  have hempty : access? base "".toList = none := access?_of_head (by decide)
  have hroutable : m.Routable := ⟨h, fun r hr => (hroles r hr).oneLine⟩
  rw [accesses_text (tidy_routes hroutable o), routes]
  simp only [List.filterMap_append, List.filterMap_cons, List.filterMap_nil, htable, hdeclared,
    hfirst, hlast, hempty, List.nil_append, List.append_nil]

end Model

/-- The router of the login. -/
theorem accesses_authRoutes (base : String) : accesses base authRoutes.text =
    [⟨.post, below base "/register", false, []⟩, ⟨.post, below base "/login", false, []⟩] := by
  have hindifferent : ∀ p ∈ ["validateRegister", "authController.register", "validateLogin",
      "authController.login"], Indifferent p := by
    simp only [List.forall_mem_cons, List.not_mem_nil, false_implies, implies_true, and_true]
    refine ⟨?_, ?_, ?_, ?_⟩ <;> exact ⟨by decide, by decide, by decide, by decide⟩
  have hlegible (path : String) {handlers : List String}
      (hpath : '\'' ∉ path.toList ∧ Level (quoted path).toList)
      (hhandlers : ∀ p ∈ handlers, Indifferent p) (hne : handlers ≠ []) :
      Route.Legible ⟨.post, path, .anyone, handlers⟩ :=
    ⟨hpath, fun s hs => absurd hs List.not_mem_nil, hhandlers, hne⟩
  have hregister := (hlegible "/register" (by decide) (fun p hp => hindifferent p ?_)
    (List.cons_ne_nil "validateRegister" ["authController.register"])).access?_line base
  have hlogin := (hlegible "/login" (by decide) (fun p hp => hindifferent p ?_)
    (List.cons_ne_nil "validateLogin" ["authController.login"])).access?_line base
  · have hnone {l : String} (hl : l.toList.head? ≠ some 'r') : access? base l.toList = none :=
      access?_of_head hl
    rw [accesses_text tidy_authRoutes, authRoutes]
    simp only [List.filterMap_cons, List.filterMap_nil, hregister, hlogin,
      hnone (l := "const router = Router();") (by decide),
      hnone (l := "const authController = new AuthController();") (by decide),
      hnone (l := "") (by decide), hnone (l := "export default router;") (by decide)]
    rfl
  all_goals
    simp only [List.mem_cons, List.not_mem_nil, or_false] at hp ⊢
    tauto

end Scaffold.Artifact
