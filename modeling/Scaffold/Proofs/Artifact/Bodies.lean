import Scaffold.Artifact.Application
import Scaffold.Artifact.Auth
import Scaffold.Artifact.Middleware
import Scaffold.Artifact.Repository
import Scaffold.Artifact.ValidationChain
import Scaffold.Artifact.Suite
import Scaffold.Proofs.Artifact.Imports
import Scaffold.Proofs.Text.Names
import Scaffold.Proofs.Text.OneLine

/-!
# Proofs/Artifact/Bodies — no body line of an emitted file is an import

Every line that an emitter writes below the imports of a file begins with a text of its own, so it
is enough to look at that text, and at the line feeds in what is put behind it.  The texts that a
model hands on to its files hold none if they are `Unbroken`.
-/

namespace Scaffold

open Text

/-- The texts that a model hands on to the routes of a project hold no line feed. -/
structure Model.Routable (m : Model) : Prop where
  name : IsPlain m.name
  role : ∀ r ∈ m.metadata.allowedRoles, OneLine r

/-- The texts that a model hands on to the sources of a project hold no line feed. -/
structure Model.Unbroken (m : Model) : Prop extends m.Routable where
  fieldName : ∀ f ∈ m.fields, OneLine f.name
  tableName : ∀ t, m.metadata.tableName = some t → OneLine t
  message : ∀ f ∈ m.fields, ∀ r ∈ f.rules, ∀ s, r.message = some s → OneLine s
  operand : ∀ f ∈ m.fields, ∀ r ∈ f.rules, ∀ s, r.operand = .text s → OneLine s

theorem Model.Unbroken.oneLine_routeName {m : Model} (h : m.Unbroken) : OneLine m.routeName :=
  (isPlain_lower h.name).oneLine

theorem Model.Unbroken.oneLine_dataField {m : Model} (h : m.Unbroken) {f : Field}
    (hf : f ∈ m.dataFields) : OneLine f.name :=
  h.fieldName f (List.mem_filter.mp hf).1

/-- A table is called what the model says, or what is derived from its name. -/
theorem Model.Unbroken.oneLine_tableName {m : Model} (h : m.Unbroken) : OneLine m.tableName := by
  have hderived : OneLine (Naming.tableName m.name) :=
    (isPlain_lower h.name).oneLine.append (by decide)
  unfold Model.tableName
  split
  · rename_i t ht
    split
    · exact hderived
    · exact h.tableName t ht
  · exact hderived

end Scaffold

namespace Scaffold.Artifact

open Document Model Options Template Text

-- The layout of a long file takes more instances than are tried by default.
set_option synthInstance.maxSize 1000

/-! ## Texts -/

theorem oneLine_quoted {s : String} (h : OneLine s) : OneLine (quoted s) :=
  (OneLine.append (by decide) h).append (by decide)

/-- Escaping adds backslashes only. -/
theorem oneLine_scriptText {s : String} (h : OneLine s) : OneLine (scriptText s) := by
  refine oneLine_ofList ?_
  rw [List.cons_append, List.mem_cons, List.mem_append, List.mem_flatMap]
  refine not_or.mpr ⟨by decide, not_or.mpr ⟨?_, by decide⟩⟩
  rintro ⟨c, hc, hmem⟩
  unfold escapeQuoted at hmem
  split at hmem
  · obtain h' | h' := List.mem_cons.mp hmem
    · exact absurd h' (by decide)
    · exact h (List.mem_singleton.mp h' ▸ hc)
  · exact h (List.mem_singleton.mp hmem ▸ hc)

theorem oneLine_shown {x : Operand} (h : ∀ s, x = .text s → OneLine s) :
    OneLine x.document.shown := by
  cases x with
  | int n => exact oneLine_shown_int n
  | real x => exact oneLine_shown_real x
  | text s => exact h s rfl

theorem oneLine_scriptLiteral {x : Operand} (h : ∀ s, x = .text s → OneLine s) :
    OneLine (scriptLiteral x) := by
  cases x with
  | int n => exact oneLine_shown_int n
  | real x => exact oneLine_shown_real x
  | text s => exact oneLine_scriptText (h s rfl)

theorem oneLine_repositoryVar (m : Model) : OneLine (repositoryVar m) :=
  (Naming.isPlain_camel m.name).oneLine.append (by decide)

theorem oneLine_controllerVar (m : Model) : OneLine (controllerVar m) :=
  (Naming.isPlain_camel m.name).oneLine.append (by decide)

/-! ## Chains of checks -/

/-- The messages and operands of the rules hold no line feed. -/
def UnbrokenRules (rules : List Rule) : Prop :=
  ∀ r ∈ rules, (∀ s, r.message = some s → OneLine s) ∧ ∀ s, r.operand = .text s → OneLine s

/-- A message stays on one line as a literal. -/
theorem oneLine_withMessage {message : Option String} (h : ∀ s, message = some s → OneLine s) :
    ∀ p ∈ withMessage message, OneLine p := by
  unfold withMessage
  split
  · rename_i m
    split
    · simp
    · rw [List.forall_mem_singleton]
      exact (OneLine.append (by decide) (oneLine_scriptText (h m rfl))).append (by decide)
  · simp

theorem oneLine_firstMessage {rules : List Rule}
    (h : ∀ r ∈ rules, ∀ s, r.message = some s → OneLine s) :
    ∀ s, firstMessage rules = some s → OneLine s := by
  intro s hs
  obtain ⟨r, hr, hmessage⟩ := List.mem_filterMap.mp (List.mem_of_find?_eq_some hs)
  exact h r hr s hmessage

theorem of_rule?_eq_some {f : Field} {kind : String} {r : Rule} (h : f.rule? kind = some r) :
    r ∈ f.rules ∧ Schema.Named.text r.kind = kind :=
  ⟨List.mem_of_find?_eq_some h, by simpa using List.find?_some h⟩

/-- The rules that bound a field are its rules for bounds. -/
theorem of_mem_bounds {f : Field} {b : Bounds} (h : bounds? f = some b) :
    ∀ r ∈ b.lower.toList ++ b.upper.toList,
      r ∈ f.rules ∧ r.kind ∈ [.minLength, .maxLength, .min, .max] := by
  have hrule {kind : String} (hkind : kind ∈ ["minLength", "maxLength", "min", "max"]) :
      ∀ r ∈ (f.rule? kind).toList,
        r ∈ f.rules ∧ r.kind ∈ [.minLength, .maxLength, .min, .max] := by
    intro r hr
    obtain ⟨hmem, rfl⟩ := of_rule?_eq_some (Option.mem_toList.mp hr)
    refine ⟨hmem, ?_⟩
    cases hr : r.kind <;> rw [hr] at hkind <;> first | decide | exact absurd hkind (by decide)
  unfold bounds? at h
  split at h
  case h_9 => cases h
  all_goals
    cases h
    exact List.forall_mem_append.mpr ⟨hrule (by decide), hrule (by decide)⟩

/-- There are three checks that take bounds. -/
theorem check_mem_of_bounds {f : Field} {b : Bounds} (h : bounds? f = some b) :
    b.check ∈ ["isLength", "isInt", "isFloat"] := by
  unfold bounds? at h
  split at h
  case h_9 => cases h
  all_goals
    cases h
    simp

theorem oneLine_check {f : Field} {b : Bounds} (h : bounds? f = some b) : OneLine b.check :=
  (by decide : ∀ s ∈ ["isLength", "isInt", "isFloat"], OneLine s) b.check (check_mem_of_bounds h)

/-- The operands in a chain are those of rules of its field. -/
theorem exists_rule_of_mem_chainOperands {f : Field} {o : Operand} (h : o ∈ chainOperands f) :
    ∃ r ∈ f.rules, r.operand = o := by
  obtain ⟨r, hr, rfl⟩ := List.mem_map.mp h
  refine ⟨r, ?_, rfl⟩
  obtain hr | hr := List.mem_append.mp hr
  · unfold boundRules at hr
    split at hr
    · cases hr
    · exact (of_mem_bounds ‹_› r hr).1
  · exact (of_rule?_eq_some (Option.mem_toList.mp hr)).1

/-- The check of the bounds stays on one line. -/
theorem oneLine_boundParts {f : Field} (h : UnbrokenRules f.rules) :
    ∀ p ∈ boundParts f, OneLine p := by
  unfold boundParts
  split
  · simp
  · rename_i b hb
    have hrules := of_mem_bounds hb
    have hlimits {word : String} {bound : Option Rule} (hword : OneLine word)
        (hbound : ∀ r ∈ bound.toList, r ∈ b.lower.toList ++ b.upper.toList) :
        ∀ l ∈ (bound.map fun r => word ++ r.operand.document.shown).toList, OneLine l := by
      cases bound with
      | none => simp
      | some r =>
        rw [Option.map_some, Option.toList_some, List.forall_mem_singleton]
        exact hword.append (oneLine_shown (h r (hrules r (hbound r (by simp))).1).2)
    have hmessage := oneLine_firstMessage fun r hr => (h r (hrules r hr).1).1
    simp only
    split
    · simp
    · rw [List.forall_mem_cons]
      refine ⟨?_, oneLine_withMessage hmessage⟩
      refine OneLine.append (OneLine.append (OneLine.append (OneLine.append (by decide)
        (oneLine_check hb)) (by decide)) (oneLine_intercalate (by decide) ?_)) (by decide)
      exact List.forall_mem_append.mpr
        ⟨hlimits (by decide) fun r hr => List.mem_append_left _ hr,
          hlimits (by decide) fun r hr => List.mem_append_right _ hr⟩

/-- So does the check of a pattern. -/
theorem oneLine_patternParts {f : Field} (h : UnbrokenRules f.rules) :
    ∀ p ∈ patternParts f, OneLine p := by
  unfold patternParts
  split
  · simp
  · rename_i r hr
    have hmem : r ∈ f.rules := List.mem_of_find?_eq_some hr
    rw [List.forall_mem_cons]
    refine ⟨?_, oneLine_withMessage (h r hmem).1⟩
    exact (OneLine.append (by decide) (oneLine_scriptLiteral (h r hmem).2)).append (by decide)

/-- **The chain of checks of a field is one line** if its name and its rules hold no line feed. -/
theorem oneLine_validationChain {f : Field} (hname : OneLine f.name) (h : UnbrokenRules f.rules)
    (forUpdate : Bool) : OneLine (validationChain forUpdate f) := by
  have hcheck : OneLine (Catalog.facts f.type).check := by
    cases f.type <;> decide
  unfold validationChain
  refine oneLine_join (List.forall_mem_append.mpr ⟨List.forall_mem_append.mpr ⟨?_,
    oneLine_boundParts h⟩, oneLine_patternParts h⟩)
  simp only [List.forall_mem_cons, List.not_mem_nil, false_implies, implies_true, and_true]
  refine ⟨(OneLine.append (by decide) hname).append (by decide), ?_,
    OneLine.append (by decide) hcheck⟩
  split
  · exact OneLine.append (by decide) ((OneLine.append (by decide) hname).append (by decide))
  · decide

/-! ## Routes -/

/-- What a guard puts in front of the handlers stays on one line. -/
theorem oneLine_guardHandlers {g : Guard} (h : ∀ r ∈ g.roles, OneLine r) :
    ∀ p ∈ g.handlers, OneLine p := by
  have htoken : OneLine "authenticateToken" := by decide
  fun_cases Guard.handlers g with
  | case1 => simp
  | case2 => simpa using htoken
  | case3 roles _ =>
    have hroles : ∀ p ∈ roles.map quoted, OneLine p :=
      List.forall_mem_map.mpr fun r hr => oneLine_quoted (h r hr)
    simp only [List.forall_mem_cons, List.not_mem_nil, false_implies, implies_true, and_true]
    exact ⟨htoken, (OneLine.append (by decide) (oneLine_intercalate (by decide) hroles)).append
      (by decide)⟩

/-- A route begins with the router. -/
theorem bodyLine_route {r : Route} (hpath : OneLine r.path) (hroles : ∀ s ∈ r.guard.roles, OneLine s)
    (hhandlers : ∀ p ∈ r.handlers, OneLine p) : BodyLine r.line := by
  have hmethod : OneLine (lower (Schema.Named.text r.method)) := by
    have hplain : IsPlain (Schema.Named.text r.method) := by
      cases r.method <;> exact isPlain_ofList (by decide)
    exact (isPlain_lower hplain).oneLine
  have hall : OneLine (", ".intercalate (r.guard.handlers ++ r.handlers)) :=
    oneLine_intercalate (by decide)
      (List.forall_mem_append.mpr ⟨oneLine_guardHandlers hroles, hhandlers⟩)
  have hstart : Begun "router." := begun_ofList (by decide)
  exact (((((hstart.append hmethod).append (by decide)).append hpath).append
    (by decide)).append hall).append (by decide) |>.bodyLine

/-- The five routes of a model. -/
theorem body_routeTable {m : Model} (h : m.Routable) (o : Generation) :
    Body ((routeTable o m).map Route.line) := by
  have hhandler (name : String) (hname : OneLine name) :
      OneLine (controllerVar m ++ "." ++ name) :=
    ((oneLine_controllerVar m).append (by decide)).append hname
  have hchecks (name : String) (hname : OneLine name) :
      OneLine ("validate" ++ m.name ++ "." ++ name) :=
    ((OneLine.append (by decide) h.name.oneLine).append (by decide)).append hname
  have hwrite : ∀ s ∈ (writeGuard o m).roles, OneLine s := by
    unfold writeGuard
    split
    · exact h.role
    · simp [Guard.roles]
  have hdelete : ∀ s ∈ (deleteGuard o m).roles, OneLine s := by
    unfold deleteGuard
    split
    · simpa [Guard.roles] using (by decide : OneLine "admin")
    · simp [Guard.roles]
  have hanyone : ∀ s ∈ Guard.anyone.roles, OneLine s := by simp [Guard.roles]
  have hall : OneLine "/" := by decide
  have hone : OneLine "/:id" := by decide
  refine .cons (bodyLine_route hall hwrite ?_) (.cons (bodyLine_route hall hanyone ?_)
    (.cons (bodyLine_route hone hanyone ?_) (.cons (bodyLine_route hone hwrite ?_)
      (.cons (bodyLine_route hone hdelete ?_) body_nil))))
  all_goals
    simp only [List.forall_mem_cons, List.not_mem_nil, false_implies, implies_true, and_true]
  · exact ⟨hchecks "create" (by decide), hhandler "create" (by decide)⟩
  · exact hhandler "getAll" (by decide)
  · exact hhandler "getById" (by decide)
  · exact ⟨hchecks "update" (by decide), hhandler "update" (by decide)⟩
  · exact hhandler "delete" (by decide)

/-! ## Callers of a suite -/

/-- The texts of a caller hold no line feed. -/
def Caller.Unbroken (c : Caller) : Prop := OneLine c.origin ∧ ∀ s ∈ c.headers.toList, OneLine s

theorem unbroken_writer (o : Generation) (m : Model) : (writer o m).Unbroken := by
  unfold writer
  split
  · exact ⟨by decide, by decide⟩
  · split
    · exact ⟨by decide, by decide⟩
    · exact ⟨by decide, by decide⟩

/-- The remover is one of five callers, all with plain names. -/
theorem unbroken_remover (o : Generation) (m : Model) : (remover o m).Unbroken := by
  unfold remover
  split
  · exact ⟨by decide, by decide⟩
  · split
    · exact ⟨by decide, by decide⟩
    · split
      · exact ⟨by decide, by decide⟩
      · exact ⟨by decide, by decide⟩

theorem Caller.Unbroken.body_headerLines {c : Caller} (h : c.Unbroken) {margin : String}
    (hmargin : Begun margin) : Body (c.headerLines margin) :=
  body_map fun s hs => (((hmargin.append (by decide)).append (h.2 s hs)).append
    (by decide)).bodyLine

/-- A sample value is a document that is printed on one line. -/
theorem oneLine_sampleText (f : Field) : OneLine (sampleText f) := by
  have hsample := Json.oneLine_print (Catalog.facts f.type).sample
  unfold sampleText
  simp only
  split
  · exact (OneLine.append (by decide) hsample).append (by decide)
  · split
    · exact hsample.append (by decide)
    · exact hsample

theorem oneLine_writerRole {m : Model} (h : m.Unbroken) : OneLine (writerRole m) := by
  unfold writerRole
  cases hroles : m.metadata.allowedRoles with
  | nil =>
    have huser : OneLine "user" := by decide
    exact huser
  | cons r rs => exact h.role r (hroles ▸ List.mem_cons_self)

/-! ## The same files in every project -/

theorem oneLine_parameter (d : Dialect) (n : Nat) : OneLine (d.parameter n) := by
  cases d with
  | postgresql => exact OneLine.append (by decide) (Number.oneLine_toString_nat n)
  | mysql =>
    have hmark : OneLine "?" := by decide
    exact hmark

theorem body_corsMiddleware : Body corsMiddleware.body := by
  dsimp only [corsMiddleware]
  exact body_of_layout (by decide)

theorem body_loggingMiddleware : Body loggingMiddleware.body := by
  dsimp only [loggingMiddleware]
  exact body_of_layout (by decide)

theorem body_validationMiddleware : Body validationMiddleware.body := by
  dsimp only [validationMiddleware]
  exact body_of_layout (by decide)

theorem body_authController (o : Generation) : Body (authController o).body := by
  dsimp only [authController]
  exact body_of_layout (by decide)

theorem body_connection (d : Database) : Body (connection d).body := by
  cases d
  all_goals
    dsimp only [connection]
    exact body_of_layout (by decide)

theorem body_userRepository (d : Database) : Body (userRepository d).body := by
  have hparameter (d : Dialect) (n : Nat) := (oneLine_parameter d n).fills
  cases d
  all_goals
    dsimp only [userRepository, userCollection, userTable, insertLines, Dialect.ofDatabase,
      Dialect.now]
    exact body_of_layout (by decide)

/-! ## The entry -/

theorem bodyLine_mount {m : Mount} (hpath : OneLine m.path) (hrouter : OneLine m.router) :
    BodyLine m.line := by
  have hstart : Begun "app.use('" := begun_ofList (by decide)
  exact ((((hstart.append hpath).append (by decide)).append hrouter).append (by decide)).bodyLine

/-- The lines that mount a router. -/
theorem body_mounts (o : Generation) {models : List Model} (h : ∀ m ∈ models, m.Routable) :
    Body ((mounts o models).map Mount.line) := by
  refine body_map fun m hm => ?_
  obtain hm | hm := List.mem_append.mp hm
  · split at hm
    · rw [List.mem_singleton.mp hm]
      exact bodyLine_mount (by decide) (by decide)
    · exact absurd hm List.not_mem_nil
  · obtain ⟨m, hmem, rfl⟩ := List.mem_map.mp hm
    have hsegment : OneLine m.routeName := (isPlain_lower (h m hmem).name).oneLine
    exact bodyLine_mount (OneLine.append (by decide) hsegment) (hsegment.append (by decide))

theorem body_application (o : Generation) {models : List Model} (h : ∀ m ∈ models, m.Routable) :
    Body (application o models).body := by
  have hmounts := (body_mounts o h).fillsBlock
  dsimp only [application, listenLines]
  exact body_of_layout (by decide)

/-! ## The files of a model -/

section Model

variable {m : Model}

theorem body_routes (h : m.Routable) (o : Generation) : Body (routes o m).body := by
  have hname := h.name.oneLine.fills
  have hvar := (oneLine_controllerVar m).fills
  have htable := (body_routeTable h o).fillsBlock
  dsimp only [routes]
  exact body_of_layout (by decide)

theorem body_chainLines (h : m.Unbroken) (forUpdate : Bool) : Body (chainLines forUpdate m) := by
  refine body_map fun f hf => ?_
  have hmem : f ∈ m.fields := (List.mem_filter.mp hf).1
  have hchain := (oneLine_validationChain (h.fieldName f hmem)
    (fun r hr => ⟨h.message f hmem r hr, h.operand f hmem r hr⟩) forUpdate).fills
  exact bodyLine_of_wording (by decide)

theorem body_service (h : m.Unbroken) : Body (service m).body := by
  have hname := h.name.oneLine.fills
  have hvar := (oneLine_repositoryVar m).fills
  dsimp only [service, serviceBody]
  exact body_of_layout (by decide)

theorem body_requestChecks (h : m.Unbroken) : Body (requestChecks m).body := by
  have hname := h.name.oneLine.fills
  have hcreate := (body_chainLines h false).fillsBlock
  have hupdate := (body_chainLines h true).fillsBlock
  dsimp only [requestChecks]
  exact body_of_layout (by decide)

theorem body_columnMap (h : m.Unbroken) : Body (Relational.columnMap m) := by
  refine body_map fun f hf => ?_
  have hfield := (h.oneLine_dataField hf).fills
  have hsnake := (Naming.oneLine_snake f.name).fills
  exact bodyLine_of_wording (by decide)

theorem body_rowMap (h : m.Unbroken) : Body (Relational.rowMap m) := by
  refine body_map fun f hf => ?_
  have hfield := (h.oneLine_dataField hf).fills
  have hsnake := (Naming.oneLine_snake f.name).fills
  exact bodyLine_of_wording (by decide)

/-- The repository of a model in a table. -/
theorem body_relational (h : m.Unbroken) (d : Dialect) : Body (Relational.repository d m).body := by
  have hname := h.name.oneLine.fills
  have htable := h.oneLine_tableName.fills
  have hparameter (n : Nat) := (oneLine_parameter d n).fills
  have hcolumns := (body_columnMap h).fillsBlock
  have hrows := (body_rowMap h).fillsBlock
  cases d
  all_goals
    dsimp only [Relational.repository, Relational.headLines, Relational.createLines,
      Relational.findLines, Relational.updateLines, Relational.deleteLines, Relational.mapperLines,
      Relational.live, Relational.liveWhere, Relational.orderColumn, Dialect.now]
    exact body_of_layout (by decide)

theorem body_documentMap (h : m.Unbroken) : Body (Collection.documentMap m) := by
  refine body_map fun f hf => ?_
  have hfield := (h.oneLine_dataField hf).fills
  exact bodyLine_of_wording (by decide)

/-- The repository of a model in a collection. -/
theorem body_collection (h : m.Unbroken) : Body (Collection.repository m).body := by
  have hname := h.name.oneLine.fills
  have htable := h.oneLine_tableName.fills
  have hdocument := (body_documentMap h).fillsBlock
  dsimp only [Collection.repository, Collection.headLines, Collection.createLines,
    Collection.findLines, Collection.updateLines, Collection.deleteLines, Collection.mapperLines,
    Collection.live, Collection.liveFilter, Collection.orderField, Collection.updateDocument]
  exact body_of_layout (by decide)

theorem body_sampleLines (h : m.Unbroken) : Body (sampleLines m) := by
  refine body_map fun f hf => ?_
  have hfield := (h.oneLine_dataField hf).fills
  have hsample := (oneLine_sampleText f).fills
  exact bodyLine_of_wording (by decide)

/-- The created record is expected to have the members that were sent. -/
theorem body_expectations (h : m.Unbroken) : Body (m.dataFields.map fun f =>
    "      expect(response.body.data." ++ f.name ++ ").toEqual(testData." ++ f.name ++ ");") := by
  refine body_map fun f hf => ?_
  have hfield := (h.oneLine_dataField hf).fills
  exact bodyLine_of_wording (by decide)

/-- The tests of a model. -/
theorem body_suite (h : m.Unbroken) (o : Generation) : Body (suite o m).body := by
  have hname := h.name.oneLine.fills
  have hsegment := h.oneLine_routeName.fills
  have hrole := (oneLine_writerRole h).fills
  have hnarrow : Begun "      " := begun_ofList (by decide)
  have hwide : Begun "        " := begun_ofList (by decide)
  have hwriter := unbroken_writer o m
  have hwriting := hwriter.1.fills
  have hwriterNarrow := (hwriter.body_headerLines hnarrow).fillsBlock
  have hwriterWide := (hwriter.body_headerLines hwide).fillsBlock
  have hremover := unbroken_remover o m
  have hremoving := hremover.1.fills
  have hremoverWide := (hremover.body_headerLines hwide).fillsBlock
  have hsamples := (body_sampleLines h).fillsBlock
  have hexpectations := (body_expectations h).fillsBlock
  dsimp only [suite, setupLines, signInLines, tokenSignIn, sessionSignIn, credentialLines,
    createHelperLines, createTests, readTests, updateTests, deleteTests]
  exact body_of_layout (by decide)

end Model

/-! ## The files of the login -/

/-- The routes of the login. -/
theorem body_authRoutes : Body authRoutes.body := by
  have hroute {path : String} {handlers : List String} (hpath : OneLine path)
      (hhandlers : ∀ p ∈ handlers, OneLine p) : BodyLine (Route.line ⟨.post, path, .anyone, handlers⟩) :=
    bodyLine_route hpath (by simp [Guard.roles]) hhandlers
  exact .cons (bodyLine_ofList (by decide)) (.cons (bodyLine_ofList (by decide))
    (.cons bodyLine_empty (.cons (hroute (by decide) (by decide))
      (.cons (hroute (by decide) (by decide)) (.cons bodyLine_empty
        (.cons (bodyLine_ofList (by decide)) body_nil))))))

theorem body_sessionMiddleware {lookup missing : String} (hlookup : OneLine lookup)
    (hmissing : OneLine missing) : Body (sessionMiddleware lookup missing).body := by
  have hlookup := hlookup.fills
  have hmissing := hmissing.fills
  dsimp only [sessionMiddleware]
  exact body_of_layout (by decide)

/-- The checks of a registration. -/
theorem body_authChecks {a : Project.Auth} (h : ∀ r ∈ a.roleNames, OneLine r) :
    Body (authChecks a).body := by
  have hroles : OneLine (", ".intercalate (a.roleNames.map quoted)) :=
    oneLine_intercalate (by decide) (List.forall_mem_map.mpr fun r hr => oneLine_quoted (h r hr))
  have hplain : OneLine (String.ofList
      ((", ".intercalate (a.roleNames.map quoted)).toList.filter (· ≠ '\''))) :=
    oneLine_ofList fun hmem => hroles (List.mem_filter.mp hmem).1
  have hroles := hroles.fills
  have hplain := hplain.fills
  dsimp only [authChecks]
  exact body_of_layout (by decide)

end Scaffold.Artifact
