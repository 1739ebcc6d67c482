import Scaffold.Proofs.Artifact.Balance

/-!
# Proofs/Artifact/Balanced — every source file is balanced

What the fixed texts of an emitter do to the scanner is computed from where it stands before them;
names, numbers and quoted texts leave it there.  So the brackets of every source file of a project
match, whatever its options are.
-/

namespace Scaffold.Artifact

open Document Format Model Number Options Project Text

-- The layout of a long file takes more instances than are tried by default.
set_option synthInstance.maxSize 1000

/-! ## The same files in every project -/

theorem isBalanced_corsMiddleware : IsBalanced corsMiddleware.text := by
  dsimp only [Source.text, Source.lines, corsMiddleware, handlerImport, List.map, Import.line]
  exact isBalanced_of_surplus? (by decide)

theorem isBalanced_loggingMiddleware : IsBalanced loggingMiddleware.text := by
  dsimp only [Source.text, Source.lines, loggingMiddleware, handlerImport, List.map, Import.line]
  exact isBalanced_of_surplus? (by decide)

theorem isBalanced_validationMiddleware : IsBalanced validationMiddleware.text := by
  dsimp only [Source.text, Source.lines, validationMiddleware, handlerImport, List.map, Import.line]
  exact isBalanced_of_surplus? (by decide)

theorem isBalanced_authController (o : Generation) : IsBalanced (authController o).text := by
  dsimp only [Source.text, Source.lines, authController, handlerImport, List.map, Import.line]
  exact isBalanced_of_surplus? (by decide)

theorem isBalanced_connection (d : Database) : IsBalanced (connection d).text := by
  cases d
  all_goals
    dsimp only [Source.text, Source.lines, connection, List.map, Import.line]
    exact isBalanced_of_surplus? (by decide)

/-- The repository of the accounts, in each database. -/
theorem isBalanced_userRepository (d : Database) : IsBalanced (userRepository d).text := by
  have hparameter (d : Dialect) (n : Nat) := (inert_parameter d n).fills
  cases d
  all_goals
    dsimp only [Source.text, Source.lines, userRepository, userCollection, userTable, insertLines,
      Dialect.ofDatabase, Dialect.now, identifierImport, documentImport, queryImport, userImport,
      List.cons_append, List.nil_append, List.map, Import.line]
    exact isBalanced_of_surplus? (by decide)

/-! ## The files of a model -/

section Model

variable {m : Model} (h : m.Conventional)
include h

theorem inert_dataField {f : Field} (hf : f ∈ m.dataFields) : Inert f.name :=
  (h.fieldName f (List.mem_filter.mp hf).1).inert

/-- The name of a table is derived from a plain one, or is a plain word itself. -/
theorem inert_tableName : Inert m.tableName := by
  have hderived : Inert (Naming.tableName m.name) :=
    (isPlain_lower h.name).inert.append (inert_ofList (by decide))
  unfold Model.tableName
  split
  · rename_i t ht
    split
    · exact hderived
    · exact (h.tableName t ht).inert
  · exact hderived

theorem inert_routeName : Inert m.routeName := (isPlain_lower h.name).inert

omit h in
theorem inert_repositoryVar (m : Model) : Inert (repositoryVar m) :=
  (Naming.isPlain_camel m.name).inert.append (inert_ofList (by decide))

theorem isBalanced_service : IsBalanced (service m).text := by
  have hname := h.name.inert.fills
  have hvar := (inert_repositoryVar m).fills
  dsimp only [Source.text, Source.lines, service, serviceBody, recordImport, List.map, Import.line,
    List.cons_append, List.nil_append]
  exact isBalanced_of_surplus? (by decide)

/-- The chains of all fields, one in each line. -/
theorem fillsBlock_chainLines (forUpdate : Bool) :
    FillsBlock manners (chainLines forUpdate m) := by
  refine fillsBlock_map fun f hf => ?_
  have hmem : f ∈ m.fields := (List.mem_filter.mp hf).1
  have hchain := isBalanced_validationChain (h.fieldName f hmem).inert
    ⟨h.bound f hmem, h.pattern f hmem, h.message f hmem⟩ forUpdate
  have hfills := hchain.fills
  exact isBalanced_of_crossing (by decide)

theorem isBalanced_requestChecks : IsBalanced (requestChecks m).text := by
  have hname := h.name.inert.fills
  have hcreate := fillsBlock_chainLines h false
  have hupdate := fillsBlock_chainLines h true
  dsimp only [Source.text, Source.lines, requestChecks, bodyImports, List.map, Import.line,
    List.cons_append, List.nil_append]
  exact isBalanced_of_surplus? (by decide)

/-! ### Repositories -/

theorem fillsBlock_columnMap : FillsBlock manners (Relational.columnMap m) := by
  refine fillsBlock_map fun f hf => ?_
  have hfield := (inert_dataField h hf).fills
  have hsnake := (Naming.isPlainWord_snake f.name).inert.fills
  exact isBalanced_of_crossing (by decide)

theorem fillsBlock_rowMap : FillsBlock manners (Relational.rowMap m) := by
  refine fillsBlock_map fun f hf => ?_
  have hfield := (inert_dataField h hf).fills
  have hsnake := (Naming.isPlainWord_snake f.name).inert.fills
  exact isBalanced_of_crossing (by decide)

/-- The repository of a model in a table. -/
theorem isBalanced_relational (d : Dialect) : IsBalanced (Relational.repository d m).text := by
  have hname := h.name.inert.fills
  have htable := (inert_tableName h).fills
  have hparameter (n : Nat) := (inert_parameter d n).fills
  have hcolumns := fillsBlock_columnMap h
  have hrows := fillsBlock_rowMap h
  cases d
  all_goals
    dsimp only [Source.text, Source.lines, Relational.repository, Relational.headLines,
      Relational.createLines, Relational.findLines, Relational.updateLines, Relational.deleteLines,
      Relational.mapperLines, Relational.live, Relational.liveWhere, Relational.orderColumn,
      Dialect.now, identifierImport, queryImport, recordImport, List.cons_append, List.nil_append,
      List.map, Import.line]
    exact isBalanced_of_surplus? (by decide)

theorem fillsBlock_documentMap : FillsBlock manners (Collection.documentMap m) := by
  refine fillsBlock_map fun f hf => ?_
  have hfield := (inert_dataField h hf).fills
  exact isBalanced_of_crossing (by decide)

/-- The repository of a model in a collection. -/
theorem isBalanced_collection : IsBalanced (Collection.repository m).text := by
  have hname := h.name.inert.fills
  have htable := (inert_tableName h).fills
  have hdocument := fillsBlock_documentMap h
  dsimp only [Source.text, Source.lines, Collection.repository, Collection.headLines,
    Collection.createLines, Collection.findLines, Collection.updateLines, Collection.deleteLines,
    Collection.mapperLines, Collection.live, Collection.liveFilter, Collection.orderField,
    Collection.updateDocument, identifierImport, documentImport, recordImport, List.map,
    Import.line]
  exact isBalanced_of_surplus? (by decide)

theorem isBalanced_repository (d : Database) : IsBalanced (repository d m).text := by
  cases d with
  | postgresql => exact isBalanced_relational h .postgresql
  | mysql => exact isBalanced_relational h .mysql
  | mongodb => exact isBalanced_collection h

/-! ### Routes -/

omit h in
/-- What a guard puts in front of the handlers. -/
theorem isBalanced_handlers {g : Guard} (hroles : ∀ r ∈ g.roles, Inert r) :
    ∀ p ∈ g.handlers, IsBalanced p := by
  have htoken : IsBalanced "authenticateToken" := isBalanced_ofList (by decide)
  fun_cases Guard.handlers g with
  | case1 => simp
  | case2 => simpa using htoken
  | case3 roles _ =>
    have hcomma : IsBalanced ", " := isBalanced_ofList (by decide)
    have hnames : IsBalanced (", ".intercalate (roles.map quoted)) :=
      isBalanced_intercalate hcomma (List.forall_mem_map.mpr fun r hr =>
        isBalanced_quoted (hroles r hr))
    simp only [List.forall_mem_cons, List.not_mem_nil, false_implies, implies_true, and_true]
    have hfills := hnames.fills
    exact ⟨htoken, isBalanced_of_crossing (by decide)⟩

omit h in
/-- One route: its path stands in quotes, and its handlers are names or calls. -/
theorem isBalanced_route {r : Route} (hpath : Slashed r.path) (hroles : ∀ s ∈ r.guard.roles, Inert s)
    (hhandlers : ∀ p ∈ r.handlers, Inert p) : IsBalanced r.line := by
  have hmethod : Inert (lower (Schema.Named.text r.method)) := by
    have hplain : IsPlain (Schema.Named.text r.method) := by
      cases r.method <;> exact isPlain_ofList (by decide)
    exact (isPlain_lower hplain).inert
  have hcomma : IsBalanced ", " := isBalanced_ofList (by decide)
  have hall : IsBalanced (", ".intercalate (r.guard.handlers ++ r.handlers)) :=
    isBalanced_intercalate hcomma (List.forall_mem_append.mpr
      ⟨isBalanced_handlers hroles, fun p hp => (hhandlers p hp).isBalanced⟩)
  have hmethod := hmethod.fills
  have hpath := hpath.fills
  have hall := hall.fills
  unfold Route.line
  exact isBalanced_of_crossing (by decide)

omit h in
theorem inert_controllerVar : Inert (controllerVar m) :=
  (Naming.isPlain_camel m.name).inert.append (inert_ofList (by decide))

/-- The five routes of a model. -/
theorem isBalanced_routeTable (o : Generation) : ∀ r ∈ routeTable o m, IsBalanced r.line := by
  have hname : Inert m.name := h.name.inert
  have hvar : Inert (controllerVar m) := inert_controllerVar
  have hhandler {name : String} (hname : Inert name) : Inert (controllerVar m ++ "." ++ name) :=
    (hvar.append (inert_ofList (by decide))).append hname
  have hchecks {name : String} (hword : Inert name) : Inert ("validate" ++ m.name ++ "." ++ name) :=
    ((Inert.append (inert_ofList (by decide)) hname).append (inert_ofList (by decide))).append hword
  have hwrite : ∀ s ∈ (writeGuard o m).roles, Inert s := by
    unfold writeGuard
    split
    · exact fun s hs => (h.role s hs).inert
    · exact List.forall_mem_nil _
  have hdelete : ∀ s ∈ (deleteGuard o m).roles, Inert s := by
    unfold deleteGuard
    split
    · exact List.forall_mem_singleton.mpr (inert_ofList (by decide))
    · exact List.forall_mem_nil _
  have hanyone : ∀ s ∈ Guard.anyone.roles, Inert s := List.forall_mem_nil _
  have hall : Slashed "/" := slashed_ofList (by decide)
  have hone : Slashed "/:id" := slashed_ofList (by decide)
  refine List.forall_mem_cons.mpr ⟨isBalanced_route hall hwrite ?_, List.forall_mem_cons.mpr
    ⟨isBalanced_route hall hanyone ?_, List.forall_mem_cons.mpr ⟨isBalanced_route hone hanyone ?_,
      List.forall_mem_cons.mpr ⟨isBalanced_route hone hwrite ?_, List.forall_mem_singleton.mpr
        (isBalanced_route hone hdelete ?_)⟩⟩⟩⟩
  all_goals
    simp only [List.forall_mem_cons, List.not_mem_nil, false_implies, implies_true, and_true]
  · exact ⟨hchecks (inert_ofList (by decide)), hhandler (inert_ofList (by decide))⟩
  · exact hhandler (inert_ofList (by decide))
  · exact hhandler (inert_ofList (by decide))
  · exact ⟨hchecks (inert_ofList (by decide)), hhandler (inert_ofList (by decide))⟩
  · exact hhandler (inert_ofList (by decide))

/-- The router of a model, with or without guards. -/
theorem isBalanced_routes (o : Generation) : IsBalanced (routes o m).text := by
  have hname := h.name.inert.fills
  have hvar := (inert_controllerVar (m := m)).fills
  have hlines := fillsBlock_map (isBalanced_routeTable h o)
  cases hguarded : m.isGuarded o
  all_goals
    dsimp only [Source.text, Source.lines, routes, guardImports, routerImport]
    simp only [hguarded, if_true, Bool.false_eq_true, if_false]
    dsimp only [List.map, Import.line, List.cons_append, List.nil_append]
    exact isBalanced_of_surplus? (by decide)

/-! ### Suites -/

omit h in
/-- A sample value is a document on one line, perhaps in a call or with a suffix. -/
theorem isBalanced_sampleText (f : Field) : IsBalanced (sampleText f) := by
  have hnan : IsPlain FloatFormat.document.special.nan := isPlain_ofList (by decide)
  have hinfinite : IsUnsigned FloatFormat.document.special.infinite.toList :=
    .of_plain (by decide) (by decide)
  have hsample : IsBalanced (Json.print .line (Catalog.facts f.type).sample) := by
    rw [IsBalanced, Json.print, String.toList_ofList]
    cases f.type with
    | number | integer =>
      rw [Catalog.facts, Json.write]
      exact crosses_of_isInert rfl (isNumeral_toString_int 42).isInert
    | float | decimal =>
      rw [Catalog.facts, Catalog.decimal, Json.write]
      exact crosses_of_isInert rfl (isNumeral_spell hnan hinfinite _).isInert
    | boolean =>
      rw [Catalog.facts, Json.write]
      exact crosses_of_isInert rfl (by decide)
    | json =>
      have hcolon : Crosses .code [':', ' '] .code 0 := crosses_of_isInert rfl (by decide)
      have hmember := ((crosses_quote true "key").append hcolon).append (crosses_quote true "value")
      rw [Catalog.facts, Json.write]
      exact crosses_enclose (b := ('{', '}')) (by decide) 0 (by decide)
        (List.forall_mem_singleton.mpr hmember)
    | string | text | date | email | url | uuid =>
      rw [Catalog.facts, Json.write]
      exact crosses_quote _ _
  unfold sampleText
  simp only
  split
  · have hfills := hsample.fills
    exact isBalanced_of_crossing (by decide)
  · split
    · exact hsample.append (isBalanced_ofList (by decide))
    · exact hsample

theorem inert_writerRole : Inert (writerRole m) := by
  unfold writerRole
  cases hroles : m.metadata.allowedRoles with
  | nil =>
    have huser : Inert "user" := inert_ofList (by decide)
    exact huser
  | cons r rs => exact (h.role r (hroles ▸ List.mem_cons_self)).inert

omit h in
/-- Who sends the requests is written as an expression, and the headers have plain names. -/
theorem of_caller {o : Generation} {c : Caller} (hc : c = writer o m ∨ c = remover o m) :
    IsBalanced c.origin ∧ ∀ s ∈ c.headers.toList, Inert s := by
  have hall : c ∈ [.anonymous, .withHeaders "writerHeaders", .withHeaders "adminHeaders",
      .agent "writer", .agent "admin"] := by
    obtain rfl | rfl := hc
    · unfold writer
      grind
    · unfold remover
      grind
  simp only [List.mem_cons, List.not_mem_nil, or_false] at hall
  obtain rfl | rfl | rfl | rfl | rfl := hall
  · exact ⟨isBalanced_ofList (by decide), List.forall_mem_nil _⟩
  · exact ⟨isBalanced_ofList (by decide),
      List.forall_mem_singleton.mpr (inert_ofList (by decide))⟩
  · exact ⟨isBalanced_ofList (by decide),
      List.forall_mem_singleton.mpr (inert_ofList (by decide))⟩
  · exact ⟨isBalanced_ofList (by decide), List.forall_mem_nil _⟩
  · exact ⟨isBalanced_ofList (by decide), List.forall_mem_nil _⟩

omit h in
theorem fillsBlock_headerLines {c : Caller} (hc : ∀ s ∈ c.headers.toList, Inert s)
    {margin : String} (hmargin : Inert margin) : FillsBlock manners (c.headerLines margin) := by
  refine fillsBlock_map fun s hs => ?_
  have hheader := (hc s hs).fills
  have hmargin := hmargin.fills
  exact isBalanced_of_crossing (by decide)

theorem fillsBlock_sampleLines : FillsBlock manners (sampleLines m) := by
  refine fillsBlock_map fun f hf => ?_
  have hfield := (inert_dataField h hf).fills
  have hsample := (isBalanced_sampleText f).fills
  exact isBalanced_of_crossing (by decide)

/-- The test that a created record has the members that were sent. -/
theorem fillsBlock_expectations : FillsBlock manners (m.dataFields.map fun f =>
    "      expect(response.body.data." ++ f.name ++ ").toEqual(testData." ++ f.name ++ ");") := by
  refine fillsBlock_map fun f hf => ?_
  have hfield := (inert_dataField h hf).fills
  exact isBalanced_of_crossing (by decide)

/-- The tests of a model, whoever signs in for them. -/
theorem isBalanced_suite (o : Generation) : IsBalanced (suite o m).text := by
  have hname := h.name.inert.fills
  have hsegment := (inert_routeName h).fills
  have hrole := (inert_writerRole h).fills
  have hsamples := fillsBlock_sampleLines h
  have hexpectations := fillsBlock_expectations h
  have hnarrow : Inert "      " := inert_ofList (by decide)
  have hwide : Inert "        " := inert_ofList (by decide)
  obtain ⟨hwriter, hheaders⟩ := of_caller (o := o) (m := m) (.inl rfl)
  have hwriter := hwriter.fills
  have hnarrowHeaders := fillsBlock_headerLines hheaders hnarrow
  have hwideHeaders := fillsBlock_headerLines hheaders hwide
  obtain ⟨hremover, hheaders⟩ := of_caller (o := o) (m := m) (.inr rfl)
  have hremover := hremover.fills
  have hremoverHeaders := fillsBlock_headerLines hheaders hwide
  dsimp only [Source.text, Source.lines, suite, setupLines, signInLines, tokenSignIn,
    sessionSignIn, credentialLines, createHelperLines, createTests, readTests, updateTests,
    deleteTests, List.map, Import.line, List.cons_append, List.nil_append]
  exact isBalanced_of_surplus? (by decide)

end Model

/-! ## The entry of the service -/

section Application

variable {models : List Model} (h : ∀ m ∈ models, m.Conventional) (o : Generation)
include h

/-- Paths and modules are inert but for strokes. -/
theorem of_mem_mounts : ∀ e ∈ mounts o models,
    Slashed e.path ∧ Inert e.router ∧ Slashed e.source := by
  refine List.forall_mem_append.mpr ⟨?_, List.forall_mem_map.mpr fun m hm => ?_⟩
  · split
    · exact List.forall_mem_singleton.mpr ⟨slashed_ofList (by decide), inert_ofList (by decide),
        slashed_ofList (by decide)⟩
    · exact List.forall_mem_nil _
  · have hsegment : Inert m.routeName := inert_routeName (h m hm)
    exact ⟨(slashed_ofList (by decide)).append hsegment.slashed,
      hsegment.append (inert_ofList (by decide)),
      (slashed_ofList (by decide)).append hsegment.slashed⟩

/-- The entry mounts one router for each model, and that of the login. -/
theorem isBalanced_application : IsBalanced (application o models).text := by
  have himports : FillsBlock manners
      (((mounts o models).map Mount.importRouter).map Import.line) := by
    rw [List.map_map]
    refine fillsBlock_map fun e he => ?_
    obtain ⟨-, hrouter, hsource⟩ := of_mem_mounts h o e he
    have hrouter := hrouter.fills
    have hsource := hsource.fills
    dsimp only [Function.comp, Mount.importRouter, Import.line]
    exact isBalanced_of_crossing (by decide)
  have hmounts : FillsBlock manners ((mounts o models).map Mount.line) := by
    refine fillsBlock_map fun e he => ?_
    obtain ⟨hpath, hrouter, -⟩ := of_mem_mounts h o e he
    have hpath := hpath.fills
    have hrouter := hrouter.fills
    unfold Mount.line
    exact isBalanced_of_crossing (by decide)
  dsimp only [Source.text, Source.lines, application, applicationImports, listenLines]
  simp only [List.map_append, apply_ite (List.map Import.line), List.map_cons, List.map_nil,
    Import.line]
  exact isBalanced_of_surplus? (by decide)

end Application

/-! ## The login -/

/-- The routes of the login are two lines of the same shape. -/
theorem isBalanced_authRoutes : IsBalanced authRoutes.text := by
  have hanyone : ∀ s ∈ Guard.anyone.roles, Inert s := List.forall_mem_nil _
  have hroute {path check handler : String} (hpath : Slashed path) (hcheck : Inert check)
      (hhandler : Inert handler) :
      Fills manners (Route.line ⟨.post, path, .anyone, [check, handler]⟩) .balanced :=
    (isBalanced_route hpath hanyone (List.forall_mem_cons.mpr
      ⟨hcheck, List.forall_mem_singleton.mpr hhandler⟩)).fills
  have hregister : Fills manners (Route.line
      ⟨.post, "/register", .anyone, ["validateRegister", "authController.register"]⟩) .balanced :=
    hroute (slashed_ofList (by decide)) (inert_ofList (by decide)) (inert_ofList (by decide))
  have hlogin : Fills manners (Route.line
      ⟨.post, "/login", .anyone, ["validateLogin", "authController.login"]⟩) .balanced :=
    hroute (slashed_ofList (by decide)) (inert_ofList (by decide)) (inert_ofList (by decide))
  dsimp only [Source.text, Source.lines, authRoutes, routerImport, List.map, Import.line,
    List.cons_append, List.nil_append]
  exact isBalanced_of_surplus? (by decide)

/-- The middleware asks for the user and has a message for those without one. -/
theorem isBalanced_sessionMiddleware {lookup missing : String} (hlookup : IsBalanced lookup)
    (hmissing : Inert missing) : IsBalanced (sessionMiddleware lookup missing).text := by
  have hlookup := hlookup.fills
  have hmissing := hmissing.fills
  dsimp only [Source.text, Source.lines, sessionMiddleware, handlerImport, List.map, Import.line,
    List.cons_append, List.nil_append]
  exact isBalanced_of_surplus? (by decide)

/-- The checks of a registration name the roles twice: as literals, and in a message without the
quotes. -/
theorem isBalanced_authChecks {a : Auth} (h : ∀ r ∈ a.roleNames, Inert r) :
    IsBalanced (authChecks a).text := by
  have hcomma : IsBalanced ", " := isBalanced_ofList (by decide)
  have hroles : IsBalanced (", ".intercalate (a.roleNames.map quoted)) :=
    isBalanced_intercalate hcomma (List.forall_mem_map.mpr fun r hr => isBalanced_quoted (h r hr))
  have hplain : Inert (String.ofList
      ((", ".intercalate (a.roleNames.map quoted)).toList.filter (· ≠ '\''))) := by
    rw [Inert, String.toList_ofList]
    intro c hc
    obtain ⟨hmem, hquote⟩ := List.mem_filter.mp hc
    have hquote : c ≠ '\'' := of_decide_eq_true hquote
    rw [toList_intercalate] at hmem
    obtain ⟨l, hl, hmem⟩ | hmem := mem_joinWith hmem
    · simp only [List.map_map, List.mem_map, Function.comp] at hl
      obtain ⟨r, hr, rfl⟩ := hl
      simp only [quoted, String.toList_append, List.mem_append] at hmem
      obtain (hmem | hmem) | hmem := hmem
      · exact absurd (List.mem_singleton.mp hmem) hquote
      · exact h r hr c hmem
      · exact absurd (List.mem_singleton.mp hmem) hquote
    · exact (by decide : ∀ c ∈ [',', ' '], isInert c = true) c hmem
  have hroles := hroles.fills
  have hplain := hplain.fills
  dsimp only [Source.text, Source.lines, authChecks, bodyImports, List.map, Import.line,
    List.cons_append, List.nil_append]
  exact isBalanced_of_surplus? (by decide)

end Scaffold.Artifact
