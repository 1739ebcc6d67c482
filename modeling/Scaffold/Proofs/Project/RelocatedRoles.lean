import Scaffold.Proofs.Document.RoundTrip
import Scaffold.Proofs.Project.Balance
import Scaffold.Proofs.Project.Renaming
import Scaffold.Proofs.Project.RoleClosure

/-!
# Proofs/Project/RelocatedRoles — the roles in the files of accounts that are moved aside

The files of the login list the roles in quotes, and what is around the names in these lists holds
no word of the accounts.  So a list that is moved aside with its file is the list of the renamed
names (`moves_place`, `moves_roles`), and it is read back as such.  A role keeps its name in the
files of the login unless it is called like the repository of the accounts, or their table stands by
itself in it (`lists_relocated_roles`).
-/

namespace Scaffold.Document.Json

open Naming Text

/-- A plain word is quoted as it is. -/
theorem quote_of_isPlainWord {s : String} (h : IsPlainWord s) (ascii : Bool) :
    quote ascii s = '"' :: (s.toList ++ ['"']) := by
  have hchar : ∀ c ∈ s.toList, escapeChar ascii c = [c] := by
    intro c hc
    obtain hplain | rfl := h c hc
    · exact escapeChar_of_isPlainAlnum hplain ascii
    · cases ascii <;> decide
  rw [quote, List.flatMap_congr hchar, List.flatMap_singleton', List.cons_append]

theorem isBlank_line : Layout.line.IsBlank where
  indent := fun _ h => nomatch h
  itemSeparator := ⟨[' '], List.forall_mem_singleton.mpr rfl, rfl⟩
  keySeparator := ⟨[' '], List.forall_mem_singleton.mpr rfl, rfl⟩
  float := rfl

end Scaffold.Document.Json

namespace Scaffold.Project

open Artifact Document Naming Options Template Text Renaming

/-! ## Lists in quotes -/

/-- A part of a text is sealed, and it is renamed to itself. -/
def IsUntouched (rs : List Renaming) (cs : List Char) : Prop :=
  IsSealed rs cs ∧ applyAll rs none cs = cs

instance (rs : List Renaming) (cs : List Char) : Decidable (IsUntouched rs cs) :=
  inferInstanceAs (Decidable (_ ∧ _))

theorem IsUntouched.moves {rs : List Renaming} {cs : List Char} (h : IsUntouched rs cs) :
    Moves rs cs cs := by
  have hmoves := moves_of_isSealed h.1
  rwa [h.2] at hmoves

theorem quotes_ofNames : ∀ r ∈ ofNames, r.Quotes '\'' := by
  simp only [ofNames, List.forall_mem_cons, List.not_mem_nil, false_implies, implies_true, and_true]
  exact ⟨⟨⟨by decide, by decide⟩, by decide, by decide⟩,
    ⟨⟨by decide, by decide⟩, by decide, by decide⟩, ⟨by decide, by decide⟩, by decide, by decide⟩

theorem quotes_ofAccounts : ∀ r ∈ ofAccounts, r.Quotes '"' := by
  simp only [ofAccounts, List.forall_mem_cons, List.not_mem_nil, false_implies, implies_true,
    and_true]
  exact ⟨⟨⟨by decide, by decide⟩, by decide, by decide⟩,
    ⟨⟨by decide, by decide⟩, by decide, by decide⟩, ⟨⟨by decide, by decide⟩, by decide, by decide⟩,
    ⟨by decide, by decide⟩, by decide, by decide⟩

theorem moves_quotedName {n : String} (h : IsPlain n) :
    Moves ofNames (quoted n).toList (quoted (relocateText n)).toList := by
  rw [toList_quoted, toList_quoted, toList_relocateText,
    applyAll_ofAccounts (h.notMem (by decide))]
  exact moves_quoted quotes_ofNames _

/-- What stands around the names of a place is not touched. -/
structure Stays (place : ListPlace) : Prop where
  head : IsUntouched ofNames place.head.toList
  mark : IsUntouched ofNames place.mark.toList
  closing : IsUntouched ofNames place.closing.toList
  ending : IsSealed ofAccounts place.closing.toList
  slash : '/' ∉ place.head.toList ∧ '/' ∉ place.mark.toList ∧ '/' ∉ place.closing.toList

theorem stays_checksPlace : Stays checksPlace := by
  constructor <;> decide

theorem stays_unionPlace : Stays unionPlace := by
  constructor <;> decide

theorem stays_checkPlace : Stays checkPlace := by
  constructor <;> decide

theorem exists_relocated {content : String} {cs cs' after : List Char}
    (hcontent : content.toList = cs ++ after) (h : Moves ofAccounts cs cs') :
    ∃ after', (relocateText content).toList = cs' ++ after' := by
  obtain ⟨q, hq⟩ := h
  exact ⟨_, by rw [toList_relocateText, hcontent, hq]⟩

section Lists

variable {place : ListPlace} {names : List String} (h : Stays place) (hne : names ≠ [])
  (hplain : ∀ n ∈ names, IsPlain n)

include h hne hplain

/-- A place moves with its names. -/
theorem moves_text : Moves ofNames (place.text names).toList
    (place.text (names.map relocateText)).toList := by
  simp only [ListPlace.text, String.toList_append, toList_intercalate, List.map_map]
  refine (h.head.moves.append (moves_joinWith h.mark.moves ?_ (by simpa using hne))).append
    h.closing.moves
  refine List.forall₂_map_left_iff.mpr (List.forall₂_map_right_iff.mpr (List.forall₂_same.mpr ?_))
  exact fun n hn => moves_quotedName (hplain n hn)

omit hne in
theorem slash_notMem_text : '/' ∉ (place.text names).toList := by
  have hquoted : ∀ p ∈ (names.map quoted).map String.toList, '/' ∉ p := by
    rw [List.map_map]
    refine List.forall_mem_map.mpr fun n hn => ?_
    rw [Function.comp_apply, toList_quoted]
    simpa using (hplain n hn).notMem (by decide)
  simp only [ListPlace.text, String.toList_append, toList_intercalate, List.mem_append, not_or]
  exact ⟨⟨h.slash.1, notMem_joinWith h.slash.2.1 hquoted⟩, h.slash.2.2⟩

/-- So does a place with something in front of it. -/
theorem moves_behind {front front' : List Char}
    (hfront : ∀ ds ds', Moves ofNames ds ds' → Moves ofNames (front ++ ds) (front' ++ ds'))
    (hslash : '/' ∉ front) : Moves ofAccounts (front ++ (place.text names).toList)
      (front' ++ (place.text (names.map relocateText)).toList) := by
  have hlist := hfront _ _ (moves_text h hne hplain)
  have hslash : '/' ∉ front ++ (place.text names).toList := by
    rw [List.mem_append]
    exact not_or.mpr ⟨hslash, slash_notMem_text h hplain⟩
  rw [ListPlace.text, String.toList_append, ← List.append_assoc] at hlist hslash ⊢
  exact hlist.ofAccounts hslash h.ending

/-- **A list of names becomes the list of the renamed names.** -/
theorem moves_place : Moves ofAccounts (place.text names).toList
    (place.text (names.map relocateText)).toList := by
  have hnothing (ds ds' : List Char) (hds : Moves ofNames ds ds') :
      Moves ofNames ([] ++ ds) ([] ++ ds') := hds
  have hlist := moves_behind h hne hplain hnothing List.not_mem_nil
  rwa [List.nil_append, List.nil_append] at hlist

omit h hne in
theorem quote_notMem_renamed : ∀ n ∈ names.map relocateText, '\'' ∉ n.toList :=
  List.forall_mem_map.mpr fun n hn =>
    (isPlainWord_relocateText (hplain n hn)).notMem (by decide)

omit h in
/-- A place that was moved is read as the moved names. -/
theorem read?_renamed (hplace : place.IsReadable) {content : String} (rest : List Char)
    (hreach : place.reach? content.toList = some
      ((place.mark.intercalate ((names.map relocateText).map quoted)).toList ++
        (place.closing.toList ++ rest))) :
    place.read? content = some (names.map relocateText) := by
  have hrenamed : names.map relocateText ≠ [] := by simpa using hne
  rw [toList_intercalate_quoted _ hrenamed] at hreach
  exact ListPlace.read?_of_reach hplace hrenamed (quote_notMem_renamed hplain) rest hreach

/-- A list that stands behind a front is read as the list of the renamed names. -/
theorem read?_relocated (hplace : place.IsReadable) (hguide : place.guide = "")
    {content : String} {front front' after : List Char}
    (hcontent : content.toList = front ++ (place.text names).toList ++ after)
    (hfront : ∀ ds ds', Moves ofAccounts ds ds' → Moves ofAccounts (front ++ ds) (front' ++ ds'))
    (hcut : cutAt? place.head.toList (front' ++ place.head.toList) = some (front', [])) :
    place.read? (relocateText content) = some (names.map relocateText) := by
  obtain ⟨rest, hrest⟩ :=
    exists_relocated hcontent (hfront _ _ (moves_place h hne hplain))
  refine read?_renamed hne hplain hplace rest ?_
  rw [hrest]
  simp only [ListPlace.text, String.toList_append, List.append_assoc]
  exact ListPlace.reach?_front hguide hcut _

end Lists

/-! ## The constant of the middleware -/

/-- What stands in front of the constant that holds the roles. -/
def rolesFront : List String :=
  [handlerImport.line, "import { AuthenticatedRequest } from './auth';", ""]

/-- What introduces the constant that holds the roles. -/
def rolesOpening : String := r"const ROLES: Array<{ name: string; permissions: string[] }> = "

/-- The names of roles in a document. -/
def roleNamesIn : Value → List String
  | .list xs => xs.filterMap fun
    | .record ms => (ms.lookup "name").bind Value.text?
    | _ => none
  | _ => []

/-- The names of the roles that the constant holds. -/
def constantRoles? (content : String) : Option (List String) :=
  (cutAt? rolesOpening.toList content.toList).bind fun cut =>
    (Json.readValue Json.depthLimit (2 * cut.2.length) cut.2).toOption.map fun v =>
      roleNamesIn v.1

/-- A role as it is named in files that have been moved aside. -/
def relocateRole (r : Role) : Role := ⟨relocateText r.name, r.permissions.map relocateText⟩

/-- A list moves with its items. -/
theorem moves_enclose {opener closer : Char} (hopener : IsUntouched ofAccounts [opener])
    (hcloser : IsUntouched ofAccounts [closer]) (depth : Nat) {items items' : List (List Char)}
    (h : List.Forall₂ (Moves ofAccounts) items items') :
    Moves ofAccounts (Json.enclose .line depth opener closer items)
      (Json.enclose .line depth opener closer items') := by
  have hcomma : IsUntouched ofAccounts Json.Layout.line.itemSeparator := by decide
  cases h with
  | nil => exact hopener.moves.append hcloser.moves
  | cons hitem hitems =>
    have hjoined := moves_joinWith hcomma.moves (.cons hitem hitems) (List.cons_ne_nil _ _)
    exact (hopener.moves.append hjoined).append hcloser.moves

/-- A quoted name moves. -/
theorem moves_quote {s : String} (h : IsPlain s) :
    Moves ofAccounts (Json.quote true s) (Json.quote true (relocateText s)) := by
  have hword : IsPlainWord s := fun c hc => .inl (h c hc)
  rw [Json.quote_of_isPlainWord hword, Json.quote_of_isPlainWord (isPlainWord_relocateText h),
    toList_relocateText]
  exact moves_quoted quotes_ofAccounts _

/-- So does a written role. -/
theorem moves_role {r : Role} (h : r.IsPlain) (depth : Nat) :
    Moves ofAccounts (Json.write .line depth r.document)
      (Json.write .line depth (relocateRole r).document) := by
  have hpermissions : Moves ofAccounts
      (Json.write .line (depth + 1) (.list (r.permissions.map .text)))
      (Json.write .line (depth + 1) (.list ((r.permissions.map relocateText).map .text))) := by
    simp only [Json.write, Json.writeItems_eq_map, List.map_map]
    refine moves_enclose (by decide) (by decide) _ (List.forall₂_map_left_iff.mpr
      (List.forall₂_map_right_iff.mpr (List.forall₂_same.mpr fun s hs => ?_)))
    exact moves_quote (h.2 s hs)
  have hkey : ∀ k ∈ ["name", "permissions"],
      IsUntouched ofAccounts (Json.quote true k ++ Json.Layout.line.keySeparator) := by
    decide
  rw [Role.document, Role.document, Json.write, Json.write]
  simp only [Json.writeMembers]
  refine moves_enclose (by decide) (by decide) _ (.cons ?_ (.cons ?_ .nil))
  · exact (hkey _ (by decide)).moves.append (moves_quote h.1)
  · exact (hkey _ (by decide)).moves.append hpermissions

/-- **The document of roles becomes the document of the renamed roles.** -/
theorem moves_roles {roles : List Role} (h : ∀ r ∈ roles, r.IsPlain) :
    Moves ofAccounts (Json.write .line 0 (.list (roles.map Role.document)))
      (Json.write .line 0 (.list ((roles.map relocateRole).map Role.document))) := by
  simp only [Json.write, Json.writeItems_eq_map, List.map_map]
  refine moves_enclose (by decide) (by decide) _ (List.forall₂_map_left_iff.mpr
    (List.forall₂_map_right_iff.mpr (List.forall₂_same.mpr fun r hr => ?_)))
  exact moves_role (h r hr) 1

theorem legible_role (levels : Nat) (r : Role) : Json.Legible (levels + 2) r.document := by
  have hkeys : ["name", "permissions"].Nodup := by decide
  refine .record hkeys ?_
  simp only [List.forall_mem_cons, List.not_mem_nil, false_implies, implies_true, and_true]
  exact ⟨.text _ _, .list (List.forall_mem_map.mpr fun s _ => .text _ s)⟩

theorem roleNamesIn_documents (roles : List Role) :
    roleNamesIn (.list (roles.map Role.document)) = roles.map (·.name) := by
  rw [roleNamesIn, List.filterMap_map]
  exact congrFun List.filterMap_eq_map roles

/-- The roles of the constant are read where it begins. -/
theorem constantRoles?_eq {content : String} {front : List Char} {roles : List Role}
    (rest : List Char)
    (hcontent : content.toList = front ++ (rolesOpening.toList ++
      (Json.write .line 0 (.list (roles.map Role.document)) ++ rest)))
    (hfront : cutAt? rolesOpening.toList (front ++ rolesOpening.toList) = some (front, [])) :
    constantRoles? content = some (roles.map (·.name)) := by
  have hcut := cutAt?_append hfront
    (Json.write .line 0 (.list (roles.map Role.document)) ++ rest)
  rw [List.append_assoc, List.nil_append, ← hcontent] at hcut
  have hlegible : Json.Legible Json.depthLimit (.list (roles.map Role.document)) :=
    .list (List.forall_mem_map.mpr fun r _ => legible_role 987 r)
  have hread := (Json.readsBack_write Json.isBlank_line hlegible 0).reads
    (2 * (Json.write .line 0 (.list (roles.map Role.document)) ++ rest).length) rest
    (by rw [List.length_append]; omega) (fun hopen => hopen.elim)
  rw [constantRoles?, hcut, Option.bind_some, hread]
  exact congrArg some (roleNamesIn_documents roles)

set_option maxRecDepth 20000 in
theorem shows_roles : showsWithin Library.authorizationMiddleware.toList [] "rolesJson"
    (· == (paragraph rolesFront).toList ++ rolesOpening.toList) (fun _ => true) = true := by
  rw [Library.authorizationMiddleware, toList_paragraph, toList_paragraph, rolesFront, rolesOpening]
  simp only [List.flatMap_cons, List.flatMap_nil, Import.line, handlerImport,
    String.toList_append, toList_intercalate, List.map_cons, List.map_nil, joinWith]
  repeat rw [String.toList_ofList]
  decide

/-- The middleware that requires a role begins with the roles. -/
theorem authorizationMiddleware_eq (a : Auth) : ∃ after,
    authorizationMiddleware Library.registry a = .ok (paragraph rolesFront ++ rolesOpening ++
      Json.print .line (.list (a.roles.map Role.document)) ++ after) := by
  have hmem :
      ("authorization-middleware", Library.authorizationMiddleware) ∈ Library.templates := by
    simp [Library.templates]
  have hfits := fits_authorizationContext (P := Whatever) (a := a) (fun _ _ => ⟨trivial, trivial⟩)
    trivial
  obtain ⟨cs, ds, rest, hcs, -, hrender⟩ := Library.exists_render_between hmem
    Library.reads_authorizationMiddleware shows_roles hfits rfl
  obtain rfl := beq_iff_eq.mp hcs
  refine ⟨String.ofList ds ++ rest, ?_⟩
  rw [authorizationMiddleware, fromTemplate, hrender]
  refine congrArg Except.ok (String.toList_inj.mp ?_)
  simp only [Form.fillAll, String.toList_append, String.toList_ofList, List.append_assoc,
    List.nil_append, String.toList_empty]

/-! ## The files of the accounts -/

/-- What a front becomes when it is moved aside. -/
def movedFront (ls : List String) : List Char := applyAll ofAccounts none (paragraph ls).toList

/-- A front is renamed by itself, and behind that a word is where it first occurs. -/
def Leads (ls : List String) (word : List Char) : Prop :=
  IsSealed ofAccounts (paragraph ls).toList ∧
    cutAt? word (movedFront ls ++ word) = some (movedFront ls, [])

instance (ls : List String) (word : List Char) : Decidable (Leads ls word) :=
  inferInstanceAs (Decidable (_ ∧ _))

theorem Leads.moves {ls : List String} {word : List Char} (h : Leads ls word) :
    Moves ofAccounts (paragraph ls).toList (movedFront ls) :=
  moves_of_isSealed h.1

set_option maxRecDepth 20000 in
/-- Nothing before the checks is taken for them. -/
theorem leads_checksFront : Leads checksFront checksPlace.head.toList := by
  rw [Leads, movedFront, checksFront, authChecks, Source.lines, checksPlace, toList_paragraph]
  simp only [bodyImports, List.map_cons, List.map_nil, List.cons_append, List.nil_append,
    List.take_succ_cons, List.take_zero, List.flatMap_cons, List.flatMap_nil, Import.line,
    String.toList_append, toList_intercalate, joinWith]
  repeat rw [String.toList_ofList]
  decide

set_option maxRecDepth 20000 in
/-- Nothing before the column is taken for it. -/
theorem leads_usersFront (d : Dialect) : Leads (usersFront d) checkPlace.guide.toList := by
  cases d
  all_goals
    rw [Leads, movedFront, usersFront, userTableLines, checkPlace, toList_paragraph]
    simp only [Dialect.identifierColumn, List.take_succ_cons, List.take_zero, List.flatMap_cons,
      List.flatMap_nil, String.toList_append]
    repeat rw [String.toList_ofList]
    decide

set_option maxRecDepth 20000 in
/-- Nothing before the roles is taken for them. -/
theorem leads_rolesFront : Leads rolesFront rolesOpening.toList := by
  rw [Leads, movedFront, rolesFront, rolesOpening, toList_paragraph]
  simp only [List.flatMap_cons, List.flatMap_nil, Import.line, handlerImport,
    String.toList_append, toList_intercalate, List.map_cons, List.map_nil, joinWith]
  repeat rw [String.toList_ofList]
  decide

section Files

variable {a : Auth}

section Names

variable (hne : a.roleNames ≠ []) (hplain : ∀ n ∈ a.roleNames, IsPlain n)

include hne hplain

/-- The moved checks list the moved roles. -/
theorem read?_relocated_authChecks : checksPlace.read? (relocateText (authChecks a).text) =
    some (a.roleNames.map relocateText) := by
  obtain ⟨after, htext⟩ := authChecks_eq a
  have hcontent := congrArg String.toList htext
  rw [String.toList_append, String.toList_append] at hcontent
  exact read?_relocated stays_checksPlace hne hplain isReadable_checksPlace rfl hcontent
    (fun _ _ hds => leads_checksFront.moves.append hds) leads_checksFront.2

/-- So does the moved model. -/
theorem read?_relocated_userModel {o : Generation} {t : String}
    (ht : Artifact.userModel Library.registry o a = .ok t) :
    unionPlace.read? (relocateText t) = some (a.roleNames.map relocateText) := by
  obtain ⟨after, htext⟩ := userModel_eq o hne
  rw [htext] at ht
  cases ht
  have hcut : cutAt? unionPlace.head.toList ([] ++ unionPlace.head.toList) = some ([], []) := by
    decide
  have hcontent : (unionPlace.text a.roleNames ++ after).toList =
      [] ++ (unionPlace.text a.roleNames).toList ++ after.toList :=
    String.toList_append
  have hnothing (ds ds' : List Char) (hds : Moves ofAccounts ds ds') :
      Moves ofAccounts ([] ++ ds) ([] ++ ds') := hds
  exact read?_relocated stays_unionPlace hne hplain isReadable_unionPlace rfl hcontent hnothing hcut

/-- So does the moved schema. -/
theorem read?_relocated_userSchema (d : Dialect) :
    checkPlace.read? (relocateText (userSchema d a)) =
    some (a.roleNames.map relocateText) := by
  obtain ⟨after, htext⟩ := userSchema_eq d hne
  have hdefault : IsPlain a.defaultRole := hplain _ (defaultRole_mem hne)
  have hguide : IsUntouched ofNames checkPlace.guide.toList := by decide
  have hslash : '/' ∉ checkPlace.guide.toList ++ (quoted a.defaultRole).toList := by
    rw [List.mem_append, toList_quoted]
    simpa using ⟨by decide, hdefault.notMem (by decide)⟩
  have hlist := moves_behind stays_checkPlace hne hplain
    (fun _ _ hds => (hguide.moves.append (moves_quotedName hdefault)).append hds) hslash
  have hcontent : (userSchema d a).toList = (paragraph (usersFront d)).toList ++
      (checkPlace.guide.toList ++ (quoted a.defaultRole).toList ++
        (checkPlace.text a.roleNames).toList) ++ after.toList := by
    rw [htext]
    simp only [String.toList_append, List.append_assoc]
  obtain ⟨rest, hrest⟩ :=
    exists_relocated hcontent ((leads_usersFront d).moves.append hlist)
  have hblank : ' ' ∉ (relocateText a.defaultRole).toList :=
    (isPlainWord_relocateText hdefault).notMem (by decide)
  refine read?_renamed hne hplain isReadable_checkPlace rest ?_
  rw [hrest]
  simp only [ListPlace.text, String.toList_append, List.append_assoc]
  exact ListPlace.reach?_append (leads_usersFront d).2 (cutAt?_checkPlace hblank) _

end Names

/-- So does the moved guard. -/
theorem constantRoles?_relocated (hplain : ∀ r ∈ a.roles, r.IsPlain) {t : String}
    (ht : authorizationMiddleware Library.registry a = .ok t) :
    constantRoles? (relocateText t) = some (a.roleNames.map relocateText) := by
  obtain ⟨after, htext⟩ := authorizationMiddleware_eq a
  rw [htext] at ht
  cases ht
  have hopening : IsUntouched ofAccounts rolesOpening.toList := by decide
  have hmoves := (leads_rolesFront.moves.append hopening.moves).append (moves_roles hplain)
  have hcontent : (paragraph rolesFront ++ rolesOpening ++
      Json.print .line (.list (a.roles.map Role.document)) ++ after).toList =
        (paragraph rolesFront).toList ++ rolesOpening.toList ++
          Json.write .line 0 (.list (a.roles.map Role.document)) ++ after.toList := by
    simp only [Json.print, String.toList_append, String.toList_ofList]
  obtain ⟨rest, hrest⟩ := exists_relocated hcontent hmoves
  have hnames : a.roleNames.map relocateText = (a.roles.map relocateRole).map (·.name) := by
    rw [Auth.roleNames, List.map_map, List.map_map]
    rfl
  rw [hnames]
  refine constantRoles?_eq rest ?_ leads_rolesFront.2
  rw [hrest]
  simp only [List.append_assoc]

end Files

/-! ## The project -/

/-- The files of accounts that have been moved aside list names as the roles. -/
structure ListsRoles (o : Generation) (p : Project) (names : List String) : Prop where
  checks : ∃ f, p.file? "src/validation/AuthValidation.ts" = some f ∧
    checksPlace.read? f.content = some names
  union : ∃ f, p.file? "src/models/AuthUser.ts" = some f ∧ unionPlace.read? f.content = some names
  constant : ∃ f, p.file? "src/middleware/authorize.ts" = some f ∧
    constantRoles? f.content = some names
  table : o.isRelational = true → ∃ f, p.file? "src/schemas/auth_user.sql" = some f ∧
    checkPlace.read? f.content = some names

/-- A project lists its roles in one way. -/
theorem ListsRoles.unique {o : Generation} {p : Project} {names names' : List String}
    (h : ListsRoles o p names) (h' : ListsRoles o p names') : names = names' := by
  obtain ⟨f, hfile, hread⟩ := h.checks
  obtain ⟨f', hfile', hread'⟩ := h'.checks
  rw [hfile] at hfile'
  cases hfile'
  exact Option.some.inj (hread.symm.trans hread')

section Built

variable {o : Generation} {models : List Model} {name : Option String} {moment : Nat} {p : Project}
  (hauth : o.authEnabled = true) (hmoves : MovesAccounts models)

include hauth hmoves

/-- The files of the login are in the project, moved aside. -/
theorem exists_moved_of_build {r : Registry} (h : build r o models name moment = .ok p) :
    ∃ files, loginFiles r o p.auth = .ok files ∧ ∀ g ∈ files, ∀ path, relocatePath g.path = path →
      ∃ f, p.file? path = some f ∧ f.content = relocateText g.content := by
  have hpaths := nodup_paths_of_build h
  obtain ⟨a, fs, gs, -, -, hgs, -, rfl⟩ := exists_of_build_eq_ok h
  obtain ⟨files, hlogin, rfl⟩ := placedLoginFiles_eq_ok hgs hauth
  refine ⟨files, hlogin, ?_⟩
  rintro g hg _ rfl
  have hplaced : placed models g = g.relocate := if_pos hmoves
  have hmem : g.relocate ∈ files.map (placed models) :=
    hplaced ▸ List.mem_map_of_mem hg
  exact ⟨g.relocate, file?_path hpaths (List.mem_append_left _ (List.mem_append_right _ hmem)), rfl⟩

/-- **The files of accounts that have been moved aside list the renamed roles.** -/
theorem listsRoles_of_build (hplain : ∀ m ∈ models, ∀ n ∈ m.metadata.allowedRoles, IsPlain n)
    (h : build Library.registry o models name moment = .ok p) :
    ListsRoles o p (p.auth.roleNames.map relocateText) := by
  have hroles : ∀ r ∈ p.auth.roles, r.IsPlain := by
    obtain ⟨a, fs, gs, -, ha, -, -, rfl⟩ := exists_of_build_eq_ok h
    exact isPlain_roles hplain ha
  have hnames : ∀ n ∈ p.auth.roleNames, IsPlain n :=
    List.forall_mem_map.mpr fun r hr => (hroles r hr).1
  have hne : p.auth.roleNames ≠ [] :=
    List.ne_nil_of_mem ((names_of_build h).2.1.subset List.mem_cons_self)
  obtain ⟨files, hlogin, hfile⟩ := exists_moved_of_build hauth hmoves h
  obtain ⟨users, husers, hlogin⟩ := Except.bind_eq_ok_iff.mp hlogin
  obtain ⟨service, -, hlogin⟩ := Except.bind_eq_ok_iff.mp hlogin
  obtain ⟨login, -, hlogin⟩ := Except.bind_eq_ok_iff.mp hlogin
  obtain ⟨access, haccess, hlogin⟩ := Except.bind_eq_ok_iff.mp hlogin
  cases hlogin
  have hchecks : relocatePath "src/validation/AuthValidation.ts" =
      "src/validation/AuthValidation.ts" := by decide
  have hunion : relocatePath "src/models/User.ts" = "src/models/AuthUser.ts" := by decide
  have hconstant : relocatePath "src/middleware/authorize.ts" = "src/middleware/authorize.ts" := by
    decide
  have htable : relocatePath "src/schemas/user.sql" = "src/schemas/auth_user.sql" := by decide
  refine ⟨?_, ?_, ?_, fun hrelational => ?_⟩
  · obtain ⟨f, hf, hcontent⟩ := hfile (.source "src/validation/AuthValidation.ts"
      (authChecks p.auth).text) (by simp) _ hchecks
    dsimp only [File.source] at hcontent
    exact ⟨f, hf, by rw [hcontent, read?_relocated_authChecks hne hnames]⟩
  · obtain ⟨f, hf, hcontent⟩ := hfile (.source "src/models/User.ts" users) (by simp) _ hunion
    dsimp only [File.source] at hcontent
    exact ⟨f, hf, by rw [hcontent, read?_relocated_userModel hne hnames husers]⟩
  · obtain ⟨f, hf, hcontent⟩ :=
      hfile (.source "src/middleware/authorize.ts" access) (by simp) _ hconstant
    dsimp only [File.source] at hcontent
    exact ⟨f, hf, by rw [hcontent, constantRoles?_relocated hroles haccess]⟩
  · obtain ⟨f, hf, hcontent⟩ := hfile (.sql "src/schemas/user.sql"
      (userSchema (.ofDatabase o.database.value) p.auth)) (by simp [hrelational]) _ htable
    dsimp only [File.sql] at hcontent
    exact ⟨f, hf, by rw [hcontent, read?_relocated_userSchema hne hnames]⟩

/-- **Which roles keep their names when the accounts are moved aside.**  The files of the accounts
list what the roles of the project are renamed to, in order.  These are the roles unless one is
called like the repository of the accounts, or the table of the accounts stands by itself in it. -/
theorem lists_relocated_roles
    (hplain : ∀ m ∈ models, ∀ n ∈ m.metadata.allowedRoles, IsPlain n)
    (h : build Library.registry o models name moment = .ok p) :
    ListsRoles o p (p.auth.roleNames.map relocateText) ∧
      (ListsRoles o p p.auth.roleNames ↔
        ∀ n ∈ p.auth.roleNames, n ≠ "UserRepository" ∧ ¬NamesTable n) := by
  have hlists := listsRoles_of_build hauth hmoves hplain h
  have hnames : ∀ n ∈ p.auth.roleNames, IsPlain n := by
    obtain ⟨a, fs, gs, -, ha, -, -, rfl⟩ := exists_of_build_eq_ok h
    exact List.forall_mem_map.mpr fun r hr => (isPlain_roles hplain ha r hr).1
  have hsame : p.auth.roleNames.map relocateText = p.auth.roleNames ↔
      ∀ n ∈ p.auth.roleNames, relocateText n = n :=
    ⟨fun heq => List.map_inj_left.mp (heq.trans (List.map_id _).symm),
      fun hall => (List.map_congr_left hall).trans (List.map_id _)⟩
  refine ⟨hlists, ?_⟩
  calc ListsRoles o p p.auth.roleNames
      ↔ p.auth.roleNames.map relocateText = p.auth.roleNames :=
        ⟨hlists.unique, fun heq => heq ▸ hlists⟩
    _ ↔ ∀ n ∈ p.auth.roleNames, relocateText n = n := hsame
    _ ↔ ∀ n ∈ p.auth.roleNames, n ≠ "UserRepository" ∧ ¬NamesTable n :=
        forall₂_congr fun n hn => relocateText_eq_self_iff (hnames n hn)

end Built

/-- Two models and the roles that the files of their project list. -/
theorem lists_relocated_roles_editedModel :
    ∃ p, build Library.registry .default [userModel, editedModel] none 0 = .ok p ∧
      ListsRoles .default p (p.auth.roleNames.map relocateText) ∧
      (ListsRoles .default p p.auth.roleNames ↔
        ∀ n ∈ p.auth.roleNames, n ≠ "UserRepository" ∧ ¬NamesTable n) := by
  have hmoves : MovesAccounts [userModel, editedModel] := ⟨userModel, by simp, by decide⟩
  have hplain : ∀ m ∈ [userModel, editedModel], ∀ n ∈ m.metadata.allowedRoles, IsPlain n := by
    simp only [userModel, editedModel, Model.Metadata.default, List.forall_mem_cons,
      List.not_mem_nil, false_implies, implies_true, and_true, true_and]
    exact isPlain_ofList (by decide)
  obtain ⟨p, hbuild⟩ := exists_build_editedModel
  exact ⟨p, hbuild, lists_relocated_roles rfl hmoves hplain hbuild⟩

/-- A model of the accounts' name that allows a role of their table's name. -/
def listedModel : Model :=
  { userModel with metadata := { Model.Metadata.default with allowedRoles := ["users"] } }

/-- The files of the accounts list `auth_users`, which is no role of the project. -/
theorem lists_renamed_role :
    ∃ p, build Library.registry .default [listedModel] none 0 = .ok p ∧
      MovesAccounts [listedModel] ∧ IsPlain "users" ∧
      p.auth.roleNames = ["admin", "user", "users"] ∧
      ListsRoles .default p ["admin", "user", "auth_users"] ∧
      ¬ListsRoles .default p p.auth.roleNames := by
  have hsegment : listedModel.routeName = "user" := by decide
  have hmoves : MovesAccounts [listedModel] := ⟨listedModel, List.mem_singleton_self _, hsegment⟩
  have hnames : ([listedModel].map Model.routeName).Nodup := List.nodup_singleton _
  have hfilled : ∀ m ∈ [listedModel], "" ∉ m.metadata.allowedRoles := by
    simp [listedModel]
  have hclashes : ¬Clashes .default [listedModel] := by
    simp only [Clashes, List.mem_singleton, exists_eq_left, hsegment]
    decide
  have husers : IsPlain "users" := isPlain_ofList (by decide)
  have hplain : ∀ m ∈ [listedModel], ∀ n ∈ m.metadata.allowedRoles, IsPlain n :=
    List.forall_mem_singleton.mpr (List.forall_mem_singleton.mpr husers)
  obtain ⟨p, hbuild, -⟩ := exists_build_of_not_clashes rfl hnames hfilled hclashes none 0
  have hroles : p.auth.roleNames = ["admin", "user", "users"] := by
    obtain ⟨a, fs, gs, -, ha, -, -, rfl⟩ := exists_of_build_eq_ok hbuild
    have hadmitted : admitRoles Role.defaults ["users"] =
        .ok (Role.defaults ++ [readerRole "users"]) := by
      rw [admitRoles, admitRole_eq_ok _ (by decide)]
      rfl
    rw [authOf] at ha
    simp only [listedModel, List.flatMap_cons, List.flatMap_nil, List.append_nil, hadmitted] at ha
    cases ha
    rfl
  have hlists := listsRoles_of_build rfl hmoves hplain hbuild
  have hrenamed :
      ["admin", "user", "users"].map relocateText = ["admin", "user", "auth_users"] := by
    decide
  rw [hroles, hrenamed] at hlists
  refine ⟨p, hbuild, hmoves, husers, hroles, hlists, fun hkept => ?_⟩
  have hsame := hroles.symm.trans (hkept.unique hlists)
  exact absurd hsame (by decide)

end Scaffold.Project
