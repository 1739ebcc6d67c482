import Scaffold.Artifact.Auth
import Scaffold.Proofs.Artifact.Calls
import Scaffold.Proofs.Artifact.Contexts
import Scaffold.Proofs.Template.Forms

/-!
# Proofs/Artifact/RoleLists — where the files of the login list the roles

The checks of a registration, the interfaces of a user and the table of users each list the roles in
quotes, with a mark between them.  Each of these texts holds such a list of all roles
(`authChecks_eq`, `userModel_eq`, `userSchema_eq`); a list of names without a quote in them is read
back from the first place that looks like it (`read?_of_reach`).
-/

namespace Scaffold.Artifact

open Options Project Template Text

/-! ## Lists in quotes -/

/-- A place where a text lists names in quotes. -/
structure ListPlace where
  /-- What a reader passes on the way to the list. -/
  guide : String
  /-- What stands in front of the first name. -/
  head : String
  /-- What stands between two names. -/
  mark : String
  /-- What stands behind the last name. -/
  closing : String

namespace ListPlace

/-- The list of given names. -/
def text (place : ListPlace) (names : List String) : String :=
  place.head ++ place.mark.intercalate (names.map quoted) ++ place.closing

/-- A text holds the list of the names. -/
def Lists (place : ListPlace) (names : List String) (content : String) : Prop :=
  ∃ before after, content = before ++ place.text names ++ after

/-- What stands behind the head of the first list. -/
def reach? (place : ListPlace) (cs : List Char) : Option (List Char) :=
  (cutAt? place.guide.toList cs).bind fun cut => (cutAt? place.head.toList cut.2).map Prod.snd

/-- The first of the pieces between quotes and every second one behind it, as long as the mark
stands between them. -/
def listed (mark : List Char) : List (List Char) → List (List Char)
  | name :: between :: rest => name :: if between = mark then listed mark rest else []
  | _ => []

/-- The names in the first list of a text. -/
def read? (place : ListPlace) (content : String) : Option (List String) :=
  (place.reach? content.toList).map fun rest =>
    (listed place.mark.toList (pieces '\'' rest).tail).map String.ofList

/-- The mark can be told from a name and from what closes the list. -/
structure IsReadable (place : ListPlace) : Prop where
  mark : '\'' ∉ place.mark.toList
  closing : ∃ c cs, place.closing.toList = c :: cs ∧ c ≠ '\'' ∧ place.mark.toList.head? ≠ some c

end ListPlace

/-- The names with quotes around them and a mark between them. -/
def quotedList (mark : List Char) (names : List (List Char)) : List Char :=
  '\'' :: (joinWith ('\'' :: mark ++ ['\'']) names ++ ['\''])

theorem quotedList_cons (mark n : List Char) {names : List (List Char)} (h : names ≠ []) :
    quotedList mark (n :: names) = '\'' :: (n ++ '\'' :: (mark ++ quotedList mark names)) := by
  cases names with
  | nil => exact absurd rfl h
  | cons m ms =>
    rw [quotedList, quotedList, joinWith]
    simp only [List.append_assoc, List.cons_append, List.nil_append]

/-- Quoted names with a mark between them, character by character. -/
theorem toList_intercalate_quoted (mark : String) {names : List String} (h : names ≠ []) :
    (mark.intercalate (names.map quoted)).toList =
      quotedList mark.toList (names.map String.toList) := by
  induction names with
  | nil => exact absurd rfl h
  | cons n names ih =>
    by_cases hnames : names = []
    · subst hnames
      rw [List.map_singleton, String.intercalate_singleton, toList_quoted]
      rfl
    · have hquoted : names.map quoted ≠ [] := by simpa using hnames
      have hlists : names.map String.toList ≠ [] := by simpa using hnames
      rw [List.map_cons, List.map_cons, String.intercalate_cons_of_ne_nil hquoted,
        String.toList_append, String.toList_append, toList_quoted, ih hnames,
        quotedList_cons _ _ hlists]
      simp only [List.append_assoc, List.cons_append, List.nil_append]

namespace ListPlace

variable {place : ListPlace}

/-- The piece behind the last name differs from the mark. -/
theorem head?_pieces_ne {mark cs : List Char} {c : Char} (hc : c ≠ '\'')
    (hmark : mark.head? ≠ some c) : ∀ p ∈ (pieces '\'' (c :: cs)).head?, p ≠ mark := by
  rw [pieces, if_neg hc]
  cases hpieces : pieces '\'' cs with
  | nil => exact absurd hpieces (pieces_ne_nil _ _)
  | cons p ps =>
    rintro _ ⟨⟩ rfl
    exact hmark rfl

/-- **A list of names without quotes is read back.** -/
theorem listed_quotedList {mark : List Char} (hmark : '\'' ∉ mark) {names : List (List Char)}
    (hne : names ≠ []) (hnames : ∀ n ∈ names, '\'' ∉ n) {c : Char} (hc : c ≠ '\'')
    (hclosing : mark.head? ≠ some c) (rest : List Char) :
    listed mark (pieces '\'' (quotedList mark names ++ c :: rest)).tail = names := by
  induction names with
  | nil => exact absurd rfl hne
  | cons n names ih =>
    obtain ⟨hn, hnames⟩ := List.forall_mem_cons.mp hnames
    by_cases hlast : names = []
    · subst hlast
      have htext : quotedList mark [n] ++ c :: rest = '\'' :: (n ++ '\'' :: c :: rest) := by
        simp only [quotedList, joinWith, List.append_assoc, List.cons_append, List.nil_append]
      rw [htext, pieces, if_pos rfl, List.tail_cons, pieces_append_cons, pieces_of_notMem hn]
      have hdiffers : ∀ p ∈ (pieces '\'' (c :: rest)).head?, p ≠ mark :=
        head?_pieces_ne hc hclosing
      cases hpieces : pieces '\'' (c :: rest) with
      | nil => exact absurd hpieces (pieces_ne_nil _ _)
      | cons p ps =>
        rw [hpieces] at hdiffers
        rw [List.singleton_append, listed, if_neg (hdiffers p rfl)]
    · have htext : quotedList mark (n :: names) ++ c :: rest =
          '\'' :: (n ++ '\'' :: (mark ++ quotedList mark names ++ c :: rest)) := by
        rw [quotedList_cons mark n hlast]
        simp only [List.append_assoc, List.cons_append]
      have hopening : quotedList mark names ++ c :: rest =
          '\'' :: (joinWith ('\'' :: mark ++ ['\'']) names ++ ['\''] ++ c :: rest) := rfl
      have ih := ih hlast hnames
      rw [hopening, pieces, if_pos rfl, List.tail_cons] at ih
      rw [htext, pieces, if_pos rfl, List.tail_cons, pieces_append_cons, pieces_of_notMem hn,
        List.append_assoc, hopening, pieces_append_cons, pieces_of_notMem hmark,
        List.singleton_append, List.singleton_append, listed, if_pos rfl, ih]

/-- Where a place is reached, the names that stand there are read off. -/
theorem read?_of_reach (hplace : place.IsReadable) {names : List String} (hne : names ≠ [])
    (hnames : ∀ n ∈ names, '\'' ∉ n.toList) {content : String} (rest : List Char)
    (h : place.reach? content.toList = some (quotedList place.mark.toList (names.map String.toList) ++
      (place.closing.toList ++ rest))) : place.read? content = some names := by
  obtain ⟨c, cs, hclosing, hc, hmark⟩ := hplace.closing
  have hlists : names.map String.toList ≠ [] := by simpa using hne
  rw [read?, h, Option.map_some, hclosing, List.cons_append,
    listed_quotedList hplace.mark hlists (List.forall_mem_map.mpr hnames) hc hmark, List.map_map]
  have hid : String.ofList ∘ String.toList = id := funext fun s => String.ofList_toList
  rw [hid, List.map_id]

/-- A place is reached behind its guide and its head, whatever stands in front of them. -/
theorem reach?_append {front between : List Char}
    (hguide : cutAt? place.guide.toList (front ++ place.guide.toList) = some (front, []))
    (hhead : ∀ rest, cutAt? place.head.toList (between ++ (place.head.toList ++ rest)) =
      some (between, rest)) (rest : List Char) :
    place.reach? (front ++ (place.guide.toList ++ (between ++ (place.head.toList ++ rest)))) =
      some rest := by
  have hcut := cutAt?_append hguide (between ++ (place.head.toList ++ rest))
  rw [List.append_assoc, List.nil_append] at hcut
  rw [reach?, hcut, Option.bind_some, hhead]
  rfl

/-- A place without a guide is found behind a front in which its head does not occur. -/
theorem reach?_front {front : List Char} (hguide : place.guide = "")
    (hfront : cutAt? place.head.toList (front ++ place.head.toList) = some (front, []))
    (rest : List Char) : place.reach? (front ++ (place.head.toList ++ rest)) = some rest := by
  have hnone : cutAt? place.guide.toList ([] ++ place.guide.toList) = some ([], []) := by
    rw [hguide]
    rfl
  have hhead (rest : List Char) :
      cutAt? place.head.toList (front ++ (place.head.toList ++ rest)) = some (front, rest) := by
    have hcut := cutAt?_append hfront rest
    rwa [List.append_assoc] at hcut
  have hreach := reach?_append hnone hhead rest
  rwa [hguide] at hreach

end ListPlace

/-! ## The lists of the files -/

/-- An authentication without roles. -/
def noRoles : Auth := ⟨.jwt, [], []⟩

/-- The role that may be given at a registration. -/
def checksPlace : ListPlace := ⟨"", "  body('role').optional().isIn([", ", ", "])"⟩

/-- The type of the roles. -/
def unionPlace : ListPlace := ⟨"", "export type UserRole = ", " | ", ";"⟩

/-- The roles that the table of users admits. -/
def checkPlace : ListPlace :=
  ⟨"  role VARCHAR(50) NOT NULL DEFAULT ", " CHECK (role IN (", ", ", "))"⟩

/-- The lines of the checks in front of those of a role. -/
def checksFront : List String := (authChecks noRoles).lines.take 11

/-- The lines of the table of users in front of that of the role. -/
def usersFront (d : Dialect) : List String := (userTableLines d noRoles).take 5

variable {a : Auth}

theorem text_eq (place : ListPlace) (names : List String) (rest : String) :
    (place.text names ++ rest).toList = place.head.toList ++
      ((place.mark.intercalate (names.map quoted)).toList ++ (place.closing.toList ++ rest.toList)) := by
  simp only [ListPlace.text, String.toList_append, List.append_assoc]

theorem paragraph_append_cons (ls : List String) (l : String) (ms : List String) :
    paragraph (ls ++ l :: ms) = paragraph ls ++ l ++ "\n" ++ paragraph ms := by
  apply String.toList_inj.mp
  simp only [String.toList_append, toList_paragraph, List.flatMap_append, List.flatMap_cons,
    List.append_assoc]
  rfl

set_option maxRecDepth 20000 in
theorem shows_roleUnion : showsWithin Library.userModel.toList [] "roleUnion"
    (· == "export type UserRole = ".toList) (List.isPrefixOf ";".toList) = true := by
  rw [Library.userModel, toList_paragraph]
  simp only [List.flatMap_cons, List.flatMap_nil]
  repeat rw [String.toList_ofList]
  decide

set_option maxRecDepth 20000 in
theorem shows_defaultRole : showsWithin Library.authService.toList
    [.kept "tokenAuth" [.text "import jwt from 'jsonwebtoken';\n"]] "defaultRole"
    (List.isSuffixOf "role: userData.role || '".toList) (List.isPrefixOf "',".toList) = true := by
  rw [Library.authService, toList_paragraph]
  simp only [List.flatMap_cons, List.flatMap_nil]
  repeat rw [String.toList_ofList]
  decide

/-- **The checks of a registration list the roles.** -/
theorem authChecks_eq (a : Auth) : ∃ after, (authChecks a).text =
    paragraph checksFront ++ checksPlace.text a.roleNames ++ after := by
  let names := ", ".intercalate (a.roleNames.map quoted)
  have hline : ∃ message back, (authChecks a).lines = checksFront ++
      ("  body('role').optional().isIn([" ++ names ++ "]).withMessage('Role must be one of: " ++
        message ++ "'),") :: back := ⟨_, _, rfl⟩
  obtain ⟨message, back, hlines⟩ := hline
  refine ⟨".withMessage('Role must be one of: " ++ message ++ "'),\n" ++ paragraph back, ?_⟩
  have hclosing : "]).withMessage('Role must be one of: " =
    "])" ++ ".withMessage('Role must be one of: " := by decide
  have hend : "'),\n" = "')," ++ "\n" := by decide
  rw [Source.text, hlines, paragraph_append_cons, hclosing, hend, checksPlace, ListPlace.text]
  simp only [String.append_assoc, names]

/-- **The interfaces of a user begin with the roles.** -/
theorem userModel_eq (o : Generation) (hroles : a.roleNames ≠ []) :
    ∃ after, userModel Library.registry o a = .ok (unionPlace.text a.roleNames ++ after) := by
  let union := " | ".intercalate (a.roleNames.map quoted)
  have hunion : union ≠ "" := by
    rw [← String.toList_eq_nil_iff.ne, toList_intercalate_quoted _ hroles]
    exact List.cons_ne_nil _ _
  have hmem : ("user-model", Library.userModel) ∈ Library.templates := by
    simp [Library.templates]
  have hfits : Fits Whatever Library.userModelScope
      [("roleUnion", textItem union), ("tokenAuth", flagItem o.tokenAuth)] :=
    fits_userModelContext trivial o.tokenAuth
  obtain ⟨cs, ds, rest, hcs, hds, hrender⟩ := Library.exists_render_between hmem
    Library.reads_userModel shows_roleUnion hfits rfl
  obtain rfl := beq_iff_eq.mp hcs
  obtain ⟨ds, rfl⟩ := List.isPrefixOf_iff_prefix.mp hds
  refine ⟨String.ofList ds ++ rest, ?_⟩
  have hcontext : userModel Library.registry o a = fromTemplate Library.registry "user-model"
      [("roleUnion", textItem union), ("tokenAuth", flagItem o.tokenAuth)] := by
    simp only [userModel, union, if_neg hunion]
  rw [hcontext, fromTemplate, hrender]
  refine congrArg Except.ok (String.toList_inj.mp ?_)
  simp only [Form.fillAll, unionPlace, ListPlace.text, String.toList_append, String.toList_ofList,
    List.append_assoc, List.nil_append, String.toList_empty, union]

/-- **The table of users lists the roles behind the role of an account that names none.** -/
theorem userSchema_eq (d : Dialect) (hroles : a.roleNames ≠ []) :
    ∃ after, userSchema d a = paragraph (usersFront d) ++ checkPlace.guide ++ quoted a.defaultRole ++
      checkPlace.text a.roleNames ++ after := by
  have hcheck : roleCheck a =
      " CHECK (role IN (" ++ ", ".intercalate (a.roleNames.map quoted) ++ "))" := by
    rw [roleCheck, if_neg (by simpa using hroles)]
  have hlines : ∃ back, userTableLines d a = usersFront d ++
      ("  role VARCHAR(50) NOT NULL DEFAULT " ++ quoted a.defaultRole ++ roleCheck a ++ ",") ::
        back :=
    ⟨_, rfl⟩
  obtain ⟨back, hlines⟩ := hlines
  obtain ⟨behind, hbehind⟩ : ∃ ls, userSchema d a = paragraph (userTableLines d a ++ ls) :=
    ⟨_, by rw [userSchema, List.append_assoc]⟩
  refine ⟨",\n" ++ paragraph (back ++ behind), ?_⟩
  have hend : ",\n" = "," ++ "\n" := by decide
  rw [hbehind, hlines, hcheck, List.append_assoc, List.cons_append, paragraph_append_cons, hend]
  simp only [checkPlace, ListPlace.text, String.append_assoc]

/-- **The service that registers users knows the role of an account that names none.** -/
theorem authService_eq (o : Generation) (a : Auth) : ∃ before after,
    authService Library.registry o a =
      .ok (before ++ "role: userData.role || " ++ quoted a.defaultRole ++ "," ++ after) := by
  have hmem : ("auth-service", Library.authService) ∈ Library.templates := by
    simp [Library.templates]
  have hfits : Fits Whatever Library.authServiceScope
      [("tokenAuth", flagItem o.tokenAuth), ("defaultRole", textItem a.defaultRole)] :=
    fits_authServiceContext trivial o.tokenAuth
  obtain ⟨cs, ds, rest, hcs, hds, hrender⟩ := Library.exists_render_between hmem
    Library.reads_authService shows_defaultRole hfits rfl
  obtain ⟨cs, rfl⟩ := List.isSuffixOf_iff_suffix.mp hcs
  obtain ⟨ds, rfl⟩ := List.isPrefixOf_iff_prefix.mp hds
  generalize Form.fillAll _ _ = front at hrender
  refine ⟨front ++ String.ofList cs, String.ofList ds ++ rest, ?_⟩
  have hopening : "role: userData.role || '".toList = "role: userData.role || ".toList ++ ['\''] := by
    decide
  have hclosing : "',".toList = '\'' :: ",".toList := by decide
  rw [authService, fromTemplate, hrender]
  refine congrArg Except.ok (String.toList_inj.mp ?_)
  simp only [String.toList_append, String.toList_ofList, toList_quoted, hopening, hclosing,
    List.append_assoc, List.cons_append, List.nil_append]

/-! ## Reading the lists -/

theorem isReadable_checksPlace : checksPlace.IsReadable :=
  ⟨by decide, ']', [')'], by decide⟩

theorem isReadable_unionPlace : unionPlace.IsReadable :=
  ⟨by decide, ';', [], by decide⟩

theorem isReadable_checkPlace : checkPlace.IsReadable :=
  ⟨by decide, ')', [')'], by decide⟩

set_option maxRecDepth 20000 in
/-- The guide of the checks stands where their front ends, and not before. -/
theorem cutAt?_checksFront :
    cutAt? checksPlace.head.toList ((paragraph checksFront).toList ++ checksPlace.head.toList) =
      some ((paragraph checksFront).toList, []) := by
  rw [checksFront, authChecks, Source.lines, checksPlace, toList_paragraph]
  simp only [bodyImports, List.map_cons, List.map_nil, List.cons_append, List.nil_append,
    List.take_succ_cons, List.take_zero, List.flatMap_cons, List.flatMap_nil, Import.line,
    String.toList_append, toList_intercalate, joinWith]
  repeat rw [String.toList_ofList]
  decide +kernel

set_option maxRecDepth 20000 in
/-- The guide of the check on the roles stands where the front of the table ends, and not before. -/
theorem cutAt?_usersFront (d : Dialect) :
    cutAt? checkPlace.guide.toList ((paragraph (usersFront d)).toList ++ checkPlace.guide.toList) =
      some ((paragraph (usersFront d)).toList, []) := by
  cases d
  all_goals
    rw [usersFront, userTableLines, checkPlace, toList_paragraph]
    simp only [Dialect.identifierColumn, List.take_succ_cons, List.take_zero, List.flatMap_cons,
      List.flatMap_nil, String.toList_append]
    repeat rw [String.toList_ofList]
    decide

/-- Between the guide and the list stands the default role, which is quoted. -/
theorem cutAt?_checkPlace {n : String} (hblank : ' ' ∉ n.toList) (rest : List Char) :
    cutAt? checkPlace.head.toList ((quoted n).toList ++ (checkPlace.head.toList ++ rest)) =
      some ((quoted n).toList, rest) := by
  have hhead : checkPlace.head.toList = ' ' :: "CHECK (role IN (".toList := by decide
  have hquoted : ' ' ∉ (quoted n).toList := by
    rw [toList_quoted]
    simpa using hblank
  rw [hhead, cutAt?_append_of_notMem hquoted, List.cons_append, cutAt?, ← List.cons_append,
    afterWord?_self_append]
  exact congrArg (fun cs => some (cs, rest)) (List.append_nil _)

section Reading

variable (hroles : a.roleNames ≠ []) (hquote : ∀ n ∈ a.roleNames, '\'' ∉ n.toList)

include hroles hquote

theorem read?_authChecks : checksPlace.read? (authChecks a).text = some a.roleNames := by
  obtain ⟨after, htext⟩ := authChecks_eq a
  refine ListPlace.read?_of_reach isReadable_checksPlace hroles hquote after.toList ?_
  rw [htext, String.append_assoc, String.toList_append, text_eq,
    ListPlace.reach?_front rfl cutAt?_checksFront, toList_intercalate_quoted _ hroles]

/-- The roles in the model of the accounts. -/
theorem read?_userModel {o : Generation} {t : String}
    (h : userModel Library.registry o a = .ok t) : unionPlace.read? t = some a.roleNames := by
  obtain ⟨after, htext⟩ := userModel_eq o hroles
  rw [htext] at h
  cases h
  refine ListPlace.read?_of_reach isReadable_unionPlace hroles hquote after.toList ?_
  have hfront : cutAt? unionPlace.head.toList ([] ++ unionPlace.head.toList) = some ([], []) := by
    decide
  have hreach := ListPlace.reach?_front rfl hfront
  rw [text_eq, ← List.nil_append (_ ++ _), hreach, toList_intercalate_quoted _ hroles]

/-- The roles in the schema of the accounts. -/
theorem read?_userSchema (d : Dialect) (hblank : ' ' ∉ a.defaultRole.toList) :
    checkPlace.read? (userSchema d a) = some a.roleNames := by
  obtain ⟨after, htext⟩ := userSchema_eq d hroles
  refine ListPlace.read?_of_reach isReadable_checkPlace hroles hquote after.toList ?_
  rw [htext, String.append_assoc, String.append_assoc, String.append_assoc, String.toList_append,
    String.toList_append, String.toList_append, text_eq,
    ListPlace.reach?_append (cutAt?_usersFront d) (cutAt?_checkPlace hblank),
    toList_intercalate_quoted _ hroles]

end Reading

/-! ## One collection of roles -/

theorem defaultRole_mem {a : Auth} (h : a.roleNames ≠ []) : a.defaultRole ∈ a.roleNames := by
  rw [Auth.defaultRole, List.getLastD_eq_getLast?, List.getLast?_eq_some_getLast h]
  exact List.getLast_mem h

/-- The files of the login name the same roles, before they are moved. -/
structure NamesRoles (o : Generation) (a : Auth) : Prop where
  checks : checksPlace.Lists a.roleNames (authChecks a).text
  union : ∃ t, userModel Library.registry o a = .ok t ∧ unionPlace.Lists a.roleNames t
  table : ∀ d, checkPlace.Lists a.roleNames (userSchema d a)
  /-- The role of a registration that names none is listed. -/
  default : a.defaultRole ∈ a.roleNames
  service : ∃ t before after, authService Library.registry o a = .ok t ∧
    t = before ++ "role: userData.role || " ++ quoted a.defaultRole ++ "," ++ after
  column : ∀ d, ∃ before after, userSchema d a =
    before ++ "role VARCHAR(50) NOT NULL DEFAULT " ++ quoted a.defaultRole ++
      checkPlace.text a.roleNames ++ after
  /-- Names that can be told from the marks around them are read back, each once and in order. -/
  readable : (∀ n ∈ a.roleNames, '\'' ∉ n.toList ∧ ' ' ∉ n.toList) →
    checksPlace.read? (authChecks a).text = some a.roleNames ∧
    (∀ t, userModel Library.registry o a = .ok t → unionPlace.read? t = some a.roleNames) ∧
    ∀ d, checkPlace.read? (userSchema d a) = some a.roleNames

/-- **Every file of the login that lists roles lists those of the accounts.** -/
theorem namesRoles (o : Generation) {a : Auth} (hroles : a.roleNames ≠ []) : NamesRoles o a where
  checks := by
    obtain ⟨after, h⟩ := authChecks_eq a
    exact ⟨_, after, h⟩
  union := by
    obtain ⟨after, h⟩ := userModel_eq o hroles
    exact ⟨_, h, "", after, by rw [String.empty_append]⟩
  table d := by
    obtain ⟨after, h⟩ := userSchema_eq d hroles
    exact ⟨_, after, h⟩
  default := defaultRole_mem hroles
  service := by
    obtain ⟨before, after, h⟩ := authService_eq o a
    exact ⟨_, before, after, h, rfl⟩
  column d := by
    obtain ⟨after, h⟩ := userSchema_eq d hroles
    have hguide : checkPlace.guide = "  " ++ "role VARCHAR(50) NOT NULL DEFAULT " := by decide
    exact ⟨paragraph (usersFront d) ++ "  ", after, by rw [h, hguide, ← String.append_assoc]⟩
  readable h := by
    have hquote : ∀ n ∈ a.roleNames, '\'' ∉ n.toList := fun n hn => (h n hn).1
    exact ⟨read?_authChecks hroles hquote, fun t ht => read?_userModel hroles hquote ht,
      fun d => read?_userSchema hroles hquote d (h _ (defaultRole_mem hroles)).2⟩

end Scaffold.Artifact
