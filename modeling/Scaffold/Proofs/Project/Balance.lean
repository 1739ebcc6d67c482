import Scaffold.Proofs.Artifact.Filled
import Scaffold.Proofs.Project.Accounts
import Scaffold.Proofs.Project.Collision

/-!
# Proofs/Project/Balance — every source of a project passes the check

The sources of a project are balanced where they are emitted.  Moving the accounts aside renames
words, and the scanner passes a word and what takes its place alike, so a relocated source is
balanced as well (`isBalanced_relocateText`).  The formatter keeps the brackets that are seen, so
the check finds nothing wrong with a source, be it formatted or not (`passes_of_build`).
-/

namespace Scaffold.Project

open Artifact Document Format Model Options Template Text

namespace Renaming

/-! ## Renamed words -/

/-- The scanner passes the word and what takes its place alike, and sees no bracket in either. -/
structure Neutral (r : Renaming) : Prop where
  nonempty : r.word ≠ []
  crosses : ∀ p, ∃ q, Crosses p r.word q 0 ∧ Crosses p r.replacement q 0

/-- Words that differ in inert characters are passed alike. -/
theorem neutral_of_inert {r : Renaming} (front middle new tail : List Char)
    (hword : r.word = front ++ middle ++ tail) (hreplacement : r.replacement = front ++ new ++ tail)
    (hmiddle : middle ≠ [] ∧ ∀ c ∈ middle, isInert c = true)
    (hnew : new ≠ [] ∧ ∀ c ∈ new, isInert c = true)
    (hends : ∀ c ∈ front ++ tail, isBracket c = false) : r.Neutral := by
  obtain ⟨hfront, htail⟩ := List.forall_mem_append.mp hends
  have hcross (p : Phase) {cs : List Char} (h : cs ≠ [] ∧ ∀ c ∈ cs, isInert c = true) :
      Crosses p (front ++ cs ++ tail) ((p.run front).settle.run tail) 0 := by
    obtain ⟨hne, hcs⟩ := h
    have hfirst : Crosses p front (p.run front) 0 := ⟨rfl, p.surplus_of_notBracket hfront⟩
    have hinner : Crosses (p.run front) cs (p.run front).settle 0 := by
      constructor
      · rw [Phase.run_inert hcs, if_neg hne]
      · exact Phase.surplus_of_notBracket _ fun c hc => isBracket_eq_false (hcs c hc)
    have hlast : Crosses (p.run front).settle tail ((p.run front).settle.run tail) 0 :=
      ⟨rfl, Phase.surplus_of_notBracket _ htail⟩
    exact (hfirst.append hinner).append hlast
  constructor
  · rw [hword]
    simp [hmiddle.1]
  · intro p
    rw [hword, hreplacement]
    exact ⟨_, hcross p hmiddle, hcross p hnew⟩

/-- A renamed text does to the scanner what the text does, less the characters that belong to a word
that has been replaced. -/
theorem crosses_applyFrom {r : Renaming} (h : r.Neutral) (p : Phase) (skip : Nat)
    (last : Option Char) (cs : List Char) :
    Crosses p (r.applyFrom skip last cs) (p.run (cs.drop skip)) (p.surplus (cs.drop skip)) := by
  induction cs generalizing p skip last with
  | nil =>
    rw [List.drop_nil]
    exact crosses_nil p
  | cons c cs ih =>
    cases skip with
    | succ n => exact ih p n (some c)
    | zero =>
      rw [applyFrom]
      split
      · rename_i happlies
        rw [applies] at happlies
        split at happlies
        · rename_i rest hafter
          have hcs : c :: cs = r.word ++ rest := eq_append_of_afterWord? hafter
          have hrest : cs.drop (r.word.length - 1) = rest := by
            cases hword : r.word with
            | nil => exact absurd hword h.nonempty
            | cons d ds =>
              rw [hword, List.cons_append] at hcs
              rw [(List.cons.inj hcs).2, List.length_cons, Nat.add_sub_cancel, List.drop_left]
          obtain ⟨q, hword, hreplacement⟩ := h.crosses p
          have hall := hreplacement.append (ih q (r.word.length - 1) (some c))
          rw [List.drop_zero, hcs, Phase.run_append, Phase.surplus_append, hword.run_eq,
            hword.surplus_eq, ← hrest]
          exact hall
        · cases happlies
      · obtain ⟨hrun, hsurplus⟩ := ih (p.step c) 0 (some c)
        rw [List.drop_zero] at hrun hsurplus
        constructor
        · exact hrun
        · rw [List.drop_zero, Phase.surplus_cons, Phase.surplus_cons, hsurplus]

theorem neutral_accountType : accountType.Neutral :=
  neutral_of_inert [] "User".toList "AuthUser".toList [] (by decide) (by decide) (by decide)
    (by decide) (by decide)

theorem neutral_accountRepository : accountRepository.Neutral :=
  neutral_of_inert [] "UserRepository".toList "AuthUserRepository".toList [] (by decide) (by decide)
    (by decide) (by decide) (by decide)

theorem neutral_accountModule : accountModule.Neutral :=
  neutral_of_inert "'../models/".toList "User".toList "AuthUser".toList "'".toList (by decide)
    (by decide) (by decide) (by decide) (by decide)

theorem neutral_accountTable : accountTable.Neutral :=
  neutral_of_inert [] "users".toList "auth_users".toList [] (by decide) (by decide) (by decide)
    (by decide) (by decide)

end Renaming

variable {o : Generation} {models : List Model} {p : Project}

open Renaming in
/-- **A source stays balanced when the accounts are moved aside.** -/
theorem isBalanced_relocateText {s : String} (h : IsBalanced s) : IsBalanced (relocateText s) := by
  have hrenamed {r : Renaming} (hr : r.Neutral) {cs : List Char} (hcs : Crosses .code cs .code 0) :
      Crosses .code (r.apply cs) .code 0 := by
    have happlied := crosses_applyFrom hr .code 0 none cs
    rwa [List.drop_zero, hcs.run_eq, hcs.surplus_eq] at happlied
  rw [IsBalanced, relocateText, String.toList_ofList]
  exact hrenamed neutral_accountTable (hrenamed neutral_accountModule
    (hrenamed neutral_accountRepository (hrenamed neutral_accountType h)))

/-- A placed file is balanced if the file is. -/
theorem isBalanced_placed {f : File} (h : IsBalanced f.content) :
    IsBalanced (placed models f).content := by
  unfold placed
  split
  · exact isBalanced_relocateText h
  · exact h

theorem language_placed (models : List Model) (f : File) :
    (placed models f).language = f.language := by
  unfold placed
  split <;> rfl

/-! ## The files of a project -/

/-- The text of a source is balanced. -/
def BalancedSource (f : File) : Prop := f.language = some "typescript" → IsBalanced f.content

theorem balancedSource_of_content {path content : String} {kind : FileKind}
    {language : Option String} (h : IsBalanced content) :
    BalancedSource ⟨path, content, kind, language⟩ :=
  fun _ => h

theorem balancedSource_of_ne {f : File} (h : f.language ≠ some "typescript") : BalancedSource f :=
  fun hlanguage => absurd hlanguage h

/-- The files of a model are balanced. -/
theorem balancedSource_modelFiles {m : Model} (h : m.Conventional) {fs : List File}
    (hfs : modelFiles Library.registry o models m = .ok fs) : ∀ f ∈ fs, BalancedSource f := by
  obtain ⟨record, schemas, handlers, hrecord, hschemas, hcontroller, -, rfl⟩ :=
    exists_of_modelFiles_eq_ok hfs
  refine List.forall_mem_append.mpr ⟨List.forall_mem_append.mpr ⟨List.forall_mem_append.mpr
    ⟨?_, ?_⟩, ?_⟩, ?_⟩
  · refine List.forall_mem_singleton.mpr (balancedSource_of_content ?_)
    exact isBalanced_recordInterface h hrecord
  · rw [schemaFiles] at hschemas
    split at hschemas
    · obtain ⟨text, -, rfl⟩ := Except.map_eq_ok_iff.mp hschemas
      exact List.forall_mem_singleton.mpr (balancedSource_of_ne (by simp [File.sql]))
    · cases hschemas
      exact List.forall_mem_nil _
  · simp only [List.forall_mem_cons, List.not_mem_nil, false_implies, implies_true, and_true]
    exact ⟨balancedSource_of_content (isBalanced_controller h hcontroller),
      balancedSource_of_content (isBalanced_service h),
      balancedSource_of_content (isBalanced_repository h o.database.value),
      balancedSource_of_content (isBalanced_routes h o),
      balancedSource_of_content (isBalanced_requestChecks h)⟩
  · unfold suiteFiles
    split
    · exact List.forall_mem_singleton.mpr (balancedSource_of_content (isBalanced_suite h o))
    · exact List.forall_mem_nil _

/-- The login files are. -/
theorem balancedSource_loginFiles {a : Auth} (h : ∀ r ∈ a.roles, r.IsPlain) {gs : List File}
    (hgs : loginFiles Library.registry o a = .ok gs) : ∀ g ∈ gs, BalancedSource g := by
  obtain ⟨users, husers, hgs⟩ := Except.bind_eq_ok_iff.mp hgs
  obtain ⟨service, hservice, hgs⟩ := Except.bind_eq_ok_iff.mp hgs
  obtain ⟨login, hlogin, hgs⟩ := Except.bind_eq_ok_iff.mp hgs
  obtain ⟨access, haccess, hgs⟩ := Except.bind_eq_ok_iff.mp hgs
  cases hgs
  refine List.forall_mem_append.mpr ⟨?_, ?_⟩
  · simp only [List.forall_mem_cons, List.not_mem_nil, false_implies, implies_true, and_true]
    exact ⟨balancedSource_of_content (isBalanced_userModel h o husers),
      balancedSource_of_content (isBalanced_authService h o hservice),
      balancedSource_of_content (isBalanced_authController o),
      balancedSource_of_content (isBalanced_authMiddleware hlogin),
      balancedSource_of_content (isBalanced_authorizationMiddleware h haccess),
      balancedSource_of_content isBalanced_authRoutes,
      balancedSource_of_content (isBalanced_userRepository o.database.value),
      balancedSource_of_content (isBalanced_authChecks (inert_roleName h))⟩
  · split
    · exact List.forall_mem_singleton.mpr (balancedSource_of_ne (by simp [File.sql]))
    · exact List.forall_mem_nil _

/-- The files that the models share are. -/
theorem balancedSource_sharedFiles (h : ∀ m ∈ models, m.Conventional) :
    ∀ f ∈ sharedFiles o models, BalancedSource f := by
  unfold sharedFiles
  simp only [List.forall_mem_cons, List.not_mem_nil, false_implies, implies_true, and_true]
  exact ⟨balancedSource_of_content (isBalanced_connection o.database.value),
    balancedSource_of_content isBalanced_corsMiddleware,
    balancedSource_of_content isBalanced_loggingMiddleware,
    balancedSource_of_content isBalanced_validationMiddleware,
    balancedSource_of_content (isBalanced_application h o)⟩

/-! ## The project -/

/-- The roles of models that give them plain names have such names, and so have the default ones. -/
theorem isPlain_roles (h : ∀ m ∈ models, ∀ n ∈ m.metadata.allowedRoles, IsPlain n) {a : Auth}
    (ha : authOf o models (models.flatMap (modelEndpoints o)) = .ok a) :
    ∀ r ∈ a.roles, r.IsPlain := by
  have hread : IsPlain "read" := isPlain_ofList (by decide)
  intro r hr
  obtain hr | ⟨m, hm, n, hn, rfl⟩ := mem_roles_of_authOf_eq_ok ha r hr
  · have hplain (s : String) (hs : s.toList.all isPlainAlnum = true) : IsPlain s :=
      List.all_eq_true.mp hs
    have hdefaults : ∀ r ∈ Role.defaults, r.name.toList.all isPlainAlnum = true ∧
        ∀ s ∈ r.permissions, s.toList.all isPlainAlnum = true := by
      decide
    exact ⟨hplain _ (hdefaults r hr).1, fun s hs => hplain s ((hdefaults r hr).2 s hs)⟩
  · exact ⟨h m hm n hn, List.forall_mem_singleton.mpr hread⟩

/-- So are all files of a project. -/
theorem balancedSource_of_build (h : ∀ m ∈ models, m.Conventional) {name : Option String}
    {moment : Nat} (hbuild : build Library.registry o models name moment = .ok p) :
    ∀ f ∈ p.files, BalancedSource f := by
  obtain ⟨a, fs, gs, hfs, ha, hgs, -, rfl⟩ := exists_of_build_eq_ok hbuild
  have hmodels : ∀ f ∈ fs, BalancedSource f := by
    intro f hf
    obtain ⟨m, hm, files, hmodel, hf⟩ := exists_modelFiles_of_mem hfs hf
    exact balancedSource_modelFiles (h m hm) hmodel f hf
  have hlogin : ∀ g ∈ gs, BalancedSource g := by
    cases hauth : o.authEnabled with
    | false =>
      rw [placedLoginFiles, hauth] at hgs
      cases hgs
      exact List.forall_mem_nil _
    | true =>
      obtain ⟨files, hfiles, rfl⟩ := placedLoginFiles_eq_ok hgs hauth
      refine List.forall_mem_map.mpr fun g hg hlanguage => isBalanced_placed ?_
      exact balancedSource_loginFiles (isPlain_roles (fun m hm => (h m hm).role) ha) hfiles g hg
        ((language_placed models g).symm.trans hlanguage)
  refine List.forall_mem_append.mpr ⟨List.forall_mem_append.mpr ⟨List.forall_mem_append.mpr
    ⟨?_, hmodels⟩, hlogin⟩, balancedSource_sharedFiles h⟩
  have hroot : ∀ f ∈ rootFiles o (name.getD "generated-api") models,
      f.language ≠ some "typescript" := by
    simp [rootFiles, File.config]
  exact fun f hf => balancedSource_of_ne (hroot f hf)

/-- The check finds nothing wrong with any source of the project. -/
def Passes (p : Project) : Prop :=
  ∀ f ∈ p.files, f.language = some "typescript" → check f.language f.content = .ok []

/-- **Every source of a project passes the check**, as it is emitted and after it has been formatted
with semicolons and trailing commas, if its models are conventional: whatever the options are, and
whether the accounts of the login are moved aside or not. -/
theorem passes_of_build (h : ∀ m ∈ models, m.Conventional) {name : Option String} {moment : Nat}
    (hbuild : build Library.registry o models name moment = .ok p) :
    Passes p ∧ ∀ fo : Format.Options, fo.semicolons = true → fo.trailingCommas = true →
      Passes (formatted fo p) := by
  have hchecked {f : File} (hf : f ∈ p.files) (hlanguage : f.language = some "typescript") :
      codeErrors f.content.toList = [] :=
    (balancedSource_of_build h hbuild f hf hlanguage).codeErrors_eq_nil
  refine ⟨fun f hf hlanguage => ?_, fun fo hsemicolons hcommas => ?_⟩
  · rw [hlanguage]
    exact congrArg Except.ok (hchecked hf hlanguage)
  · refine List.forall_mem_map.mpr fun f hf hlanguage => ?_
    have hlanguage : f.language = some "typescript" := hlanguage
    have hbrackets : brackets (formatCode fo (unifyLineEnds f.content.toList)) =
        brackets f.content.toList := by
      rw [brackets_formatCode hsemicolons hcommas, brackets_unifyLineEnds]
    rw [hlanguage]
    change Except.ok (codeErrors (String.ofList
      (formatCode fo (unifyLineEnds f.content.toList))).toList) = _
    rw [String.toList_ofList, codeErrors_congr hbrackets, hchecked hf hlanguage]

/-- A model with the segment of the accounts, whose field is checked against brackets, quotes and
strokes. -/
def bracketedModel : Model where
  id := none
  name := "User"
  fields := [⟨none, "email", .string, true, true, .null,
    [⟨.pattern, .text "^[^'\\\\]+/*(\x7b$", some "it's \\ no \" address )]"⟩,
      ⟨.maxLength, .int 80, some "// too ( long"⟩], none⟩]
  relationships := []
  metadata := { Metadata.default with tableName := some "app_users", allowedRoles := ["editor"] }
  createdAt := none
  updatedAt := none

theorem conventional_bracketedModel : bracketedModel.Conventional where
  name := isPlain_ofList (by decide)
  fieldName := List.forall_mem_singleton.mpr (isPlain_ofList (by decide))
  tableName := by
    rintro t ⟨⟩
    exact Naming.isPlainWord_ofList (by decide)
  role := List.forall_mem_singleton.mpr (isPlain_ofList (by decide))
  bound := by simp [bracketedModel]
  pattern := by
    have hpattern : OneLine "^[^'\\\\]+/*(\x7b$" := by decide
    simpa [bracketedModel] using hpattern
  message := by
    have haddress : OneLine "it's \\ no \" address )]" := by decide
    have hlength : OneLine "// too ( long" := by decide
    simp [bracketedModel, haddress, hlength]

/-- The name of the model does not clash with the login, whose accounts are moved aside. -/
theorem not_clashes_bracketedModel : ¬Clashes .default [bracketedModel] := by
  have hsegment : bracketedModel.routeName = "user" := by decide
  simp only [Clashes, List.mem_singleton, exists_eq_left, hsegment]
  decide

/-- A model with brackets in its texts, and a project of it that passes. -/
theorem passes_bracketedModel :
    (∀ m ∈ [bracketedModel], m.Conventional) ∧
      ∃ p, build Library.registry .default [bracketedModel] none 0 = .ok p ∧ Passes p ∧
        Passes (formatted .default p) := by
  have h : ∀ m ∈ [bracketedModel], m.Conventional :=
    List.forall_mem_singleton.mpr conventional_bracketedModel
  have hunfit : unfit? .default [bracketedModel] = none := rfl
  obtain ⟨p, hbuild, -⟩ := exists_build_of_not_clashes hunfit (List.nodup_singleton _)
    (by simp [bracketedModel]) not_clashes_bracketedModel none 0
  obtain ⟨hplain, hformatted⟩ := passes_of_build h hbuild
  exact ⟨h, p, hbuild, hplain, hformatted .default rfl rfl⟩

end Scaffold.Project
