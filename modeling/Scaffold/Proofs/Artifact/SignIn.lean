import Scaffold.Proofs.Artifact.Layers
import Scaffold.Proofs.Text.OneLine

/-!
# Proofs/Artifact/SignIn — the accounts that the tests of a model sign in with

A suite signs in with an account for the role that writes and one for the role that deletes, or with
one for both.  The lines that do so can be told from every other line of a suite
(`mem_accountLines`), so what they say is all that is signed in (`signedIn_suite_iff`).  The guards of
the routes admit the roles of these accounts (`admits_writeGuard`, `admits_deleteGuard`).
-/

namespace Scaffold.Artifact

open Options Project Text

-- The layout of a long file takes more instances than are tried by default.
set_option synthInstance.maxSize 1000

/-! ## Lines that sign in -/

/-- The variables that the headers of an account are kept in. -/
def headerNames : List String := ["writerHeaders", "adminHeaders"]

/-- The agents that the session of an account is kept by. -/
def agentNames : List String := ["writer", "admin"]

/-- The headers are set from the token of an account. -/
def tokenLine (name role : String) : String :=
  "    " ++ name ++ " = await signIn('" ++ role ++ "');"

/-- The headers are those of another account. -/
def shareLine (name other : String) : String := "    " ++ name ++ " = " ++ other ++ ";"

/-- The agent takes the session of an account. -/
def sessionLine (name role : String) : String := "    await signIn(" ++ name ++ ", '" ++ role ++ "');"

/-- Lines sign a caller in with an account of a role. -/
inductive SignedIn (ls : List String) : Caller → String → Prop where
  | token {name role : String} (hname : name ∈ headerNames) (h : tokenLine name role ∈ ls) :
      SignedIn ls (.withHeaders name) role
  | shared {name other role : String} (hname : name ∈ headerNames) (h : shareLine name other ∈ ls)
      (hother : SignedIn ls (.withHeaders other) role) : SignedIn ls (.withHeaders name) role
  | session {name role : String} (hname : name ∈ agentNames) (h : sessionLine name role ∈ ls) :
      SignedIn ls (.agent name) role

/-- The lines of a suite that sign in. -/
def accountLines (o : Generation) (m : Model) : List String :=
  if !m.isGuarded o then []
  else if o.tokenAuth then
    [tokenLine "writerHeaders" (writerRole m),
      if isShared m then shareLine "adminHeaders" "writerHeaders"
      else tokenLine "adminHeaders" "admin"]
  else
    sessionLine "writer" (writerRole m) ::
      if isShared m then [] else [sessionLine "admin" "admin"]

/-! ## Silent lines -/

/-- How a line that signs in begins. -/
def loudBeginnings : List (List Char) :=
  ["    writerHeaders = ".toList, "    adminHeaders = ".toList, "    await signIn(".toList]

/-- The line does not begin or does not end like one that signs in. -/
def Silent (l : String) : Prop :=
  (∀ p ∈ loudBeginnings, ¬p <+: l.toList) ∨ l.toList.getLast? ≠ some ';'

/-- The text differs from every beginning of a line that signs in. -/
def Apart (s : String) : Prop := ∀ p ∈ loudBeginnings, ¬p <+: s.toList ∧ ¬s.toList <+: p

theorem Apart.append {s : String} (h : Apart s) (t : String) : Apart (s ++ t) := by
  intro p hp
  obtain ⟨hps, hsp⟩ := h p hp
  rw [String.toList_append]
  refine ⟨fun hstart => ?_, fun hstart => hsp ((List.prefix_append _ _).trans hstart)⟩
  exact (List.prefix_or_prefix_of_prefix hstart (List.prefix_append _ _)).elim hps hsp

theorem Apart.silent {s : String} (h : Apart s) : Silent s := .inl fun p hp => (h p hp).1

theorem apart_ofList {cs : List Char} (h : ∀ p ∈ loudBeginnings, ¬p <+: cs ∧ ¬cs <+: p) :
    Apart (String.ofList cs) := by
  rwa [Apart, String.toList_ofList]

theorem silent_ofList {cs : List Char}
    (h : (∀ p ∈ loudBeginnings, ¬p <+: cs) ∨ cs.getLast? ≠ some ';') :
    Silent (String.ofList cs) := by
  rwa [Silent, String.toList_ofList]

/-- Every line is silent. -/
def Silence (ls : List String) : Prop := ∀ l ∈ ls, Silent l

theorem silence_nil : Silence [] := fun _ h => absurd h List.not_mem_nil

theorem Silence.cons {l : String} {ls : List String} (hl : Silent l) (h : Silence ls) :
    Silence (l :: ls) :=
  List.forall_mem_cons.mpr ⟨hl, h⟩

theorem Silence.append {ls ms : List String} (hls : Silence ls) (hms : Silence ms) :
    Silence (ls ++ ms) :=
  List.forall_mem_append.mpr ⟨hls, hms⟩

theorem silence_ite {c : Prop} [Decidable c] {ls ms : List String} (hls : Silence ls)
    (hms : Silence ms) : Silence (if c then ls else ms) := by
  split
  · exact hls
  · exact hms

theorem silence_map {α : Type} {xs : List α} {line : α → String} (h : ∀ x ∈ xs, Silent (line x)) :
    Silence (xs.map line) :=
  List.forall_mem_map.mpr h

/-! ### Their layout -/

/-- Any texts, and blocks of silent lines. -/
def silentTexts : Filling Unit := ⟨fun _ _ => True, Silence⟩

/-- The check of `Silent` on the wording of a line. -/
def isSilentWording : Wording Unit → Bool
  | .known cs .nil => decide ((∀ p ∈ loudBeginnings, ¬p <+: cs) ∨ cs.getLast? ≠ some ';')
  | .known cs _ => decide (∀ p ∈ loudBeginnings, ¬p <+: cs ∧ ¬cs <+: p)
  | _ => false

/-- What the check on a wording is enough for. -/
theorem silent_of_spells {x : Wording Unit} {l : String} (hx : isSilentWording x = true)
    (h : Spells silentTexts x l.toList) : Silent l := by
  rw [← String.ofList_toList (s := l)]
  generalize l.toList = cs at h
  unfold isSilentWording at hx
  split at hx
  · cases h with
    | known _ h =>
      cases h
      rw [List.append_nil]
      exact silent_ofList (of_decide_eq_true hx)
  · cases h with
    | known _ h =>
      rw [String.ofList_append]
      exact ((apart_ofList (of_decide_eq_true hx)).append _).silent
  · cases hx

theorem silent_of_wording {l : String} {x : Wording Unit} [h : Worded silentTexts l x]
    (hx : isSilentWording x = true) : Silent l :=
  silent_of_spells hx h.spells

/-- Lines are silent if their layout says how each begins. -/
theorem silence_of_layout {ls : List String} {x : Layout Unit} [h : LaidOut silentTexts ls x]
    (hx : x.all isSilentWording = true) : Silence ls :=
  h.forall_mem (fun _ h => h) (fun _ _ => silent_of_spells) hx

theorem fills_silent (s : String) : Fills silentTexts s () := ⟨trivial⟩

theorem Silence.fillsBlock {ls : List String} (h : Silence ls) : FillsBlock silentTexts ls := ⟨h⟩

theorem silence_headerLines (c : Caller) {margin : String} (h : Apart margin) :
    Silence (c.headerLines margin) :=
  silence_map fun _ _ => (((h.append _).append _).append _).silent

theorem silence_sampleLines (m : Model) :
    Silence (m.dataFields.map fun f => "    " ++ f.name ++ ": " ++ sampleText f ++ ",") := by
  refine silence_map fun f _ => .inr ?_
  have hcomma : ",".toList = [','] := rfl
  rw [String.toList_append, hcomma, List.getLast?_concat]
  decide

theorem silence_suiteHead (m : Model) : Silence (suiteHead m) := by
  have hname := fills_silent m.name
  have hsamples := (silence_sampleLines m).fillsBlock
  dsimp only [suiteHead]
  exact silence_of_layout (by decide)

/-- What stands behind the lines that sign in. -/
def suiteTests (o : Generation) (m : Model) : List String :=
  createHelperLines (writer o m) m ++ createTests o m ++ readTests m ++ updateTests (writer o m) m ++
    deleteTests (remover o m) m

/-- The tests themselves sign nobody in. -/
theorem silence_suiteTests (o : Generation) (m : Model) : Silence (suiteTests o m) := by
  have hname := fills_silent m.name
  have hsegment := fills_silent m.routeName
  have hcaller (c : Caller) := fills_silent c.origin
  have hheaders (c : Caller) {margin : String} (h : Apart margin) :=
    (silence_headerLines c h).fillsBlock
  have hnarrow (c : Caller) := hheaders c (apart_ofList (by decide) : Apart "      ")
  have hwide (c : Caller) := hheaders c (apart_ofList (by decide) : Apart "        ")
  have hexpectations : Silence (m.dataFields.map fun f =>
      "      expect(response.body.data." ++ f.name ++ ").toEqual(testData." ++ f.name ++ ");") := by
    refine silence_map fun f _ => ?_
    have hfield := fills_silent f.name
    exact silent_of_wording (by decide)
  have hexpectations := hexpectations.fillsBlock
  dsimp only [suiteTests, createHelperLines, createTests, readTests, updateTests, deleteTests]
  exact silence_of_layout (by decide)

/-- An import begins with its word. -/
theorem silent_import (i : Import) : Silent i.line := by
  cases i with
  | effects s =>
    have hstart : Apart "import '" := apart_ofList (by decide)
    exact ((hstart.append s).append _).silent
  | whole name s =>
    have hstart : Apart "import " := apart_ofList (by decide)
    exact ((((hstart.append name).append _).append s).append _).silent
  | parts names s =>
    have hstart : Apart r"import { " := apart_ofList (by decide)
    exact ((((hstart.append _).append _).append s).append _).silent

/-- The lines in front of those that sign in. -/
def signInFront (o : Generation) (m : Model) : List String :=
  if !m.isGuarded o then [] else if o.tokenAuth then (tokenSignIn m).take 18
  else (sessionSignIn m).take (if isShared m then 16 else 17)

/-- The lines that sign in stand last in their hook. -/
theorem signInLines_eq (o : Generation) (m : Model) : signInLines o m =
    signInFront o m ++ accountLines o m ++ if !m.isGuarded o then [] else [r"  });", ""] := by
  unfold signInLines signInFront accountLines
  cases m.isGuarded o
  · rfl
  · cases o.tokenAuth
    · cases hshared : isShared m
      · simp only [sessionSignIn, hshared]
        rfl
      · simp only [sessionSignIn, hshared]
        rfl
    · cases hshared : isShared m
      · simp only [tokenSignIn, hshared]
        rfl
      · simp only [tokenSignIn, hshared]
        rfl

/-- What stands in front of them in the hook signs nobody in. -/
theorem silence_signInFront (o : Generation) (m : Model) : Silence (signInFront o m) := by
  refine silence_ite silence_nil (silence_ite ?_ ?_)
  · dsimp only [tokenSignIn, credentialLines, List.cons_append, List.nil_append,
      List.take_succ_cons, List.take_zero]
    exact silence_of_layout (by decide)
  · have hrole := fills_silent (writerRole m)
    cases hshared : isShared m
    all_goals
      simp only [sessionSignIn, hshared, if_true, if_false, Bool.false_eq_true, credentialLines,
        List.cons_append, List.nil_append, List.take_succ_cons, List.take_zero]
      exact silence_of_layout (by decide)

/-- **The lines of a suite that sign in stand together, between silent ones.** -/
theorem exists_lines_suite (o : Generation) (m : Model) : ∃ front back,
    (suite o m).lines = front ++ accountLines o m ++ back ∧ Silence front ∧ Silence back := by
  refine ⟨(suite o m).imports.map Import.line ++ "" :: (suiteHead m ++ "" :: signInFront o m),
    (if !m.isGuarded o then [] else [r"  });", ""]) ++ suiteTests o m, ?_, ?_, ?_⟩
  · simp only [Source.lines, suite, setupLines, suiteHead, sampleLines, suiteTests, signInLines_eq,
      List.append_assoc, List.cons_append, List.nil_append]
  · have hempty : Silent "" := silent_ofList (by decide)
    have himports : Silence ((suite o m).imports.map Import.line) :=
      silence_map fun i _ => silent_import i
    exact himports.append (.cons hempty ((silence_suiteHead m).append
      (.cons hempty (silence_signInFront o m))))
  · refine .append (silence_ite silence_nil ?_) (silence_suiteTests o m)
    exact .cons (silent_ofList (by decide)) (.cons (silent_ofList (by decide)) silence_nil)

/-! ## What is signed in -/

theorem toList_tokenLine (name role : String) : (tokenLine name role).toList = "    ".toList ++
    (name.toList ++ ' ' :: '=' :: ' ' :: 'a' :: 'w' ::
      ("ait signIn('".toList ++ (role.toList ++ "');".toList))) := by
  simp only [tokenLine, String.toList_append]
  repeat rw [String.toList_ofList]
  simp only [List.append_assoc, List.cons_append, List.nil_append]

theorem toList_shareLine (name other : String) : (shareLine name other).toList = "    ".toList ++
    (name.toList ++ ' ' :: '=' :: ' ' :: (other.toList ++ [';'])) := by
  simp only [shareLine, String.toList_append]
  repeat rw [String.toList_ofList]
  simp only [List.append_assoc, List.cons_append, List.nil_append]

theorem toList_sessionLine (name role : String) : (sessionLine name role).toList = "    ".toList ++
    ("await".toList ++ ' ' :: 's' :: ("ignIn(".toList ++
      (name.toList ++ ',' :: (" '".toList ++ (role.toList ++ "');".toList))))) := by
  change ("    await signIn(" ++ name ++ ", '" ++ role ++ "');").toList = _
  simp only [String.toList_append]
  repeat rw [String.toList_ofList]
  simp only [List.append_assoc, List.cons_append, List.nil_append]

theorem blank_notMem_headerNames : ∀ n ∈ headerNames, ' ' ∉ n.toList := by decide

theorem comma_notMem_agentNames : ∀ n ∈ agentNames, ',' ∉ n.toList := by decide

/-- The line tells the headers and the role. -/
theorem tokenLine_inj {n n' r r' : String} (hn : n ∈ headerNames) (hn' : n' ∈ headerNames)
    (h : tokenLine n r = tokenLine n' r') : n = n' ∧ r = r' := by
  have hlist := congrArg String.toList h
  rw [toList_tokenLine, toList_tokenLine, List.append_cancel_left_eq] at hlist
  obtain ⟨hname, hrest⟩ := append_cons_inj (blank_notMem_headerNames n hn)
    (blank_notMem_headerNames n' hn') hlist
  simp only [List.cons.injEq, true_and, List.append_cancel_left_eq,
    List.append_cancel_right_eq] at hrest
  exact ⟨String.toList_inj.mp hname, String.toList_inj.mp hrest⟩

/-- The line tells both headers. -/
theorem shareLine_inj {n n' x x' : String} (hn : n ∈ headerNames) (hn' : n' ∈ headerNames)
    (h : shareLine n x = shareLine n' x') : n = n' ∧ x = x' := by
  have hlist := congrArg String.toList h
  rw [toList_shareLine, toList_shareLine, List.append_cancel_left_eq] at hlist
  obtain ⟨hname, hrest⟩ := append_cons_inj (blank_notMem_headerNames n hn)
    (blank_notMem_headerNames n' hn') hlist
  simp only [List.cons.injEq, true_and, List.append_cancel_right_eq] at hrest
  exact ⟨String.toList_inj.mp hname, String.toList_inj.mp hrest⟩

/-- The line tells the agent and the role. -/
theorem sessionLine_inj {n n' r r' : String} (hn : n ∈ agentNames) (hn' : n' ∈ agentNames)
    (h : sessionLine n r = sessionLine n' r') : n = n' ∧ r = r' := by
  have hlist := congrArg String.toList h
  simp only [toList_sessionLine, List.append_cancel_left_eq, List.cons.injEq, true_and] at hlist
  obtain ⟨hname, hrest⟩ := append_cons_inj (comma_notMem_agentNames n hn)
    (comma_notMem_agentNames n' hn') hlist
  simp only [List.append_cancel_left_eq, List.append_cancel_right_eq] at hrest
  exact ⟨String.toList_inj.mp hname, String.toList_inj.mp hrest⟩

theorem tokenLine_ne_sessionLine {n n' r r' : String} (hn : n ∈ headerNames) :
    tokenLine n r ≠ sessionLine n' r' := by
  intro h
  have hlist := congrArg String.toList h
  rw [toList_tokenLine, toList_sessionLine, List.append_cancel_left_eq] at hlist
  obtain ⟨-, hrest⟩ := append_cons_inj (blank_notMem_headerNames n hn) (by decide) hlist
  exact absurd (List.cons.inj hrest).1 (by decide)

theorem shareLine_ne_sessionLine {n n' x r : String} (hn : n ∈ headerNames) :
    shareLine n x ≠ sessionLine n' r := by
  intro h
  have hlist := congrArg String.toList h
  rw [toList_shareLine, toList_sessionLine, List.append_cancel_left_eq] at hlist
  obtain ⟨-, hrest⟩ := append_cons_inj (blank_notMem_headerNames n hn) (by decide) hlist
  exact absurd (List.cons.inj hrest).1 (by decide)

/-- Headers that are shared are not set from a token. -/
theorem shareLine_ne_tokenLine {n n' x r : String} (hn : n ∈ headerNames) (hn' : n' ∈ headerNames)
    (hx : x ∈ headerNames) : shareLine n x ≠ tokenLine n' r := by
  intro h
  have hlist := congrArg String.toList h
  rw [toList_shareLine, toList_tokenLine, List.append_cancel_left_eq] at hlist
  obtain ⟨-, hrest⟩ := append_cons_inj (blank_notMem_headerNames n hn)
    (blank_notMem_headerNames n' hn') hlist
  have hstart : ∀ x ∈ headerNames, 2 ≤ x.toList.length ∧ x.toList.take 2 ≠ ['a', 'w'] := by decide
  obtain ⟨hlength, hne⟩ := hstart x hx
  simp only [List.cons.injEq, true_and] at hrest
  have htake := congrArg (List.take 2) hrest
  rw [List.take_append_of_le_length hlength] at htake
  exact hne htake

theorem loud_of_eq {l : String} {p rest : List Char} (hp : p ∈ loudBeginnings)
    (hl : l.toList = p ++ rest) (hend : l.toList.getLast? = some ';') : ¬Silent l := by
  rintro (hstart | hlast)
  · exact hstart p hp (hl ▸ List.prefix_append p rest)
  · exact hlast hend

/-- A line that sets headers from a token is not silent. -/
theorem loud_tokenLine {name : String} (h : name ∈ headerNames) (role : String) :
    ¬Silent (tokenLine name role) := by
  have hsplit : (tokenLine name role).toList = ("    ".toList ++ name.toList ++ " = ".toList) ++
      ("await signIn('".toList ++ role.toList ++ "')".toList ++ [';']) := by
    rw [toList_tokenLine]
    repeat rw [String.toList_ofList]
    simp only [List.append_assoc, List.cons_append, List.nil_append]
  have hp : ∀ name ∈ headerNames, "    ".toList ++ name.toList ++ " = ".toList ∈ loudBeginnings := by
    decide
  refine loud_of_eq (hp name h) hsplit ?_
  rw [hsplit, ← List.append_assoc, List.getLast?_concat]

/-- Nor is one that shares headers. -/
theorem loud_shareLine {name : String} (h : name ∈ headerNames) (other : String) :
    ¬Silent (shareLine name other) := by
  have hsplit : (shareLine name other).toList = ("    ".toList ++ name.toList ++ " = ".toList) ++
      (other.toList ++ [';']) := by
    rw [toList_shareLine]
    repeat rw [String.toList_ofList]
    simp only [List.append_assoc, List.cons_append, List.nil_append]
  have hp : ∀ name ∈ headerNames, "    ".toList ++ name.toList ++ " = ".toList ∈ loudBeginnings := by
    decide
  refine loud_of_eq (hp name h) hsplit ?_
  rw [hsplit, ← List.append_assoc, List.getLast?_concat]

/-- Nor is one that gives an agent a session. -/
theorem loud_sessionLine (name role : String) : ¬Silent (sessionLine name role) := by
  have hsplit : (sessionLine name role).toList = "    await signIn(".toList ++
      (name.toList ++ ", '".toList ++ role.toList ++ "')".toList ++ [';']) := by
    rw [toList_sessionLine]
    repeat rw [String.toList_ofList]
    simp only [List.append_assoc, List.cons_append, List.nil_append]
  have hp : "    await signIn(".toList ∈ loudBeginnings := by simp [loudBeginnings]
  refine loud_of_eq hp hsplit ?_
  rw [hsplit, ← List.append_assoc, List.getLast?_concat]

theorem mem_accountLines {o : Generation} {m : Model} {l : String} (hloud : ¬Silent l)
    (h : l ∈ (suite o m).lines) : l ∈ accountLines o m := by
  obtain ⟨front, back, hlines, hfront, hback⟩ := exists_lines_suite o m
  rw [hlines] at h
  obtain h | h := List.mem_append.mp h
  · exact (List.mem_append.mp h).resolve_left fun h => hloud (hfront l h)
  · exact absurd (hback l h) hloud

theorem accountLines_subset (o : Generation) (m : Model) :
    accountLines o m ⊆ (suite o m).lines := by
  obtain ⟨front, back, hlines, -, -⟩ := exists_lines_suite o m
  rw [hlines]
  exact fun l hl => List.mem_append_left _ (List.mem_append_right _ hl)

/-- Only the two variables for headers are signed in. -/
theorem name_mem_of_signedIn {ls : List String} {name role : String}
    (h : SignedIn ls (.withHeaders name) role) : name ∈ headerNames := by
  generalize hc : Caller.withHeaders name = c at h
  cases h with
  | token hname _ | shared hname _ _ =>
    cases hc
    exact hname
  | session _ _ => cases hc

section Accounts

variable {o : Generation} {m : Model} {name other role : String}

/-- The lines that sign in, by the kind of the login. -/
theorem accountLines_cases {l : String} (h : l ∈ accountLines o m) : m.isGuarded o = true ∧
    (o.tokenAuth = true ∧ (l = tokenLine "writerHeaders" (writerRole m) ∨
        isShared m = true ∧ l = shareLine "adminHeaders" "writerHeaders" ∨
        l = tokenLine "adminHeaders" "admin") ∨
      o.tokenAuth = false ∧ (l = sessionLine "writer" (writerRole m) ∨
        isShared m = false ∧ l = sessionLine "admin" "admin")) := by
  unfold accountLines at h
  split at h
  · exact absurd h List.not_mem_nil
  · rename_i hguarded
    refine ⟨by simpa using hguarded, ?_⟩
    split at h
    · rename_i htoken
      simp only [List.mem_cons, List.not_mem_nil, or_false] at h
      refine .inl ⟨htoken, h.imp_right fun h => ?_⟩
      split at h
      · rename_i hshared
        exact .inl ⟨hshared, h⟩
      · exact .inr h
    · rename_i htoken
      refine .inr ⟨by simpa using htoken, (List.mem_cons.mp h).imp_right fun h => ?_⟩
      split at h
      · exact absurd h List.not_mem_nil
      · rename_i hshared
        exact ⟨by simpa using hshared, List.mem_singleton.mp h⟩

/-- Which headers a suite sets from tokens. -/
theorem tokenLine_mem_accountLines (hname : name ∈ headerNames)
    (h : tokenLine name role ∈ accountLines o m) : m.isGuarded o = true ∧ o.tokenAuth = true ∧
      (name = "writerHeaders" ∧ role = writerRole m ∨ name = "adminHeaders" ∧ role = "admin") := by
  obtain ⟨hguarded, ⟨htoken, h | ⟨-, h⟩ | h⟩ | ⟨-, h | ⟨-, h⟩⟩⟩ := accountLines_cases h
  · exact ⟨hguarded, htoken, .inl (tokenLine_inj hname (by decide) h)⟩
  · exact absurd h.symm (shareLine_ne_tokenLine (by decide) hname (by decide))
  · exact ⟨hguarded, htoken, .inr (tokenLine_inj hname (by decide) h)⟩
  · exact absurd h (tokenLine_ne_sessionLine hname)
  · exact absurd h (tokenLine_ne_sessionLine hname)

/-- Which headers a suite shares: those of the account that both writes and deletes. -/
theorem shareLine_mem_accountLines (hname : name ∈ headerNames) (hother : other ∈ headerNames)
    (h : shareLine name other ∈ accountLines o m) : m.isGuarded o = true ∧ o.tokenAuth = true ∧
      isShared m = true ∧ name = "adminHeaders" ∧ other = "writerHeaders" := by
  obtain ⟨hguarded, ⟨htoken, h | ⟨hshared, h⟩ | h⟩ | ⟨-, h | ⟨-, h⟩⟩⟩ := accountLines_cases h
  · exact absurd h (shareLine_ne_tokenLine hname (by decide) hother)
  · exact ⟨hguarded, htoken, hshared, shareLine_inj hname (by decide) h⟩
  · exact absurd h (shareLine_ne_tokenLine hname (by decide) hother)
  · exact absurd h (shareLine_ne_sessionLine hname)
  · exact absurd h (shareLine_ne_sessionLine hname)

/-- Which agents a suite gives a session. -/
theorem sessionLine_mem_accountLines (hname : name ∈ agentNames)
    (h : sessionLine name role ∈ accountLines o m) : m.isGuarded o = true ∧ o.tokenAuth = false ∧
      (name = "writer" ∧ role = writerRole m ∨
        isShared m = false ∧ name = "admin" ∧ role = "admin") := by
  obtain ⟨hguarded, ⟨-, h | ⟨-, h⟩ | h⟩ | ⟨htoken, h | ⟨hshared, h⟩⟩⟩ := accountLines_cases h
  · exact absurd h.symm (tokenLine_ne_sessionLine (by decide))
  · exact absurd h.symm (shareLine_ne_sessionLine (by decide))
  · exact absurd h.symm (tokenLine_ne_sessionLine (by decide))
  · exact ⟨hguarded, htoken, .inl (sessionLine_inj hname (by decide) h)⟩
  · exact ⟨hguarded, htoken, .inr ⟨hshared, sessionLine_inj hname (by decide) h⟩⟩

/-- The writer signs in with its role. -/
theorem signedIn_writer (hguarded : m.isGuarded o = true) :
    SignedIn (suite o m).lines (writer o m) (writerRole m) := by
  have hmem := accountLines_subset o m
  unfold writer
  rw [hguarded, Bool.not_true, if_neg Bool.false_ne_true]
  split
  · rename_i htoken
    exact .token (by decide) (hmem (by simp [accountLines, hguarded, htoken]))
  · rename_i htoken
    exact .session (by decide) (hmem (by simp [accountLines, hguarded, htoken]))

/-- The remover signs in as an administrator. -/
theorem signedIn_remover (hguarded : m.isGuarded o = true) :
    SignedIn (suite o m).lines (remover o m) "admin" := by
  have hmem := accountLines_subset o m
  have hwriter := signedIn_writer hguarded
  cases hshared : isShared m with
  | true =>
    have hrole : writerRole m = "admin" := by simpa [isShared] using hshared
    rw [hrole] at hwriter
    unfold writer at hwriter
    unfold remover
    rw [hguarded, Bool.not_true, if_neg Bool.false_ne_true] at hwriter ⊢
    split at hwriter
    · rename_i htoken
      rw [if_pos htoken]
      refine .shared (by decide) (hmem ?_) hwriter
      simp [accountLines, hguarded, htoken, hshared]
    · rename_i htoken
      rwa [if_neg htoken, if_pos hshared]
  | false =>
    unfold remover
    rw [hguarded, Bool.not_true, if_neg Bool.false_ne_true]
    split
    · rename_i htoken
      exact .token (by decide) (hmem (by simp [accountLines, hguarded, htoken, hshared]))
    · rename_i htoken
      rw [hshared]
      exact .session (by decide) (hmem (by simp [accountLines, hguarded, htoken, hshared]))

/-- Nobody else signs in, and with no other role. -/
theorem of_signedIn {c : Caller} (h : SignedIn (suite o m).lines c role) : m.isGuarded o = true ∧
    (c = writer o m ∧ role = writerRole m ∨ c = remover o m ∧ role = "admin") := by
  generalize hls : (suite o m).lines = ls at h
  induction h with
  | token hname h =>
    obtain ⟨hguarded, htoken, hcase⟩ := tokenLine_mem_accountLines hname
      (mem_accountLines (loud_tokenLine hname _) (hls ▸ h))
    refine ⟨hguarded, hcase.imp ?_ ?_⟩
    · rintro ⟨rfl, rfl⟩
      simp [writer, hguarded, htoken]
    · rintro ⟨rfl, rfl⟩
      simp [remover, hguarded, htoken]
  | shared hname h hother ih =>
    obtain ⟨hguarded, htoken, hshared, rfl, rfl⟩ := shareLine_mem_accountLines hname
      (name_mem_of_signedIn hother) (mem_accountLines (loud_shareLine hname _) (hls ▸ h))
    have hrole : writerRole m = "admin" := by simpa [isShared] using hshared
    refine ⟨hguarded, .inr ⟨by simp [remover, hguarded, htoken], ?_⟩⟩
    obtain ⟨-, rfl⟩ | ⟨-, rfl⟩ := ih.2
    · exact hrole
    · rfl
  | session hname h =>
    obtain ⟨hguarded, htoken, hcase⟩ := sessionLine_mem_accountLines hname
      (mem_accountLines (loud_sessionLine _ _) (hls ▸ h))
    refine ⟨hguarded, hcase.imp ?_ ?_⟩
    · rintro ⟨rfl, rfl⟩
      simp [writer, hguarded, htoken]
    · rintro ⟨hshared, rfl, rfl⟩
      simp [remover, hguarded, htoken, hshared]

/-- **A suite signs in its two callers, each with an account of its role.** -/
theorem signedIn_suite_iff {c : Caller} : SignedIn (suite o m).lines c role ↔
    m.isGuarded o = true ∧
      (c = writer o m ∧ role = writerRole m ∨ c = remover o m ∧ role = "admin") := by
  refine ⟨of_signedIn, ?_⟩
  rintro ⟨hguarded, ⟨rfl, rfl⟩ | ⟨rfl, rfl⟩⟩
  · exact signedIn_writer hguarded
  · exact signedIn_remover hguarded

/-- The writer has one role. -/
theorem role_of_signedIn_writer (h : SignedIn (suite o m).lines (writer o m) role) :
    role = writerRole m := by
  obtain ⟨hguarded, ⟨-, hrole⟩ | ⟨hcaller, rfl⟩⟩ := of_signedIn h
  · exact hrole
  · -- one agent does both, so both have its role
    unfold writer remover at hcaller
    rw [hguarded, Bool.not_true, if_neg Bool.false_ne_true, if_neg Bool.false_ne_true] at hcaller
    split at hcaller
    · simp [Caller.withHeaders] at hcaller
    · split at hcaller
      · rename_i hshared
        exact (by simpa [isShared] using hshared : writerRole m = "admin").symm
      · simp [Caller.agent] at hcaller

/-- The remover has one role. -/
theorem role_of_signedIn_remover (h : SignedIn (suite o m).lines (remover o m) role) :
    role = "admin" := by
  obtain ⟨hguarded, ⟨hcaller, rfl⟩ | ⟨-, hrole⟩⟩ := of_signedIn h
  · unfold writer remover at hcaller
    rw [hguarded, Bool.not_true, if_neg Bool.false_ne_true, if_neg Bool.false_ne_true] at hcaller
    split at hcaller
    · simp [Caller.withHeaders] at hcaller
    · split at hcaller
      · rename_i hshared
        simpa [isShared] using hshared
      · simp [Caller.agent] at hcaller
  · exact hrole

end Accounts

/-! ## The guards -/

/-- The guard lets an account of the role pass. -/
def Guard.Admits : Guard → String → Prop
  | .anyone, _ => True
  | .loggedIn roles, role => roles = [] ∨ role ∈ roles

theorem admits_writeGuard (o : Generation) (m : Model) : (writeGuard o m).Admits (writerRole m) := by
  unfold writeGuard writerRole
  split
  · cases m.metadata.allowedRoles with
    | nil => exact .inl rfl
    | cons r rs => exact .inr List.mem_cons_self
  · trivial

theorem admits_deleteGuard (o : Generation) (m : Model) : (deleteGuard o m).Admits "admin" := by
  unfold deleteGuard
  split
  · exact .inr List.mem_cons_self
  · trivial

/-- The roles of a model as its routes and its suite use them. -/
structure UsesRoles (o : Generation) (m : Model) (names : List String) : Prop where
  guards : ∀ r ∈ routeTable o m, ∀ n ∈ r.guard.roles, n ∈ names
  accounts : ∀ c n, SignedIn (suite o m).lines c n → n ∈ names
  /-- The writer of a guarded model is signed in, and whatever its role is, it may write. -/
  writer : m.isGuarded o = true → (∃ n, SignedIn (suite o m).lines (writer o m) n) ∧
    ∀ n, SignedIn (suite o m).lines (writer o m) n →
      ∀ r ∈ routeTable o m, r.method = .post ∨ r.method = .put → r.guard.Admits n
  /-- The one who deletes is signed in, and may delete. -/
  remover : m.isGuarded o = true → (∃ n, SignedIn (suite o m).lines (remover o m) n) ∧
    ∀ n, SignedIn (suite o m).lines (remover o m) n →
      ∀ r ∈ routeTable o m, r.method = .delete → r.guard.Admits n

theorem guard_of_mem_routeTable {o : Generation} {m : Model} {r : Route} (hr : r ∈ routeTable o m) :
    r.method = .get ∧ r.guard = .anyone ∨
      (r.method = .post ∨ r.method = .put) ∧ r.guard = writeGuard o m ∨
      r.method = .delete ∧ r.guard = deleteGuard o m := by
  simp only [routeTable, List.mem_cons, List.not_mem_nil, or_false] at hr
  obtain rfl | rfl | rfl | rfl | rfl := hr <;> simp

theorem roles_writeGuard_subset (o : Generation) (m : Model) :
    (writeGuard o m).roles ⊆ m.metadata.allowedRoles := by
  unfold writeGuard
  split
  · exact fun _ hn => hn
  · exact List.nil_subset _

theorem roles_deleteGuard_subset (o : Generation) (m : Model) :
    (deleteGuard o m).roles ⊆ ["admin"] := by
  unfold deleteGuard
  split
  · exact fun _ hn => hn
  · exact List.nil_subset _

theorem writerRole_mem (m : Model) : writerRole m ∈ "user" :: m.metadata.allowedRoles := by
  unfold writerRole
  cases m.metadata.allowedRoles with
  | nil => exact List.mem_singleton_self _
  | cons r rs => exact List.mem_cons_of_mem _ List.mem_cons_self

/-- **A model uses the default roles and those that it allows**, and its suite has the roles that its
guards ask for. -/
theorem usesRoles {o : Generation} {m : Model} {names : List String} (hadmin : "admin" ∈ names)
    (huser : "user" ∈ names) (hallowed : ∀ n ∈ m.metadata.allowedRoles, n ∈ names) :
    UsesRoles o m names where
  guards r hr n hn := by
    obtain ⟨-, hguard⟩ | ⟨-, hguard⟩ | ⟨-, hguard⟩ := guard_of_mem_routeTable hr
    · rw [hguard] at hn
      exact absurd hn List.not_mem_nil
    · exact hallowed n (roles_writeGuard_subset o m (hguard ▸ hn))
    · exact List.mem_singleton.mp (roles_deleteGuard_subset o m (hguard ▸ hn)) ▸ hadmin
  accounts c n h := by
    obtain ⟨-, ⟨-, rfl⟩ | ⟨-, rfl⟩⟩ := of_signedIn h
    · obtain hrole | hrole := List.mem_cons.mp (writerRole_mem m)
      · exact hrole ▸ huser
      · exact hallowed _ hrole
    · exact hadmin
  writer hguarded := by
    refine ⟨⟨_, signedIn_writer hguarded⟩, fun n h r hr hmethod => ?_⟩
    obtain ⟨hget, -⟩ | ⟨-, hguard⟩ | ⟨hdelete, -⟩ := guard_of_mem_routeTable hr
    · rw [hget] at hmethod
      simp at hmethod
    · rw [hguard, role_of_signedIn_writer h]
      exact admits_writeGuard o m
    · rw [hdelete] at hmethod
      simp at hmethod
  remover hguarded := by
    refine ⟨⟨_, signedIn_remover hguarded⟩, fun n h r hr hmethod => ?_⟩
    obtain ⟨hget, -⟩ | ⟨hwrite, -⟩ | ⟨-, hguard⟩ := guard_of_mem_routeTable hr
    · rw [hget] at hmethod
      cases hmethod
    · rw [hmethod] at hwrite
      simp at hwrite
    · rw [hguard, role_of_signedIn_remover h]
      exact admits_deleteGuard o m

end Scaffold.Artifact
