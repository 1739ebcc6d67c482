import Mathlib.Computability.Language
import Mathlib.Data.List.Chain
import Scaffold.Proofs.Text.Names

/-!
# Proofs/Text/Casing — the words of a name, and the styles that are made of them

Whatever a name is made of, its snake-case form consists of words of small letters and digits with
single underscores between them; no letter or digit is lost, and the form is its own snake-case form
(`snake_normal`).

A camel-case name has an underscore before each of its capitals in snake case, unless two capitals
stand side by side: `userID` and `userId` both become `user_id`.  The form of a **regular** name is
found character by character (`toList_snake`), so it tells such names apart (`snake_inj`).

The neighbours in a group are joined (`isChain_of_mem_groups`), and a letter is never joined to a
digit, so a word is made of small letters or of digits.  The words hold the ASCII letters and digits
of the name, each once and in order, and the other styles only change the case of a letter or put
hyphens between words (`words_normal`).
-/

namespace Scaffold.Naming

open Text

/-! ## Classes of characters -/

section Classes

variable {c d : Char}

theorem plainLower_of_not_upper (h : isUpperLetter c = false) : plainLower c = c := by
  rw [plainLower, h]
  rfl

theorem isPlainAlnum_of_lower (h : isLowerLetter c = true) : isPlainAlnum c = true := by
  rw [isPlainAlnum, isPlainLetter, h, Bool.or_true, Bool.true_or]

theorem isUpperLetter_eq_false_of_lower (h : isLowerLetter c = true) : isUpperLetter c = false :=
  forall_isPlainAlnum (p := fun c => isLowerLetter c = true → isUpperLetter c = false) (by decide)
    (isPlainAlnum_of_lower h) h

theorem toNat_mem_of_upper (h : isUpperLetter c = true) : 65 ≤ c.toNat ∧ c.toNat ≤ 90 := by
  rw [isUpperLetter, Bool.and_eq_true, decide_eq_true_eq, decide_eq_true_eq] at h
  exact ⟨h.1, h.2⟩

/-- Two capitals with one small letter are one. -/
theorem plainLower_inj (hc : isUpperLetter c = true) (hd : isUpperLetter d = true)
    (h : plainLower c = plainLower d) : c = d := by
  have htoNat : ∀ n < 91, (Char.ofNat (n + 32)).toNat = n + 32 := by decide
  rw [plainLower, if_pos hc, plainLower, if_pos hd] at h
  have heq := congrArg Char.toNat h
  rw [htoNat _ (Nat.lt_succ_of_le (toNat_mem_of_upper hc).2),
    htoNat _ (Nat.lt_succ_of_le (toNat_mem_of_upper hd).2)] at heq
  exact Char.toNat_inj.mp (Nat.add_right_cancel heq)

end Classes

/-! ## Names with single capitals -/

/-- No two capitals stand side by side. -/
def SingleCapitals (s : String) : Prop :=
  s.toList.IsChain fun c d => (isUpperLetter c && isUpperLetter d) = false

/-- A camel-case name with single capitals, on one line. -/
structure IsRegular (s : String) : Prop where
  camel : isCamel s = true
  oneLine : OneLine s
  single : SingleCapitals s

theorem withoutFinalLineFeed_of_oneLine {s : String} (h : OneLine s) :
    withoutFinalLineFeed s.toList = s.toList := by
  unfold withoutFinalLineFeed
  split
  · exact absurd (List.mem_of_getLast? ‹_›) h
  · rfl

namespace IsRegular

variable {s : String}

/-- A regular name begins with a small letter. -/
theorem exists_eq_cons (h : IsRegular s) : ∃ c cs, s.toList = c :: cs ∧ isLowerLetter c = true ∧
    ∀ x ∈ c :: cs, isPlainAlnum x = true := by
  have hcamel := h.camel
  rw [isCamel, isIdentifier, withoutFinalLineFeed_of_oneLine h.oneLine] at hcamel
  split at hcamel
  · cases hcamel
  · rename_i c cs hs
    obtain ⟨hc, hcs⟩ := Bool.and_eq_true_iff.mp hcamel
    refine ⟨c, cs, hs, hc, List.forall_mem_cons.mpr ⟨?_, List.all_eq_true.mp hcs⟩⟩
    exact isPlainAlnum_of_lower hc

end IsRegular

/-- What a character behind the first becomes in snake case. -/
def spread (c : Char) : List Char := if isUpperLetter c then ['_', plainLower c] else [c]

/-- Behind a character that is no capital before a capital, exactly the capitals start a group. -/
theorem joinedInSnake_eq {c d : Char} {next : Option Char} (hc : isPlainAlnum c = true)
    (h : (isUpperLetter c && isUpperLetter d) = false) :
    joinedInSnake c d next = !isUpperLetter d := by
  rw [joinedInSnake, startsAfterAcronym, h, Bool.false_and, Bool.false_or]
  cases hd : isUpperLetter d with
  | false => rw [Bool.and_false]
  | true =>
    rw [hd, Bool.and_true] at h
    rw [isPlainAlnum, isPlainLetter, h, Bool.false_or] at hc
    rw [hc]
    rfl

theorem joinWith_cons_cons (sep : List Char) (c : Char) (g : List Char) (gs : List (List Char)) :
    joinWith sep ((c :: g) :: gs) = c :: joinWith sep (g :: gs) := by
  cases gs <;> rfl

/-- The groups of a run, with underscores between them. -/
theorem joinWith_groups {c : Char} {cs : List Char} (hplain : ∀ x ∈ c :: cs, isPlainAlnum x = true)
    (hchain : (c :: cs).IsChain fun c d => (isUpperLetter c && isUpperLetter d) = false) :
    joinWith ['_'] ((groups joinedInSnake (c :: cs)).map (·.map plainLower)) =
      plainLower c :: cs.flatMap spread := by
  induction cs generalizing c with
  | nil => rfl
  | cons d ds ih =>
    obtain ⟨hc, hplain⟩ := List.forall_mem_cons.mp hplain
    obtain ⟨hcd, hchain⟩ := List.isChain_cons_cons.mp hchain
    have hrest := ih hplain hchain
    rw [groups]
    split
    · rename_i hgroups
      rw [hgroups] at hrest
      cases hrest
    · rename_i g gs hgroups
      rw [hgroups] at hrest
      rw [joinedInSnake_eq hc hcd, List.flatMap_cons, spread]
      cases hd : isUpperLetter d with
      | false =>
        rw [Bool.not_false, if_pos rfl, List.map_cons, List.map_cons, joinWith_cons_cons,
          ← List.map_cons, hrest, plainLower_of_not_upper hd]
        rfl
      | true =>
        rw [Bool.not_true, if_neg Bool.false_ne_true, if_pos rfl, List.map_cons, List.map_cons,
          List.map_cons, List.map_nil, joinWith, ← List.map_cons, hrest]
        rfl

/-- A plain name is one run. -/
theorem runs_of_plain {cs : List Char} (hne : cs ≠ []) (h : ∀ c ∈ cs, isPlainAlnum c = true) :
    runs cs = [cs] := by
  have hsame : cs.map (fun c => if isPlainAlnum c then c else ' ') = cs := by
    conv_rhs => rw [← List.map_id cs]
    exact List.map_congr_left fun c hc => if_pos (h c hc)
  have hblank : ' ' ∉ cs := fun hmem => absurd (h ' ' hmem) (by decide)
  rw [runs, hsame, pieces_of_notMem hblank, List.filter_cons_of_pos (by simpa using hne),
    List.filter_nil]

/-- The snake-case form of a regular name. -/
theorem toList_snake {s : String} (h : IsRegular s) :
    (snake s).toList = s.toList.flatMap spread := by
  obtain ⟨c, cs, hs, hlower, hplain⟩ := h.exists_eq_cons
  have hsingle := h.single
  have hc : isUpperLetter c = false := isUpperLetter_eq_false_of_lower hlower
  rw [SingleCapitals, hs] at hsingle
  rw [snake, split, String.toList_ofList, hs, runs_of_plain (List.cons_ne_nil c cs) hplain,
    List.flatMap_singleton, joinWith_groups hplain hsingle, plainLower_of_not_upper hc,
    List.flatMap_cons, spread, hc]
  rfl

/-- Spreading capitals loses no plain letter. -/
theorem flatMap_spread_inj {xs ys : List Char} (hxs : ∀ c ∈ xs, isPlainAlnum c = true)
    (hys : ∀ c ∈ ys, isPlainAlnum c = true) (h : xs.flatMap spread = ys.flatMap spread) :
    xs = ys := by
  induction xs generalizing ys with
  | nil =>
    cases ys with
    | nil => rfl
    | cons y ys =>
      rw [List.flatMap_cons, spread] at h
      split at h <;> cases h
  | cons x xs ih =>
    cases ys with
    | nil =>
      rw [List.flatMap_cons, spread] at h
      split at h <;> cases h
    | cons y ys =>
      obtain ⟨hx, hxs⟩ := List.forall_mem_cons.mp hxs
      obtain ⟨hy, hys⟩ := List.forall_mem_cons.mp hys
      rw [List.flatMap_cons, List.flatMap_cons, spread, spread] at h
      -- an underscore stands before a capital only
      split at h <;> split at h
      · obtain ⟨-, h⟩ := List.cons.inj h
        obtain ⟨hletter, hrest⟩ := List.cons.inj h
        rw [plainLower_inj ‹_› ‹_› hletter, ih hxs hys hrest]
      · obtain ⟨rfl, -⟩ := List.cons.inj h
        exact absurd hy (by decide)
      · obtain ⟨rfl, -⟩ := List.cons.inj h
        exact absurd hx (by decide)
      · obtain ⟨hletter, hrest⟩ := List.cons.inj h
        rw [hletter, ih hxs hys hrest]

/-- **Snake case tells regular names apart.** -/
theorem snake_inj {s t : String} (hs : IsRegular s) (ht : IsRegular t) (h : snake s = snake t) :
    s = t := by
  have hplain {s : String} (hs : IsRegular s) : ∀ c ∈ s.toList, isPlainAlnum c = true := by
    obtain ⟨c, cs, heq, -, hplain⟩ := hs.exists_eq_cons
    rwa [heq]
  refine String.toList_inj.mp (flatMap_spread_inj (hplain hs) (hplain ht) ?_)
  rw [← toList_snake hs, ← toList_snake ht, h]

/-! ## The form of any name -/

section Form

open Computability

/-- A small ASCII letter or a digit. -/
def isSnakeChar (c : Char) : Bool := isLowerLetter c || isPlainDigit c

/-- The words of snake case: `[a-z0-9]+`. -/
def snakeWord : Language Char := {w | w ≠ [] ∧ ∀ c ∈ w, isSnakeChar c = true}

/-- Words with single underscores between them: `[a-z0-9]+(_[a-z0-9]+)*`. -/
def snakeForm : Language Char := snakeWord * ({['_']} * snakeWord)∗

/-- Words in small letters make a snake name. -/
theorem joinWith_mem_snakeForm {w : List Char} {ws : List (List Char)}
    (h : ∀ v ∈ w :: ws, v ∈ snakeWord) : joinWith ['_'] (w :: ws) ∈ snakeForm := by
  obtain ⟨hw, hws⟩ := List.forall_mem_cons.mp h
  rw [joinWith_cons, List.flatMap_def]
  refine Language.append_mem_mul hw (Language.join_mem_kstar (List.forall_mem_map.mpr ?_))
  exact fun v hv => Language.append_mem_mul (Set.mem_singleton ['_']) (hws v hv)

theorem isSnakeChar_plainLower {c : Char} (h : isPlainAlnum c = true) :
    isSnakeChar (plainLower c) = true :=
  forall_isPlainAlnum (p := fun c => isSnakeChar (plainLower c) = true) (by decide) h

theorem isPlainAlnum_of_isSnakeChar {c : Char} (h : isSnakeChar c = true) :
    isPlainAlnum c = true := by
  rw [isSnakeChar, Bool.or_eq_true] at h
  rw [isPlainAlnum, isPlainLetter, Bool.or_eq_true, Bool.or_eq_true]
  exact h.imp_left .inr

theorem isUpperLetter_of_isSnakeChar {c : Char} (h : isSnakeChar c = true) :
    isUpperLetter c = false :=
  forall_isPlainAlnum (p := fun c => isSnakeChar c = true → isUpperLetter c = false) (by decide)
    (isPlainAlnum_of_isSnakeChar h) h

theorem mem_snakeWord_of_mem_split {joined : Char → Char → Option Char → Bool} {s : String}
    {w : List Char} (h : w ∈ split joined s) : w ∈ snakeWord := by
  obtain ⟨g, rfl, hne, hplain⟩ := exists_of_mem_split h
  refine ⟨mt List.map_eq_nil_iff.mp hne, List.forall_mem_map.mpr fun c hc => ?_⟩
  exact isSnakeChar_plainLower (hplain c hc)

/-- A word is one group: no capital parts it. -/
theorem groups_of_mem_snakeWord {w : List Char} (h : w ∈ snakeWord) :
    groups joinedInSnake w = [w] := by
  obtain ⟨hne, hw⟩ := h
  induction w with
  | nil => exact absurd rfl hne
  | cons c w ih =>
    cases w with
    | nil => rfl
    | cons d w =>
      obtain ⟨hc, hw⟩ := List.forall_mem_cons.mp hw
      have hd := isUpperLetter_of_isSnakeChar (hw d List.mem_cons_self)
      have hjoined : joinedInSnake c d w.head? = true := by
        rw [joinedInSnake_eq (isPlainAlnum_of_isSnakeChar hc) (by rw [hd, Bool.and_false]), hd]
        rfl
      rw [groups, ih (List.cons_ne_nil d w) hw]
      exact if_pos hjoined

theorem map_plainLower_of_mem_snakeWord {w : List Char} (h : w ∈ snakeWord) :
    w.map plainLower = w :=
  (List.map_congr_left fun c hc =>
    plainLower_of_not_upper (isUpperLetter_of_isSnakeChar (h.2 c hc))).trans (List.map_id' w)

/-- The runs of words with underscores between them are the words. -/
theorem runs_joinWith {ws : List (List Char)} (h : ∀ w ∈ ws, w ∈ snakeWord) :
    runs (joinWith ['_'] ws) = ws := by
  have hplain {w : List Char} (hw : w ∈ ws) {c : Char} (hc : c ∈ w) : isPlainAlnum c = true :=
    isPlainAlnum_of_isSnakeChar ((h w hw).2 c hc)
  have hwords : ws.map (·.map fun c => if isPlainAlnum c then c else ' ') = ws := by
    refine (List.map_congr_left fun w hw => ?_).trans (List.map_id' ws)
    exact (List.map_congr_left fun c hc => if_pos (hplain hw hc)).trans (List.map_id' w)
  have hsep : ['_'].map (fun c => if isPlainAlnum c then c else ' ') = [' '] := by decide
  rw [runs, map_joinWith, hwords, hsep]
  cases ws with
  | nil => rfl
  | cons w ws =>
    rw [pieces_joinWith (List.cons_ne_nil w ws) fun v hv hblank =>
      absurd (hplain hv hblank) (by decide)]
    exact List.filter_eq_self.mpr fun v hv => decide_eq_true (h v hv).1

/-- **Snake case.**  A name in snake case is empty or consists of words with single underscores
between them; it is its own snake case; and without its underscores it is the ASCII letters and
digits of what it was made from, in small letters. -/
theorem snake_normal (s : String) :
    (snake s = "" ∨ (snake s).toList ∈ snakeForm) ∧ snake (snake s) = snake s ∧
      (snake s).toList.filter (· ≠ '_') = (s.toList.filter isPlainAlnum).map plainLower := by
  have hwords : ∀ w ∈ split joinedInSnake s, w ∈ snakeWord := fun w => mem_snakeWord_of_mem_split
  have htoList : (snake s).toList = joinWith ['_'] (split joinedInSnake s) :=
    String.toList_ofList
  refine ⟨?_, ?_, ?_⟩
  · rw [snake]
    cases hsplit : split joinedInSnake s with
    | nil => exact .inl rfl
    | cons w ws =>
      rw [String.toList_ofList]
      exact .inr (joinWith_mem_snakeForm (hsplit ▸ hwords))
  · -- the words are found again, and each is one group
    have hgroups : (split joinedInSnake s).flatMap (groups joinedInSnake) =
        split joinedInSnake s := by
      rw [List.flatMap_congr fun w hw => groups_of_mem_snakeWord (hwords w hw)]
      exact List.flatMap_singleton' _
    have hlower : (split joinedInSnake s).map (·.map plainLower) = split joinedInSnake s :=
      (List.map_congr_left fun w hw => map_plainLower_of_mem_snakeWord (hwords w hw)).trans
        (List.map_id' _)
    rw [snake, split, htoList, runs_joinWith hwords, hgroups, hlower]
    rfl
  · have hunscored : ∀ w ∈ split joinedInSnake s, w.filter (· ≠ '_') = w := fun w hw =>
      List.filter_eq_self.mpr fun c hc => decide_eq_true fun hscore =>
        absurd ((hwords w hw).2 c hc) (hscore ▸ by decide)
    rw [htoList, filter_joinWith (by decide), List.flatMap_congr hunscored,
      ← flatten_split joinedInSnake, List.flatMap_id']

end Form

/-! ## Neighbours in a group -/

section Groups

variable {joined : Char → Char → Option Char → Bool} {c : Char} {cs g : List Char}
  {gs : List (List Char)}

theorem head?_of_groups_cons (h : groups joined (c :: cs) = g :: gs) : g.head? = some c := by
  have hne : g ≠ [] := ne_nil_of_mem_groups (h ▸ List.mem_cons_self)
  obtain ⟨d, ds, rfl⟩ := List.exists_cons_of_ne_nil hne
  have hflatten := flatten_groups joined (c :: cs)
  rw [h] at hflatten
  exact congrArg some (List.cons.inj hflatten).1

/-- Neighbours in a group are joined. -/
theorem isChain_of_mem_groups (h : g ∈ groups joined cs) :
    g.IsChain fun c d => ∃ next, joined c d next = true := by
  fun_induction groups joined cs generalizing g with
  | case1 => exact absurd h List.not_mem_nil
  | case2 c =>
    rw [List.mem_singleton.mp h]
    exact .singleton c
  | case3 c d cs hgroups ih =>
    rw [List.mem_singleton.mp h]
    exact .singleton c
  | case4 c d cs first rest hgroups hjoined ih =>
    obtain rfl | h := List.mem_cons.mp h
    · refine List.isChain_cons.mpr ⟨fun e he => ?_, ih (hgroups ▸ List.mem_cons_self)⟩
      rw [head?_of_groups_cons hgroups] at he
      cases he
      exact ⟨cs.head?, hjoined⟩
    · exact ih (hgroups ▸ List.mem_cons_of_mem first h)
  | case5 c d cs first rest hgroups hjoined ih =>
    obtain rfl | h := List.mem_cons.mp h
    · exact .singleton c
    · exact ih (hgroups ▸ h)

end Groups

/-! ## Words -/

theorem isPlainDigit_eq_of_joinedInWord {c d : Char} {next : Option Char}
    (h : joinedInWord c d next = true) : isPlainDigit c = isPlainDigit d :=
  beq_iff_eq.mp (Bool.and_eq_true_iff.mp h).2

/-- A group of a word does not mix letters and digits. -/
theorem isPlainDigit_eq_of_mem_groups {c : Char} {cs g : List Char}
    (h : c :: g ∈ groups joinedInWord cs) : ∀ d ∈ g, isPlainDigit d = isPlainDigit c := by
  have hchain : (c :: g).IsChain fun c d => isPlainDigit c = isPlainDigit d :=
    (isChain_of_mem_groups h).imp fun _ _ ⟨_, hjoined⟩ => isPlainDigit_eq_of_joinedInWord hjoined
  have : IsTrans Char fun c d => isPlainDigit c = isPlainDigit d := ⟨fun _ _ _ => Eq.trans⟩
  exact fun d hd => ((List.pairwise_cons.mp hchain.pairwise).1 d hd).symm

theorem isPlainDigit_plainLower {c : Char} (hplain : isPlainAlnum c = true)
    (hdigit : isPlainDigit c = true) : isPlainDigit (plainLower c) = true :=
  forall_isPlainAlnum (p := fun c => isPlainDigit c = true → isPlainDigit (plainLower c) = true)
    (by decide) hplain hdigit

theorem isLowerLetter_plainLower {c : Char} (hplain : isPlainAlnum c = true)
    (hdigit : isPlainDigit c = false) : isLowerLetter (plainLower c) = true :=
  forall_isPlainAlnum (p := fun c => isPlainDigit c = false → isLowerLetter (plainLower c) = true)
    (by decide) hplain hdigit

/-- A word is made of small letters or of digits. -/
theorem letters_or_digits_of_mem_words {s : String} {w : List Char} (h : w ∈ words s) :
    (∀ c ∈ w, isLowerLetter c = true) ∨ ∀ c ∈ w, isPlainDigit c = true := by
  obtain ⟨g, hg, rfl⟩ := List.mem_map.mp h
  obtain ⟨r, hr, hg⟩ := List.mem_flatMap.mp hg
  have hplain : ∀ c ∈ g, isPlainAlnum c = true := fun c hc => isPlainAlnum_of_mem_runs hr c <| by
    rw [← flatten_groups joinedInWord r]
    exact List.mem_flatten.mpr ⟨g, hg, hc⟩
  obtain ⟨c, g, rfl⟩ := List.exists_cons_of_ne_nil (ne_nil_of_mem_groups hg)
  have hsame : ∀ d ∈ c :: g, isPlainDigit d = isPlainDigit c :=
    List.forall_mem_cons.mpr ⟨rfl, isPlainDigit_eq_of_mem_groups hg⟩
  cases hc : isPlainDigit c with
  | false =>
    refine .inl (List.forall_mem_map.mpr fun d hd => ?_)
    exact isLowerLetter_plainLower (hplain d hd) ((hsame d hd).trans hc)
  | true =>
    refine .inr (List.forall_mem_map.mpr fun d hd => ?_)
    exact isPlainDigit_plainLower (hplain d hd) ((hsame d hd).trans hc)

/-! ## Styles -/

/-- The ASCII letters and digits of a text, in small letters. -/
def lettersAndDigits (s : String) : List Char := (s.toList.filter isPlainAlnum).map plainLower

theorem plainLower_plainUpper {c : Char} (h : isSnakeChar c = true) :
    plainLower (plainUpper c) = c :=
  forall_isPlainAlnum (p := fun c => isSnakeChar c = true → plainLower (plainUpper c) = c)
    (by decide) (isPlainAlnum_of_isSnakeChar h) h

/-- Only the case of a letter tells a word from one with a capital. -/
theorem map_plainLower_capitalized {w : List Char} (h : w ∈ snakeWord) :
    (capitalized w).map plainLower = w := by
  cases w with
  | nil => rfl
  | cons c w =>
    have hrest := (List.cons.inj (map_plainLower_of_mem_snakeWord h)).2
    rw [capitalized, List.map_cons, plainLower_plainUpper (h.2 c List.mem_cons_self), hrest]

theorem map_plainLower_flatMap_capitalized {ws : List (List Char)} (h : ∀ w ∈ ws, w ∈ snakeWord) :
    (ws.flatMap capitalized).map plainLower = ws.flatten := by
  rw [List.map_flatMap, List.flatMap_congr fun w hw => map_plainLower_capitalized (h w hw),
    List.flatMap_id']

/-- A camel name in small letters is its words. -/
theorem map_plainLower_camel (s : String) :
    (camel s).toList.map plainLower = (words s).flatten := by
  have hwords : ∀ w ∈ words s, w ∈ snakeWord := fun w => mem_snakeWord_of_mem_split
  rw [camel]
  cases hs : words s with
  | nil => rfl
  | cons w ws =>
    obtain ⟨hw, hws⟩ := List.forall_mem_cons.mp (hs ▸ hwords)
    rw [String.toList_ofList, List.map_append, map_plainLower_of_mem_snakeWord hw,
      map_plainLower_flatMap_capitalized hws, List.flatten_cons]

/-- A kebab name without dashes is its words. -/
theorem filter_kebab (s : String) : (kebab s).toList.filter (· ≠ '-') = (words s).flatten := by
  have hplain : ∀ w ∈ words s, w.filter (· ≠ '-') = w := fun w hw =>
    List.filter_eq_self.mpr fun c hc => decide_eq_true fun hhyphen =>
      absurd (isPlainAlnum_of_mem_split hw c hc) (hhyphen ▸ by decide)
  rw [kebab, String.toList_ofList, filter_joinWith (by decide), List.flatMap_congr hplain,
    List.flatMap_id']

/-- **Splitting into words loses and doubles nothing.**  The words of a name make up its ASCII
letters and digits, in small letters; each is made of letters or of digits; and every style spells
the same letters and digits, up to their case and to the hyphens. -/
theorem words_normal (s : String) :
    (words s).flatten = lettersAndDigits s ∧
      (∀ w ∈ words s, w ≠ [] ∧
        ((∀ c ∈ w, isLowerLetter c = true) ∨ ∀ c ∈ w, isPlainDigit c = true)) ∧
      (pascal s).toList.map plainLower = lettersAndDigits s ∧
      (camel s).toList.map plainLower = lettersAndDigits s ∧
      (kebab s).toList.filter (· ≠ '-') = lettersAndDigits s := by
  have hflatten : (words s).flatten = lettersAndDigits s := flatten_split joinedInWord s
  have hwords : ∀ w ∈ words s, w ∈ snakeWord := fun w => mem_snakeWord_of_mem_split
  refine ⟨hflatten, fun w hw => ⟨(hwords w hw).1, letters_or_digits_of_mem_words hw⟩, ?_, ?_, ?_⟩
  · rw [pascal, String.toList_ofList, map_plainLower_flatMap_capitalized hwords, hflatten]
  · rw [map_plainLower_camel, hflatten]
  · rw [filter_kebab, hflatten]

example : words "parseHTTP2Date" = ["parse".toList, "http".toList, ['2'], "date".toList] := by cbv

end Scaffold.Naming
