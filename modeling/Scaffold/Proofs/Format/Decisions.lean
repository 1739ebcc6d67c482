import Scaffold.Proofs.Format.Literals
import Scaffold.Proofs.Text.Lines

/-!
# Proofs/Format/Decisions — what the formatter reads off a line of code

How far a line of code is indented, which brackets it opens and closes, and whether it gets a
semicolon or a comma is decided on its painted text.  None of this depends on the kind of its
quotes, and a semicolon or a comma that has been put behind the line makes no difference but one:
nothing is put there again (`ending_respelled`).
-/

namespace Scaffold.Format

open Text

/-! ## Up to the kind of quotes -/

theorem blur_eq_iff {c d : Char} (hd : isQuote d = false) : blur c = d ↔ c = d := by
  by_cases hc : c = '\''
  · subst hc
    constructor <;> (rintro rfl; exact Bool.noConfusion hd)
  · rw [blur, if_neg hc]

@[simp] theorem isOpener_blur (c : Char) : isOpener (blur c) = isOpener c := apply_blur rfl c

@[simp] theorem isCloser_blur (c : Char) : isCloser (blur c) = isCloser c := apply_blur rfl c

@[simp] theorem isBlank_blur (c : Char) : isBlank (blur c) = isBlank c := apply_blur (by decide) c

@[simp] theorem isWord_blur (c : Char) : isWord (blur c) = isWord c := apply_blur (by decide) c

theorem blur_of_isOpener {c : Char} (h : isOpener c = true) : blur c = c :=
  if_neg (by rintro rfl; exact Bool.noConfusion h)

/-- A word without quotes is found in a blurred text where it is found in the text. -/
theorem afterWord?_blur {word : List Char} (h : ∀ c ∈ word, isQuote c = false) (cs : List Char) :
    afterWord? word (cs.map blur) = (afterWord? word cs).map (·.map blur) := by
  induction word generalizing cs with
  | nil => rfl
  | cons w word ih =>
    obtain ⟨hw, hword⟩ := List.forall_mem_cons.mp h
    cases cs with
    | nil => rfl
    | cons c cs =>
      rw [List.map_cons, afterWord?, afterWord?, ih hword]
      have hiff : w = blur c ↔ w = c := by rw [eq_comm, blur_eq_iff hw, eq_comm]
      simp only [hiff]
      split <;> rfl

theorem startsWith_blur {word : List Char} (h : ∀ c ∈ word, isQuote c = false) (cs : List Char) :
    startsWith word (cs.map blur) = startsWith word cs := by
  rw [startsWith, afterWord?_blur h, Option.isSome_map, startsWith]

/-- The same at the beginning of a line, -/
theorem startsWithWord_blur {word : List Char} (h : ∀ c ∈ word, isQuote c = false)
    (code : List Char) : startsWithWord word (code.map blur) = startsWithWord word code := by
  rw [startsWithWord, afterWord?_blur h, startsWithWord]
  cases afterWord? word code with
  | none => rfl
  | some rest =>
    cases rest with
    | nil => rfl
    | cons c cs => simp

/-- and at its end. -/
theorem endsInWord_blur {word : List Char} (h : ∀ c ∈ word, isQuote c = false)
    (before : List Char) : endsInWord word (before.map blur) = endsInWord word before := by
  rw [endsInWord, afterWord?_blur fun c hc => h c (List.mem_reverse.mp hc), endsInWord]
  cases afterWord? word.reverse before with
  | none => rfl
  | some rest =>
    cases rest with
    | nil => rfl
    | cons c cs => simp

theorem endsStatement_blur (code : List Char) : endsStatement (code.map blur) = endsStatement code := by
  rw [endsStatement, List.getLast?_map, endsStatement]
  cases code.getLast? with
  | none => rfl
  | some c =>
    exact apply_blur (f := fun c => isWord c || isQuote c || c == ')' || c == ']') (by decide) c

theorem endsItem_blur (code : List Char) : endsItem (code.map blur) = endsItem code := by
  rw [endsItem, endsStatement_blur, List.getLast?_map, endsItem]
  cases code.getLast? with
  | none => rfl
  | some c => exact congrArg (endsStatement code || ·) (apply_blur (f := (some · == some '}')) rfl c)

theorem isBalanced_blur (code : List Char) : isBalanced (code.map blur) = isBalanced code := by
  have hopener : isOpener ∘ blur = isOpener := funext isOpener_blur
  have hcloser : isCloser ∘ blur = isCloser := funext isCloser_blur
  rw [isBalanced, List.countP_map, List.countP_map, hopener, hcloser, isBalanced]

/-- The characters that an object opens behind. -/
theorem opensObject_eq (before : List Char) :
    opensObject before =
      let rest := before.dropWhile isBlank
      !startsWith ['>', '='] rest &&
        (rest.head?.any (['=', '(', ',', ':', '[', '?', '&', '|'].contains ·) ||
          endsInWord "return".toList rest || endsInWord "default".toList rest) := by
  rw [opensObject]
  split
  · rename_i hrest
    rw [hrest]
    rfl
  · rename_i hrest
    rw [hrest]
    rfl
  · rename_i c cs hnot hrest
    have harrow : startsWith ['>', '='] (c :: cs) = false := by
      cases cs with
      | nil => by_cases hc : '>' = c <;> simp [startsWith, afterWord?, hc]
      | cons d ds =>
        by_cases hc : '>' = c
        · have hd : '=' ≠ d := by
            rintro rfl
            exact hnot ds hc.symm rfl
          simp [startsWith, afterWord?, hd]
        · simp [startsWith, afterWord?, hc]
    simp only [hrest, harrow, Bool.not_false, Bool.true_and]
    rfl

/-- Whether a brace opens an object does not depend on quotes. -/
theorem opensObject_blur (before : List Char) :
    opensObject (before.map blur) = opensObject before := by
  have hblank : isBlank ∘ blur = isBlank := funext isBlank_blur
  have hhead (rest : List Char) :
      (rest.map blur).head?.any (['=', '(', ',', ':', '[', '?', '&', '|'].contains ·) =
        rest.head?.any (['=', '(', ',', ':', '[', '?', '&', '|'].contains ·) := by
    cases rest with
    | nil => rfl
    | cons c cs => exact apply_blur (f := (['=', '(', ',', ':', '[', '?', '&', '|'].contains ·)) rfl c
  simp (disch := decide) only [opensObject_eq, List.dropWhile_map, hblank, hhead, startsWith_blur,
    endsInWord_blur]

/-- The closers at the beginning of a line do not depend on quotes. -/
theorem leadingClosers_blur (stack : List Open) (code : List Char) :
    leadingClosers stack (code.map blur) =
      ((leadingClosers stack code).1, (leadingClosers stack code).2.1,
        (leadingClosers stack code).2.2.map blur) := by
  fun_induction leadingClosers stack code with
  | case1 stack => rfl
  | case2 c cs hc ih =>
    simp only [List.map_cons, leadingClosers, isCloser_blur, if_pos hc]
    exact ih
  | case3 c cs hc o stack left closed rest heq ih =>
    simp only [List.map_cons, leadingClosers, isCloser_blur, if_pos hc, ih, heq]
  | case4 stack c cs hc =>
    simp only [List.map_cons, leadingClosers, isCloser_blur, if_neg hc]

/-- Nor does what a line leaves open. -/
theorem through_blur (stack : List Open) (opened : Nat) (before rest : List Char) :
    through stack opened (before.map blur) (rest.map blur) = through stack opened before rest := by
  induction rest generalizing stack opened before with
  | nil => rfl
  | cons c cs ih =>
    have hbefore : blur c :: before.map blur = (c :: before).map blur := rfl
    rw [List.map_cons, through, through, isOpener_blur, isCloser_blur, hbefore]
    split
    · rename_i hc
      simp only [ih, opensObject_blur, blur_of_isOpener hc]
    · split
      · exact ih ..
      · exact ih ..

theorem turn_blur (stack : List Open) (code : List Char) :
    turn stack (code.map blur) = turn stack code := by
  simp only [turn, leadingClosers_blur, List.length_map, ← List.map_take, ← List.map_reverse,
    through_blur]

/-- The margin is the indentation, and a bit more for a chained call or the inside of a comment. -/
theorem margin_eq (unit : List Char) (level : Nat) (code : List Char) :
    margin unit level code = (List.replicate level unit).flatten ++
      if startsWith ['.'] code then unit
      else if startsWith ['*'] code && !startsWith ['*', '/'] code then [' '] else [] := by
  unfold margin
  split
  · rfl
  · exact (List.append_nil _).symm
  · rename_i cs hnot
    have hend : startsWith ['*', '/'] ('*' :: cs) = false := by
      cases cs with
      | nil => rfl
      | cons d ds =>
        have hd : '/' ≠ d := by
          rintro rfl
          exact hnot ds rfl
        simp [startsWith, afterWord?, hd]
    rw [hend]
    rfl
  · rename_i hpoint hend hstar
    have hneither : startsWith ['.'] code = false ∧ startsWith ['*'] code = false := by
      cases code with
      | nil => exact ⟨rfl, rfl⟩
      | cons c cs =>
        have hc : '.' ≠ c ∧ '*' ≠ c :=
          ⟨by rintro rfl; exact hpoint cs rfl, by rintro rfl; exact hstar cs rfl⟩
        simp [startsWith, afterWord?, hc]
    rw [hneither.1, hneither.2]
    exact (List.append_nil _).symm

/-! ## With an ending -/

section Append

variable {t : Char}

/-- What is put behind a line is no closer at its beginning. -/
theorem leadingClosers_append (ht : isCloser t = false) (stack : List Open) (code : List Char) :
    leadingClosers stack (code ++ [t]) =
      ((leadingClosers stack code).1, (leadingClosers stack code).2.1,
        (leadingClosers stack code).2.2 ++ [t]) := by
  fun_induction leadingClosers stack code with
  | case1 stack => simp [leadingClosers, ht]
  | case2 c cs hc ih =>
    simp only [List.cons_append, leadingClosers, if_pos hc]
    exact ih
  | case3 c cs hc o stack left closed rest heq ih =>
    simp only [List.cons_append, leadingClosers, if_pos hc, ih, heq]
  | case4 stack c cs hc => simp only [List.cons_append, leadingClosers, if_neg hc]

/-- Behind the closers no more is left than there was. -/
theorem length_leadingClosers_le (stack : List Open) (code : List Char) :
    (leadingClosers stack code).2.2.length ≤ code.length := by
  fun_induction leadingClosers stack code with
  | case1 stack => exact Nat.le_refl 0
  | case2 c cs hc ih => exact Nat.le_succ_of_le ih
  | case3 c cs hc o stack left closed rest heq ih =>
    rw [heq] at ih
    exact Nat.le_succ_of_le ih
  | case4 stack c cs hc => exact Nat.le_refl _

/-- A character that is no bracket changes nothing of what a line leaves open. -/
theorem through_append (hopener : isOpener t = false) (hcloser : isCloser t = false)
    (stack : List Open) (opened : Nat) (before rest : List Char) :
    through stack opened before (rest ++ [t]) = through stack opened before rest := by
  fun_induction through stack opened before rest with
  | case1 stack opened before => simp [through, hopener, hcloser]
  | case2 stack opened before c cs hc o ih =>
    rw [List.cons_append, through, if_pos hc]
    exact ih
  | case3 stack opened before c cs hc hcloser ih =>
    rw [List.cons_append, through, if_neg hc, if_pos hcloser, ih]
  | case4 stack opened before c cs hc hcloser ih =>
    rw [List.cons_append, through, if_neg hc, if_neg hcloser, ih]

/-- So it changes no turn of the stack. -/
theorem turn_append (hopener : isOpener t = false) (hcloser : isCloser t = false)
    (stack : List Open) (code : List Char) : turn stack (code ++ [t]) = turn stack code := by
  have hle := length_leadingClosers_le stack code
  have htake : (code ++ [t]).take
      ((code ++ [t]).length - ((leadingClosers stack code).2.2 ++ [t]).length) =
      code.take (code.length - (leadingClosers stack code).2.2.length) := by
    rw [List.length_append, List.length_append, Nat.add_sub_add_right,
      List.take_append_of_le_length (Nat.sub_le _ _)]
  simp only [turn, leadingClosers_append hcloser, htake, through_append hopener hcloser]

theorem startsWith_append {word : List Char} (h : t ∉ word) (code : List Char) :
    startsWith word (code ++ [t]) = startsWith word code := by
  rw [startsWith, afterWord?_append h, Option.isSome_map, startsWith]

end Append

/-- What the formatter may put behind a line of code. -/
def IsEnding (e : List Char) : Prop := e = [] ∨ e = [';'] ∨ e = [',']

/-- The second code is the first, with other quotes and an ending. -/
def Respelled (code code' : List Char) : Prop :=
  ∃ e, IsEnding e ∧ code'.map blur = code.map blur ++ e

namespace Respelled

variable {code code' : List Char} (h : Respelled code code')
include h

theorem turn (stack : List Open) : Format.turn stack code' = Format.turn stack code := by
  obtain ⟨e, rfl | rfl | rfl, heq⟩ := h <;> rw [← turn_blur, heq]
  · rw [List.append_nil, turn_blur]
  · rw [turn_append rfl rfl, turn_blur]
  · rw [turn_append rfl rfl, turn_blur]

theorem startsWith {word : List Char} (hquote : ∀ c ∈ word, isQuote c = false)
    (hsemicolon : ';' ∉ word) (hcomma : ',' ∉ word) :
    Text.startsWith word code' = Text.startsWith word code := by
  obtain ⟨e, rfl | rfl | rfl, heq⟩ := h <;> rw [← startsWith_blur hquote, heq]
  · rw [List.append_nil, startsWith_blur hquote]
  · rw [startsWith_append hsemicolon, startsWith_blur hquote]
  · rw [startsWith_append hcomma, startsWith_blur hquote]

theorem margin (unit : List Char) (level : Nat) :
    Format.margin unit level code' = Format.margin unit level code := by
  simp (disch := decide) only [margin_eq, h.startsWith]

end Respelled

/-! ## The ending of a line -/

/-- The code is a statement that lacks its semicolon, in view of the next line of code. -/
def wantsSemicolon (code : List Char) (next : Option (List Char)) : Bool :=
  statementWords.any (startsWithWord · code) && endsStatement code && isBalanced code &&
    !next.any fun n => continuations.any (startsWith · n)

/-- The code is the last item of a literal that the next line of code closes. -/
def wantsComma (after : List Open) (code : List Char) (next : Option (List Char)) : Bool :=
  after.head?.any fun o =>
    o.isLiteral && endsItem code && (next.bind fun n => (turn after n).2.1.head?) == some o.bracket

/-- What is put behind a line of code, in view of the brackets that are open after it and of the
next line of code. -/
def ending (after : List Open) (code : List Char) (next : Option (List Char)) : List Char :=
  if wantsSemicolon code next then [';'] else if wantsComma after code next then [','] else []

/-- What is decided about the end of a line is one of the endings. -/
theorem isEnding_ending (after : List Open) (code : List Char) (next : Option (List Char)) :
    IsEnding (ending after code next) := by
  rw [ending]
  split
  · exact .inr (.inl rfl)
  · split
    · exact .inr (.inr rfl)
    · exact .inl rfl

/-- Code that has an ending ends neither a statement nor an item. -/
theorem ending_eq_nil {after : List Open} {code : List Char} {next : Option (List Char)}
    (h : endsItem code = false) : ending after code next = [] := by
  have hstatement : endsStatement code = false := (Bool.or_eq_false_iff.mp h).1
  have hcomma : wantsComma after code next = false := by
    rw [wantsComma]
    cases after.head? with
    | none => rfl
    | some o => simp [h]
  rw [ending, wantsSemicolon, hstatement, hcomma]
  simp

section Congr

variable {code code' : List Char} {next next' : Option (List Char)}
  (h : code'.map blur = code.map blur) (hnext : Option.Rel Respelled next next')
include h hnext

/-- Whether a semicolon is wanted only depends on how the code ends and the next begins. -/
theorem wantsSemicolon_congr : wantsSemicolon code' next' = wantsSemicolon code next := by
  have hwords : statementWords.any (startsWithWord · code') =
      statementWords.any (startsWithWord · code) := by
    have hplain : ∀ w ∈ statementWords, ∀ c ∈ w, isQuote c = false := by decide
    rw [Bool.eq_iff_iff, List.any_eq_true, List.any_eq_true]
    refine exists_congr fun w => and_congr_right fun hw => ?_
    rw [← startsWithWord_blur (hplain w hw), h, startsWithWord_blur (hplain w hw)]
  have hcontinued : (next'.any fun n => continuations.any (startsWith · n)) =
      next.any fun n => continuations.any (startsWith · n) := by
    have hplain : ∀ w ∈ continuations, (∀ c ∈ w, isQuote c = false) ∧ ';' ∉ w ∧ ',' ∉ w := by decide
    cases hnext with
    | none => rfl
    | some hn =>
      rw [Option.any_some, Option.any_some, Bool.eq_iff_iff, List.any_eq_true, List.any_eq_true]
      refine exists_congr fun w => and_congr_right fun hw => ?_
      obtain ⟨hquote, hsemicolon, hcomma⟩ := hplain w hw
      rw [hn.startsWith hquote hsemicolon hcomma]
  rw [wantsSemicolon, hwords, ← endsStatement_blur, ← isBalanced_blur code', h, endsStatement_blur,
    isBalanced_blur, hcontinued, wantsSemicolon]

/-- So does whether a comma is wanted. -/
theorem wantsComma_congr (after : List Open) :
    wantsComma after code' next' = wantsComma after code next := by
  have hcloses : (next'.bind fun n => (turn after n).2.1.head?) =
      next.bind fun n => (turn after n).2.1.head? := by
    cases hnext with
    | none => rfl
    | some hn => simp only [Option.bind_some, hn.turn]
  rw [wantsComma, hcloses, ← endsItem_blur code', h, endsItem_blur, wantsComma]

end Congr

/-- **Behind a line that has its ending nothing is put.** -/
theorem ending_respelled {after : List Open} {code code' : List Char}
    {next next' : Option (List Char)}
    (h : code'.map blur = code.map blur ++ ending after code next)
    (hnext : Option.Rel Respelled next next') : ending after code' next' = [] := by
  have hended {t : Char} (ht : endsItem [t] = false) (heq : code'.map blur = code.map blur ++ [t]) :
      endsItem code' = false := by
    rw [← endsItem_blur, heq]
    simpa [endsItem, endsStatement] using ht
  by_cases hsemicolon : wantsSemicolon code next = true
  · rw [ending, if_pos hsemicolon] at h
    exact ending_eq_nil (hended (by decide) h)
  · by_cases hcomma : wantsComma after code next = true
    · rw [ending, if_neg hsemicolon, if_pos hcomma] at h
      exact ending_eq_nil (hended (by decide) h)
    · rw [ending, if_neg hsemicolon, if_neg hcomma, List.append_nil] at h
      rw [ending, wantsSemicolon_congr h hnext, wantsComma_congr h hnext, if_neg hsemicolon,
        if_neg hcomma]

end Scaffold.Format
