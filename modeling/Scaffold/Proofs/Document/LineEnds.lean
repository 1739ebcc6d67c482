import Scaffold.Proofs.Document.Readings

/-!
# Proofs/Document/LineEnds — line ends do not matter to a document

A carriage return stands between the parts of a document or makes the text none, so dropping it
before a line feed changes neither what is read nor which fault is found: the reader takes the two
texts in step (`Unified`), from their code units to their values (`unified_read`).
-/

namespace Scaffold.Document.Json

open Number Text

/-- What was read of two texts, the second with its line ends unified: the same value with the same
text left, or the same fault. -/
inductive Unified {α : Type} : Read α → Read α → Prop
  | ok (a : α) (rest : List Char) : Unified (.ok (a, rest)) (.ok (a, unifyLineEnds rest))
  | error {f g : Failure} (h : f.fault = g.fault) : Unified (.error f) (.error g)

theorem Unified.map {α β : Type} {x y : Read α} (h : Unified x y) (f : α → β) :
    Unified (x.map fun (a, r) => (f a, r)) (y.map fun (a, r) => (f a, r)) := by
  cases h with
  | ok a rest => exact .ok (f a) rest
  | error h => exact .error h

theorem Unified.bind {α β : Type} {x y : Read α} (h : Unified x y) {f g : α × List Char → Read β}
    (hf : ∀ a r, Unified (f (a, r)) (g (a, unifyLineEnds r))) :
    Unified (x.bind f) (y.bind g) := by
  cases h with
  | ok a rest => exact hf a rest
  | error h => exact .error h

/-! ## White space, brackets, colons and commas -/

theorem skipSpace_unifyLineEnds (cs : List Char) :
    skipSpace (unifyLineEnds cs) = unifyLineEnds (skipSpace cs) :=
  dropWhile_unifyLineEnds rfl cs

/-- Behind white space the two texts start alike. -/
theorem skipSpace_cases (cs : List Char) :
    (skipSpace cs = [] ∧ skipSpace (unifyLineEnds cs) = []) ∨
      ∃ c r, skipSpace cs = c :: r ∧ skipSpace (unifyLineEnds cs) = c :: unifyLineEnds r := by
  rw [skipSpace_unifyLineEnds]
  cases hskip : skipSpace cs with
  | nil => exact .inl ⟨rfl, rfl⟩
  | cons c r =>
    have hc : c ≠ '\r' := by
      rintro rfl
      have hhead := List.head?_dropWhile_not isSpace cs
      rw [← skipSpace, hskip] at hhead
      cases hhead
    exact .inr ⟨c, r, rfl, unifyLineEnds_cons hc r⟩

section Parts

variable {α : Type} {closer : Char} {empty last : α} {more : List Char → Read α}
  (hmore : ∀ r, Unified (more r) (more (unifyLineEnds r))) (cs : List Char)

include hmore

/-- Behind an opening bracket. -/
theorem unified_readInside :
    Unified (readInside closer empty more cs) (readInside closer empty more (unifyLineEnds cs)) := by
  have hrest := hmore (skipSpace cs)
  rw [← skipSpace_unifyLineEnds] at hrest
  rw [readInside, readInside]
  obtain ⟨hskip, hskip'⟩ | ⟨c, r, hskip, hskip'⟩ := skipSpace_cases cs
  · rw [hskip, hskip'] at hrest ⊢
    exact hrest
  · rw [hskip, hskip'] at hrest ⊢
    dsimp only
    split
    · exact .ok empty r
    · exact hrest

/-- Behind an item. -/
theorem unified_readNext :
    Unified (readNext closer last more cs) (readNext closer last more (unifyLineEnds cs)) := by
  rw [readNext, readNext]
  obtain ⟨hskip, hskip'⟩ | ⟨c, r, hskip, hskip'⟩ := skipSpace_cases cs
  · rw [hskip, hskip']
    exact .error rfl
  · rw [hskip, hskip']
    dsimp only
    split
    · exact .ok last r
    split
    · rw [skipSpace_unifyLineEnds]
      exact hmore _
    · exact .error rfl

/-- Between a key and its value. -/
theorem unified_readColon : Unified (readColon more cs) (readColon more (unifyLineEnds cs)) := by
  rw [readColon, readColon]
  obtain ⟨hskip, hskip'⟩ | ⟨c, r, hskip, hskip'⟩ := skipSpace_cases cs
  · rw [hskip, hskip']
    exact .error rfl
  · rw [hskip, hskip']
    dsimp only
    split
    · rw [skipSpace_unifyLineEnds]
      exact hmore _
    · exact .error rfl

end Parts

/-! ## Texts -/

/-- The number of so many hexadecimal digits at the start of a text that goes on after them, behind
the digits of `n`. -/
def readHex : Nat → Nat → List Char → Option (Nat × List Char)
  | 0, _, [] => none
  | 0, n, c :: cs => some (n, c :: cs)
  | _ + 1, _, [] => none
  | k + 1, n, c :: cs => (hexValue? c).bind fun d => readHex k (n * 16 + d) cs

/-- Too few characters make no number. -/
theorem readHex_of_length_le {k : Nat} {cs : List Char} (h : cs.length ≤ k) (n : Nat) :
    readHex k n cs = none := by
  induction k generalizing cs n with
  | zero =>
    rw [List.length_eq_zero_iff.mp (Nat.le_zero.mp h)]
    rfl
  | succ k ih =>
    cases cs with
    | nil => rfl
    | cons c cs =>
      rw [readHex]
      cases hexValue? c with
      | none => rfl
      | some d => exact ih (Nat.le_of_succ_le_succ h) _

/-- Reading a number leaves no more than was there. -/
theorem length_of_readHex {k n m : Nat} {cs rest : List Char}
    (h : readHex k n cs = some (m, rest)) : rest.length ≤ cs.length := by
  induction k generalizing cs n with
  | zero =>
    cases cs with
    | nil => cases h
    | cons c cs =>
      cases h
      exact le_rfl
  | succ k ih =>
    cases cs with
    | nil => cases h
    | cons c cs =>
      obtain ⟨d, -, h⟩ := Option.bind_eq_some_iff.mp h
      exact (ih h).trans (Nat.le_succ _)

/-- A line end is no digit, so it stops a number in either form. -/
theorem readHex_unifyLineEnds (k n : Nat) (cs : List Char) :
    readHex k n (unifyLineEnds cs) = (readHex k n cs).map fun (m, r) => (m, unifyLineEnds r) := by
  induction k generalizing cs n with
  | zero =>
    obtain rfl | ⟨rest, rfl, hunified⟩ | ⟨c, rest, rfl, hunified⟩ := unifyLineEnds_cases cs
    · rfl
    · rw [hunified]
      exact congrArg (fun r => some (n, r)) hunified.symm
    · rw [hunified]
      exact congrArg (fun r => some (n, r)) hunified.symm
  | succ k ih =>
    obtain rfl | ⟨rest, rfl, hunified⟩ | ⟨c, rest, rfl, hunified⟩ := unifyLineEnds_cases cs
    · rfl
    · rw [hunified]
      rfl
    · rw [hunified, readHex, readHex]
      cases hexValue? c with
      | none => rfl
      | some d => exact ih (n * 16 + d) rest

/-- An escape with the number of a code unit. -/
theorem readUnits_readHex (start cs : List Char) :
    readUnits start ('\\' :: 'u' :: cs) =
      match readHex 4 0 cs with
      | none => .error ⟨.unicodeEscape, 'u' :: cs⟩
      | some (n, r) => (readUnits start r).map fun (ns, r) => (n :: ns, r) := by
  obtain _ | ⟨a, _ | ⟨b, _ | ⟨c, _ | ⟨d, _ | ⟨e, cs⟩⟩⟩⟩⟩ := cs
  · rfl
  · rw [readHex_of_length_le (by simp)]
    rfl
  · rw [readHex_of_length_le (by simp)]
    rfl
  · rw [readHex_of_length_le (by simp)]
    rfl
  · rw [readHex_of_length_le (by simp)]
    rfl
  · have hquad : readHex 4 0 (a :: b :: c :: d :: e :: cs) =
        (hexQuad? a b c d).map (·, e :: cs) := by
      simp [readHex, hexQuad?, Option.map_bind]
    rw [readUnits, hquad]
    cases hexQuad? a b c d <;> rfl

/-- A control character cannot stand in a text. -/
theorem readUnits_control (start : List Char) {c : Char} (hc : c.toNat ≤ 0x1f) (cs : List Char) :
    readUnits start (c :: cs) = .error ⟨.controlCharacter, c :: cs⟩ := by
  have hquote : c ≠ '"' := by
    rintro rfl
    exact absurd hc (by decide)
  have hslash : c ≠ '\\' := by
    rintro rfl
    exact absurd hc (by decide)
  rw [readUnits]
  · rw [if_pos hc]
  all_goals
    intros
    simp_all

theorem readUnits_unknown (start : List Char) {e : Char} (hu : e ≠ 'u') (he : escaped? e = none)
    (cs : List Char) : readUnits start ('\\' :: e :: cs) = .error ⟨.escape, '\\' :: e :: cs⟩ := by
  rw [readUnits]
  · rw [he]
  all_goals
    intros
    contradiction

/-- A carriage return that is dropped stands before a line feed, and neither may stand in a text. -/
theorem unified_readUnits_control (start start' : List Char) {c : Char} (hc : c.toNat ≤ 0x1f)
    (cs : List Char) :
    Unified (readUnits start (c :: cs)) (readUnits start' (unifyLineEnds (c :: cs))) := by
  obtain ⟨c', cs', hunified, hsame⟩ := exists_unifyLineEnds_cons c cs
  rw [hunified, readUnits_control start hc]
  obtain rfl | ⟨-, rfl⟩ := hsame
  · rw [readUnits_control start' hc]
    exact .error rfl
  · rw [readUnits_control start' (by decide)]
    exact .error rfl

/-- Neither of them is the letter of an escape. -/
theorem unified_readUnits_unknown (start start' : List Char) {e : Char} (hu : e ≠ 'u')
    (he : escaped? e = none) (cs : List Char) :
    Unified (readUnits start ('\\' :: e :: cs))
      (readUnits start' ('\\' :: unifyLineEnds (e :: cs))) := by
  obtain ⟨e', cs', hunified, hsame⟩ := exists_unifyLineEnds_cons e cs
  rw [hunified, readUnits_unknown start hu he]
  obtain rfl | ⟨-, rfl⟩ := hsame
  · rw [readUnits_unknown start' hu he]
    exact .error rfl
  · rw [readUnits_unknown start' (by decide) (by decide)]
    exact .error rfl

/-- The code units of a text are those of the text with its line ends unified. -/
theorem unified_readUnits (start start' cs : List Char) :
    Unified (readUnits start cs) (readUnits start' (unifyLineEnds cs)) := by
  induction h : cs.length using Nat.strong_induction_on generalizing cs with
  | _ n ih =>
    subst h
    obtain _ | ⟨c, cs⟩ := cs
    · exact .error rfl
    · by_cases hquote : c = '"'
      · subst hquote
        rw [unifyLineEnds_cons (by decide), readUnits, readUnits]
        exact .ok [] cs
      by_cases hslash : c = '\\'
      · subst hslash
        rw [unifyLineEnds_cons (by decide)]
        obtain _ | ⟨e, cs⟩ := cs
        · exact .error rfl
        by_cases hu : e = 'u'
        · subst hu
          rw [unifyLineEnds_cons (by decide), readUnits_readHex, readUnits_readHex,
            readHex_unifyLineEnds]
          cases hhex : readHex 4 0 cs with
          | none => exact .error rfl
          | some found =>
            have hlength := length_of_readHex hhex
            exact (ih _ (by simp only [List.length_cons]; omega) found.2 rfl).map _
        · cases he : escaped? e with
          | none => exact unified_readUnits_unknown start start' hu he cs
          | some x =>
            have hreturn : e ≠ '\r' := by
              rintro rfl
              cases he
            rw [unifyLineEnds_cons hreturn, readUnits_letter start he, readUnits_letter start' he]
            exact (ih _ (by simp only [List.length_cons]; omega) cs rfl).map _
      · by_cases hcontrol : c.toNat ≤ 0x1f
        · exact unified_readUnits_control start start' hcontrol cs
        · have hreturn : c ≠ '\r' := by
            rintro rfl
            exact hcontrol (by decide)
          rw [unifyLineEnds_cons hreturn, readUnits_plain start hquote hslash (by omega),
            readUnits_plain start' hquote hslash (by omega)]
          exact (ih _ (by simp only [List.length_cons]; omega) cs rfl).map _

theorem unified_readText (cs : List Char) :
    Unified (readText cs) (readText (unifyLineEnds cs)) :=
  (unified_readUnits ('"' :: cs) ('"' :: unifyLineEnds cs) cs).map fun ns =>
    String.ofList (joinUnits ns)

/-! ## Numbers -/

theorem spanDigits_unifyLineEnds (cs : List Char) :
    spanDigits (unifyLineEnds cs) = ((spanDigits cs).1, unifyLineEnds (spanDigits cs).2) := by
  rw [spanDigits, takeWhile_unifyLineEnds (by decide) (by decide),
    dropWhile_unifyLineEnds (by decide)]
  rfl

theorem readDigits?_unifyLineEnds (cs : List Char) :
    readDigits? (unifyLineEnds cs) = (readDigits? cs).map fun (ds, r) => (ds, unifyLineEnds r) := by
  rw [readDigits?, readDigits?, spanDigits_unifyLineEnds]
  obtain ⟨_ | ⟨d, ds⟩, r⟩ := spanDigits cs <;> rfl

/-- The places behind a point. -/
theorem readFraction_unifyLineEnds (cs : List Char) :
    readFraction (unifyLineEnds cs) =
      (readFraction cs).map fun (ds, r) => (ds, unifyLineEnds r) := by
  obtain rfl | ⟨rest, rfl, hunified⟩ | ⟨c, rest, rfl, hunified⟩ := unifyLineEnds_cases cs
  · rfl
  · rw [hunified]
    rfl
  · rw [hunified]
    by_cases hpoint : c = '.'
    · subst hpoint
      exact readDigits?_unifyLineEnds rest
    · simp [readFraction, hpoint]

/-- A sign is no line end. -/
theorem signed_unifyLineEnds (cs : List Char) :
    Numeral.signed (unifyLineEnds cs) =
      ((Numeral.signed cs).1, unifyLineEnds (Numeral.signed cs).2) := by
  obtain rfl | ⟨rest, rfl, hunified⟩ | ⟨c, rest, rfl, hunified⟩ := unifyLineEnds_cases cs
  · rfl
  · rw [hunified]
    exact congrArg (Prod.mk false) hunified.symm
  · rw [hunified]
    by_cases hminus : c = '-'
    · subst hminus
      rfl
    by_cases hplus : c = '+'
    · subst hplus
      rfl
    · simp [Numeral.signed, hminus, hplus, hunified]

/-- An exponent. -/
theorem readExponent_unifyLineEnds (cs : List Char) :
    readExponent (unifyLineEnds cs) =
      (readExponent cs).map fun (n, r) => (n, unifyLineEnds r) := by
  obtain rfl | ⟨rest, rfl, hunified⟩ | ⟨c, rest, rfl, hunified⟩ := unifyLineEnds_cases cs
  · rfl
  · rw [hunified]
    rfl
  · rw [hunified, readExponent, readExponent]
    split
    · rw [signed_unifyLineEnds]
      dsimp only
      rw [spanDigits_unifyLineEnds]
      obtain ⟨_ | ⟨d, ds⟩, r⟩ := spanDigits (Numeral.signed rest).2 <;> rfl
    · rfl

/-- The digits in front of a point. -/
theorem readWhole?_unifyLineEnds (cs : List Char) :
    readWhole? (unifyLineEnds cs) = (readWhole? cs).map fun (ds, r) => (ds, unifyLineEnds r) := by
  obtain rfl | ⟨rest, rfl, hunified⟩ | ⟨c, rest, rfl, hunified⟩ := unifyLineEnds_cases cs
  · rfl
  · rw [hunified]
    rfl
  · by_cases hzero : c = '0'
    · subst hzero
      rw [hunified]
      rfl
    · rw [readWhole?_cons hzero, ← readDigits?_unifyLineEnds, hunified, readWhole?_cons hzero]

/-- A number without its sign. -/
theorem readMagnitude_unifyLineEnds (cs : List Char) :
    readMagnitude (unifyLineEnds cs) =
      (readMagnitude cs).map fun (m, r) => (m, unifyLineEnds r) := by
  rw [readMagnitude_eq, readMagnitude_eq, readWhole?_unifyLineEnds]
  cases readWhole? cs with
  | none => rfl
  | some found =>
    obtain ⟨whole, r⟩ := found
    simp only [Option.map_some, readFraction_unifyLineEnds]
    cases readFraction r with
    | none =>
      simp only [Option.map_none, Option.getD_none, readExponent_unifyLineEnds]
      cases readExponent r <;> rfl
    | some fraction =>
      simp only [Option.map_some, Option.getD_some, readExponent_unifyLineEnds]
      cases readExponent fraction.2 <;> rfl

/-- The words for what is no number, no text and no bracket. -/
theorem readWord?_unifyLineEnds (cs : List Char) :
    readWord? (unifyLineEnds cs) = (readWord? cs).map fun (v, r) => (v, unifyLineEnds r) := by
  have hwords : ∀ w ∈ words, ∀ c ∈ w.1, c ≠ '\r' ∧ c ≠ '\n' := by
    simp only [words, List.forall_mem_cons, List.not_mem_nil, false_implies, implies_true]
    decide
  unfold readWord?
  generalize words = ws at hwords
  induction ws with
  | nil => rfl
  | cons w ws ih =>
    obtain ⟨hw, hws⟩ := List.forall_mem_cons.mp hwords
    rw [List.findSome?_cons, List.findSome?_cons]
    dsimp only
    rw [afterWord?_unifyLineEnds hw, ih hws]
    cases afterWord? w.1 cs <;> rfl

/-- A minus sign. -/
theorem readMinus_unifyLineEnds (cs : List Char) :
    readMinus (unifyLineEnds cs) = ((readMinus cs).1, unifyLineEnds (readMinus cs).2) := by
  obtain rfl | ⟨rest, rfl, hunified⟩ | ⟨c, rest, rfl, hunified⟩ := unifyLineEnds_cases cs
  · rfl
  · rw [hunified]
    exact congrArg (Prod.mk false) hunified.symm
  · rw [hunified]
    by_cases hminus : c = '-'
    · subst hminus
      rfl
    · simp [readMinus, hminus, hunified]

/-- What is not in brackets is read alike, since no part of it holds a line end. -/
theorem unified_readScalar (cs : List Char) :
    Unified (readScalar cs) (readScalar (unifyLineEnds cs)) := by
  rw [readScalar_eq, readScalar_eq, readWord?_unifyLineEnds]
  cases readWord? cs with
  | some found => exact .ok found.1 found.2
  | none =>
    rw [readMinus_unifyLineEnds]
    dsimp only
    rw [readMagnitude_unifyLineEnds]
    cases readMagnitude (readMinus cs).2 with
    | none => exact .error rfl
    | some found =>
      simp only [Option.map_none, Option.map_some]
      split
      · exact .error rfl
      · exact .ok _ _

/-! ## Values -/

section Values

variable {levels n : Nat}

/-- One more step for a value, given those for its items and members. -/
theorem unified_readValue
    (hitems : ∀ levels cs,
      Unified (readItems levels n cs) (readItems levels n (unifyLineEnds cs)))
    (hmembers : ∀ levels cs,
      Unified (readMembers levels n cs) (readMembers levels n (unifyLineEnds cs)))
    (cs : List Char) :
    Unified (readValue levels (n + 1) cs) (readValue levels (n + 1) (unifyLineEnds cs)) := by
  obtain ⟨r, rfl⟩ | ⟨r, rfl⟩ | ⟨r, rfl⟩ | hscalar := value_cases cs
  · rw [unifyLineEnds_cons (by decide), readValue, readValue]
    exact (unified_readText r).map Value.text
  · rw [unifyLineEnds_cons (by decide)]
    rcases levels with _ | levels
    · exact .error rfl
    · rw [readValue_list, readValue_list]
      exact unified_readInside (fun r => (hitems levels r).map Value.list) r
  · rw [unifyLineEnds_cons (by decide)]
    rcases levels with _ | levels
    · exact .error rfl
    · rw [readValue_record, readValue_record]
      refine unified_readInside (fun r => ?_) r
      exact (hmembers levels r).map fun ms => Value.record (Members.ofPairs ms)
  · rw [readValue_scalar levels n hscalar, readValue_scalar levels n
      (head?_unifyLineEnds (by decide) hscalar)]
    exact unified_readScalar cs

variable (hvalue : ∀ cs, Unified (readValue levels n cs) (readValue levels n (unifyLineEnds cs)))

include hvalue

theorem unified_readItems
    (hitems : ∀ cs, Unified (readItems levels n cs) (readItems levels n (unifyLineEnds cs)))
    (cs : List Char) :
    Unified (readItems levels (n + 1) cs) (readItems levels (n + 1) (unifyLineEnds cs)) := by
  rw [readItems_eq, readItems_eq]
  refine (hvalue cs).bind fun x r => unified_readNext (fun r => ?_) r
  exact (hitems r).map fun xs => x :: xs

/-- One more step for members. -/
theorem unified_readMembers
    (hmembers : ∀ cs, Unified (readMembers levels n cs) (readMembers levels n (unifyLineEnds cs)))
    (cs : List Char) :
    Unified (readMembers levels (n + 1) cs) (readMembers levels (n + 1) (unifyLineEnds cs)) := by
  by_cases hquote : ∃ r, cs = '"' :: r
  · obtain ⟨text, rfl⟩ := hquote
    rw [unifyLineEnds_cons (by decide), readMembers_eq, readMembers_eq]
    refine (unified_readText text).bind fun key r => unified_readColon (fun r => ?_) r
    refine (hvalue r).bind fun x r => unified_readNext (fun r => ?_) r
    exact (hmembers r).map fun ms => (key, x) :: ms
  · have hhead : ∀ c ∈ cs.head?, c ≠ '"' := by
      rintro c hc rfl
      exact hquote ⟨cs.tail, List.eq_cons_of_mem_head? hc⟩
    have hhead' := head?_unifyLineEnds (by decide) hhead
    rw [readMembers_error levels n fun r hr => hhead '"' (by rw [hr]; rfl) rfl,
      readMembers_error levels n fun r hr => hhead' '"' (by rw [hr]; rfl) rfl]
    exact .error rfl

end Values

/-- **Unifying line ends changes neither what is read nor where reading stops**, for as many steps
as there are. -/
theorem unified_values (n : Nat) : ∀ (levels : Nat) (cs : List Char),
    Unified (readValue levels n cs) (readValue levels n (unifyLineEnds cs)) ∧
      Unified (readItems levels n cs) (readItems levels n (unifyLineEnds cs)) ∧
      Unified (readMembers levels n cs) (readMembers levels n (unifyLineEnds cs)) := by
  induction n with
  | zero => exact fun levels cs => ⟨.error rfl, .error rfl, .error rfl⟩
  | succ n ih =>
    exact fun levels cs =>
      ⟨unified_readValue (fun levels cs => (ih levels cs).2.1)
          (fun levels cs => (ih levels cs).2.2) cs,
        unified_readItems (fun cs => (ih levels cs).1) (fun cs => (ih levels cs).2.1) cs,
        unified_readMembers (fun cs => (ih levels cs).1) (fun cs => (ih levels cs).2.2) cs⟩

/-- The reader starts behind white space, unless a byte order mark stands there. -/
theorem read_of_head {cs : List Char} (h : ∀ c ∈ cs.head?, c ≠ '\ufeff') :
    read cs = (do
      let (v, r) ← readValue depthLimit (2 * cs.length + 2) (skipSpace cs)
      match skipSpace r with
      | [] => return v
      | r => throw ⟨.extraData, r⟩) := by
  rw [read.eq_def]
  split
  · exact absurd rfl (h _ rfl)
  · rfl

/-- **A text and the text with its line ends unified are the same document**, or no document for the
same reason. -/
theorem unified_read (cs : List Char) :
    (read (unifyLineEnds cs)).mapError Failure.fault = (read cs).mapError Failure.fault := by
  by_cases hmark : cs.head? = some '\ufeff'
  · rw [List.eq_cons_of_mem_head? hmark, unifyLineEnds_cons (by decide)]
    rfl
  · have hhead : ∀ c ∈ cs.head?, c ≠ '\ufeff' := by
      rintro c hc rfl
      exact hmark hc
    have hread := (unified_values (2 * cs.length + 2) depthLimit (skipSpace cs)).1
    have hskip := length_skipSpace (unifyLineEnds cs)
    have hlength := length_unifyLineEnds cs
    have hsteps : readValue depthLimit (2 * (unifyLineEnds cs).length + 2)
        (skipSpace (unifyLineEnds cs)) =
        readValue depthLimit (2 * cs.length + 2) (unifyLineEnds (skipSpace cs)) := by
      rw [← skipSpace_unifyLineEnds, readValue_of_le depthLimit (n := 2 * cs.length + 2) (by omega),
        readValue_of_le depthLimit (by omega)]
    rw [read_of_head hhead, read_of_head (head?_unifyLineEnds (by decide) hhead), hsteps]
    generalize readValue depthLimit (2 * cs.length + 2) (skipSpace cs) = x,
      readValue depthLimit (2 * cs.length + 2) (unifyLineEnds (skipSpace cs)) = y at hread ⊢
    cases hread with
    | error h => exact congrArg Except.error h.symm
    | ok v r =>
      dsimp only [bind, Except.bind]
      obtain ⟨hskip, hskip'⟩ | ⟨c, r, hskip, hskip'⟩ := skipSpace_cases r
      · rw [hskip, hskip']
      · rw [hskip, hskip']
        rfl

end Scaffold.Document.Json
