import Scaffold.Document.Json.Reader
import Scaffold.Proofs.Number.Shortest

/-!
# Proofs/Document/Numbers — a number is read as it was written

A number is taken up to what cannot continue it (`Ends`).  Its digits, places and exponent are read
as they stand (`readMagnitude_append`), so whole numbers (`readScalar_int`) and floating-point
numbers (`readScalar_real`) are read as they were written.
-/

namespace Scaffold.Document.Json

open Number Text

/-! ## The parts of the reader -/

/-- The digits at the start of a text, and what follows them. -/
def readDigits? (cs : List Char) : Option (List Char × List Char) :=
  match spanDigits cs with
  | ([], _) => none
  | (ds, r) => some (ds, r)

/-- The digits before the point: a zero by itself, or digits. -/
def readWhole? (cs : List Char) : Option (List Char × List Char) :=
  match cs with
  | '0' :: r => some (['0'], r)
  | _ => readDigits? cs

theorem readWhole?_cons {c : Char} (hc : c ≠ '0') (cs : List Char) :
    readWhole? (c :: cs) = readDigits? (c :: cs) := by
  rw [readWhole?]
  rintro r ⟨⟩
  exact hc rfl

theorem readMagnitude_eq (cs : List Char) :
    readMagnitude cs = (readWhole? cs).map fun (whole, r) =>
      let fraction := readFraction r
      let r := (fraction.map (·.2)).getD r
      let exponent := readExponent r
      (⟨whole, fraction.map (·.1), exponent.map (·.1)⟩, (exponent.map (·.2)).getD r) := by
  rfl

/-- A word at the start of a text, and what follows it. -/
def readWord? (cs : List Char) : Option (Value × List Char) :=
  words.findSome? fun (w, v) => (afterWord? w cs).map fun r => (v, r)

/-- The sign of a number, and what follows it. -/
def readMinus : List Char → Bool × List Char
  | '-' :: r => (true, r)
  | r => (false, r)

/-- The words are tried before a number. -/
theorem readScalar_eq (cs : List Char) :
    readScalar cs =
      match readWord? cs with
      | some r => .ok r
      | none =>
        match readMagnitude (readMinus cs).2 with
        | some (m, r) =>
          if m.isWhole && Numeral.digitLimit < m.whole.length then
            .error ⟨.excessive m.whole.length, cs⟩
          else .ok (m.value (readMinus cs).1, r)
        | none => .error ⟨.value, cs⟩ := by
  rfl

/-! ## Numbers in a text -/

/-- The characters that may follow a value. -/
def enders : List Char := [' ', '\t', '\n', '\r', ',', ']', '}']

/-- The text may follow a value: what starts it continues no number. -/
def Ends (cs : List Char) : Prop := ∀ c ∈ cs.head?, c ∈ enders

/-- The characters of a number that can follow one of its digits. -/
def Continues (c : Char) : Prop := isPlainDigit c = true ∨ c ∈ ['.', 'e', 'E']

theorem Ends.not_continues {cs : List Char} (h : Ends cs) : ∀ c ∈ cs.head?, ¬Continues c := by
  intro c hc
  have henders : ∀ c ∈ enders, ¬(isPlainDigit c = true ∨ c ∈ ['.', 'e', 'E']) := by decide
  exact henders c (h c hc)

theorem spanDigits_append {ds rest : List Char} (hds : ∀ c ∈ ds, isPlainDigit c = true)
    (hrest : ∀ c ∈ rest.head?, isPlainDigit c = false) : spanDigits (ds ++ rest) = (ds, rest) := by
  rw [spanDigits, List.takeWhile_append_of_pos hds, List.dropWhile_append_of_pos hds,
    takeWhile_of_head hrest, dropWhile_of_head hrest, List.append_nil]

/-- A whole part is read back if no digit follows it. -/
theorem readWhole?_append {whole rest : List Char} (hwhole : IsWhole whole)
    (hrest : ∀ c ∈ rest.head?, isPlainDigit c = false) :
    readWhole? (whole ++ rest) = some (whole, rest) := by
  obtain ⟨⟨hne, hdigits⟩, hzero⟩ := hwhole
  obtain ⟨c, cs, rfl⟩ := List.exists_cons_of_ne_nil hne
  by_cases hc : c = '0'
  · subst hc
    cases hzero rfl
    rfl
  · rw [List.cons_append, readWhole?_cons hc, ← List.cons_append, readDigits?,
      spanDigits_append hdigits hrest]

/-- The text of the places of a number. -/
def placesText : Option (List Char) → List Char
  | none => []
  | some ds => '.' :: ds

/-- The text of the exponent of a number. -/
def exponentText : Option (Bool × List Char) → List Char
  | none => []
  | some (negative, ds) => 'e' :: (if negative then '-' else '+') :: ds

/-- The places are read back if neither a digit nor a point follows them. -/
theorem readFraction_append {places : Option (List Char)} (hplaces : ∀ ds ∈ places, IsDigits ds)
    {rest : List Char} (hrest : ∀ c ∈ rest.head?, isPlainDigit c = false ∧ c ≠ '.') :
    readFraction (placesText places ++ rest) = places.map fun ds => (ds, rest) := by
  cases places with
  | none =>
    cases rest with
    | nil => rfl
    | cons c rest => simp [placesText, readFraction, (hrest c rfl).2]
  | some ds =>
    obtain ⟨hne, hdigits⟩ := hplaces ds rfl
    obtain ⟨d, ds, rfl⟩ := List.exists_cons_of_ne_nil hne
    rw [placesText, List.cons_append, readFraction,
      spanDigits_append hdigits fun c hc => (hrest c hc).1]
    rfl

/-- An exponent is read back if the numeral ends behind it. -/
theorem readExponent_append {exponent : Option (Bool × List Char)}
    (hexponent : ∀ e ∈ exponent, IsDigits e.2) {rest : List Char} (hrest : Ends rest) :
    readExponent (exponentText exponent ++ rest) = exponent.map fun (negative, ds) =>
      (Numeral.withSign negative (Numeral.natOfDigits ds), rest) := by
  have hstop : ∀ c ∈ rest.head?, isPlainDigit c = false := fun c hc =>
    Bool.eq_false_iff.mpr fun hdigit => hrest.not_continues c hc (.inl hdigit)
  cases exponent with
  | none =>
    cases rest with
    | nil => rfl
    | cons c rest =>
      have hc := hrest.not_continues c rfl
      have he : ¬((c == 'e' || c == 'E') = true) := fun he => hc (.inr (by simpa using Or.inr he))
      rw [exponentText, List.nil_append, readExponent, if_neg he]
      rfl
  | some e =>
    obtain ⟨negative, ds⟩ := e
    obtain ⟨hne, hdigits⟩ := hexponent _ rfl
    obtain ⟨d, ds, rfl⟩ := List.exists_cons_of_ne_nil hne
    have hsigned : Numeral.signed ((if negative then '-' else '+') :: (d :: ds ++ rest)) =
        (negative, d :: ds ++ rest) := by
      cases negative <;> rfl
    have hmark : ('e' == 'e' || 'e' == 'E') = true := rfl
    rw [exponentText, List.cons_append, List.cons_append, readExponent, if_pos hmark, hsigned]
    dsimp only
    rw [spanDigits_append hdigits hstop]
    rfl

/-- **A number is read as it stands**, up to what cannot continue it. -/
theorem readMagnitude_append {whole : List Char} (hwhole : IsWhole whole)
    {places : Option (List Char)} (hplaces : ∀ ds ∈ places, IsDigits ds)
    {exponent : Option (Bool × List Char)} (hexponent : ∀ e ∈ exponent, IsDigits e.2)
    {rest : List Char} (hrest : Ends rest) :
    readMagnitude (whole ++ (placesText places ++ (exponentText exponent ++ rest))) =
      some (⟨whole, places, exponent.map fun (negative, ds) =>
        Numeral.withSign negative (Numeral.natOfDigits ds)⟩, rest) := by
  have hafter : ∀ c ∈ (exponentText exponent ++ rest).head?, isPlainDigit c = false ∧ c ≠ '.' := by
    cases exponent with
    | none =>
      intro c hc
      have hnot := not_or.mp (hrest.not_continues c hc)
      exact ⟨Bool.eq_false_iff.mpr hnot.1, fun h => hnot.2 (by simp [h])⟩
    | some e =>
      rintro _ ⟨⟩
      decide
  have hbehind : ∀ c ∈ (placesText places ++ (exponentText exponent ++ rest)).head?,
      isPlainDigit c = false := by
    cases places with
    | none => exact fun c hc => (hafter c hc).1
    | some ds =>
      rintro _ ⟨⟩
      decide
  have hleft : ((places.map fun ds => (ds, exponentText exponent ++ rest)).map (·.2)).getD
      (placesText places ++ (exponentText exponent ++ rest)) = exponentText exponent ++ rest := by
    cases places <;> rfl
  have hplaces' : (places.map fun ds => (ds, exponentText exponent ++ rest)).map (·.1) = places := by
    cases places <;> rfl
  rw [readMagnitude_eq, readWhole?_append hwhole hbehind, Option.map_some]
  dsimp only
  rw [readFraction_append hplaces hafter, hleft, hplaces', readExponent_append hexponent hrest]
  cases exponent <;> rfl

theorem ne_of_isPlainDigit {c d : Char} (hc : isPlainDigit c = true)
    (hd : isPlainDigit d = false) : d ≠ c := by
  rintro rfl
  rw [hd] at hc
  cases hc

/-- The sign of a number in a text. -/
def minusText (negative : Bool) : List Char := if negative then ['-'] else []

section Sign

variable (negative : Bool) {c : Char} (hc : isPlainDigit c = true) (text : List Char)

include hc

/-- A number is no word. -/
theorem readWord?_number : readWord? (minusText negative ++ c :: text) = none := by
  have hwords : words.map Prod.fst = [['n', 'u', 'l', 'l'], ['t', 'r', 'u', 'e'],
      ['f', 'a', 'l', 's', 'e'], ['N', 'a', 'N'], ['I', 'n', 'f', 'i', 'n', 'i', 't', 'y'],
      ['-', 'I', 'n', 'f', 'i', 'n', 'i', 't', 'y']] := by decide
  have hletter : ∀ d ∈ ['n', 't', 'f', 'N', 'I', '-'], d ≠ c := by
    have hnone : ∀ d ∈ ['n', 't', 'f', 'N', 'I', '-'], isPlainDigit d = false := by decide
    exact fun d hd => ne_of_isPlainDigit hc (hnone d hd)
  simp only [List.forall_mem_cons, List.not_mem_nil, false_implies, implies_true,
    and_true] at hletter
  rw [readWord?, List.findSome?_eq_none_iff]
  intro w hw
  have hmem := hwords ▸ List.mem_map_of_mem hw
  simp only [List.mem_cons, List.not_mem_nil, or_false] at hmem
  rw [Option.map_eq_none_iff]
  rcases hmem with h | h | h | h | h | h <;> cases negative <;>
    simp [h, afterWord?, minusText, hletter]

theorem readMinus_number : readMinus (minusText negative ++ c :: text) = (negative, c :: text) := by
  cases negative with
  | false => simp [minusText, readMinus, (ne_of_isPlainDigit (d := '-') hc (by decide)).symm]
  | true => rfl

end Sign

/-- A number with its sign, unless it is a whole number with too many digits. -/
theorem readScalar_append (negative : Bool) {whole : List Char} (places : Option (List Char))
    (exponent : Option (Bool × List Char)) (hwhole : IsWhole whole)
    (hplaces : ∀ ds ∈ places, IsDigits ds) (hexponent : ∀ e ∈ exponent, IsDigits e.2)
    (hlimit : places = none → exponent = none → whole.length ≤ Numeral.digitLimit)
    {rest : List Char} (hrest : Ends rest) :
    readScalar (minusText negative ++
        (whole ++ (placesText places ++ (exponentText exponent ++ rest)))) =
      .ok ((⟨whole, places, exponent.map fun (negative, ds) =>
        Numeral.withSign negative (Numeral.natOfDigits ds)⟩ : Magnitude).value negative, rest) := by
  have hread := readMagnitude_append hwhole hplaces hexponent hrest
  obtain ⟨c, cs, rfl⟩ := List.exists_cons_of_ne_nil hwhole.1.1
  have hdigit : isPlainDigit c = true := hwhole.1.2 c List.mem_cons_self
  rw [List.cons_append] at hread ⊢
  rw [readScalar_eq, readWord?_number negative hdigit, readMinus_number negative hdigit]
  dsimp only
  rw [hread]
  dsimp only
  rw [if_neg]
  intro hexcess
  rw [Bool.and_eq_true, decide_eq_true_eq, Magnitude.isWhole, Bool.and_eq_true,
    Option.isNone_iff_eq_none, Option.isNone_iff_eq_none, Option.map_eq_none_iff] at hexcess
  exact absurd (hlimit hexcess.1.1 hexcess.1.2) (not_le.mpr hexcess.2)

/-! ## Whole numbers -/

/-- A whole number is written as a minus sign, if it is negative, and its digits. -/
theorem toList_toString_int (n : Int) :
    (toString n).toList = minusText (n < 0) ++ Nat.toDigits 10 n.natAbs := by
  cases n with
  | ofNat n =>
    change (toString n).toList = _
    rw [Nat.toString_eq_ofList_toDigits, String.toList_ofList]
    simp [minusText]
  | negSucc n =>
    have hminus : minusText (decide (Int.negSucc n < 0)) = "-".toList := by
      rw [decide_eq_true (Int.negSucc_lt_zero n)]
      decide
    change ("-" ++ toString (n + 1)).toList = _
    simp only [hminus, String.toList_append, Nat.toString_eq_ofList_toDigits,
      String.toList_ofList]
    rfl

theorem withSign_natAbs (n : Int) : Numeral.withSign (n < 0) n.natAbs = n := by
  rw [Numeral.withSign]
  by_cases hn : n < 0
  · rw [if_pos (decide_eq_true hn)]
    omega
  · rw [if_neg (by simpa using hn)]
    omega

/-- **A whole number is read as it was written**, if it has not too many digits. -/
theorem readScalar_int {n : Int} (h : (Nat.toDigits 10 n.natAbs).length ≤ Numeral.digitLimit)
    {rest : List Char} (hrest : Ends rest) :
    readScalar ((toString n).toList ++ rest) = .ok (.int n, rest) := by
  have hread := readScalar_append (n < 0) none none (isWhole_toDigits n.natAbs)
    (by simp) (by simp) (fun _ _ => h) hrest
  rw [toList_toString_int, List.append_assoc]
  refine hread.trans ?_
  change Except.ok (Value.int (Numeral.withSign (n < 0) (Numeral.natOfDigits _)), rest) = _
  rw [natOfDigits_toDigits, withSign_natAbs]

/-! ## Floating-point numbers -/

/-- What the digits of a number with places or an exponent stand for. -/
theorem value_real (negative : Bool) (whole : List Char) (places : Option (List Char))
    (exponent : Option Int) (h : places ≠ none ∨ exponent ≠ none) :
    (⟨whole, places, exponent⟩ : Magnitude).value negative =
      .real (.ofDecimal negative (Numeral.natOfDigits (whole ++ places.getD []))
        (exponent.getD 0 - (places.getD []).length)) := by
  rw [Magnitude.value, if_neg]
  rw [Magnitude.isWhole, Bool.and_eq_true, Option.isNone_iff_eq_none, Option.isNone_iff_eq_none]
  exact fun hnone => h.elim (absurd hnone.1) (absurd hnone.2)

/-- The places that follow a first digit, if there are any. -/
theorem exists_places {cs : List Char} (h : ∀ c ∈ cs, isPlainDigit c = true) :
    ∃ places : Option (List Char), (∀ ds ∈ places, IsDigits ds) ∧
      (if cs = [] then [] else '.' :: cs) = placesText places ∧ places.getD [] = cs := by
  by_cases hempty : cs = []
  · refine ⟨none, by simp, ?_, hempty.symm⟩
    rw [if_pos hempty]
    rfl
  · refine ⟨some cs, ?_, ?_, rfl⟩
    · rintro _ ⟨⟩
      exact ⟨hempty, h⟩
    · rw [if_neg hempty]
      rfl

/-- The exponent of a spelling is read as it was written. -/
theorem exists_exponent (n : Int) :
    ∃ negative ds, IsDigits ds ∧
      'e' :: (if n < 0 then '-' else '+') :: exponentPart n = exponentText (some (negative, ds)) ∧
        Numeral.withSign negative (Numeral.natOfDigits ds) = n := by
  refine ⟨n < 0, exponentPart n, isDigits_exponentPart n, by simp [exponentText], ?_⟩
  obtain ⟨k, hk⟩ := exponentPart_eq n
  rw [hk, natOfDigits_append, natOfDigits_replicate, natOfDigits_toDigits, Nat.zero_mul,
    Nat.zero_add, withSign_natAbs]

section Real

variable {s : Bool} {m : Nat} {q : Int} (hm : m ≠ 0) (h : Binary64.IsStored m q)
  {digits : List Char} (hdigits : IsDigits digits) (hhead : digits.head? ≠ some '0') {point : Int}
  (hvalue : Binary64.RoundsTo (valueAt digits point) m q) {rest : List Char} (hrest : Ends rest)

include hm h hdigits hhead hvalue hrest

/-- A number that is written out with a point is read back. -/
theorem readScalar_positional :
    readScalar (minusText s ++ ((positional digits point).toList ++ rest)) =
      .ok (.real (.finite s m q), rest) := by
  have hplaces : ∀ ds ∈ some (placesPart digits point), IsDigits ds := by
    rintro _ ⟨⟩
    exact isDigits_placesPart hdigits point
  have hread := readScalar_append s _ none (isWhole_wholePart hdigits hhead point) hplaces
    (by simp) (by simp) hrest
  rw [toList_positional, List.append_assoc]
  refine hread.trans ?_
  have hexponent : (wholePart digits point).length -
      ((wholePart digits point ++ placesPart digits point).length : Int) =
      0 - (placesPart digits point).length := by
    rw [List.length_append]
    push_cast
    ring
  rw [← value_positional, valueAt, hexponent] at hvalue
  rw [value_real _ _ _ _ (.inl (Option.some_ne_none _))]
  exact congrArg (fun x => Except.ok (Value.real x, rest))
    (Binary64.ofDecimal_of_roundsTo s hm h hvalue)

/-- A number that is written with an exponent is read back. -/
theorem readScalar_scientific :
    readScalar (minusText s ++ ((scientific digits (point - 1)).toList ++ rest)) =
      .ok (.real (.finite s m q), rest) := by
  obtain ⟨c, cs, rfl⟩ := List.exists_cons_of_ne_nil hdigits.1
  obtain ⟨hc, hcs⟩ := List.forall_mem_cons.mp hdigits.2
  obtain ⟨places, hplaces, hplacesText, hjoined⟩ := exists_places hcs
  obtain ⟨negative, ds, hds, hexponent, hsigned⟩ := exists_exponent (point - 1)
  have hwhole : IsWhole [c] := ⟨⟨List.cons_ne_nil _ _, List.forall_mem_singleton.mpr hc⟩,
    fun hzero => absurd hzero hhead⟩
  have hexponent' : ∀ e ∈ some (negative, ds), IsDigits e.2 := by
    rintro _ ⟨⟩
    exact hds
  have hread := readScalar_append s places _ hwhole hplaces hexponent'
    (by simp) hrest
  rw [toList_scientific, hplacesText, hexponent, List.cons_append, List.append_assoc]
  refine hread.trans ?_
  rw [Option.map_some, value_real _ _ _ _ (.inr (Option.some_ne_none _)), hjoined]
  have hlast : point - ((c :: cs).length : Int) =
      Numeral.withSign negative (Numeral.natOfDigits ds) - cs.length := by
    rw [hsigned, List.length_cons]
    push_cast
    ring
  rw [valueAt, hlast] at hvalue
  exact congrArg (fun x => Except.ok (Value.real x, rest))
    (Binary64.ofDecimal_of_roundsTo s hm h hvalue)

end Real

/-- **A floating-point number is read as it was written.** -/
theorem readScalar_real {x : Binary64} (hx : x.IsProper) {rest : List Char} (hrest : Ends rest) :
    readScalar ((x.spell .document).toList ++ rest) = .ok (.real x, rest) := by
  cases x with
  | nan => rfl
  | infinite s => cases s <;> rfl
  | finite s m q =>
    have hminus : (if s then "-" else "").toList = minusText s := by cases s <;> rfl
    rw [Binary64.spell]
    dsimp only
    rw [String.toList_append, hminus, List.append_assoc]
    by_cases hm : m = 0
    · have hq : q = -1074 := hx.normal.resolve_left (by omega)
      have hplaces : ∀ ds ∈ some ['0'], IsDigits ds := by simpa using isWhole_zero.1
      have hread := readScalar_append s _ none isWhole_zero hplaces (by simp) (by simp) hrest
      rw [if_pos hm, hm, hq]
      exact hread
    · have hdigits := Decimal.isDigits_significant (Decimal.shortest m q)
      have hrounds := Decimal.roundsTo_shortest hm hx
      have hhead : (Decimal.shortest m q).significant.1.head? ≠ some '0' := by
        refine Decimal.head?_significant fun hzero => ?_
        have hpos := hrounds.pos hm
        rw [hzero, Nat.cast_zero, zero_mul] at hpos
        exact lt_irrefl _ hpos
      rw [← value_significant] at hrounds
      rw [if_neg hm]
      split
      · exact readScalar_positional hm hx hdigits hhead hrounds hrest
      · exact readScalar_scientific hm hx hdigits hhead hrounds hrest

end Scaffold.Document.Json
