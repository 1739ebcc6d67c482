import Scaffold.Proofs.Text.Numerals
import Scaffold.Proofs.Text.Trim

/-!
# Proofs/Text/Decimals — numbers are written as decimal literals

A whole number and a finite floating-point number are written as decimal literals of a script, with
no zero in front of other digits (`isDecimal_toString_int`, `isDecimal_spell`).  The fewest digits
that read back as a number are never all zeros unless it is zero itself (`digits_shortest`).
-/

namespace Scaffold.Number

open Text

/-- One digit or more. -/
def IsDigits (cs : List Char) : Prop := cs ≠ [] ∧ ∀ c ∈ cs, isPlainDigit c = true

/-- Digits without a zero in front, unless it stands alone. -/
def IsWhole (cs : List Char) : Prop :=
  IsDigits cs ∧ (cs.head? = some '0' → cs = ['0'])

/-- A decimal literal, perhaps negative, with or without places and an exponent. -/
def IsDecimal (cs : List Char) : Prop :=
  ∃ sign whole places exponent, cs = sign ++ (whole ++ (places ++ exponent)) ∧
    sign ∈ [[], ['-']] ∧ IsWhole whole ∧
    (places = [] ∨ ∃ ds, places = '.' :: ds ∧ IsDigits ds) ∧
    (exponent = [] ∨ ∃ mark ds, exponent = 'e' :: mark :: ds ∧ mark ∈ ['+', '-'] ∧ IsDigits ds)

namespace IsDigits

theorem prepend {cs ds : List Char} (hcs : ∀ c ∈ cs, isPlainDigit c = true) (hds : IsDigits ds) :
    IsDigits (cs ++ ds) :=
  ⟨List.append_ne_nil_of_right_ne_nil cs hds.1, List.forall_mem_append.mpr ⟨hcs, hds.2⟩⟩

/-- Behind a digit that is no zero others may follow. -/
theorem isWhole {cs : List Char} (h : IsDigits cs) (hhead : cs.head? ≠ some '0') : IsWhole cs :=
  ⟨h, fun hzero => absurd hzero hhead⟩

end IsDigits

theorem isWhole_zero : IsWhole ['0'] := ⟨⟨List.cons_ne_nil _ _, by decide⟩, fun _ => rfl⟩

theorem isPlainDigit_of_mem_replicate {n : Nat} :
    ∀ c ∈ List.replicate n '0', isPlainDigit c = true := by
  intro c hc
  rw [(List.mem_replicate.mp hc).2]
  decide

/-! ## Digits -/

theorem isDigits_toDigits (n : Nat) : IsDigits (Nat.toDigits 10 n) := by
  refine ⟨Nat.toDigits_ne_nil, fun c hc => ?_⟩
  have hdigit := Nat.isDigit_of_mem_toDigits (by decide) (Nat.le_refl 10) hc
  rw [Char.isDigit, Bool.and_eq_true, decide_eq_true_eq, decide_eq_true_eq] at hdigit
  rwa [isPlainDigit, Bool.and_eq_true, decide_eq_true_eq, decide_eq_true_eq]

/-- A number does not begin with a zero. -/
theorem head?_toDigits {n : Nat} (h : n ≠ 0) : (Nat.toDigits 10 n).head? ≠ some '0' := by
  induction n using Nat.strongRecOn with
  | ind n ih =>
    by_cases hsmall : n < 10
    · rw [Nat.toDigits_of_lt_base hsmall]
      have hall : ∀ n < 10, n ≠ 0 → [Nat.digitChar n].head? ≠ some '0' := by decide
      exact hall n hsmall h
    · have hquotient : n / 10 ≠ 0 := by omega
      have hsplit := Nat.toDigits_append_toDigits (b := 10) (n := n / 10) (d := n % 10) (by decide)
        (Nat.pos_of_ne_zero hquotient) (Nat.mod_lt n (by decide))
      rw [Nat.div_add_mod] at hsplit
      rw [← hsplit, List.head?_append, List.head?_eq_some_head Nat.toDigits_ne_nil, Option.some_or,
        ← List.head?_eq_some_head]
      exact ih (n / 10) (by omega) hquotient

theorem isWhole_toDigits (n : Nat) : IsWhole (Nat.toDigits 10 n) := by
  by_cases h : n = 0
  · subst h
    exact isWhole_zero
  · exact (isDigits_toDigits n).isWhole (head?_toDigits h)

/-- A whole number is written as a decimal. -/
theorem isDecimal_toString_int (n : Int) : IsDecimal (toString n).toList := by
  cases n with
  | ofNat n =>
    refine ⟨[], Nat.toDigits 10 n, [], [], ?_, by simp, isWhole_toDigits n, .inl rfl, .inl rfl⟩
    change (toString n).toList = _
    rw [Nat.toString_eq_ofList_toDigits, String.toList_ofList]
    simp
  | negSucc n =>
    refine ⟨['-'], Nat.toDigits 10 (n + 1), [], [], ?_, by simp, isWhole_toDigits _, .inl rfl,
      .inl rfl⟩
    change ("-" ++ toString (n + 1)).toList = _
    rw [String.toList_append, Nat.toString_eq_ofList_toDigits, String.toList_ofList]
    simp

/-! ## The fewest digits of a number -/

namespace Decimal

theorem compareScaled_zero {a : Nat} (h : a ≠ 0) (p k : Int) : compareScaled a p 0 k = .gt := by
  rw [compareScaled, Nat.zero_mul, Nat.zero_shiftLeft]
  refine Nat.compare_eq_gt.mpr ?_
  have hshift : 0 < a <<< p.toNat := by
    rw [Nat.shiftLeft_eq]
    exact Nat.mul_pos (Nat.pos_of_ne_zero h) (Nat.two_pow_pos _)
  exact Nat.mul_pos hshift (Nat.pow_pos (by decide))

/-- Zero does not round to another number. -/
theorem digits_of_onGrid? {m : Nat} (hm : m ≠ 0) {q k : Int} {d : Decimal}
    (h : onGrid? m q k = some d) : d.digits ≠ 0 := by
  unfold onGrid? at h
  extract_lets unit low high inside below at h
  have hlow : low ≠ 0 := by
    dsimp only [low]
    split <;> omega
  have hhigh : high ≠ 0 := by
    dsimp only [high]
    omega
  have hzero : inside 0 = false := by
    dsimp only [inside]
    rw [compareScaled_zero hlow, compareScaled_zero hhigh]
  have hbelow : inside below = true → below ≠ 0 := by
    intro hinside heq
    rw [heq, hzero] at hinside
    cases hinside
  split at h
  · rename_i hinside _
    split at h <;> cases h
    · exact hbelow hinside
    · exact Nat.succ_ne_zero _
    · dsimp only
      split
      · exact hbelow hinside
      · exact Nat.succ_ne_zero _
  · rename_i hinside _
    cases h
    exact hbelow hinside
  · cases h
    exact Nat.succ_ne_zero _
  · cases h

/-- The shortest digits are not nothing. -/
theorem digits_shortest {m : Nat} (hm : m ≠ 0) (q : Int) :
    shortest m q = ⟨0, 0⟩ ∨ (shortest m q).digits ≠ 0 := by
  rw [shortest, if_neg hm]
  dsimp only
  cases hfound : (List.range 17).findSome? fun n : Nat => onGrid? m q (leading m q - n) with
  | none => exact .inl rfl
  | some d =>
    obtain ⟨n, -, hgrid⟩ := List.exists_of_findSome?_eq_some hfound
    exact .inr (digits_of_onGrid? hm hgrid)

theorem isDigits_significant (d : Decimal) : IsDigits d.significant.1 := by
  refine ⟨significant_ne_nil d, fun c hc => ?_⟩
  simp only [significant] at hc
  split at hc
  · rw [List.mem_singleton.mp hc]
    decide
  · refine (isDigits_toDigits d.digits).2 c ?_
    exact List.mem_reverse.mp ((List.dropWhile_sublist _).subset (List.mem_reverse.mp hc))

/-- The zeros at the end are left out, and none stands in front. -/
theorem head?_significant {d : Decimal} (h : d.digits ≠ 0) : d.significant.1.head? ≠ some '0' := by
  obtain ⟨c, cs, hdigits⟩ :=
    List.exists_cons_of_ne_nil (Nat.toDigits_ne_nil (b := 10) (n := d.digits))
  have hc : c ≠ '0' := fun heq => head?_toDigits h (by rw [hdigits, heq]; rfl)
  have hkept : ((c :: cs).reverse.dropWhile (· == '0')).reverse = c :: dropTail (· == '0') cs :=
    dropTail_cons_of_neg (by simpa using hc) cs
  simp only [significant, hdigits, hkept, List.isEmpty_cons, Bool.false_eq_true, if_false,
    List.head?_cons]
  exact fun heq => hc (Option.some.inj heq)

end Decimal

/-! ## Spellings -/

section Spelled

variable {digits : List Char} (h : IsDigits digits)

/-- What a positional spelling has before its point. -/
def wholePart (digits : List Char) (point : Int) : List Char :=
  if point ≤ 0 then ['0']
  else digits.take point.toNat ++ List.replicate (point.toNat - digits.length) '0'

/-- What a positional spelling has after its point. -/
def placesPart (digits : List Char) (point : Int) : List Char :=
  if point ≤ 0 then List.replicate (-point).toNat '0' ++ digits
  else if (digits.drop point.toNat).isEmpty then ['0'] else digits.drop point.toNat

theorem toList_positional (digits : List Char) (point : Int) :
    (positional digits point).toList = wholePart digits point ++ '.' :: placesPart digits point := by
  rw [positional, wholePart, placesPart]
  split
  · simp only [String.toList_append, String.toList_ofList]
    rfl
  · have hplaces : (if (digits.drop point.toNat).isEmpty then "0"
        else String.ofList (digits.drop point.toNat)).toList =
        if (digits.drop point.toNat).isEmpty then ['0'] else digits.drop point.toNat := by
      split
      · rfl
      · rw [String.toList_ofList]
    simp only [String.toList_append, String.toList_ofList, hplaces, List.append_assoc]
    rfl

/-- The digits of an exponent, at least two. -/
def exponentPart (exponent : Int) : List Char := (padLeft 2 '0' (toString exponent.natAbs)).toList

theorem exponentPart_eq (exponent : Int) :
    ∃ n, exponentPart exponent = List.replicate n '0' ++ Nat.toDigits 10 exponent.natAbs := by
  rw [exponentPart, padLeft, String.toList_append, String.toList_ofList,
    Nat.toString_eq_ofList_toDigits, String.toList_ofList]
  exact ⟨_, rfl⟩

theorem isDigits_exponentPart (exponent : Int) : IsDigits (exponentPart exponent) := by
  obtain ⟨n, hn⟩ := exponentPart_eq exponent
  rw [hn]
  exact .prepend isPlainDigit_of_mem_replicate (isDigits_toDigits _)

theorem toList_scientific (c : Char) (cs : List Char) (exponent : Int) :
    (scientific (c :: cs) exponent).toList = c :: ((if cs = [] then [] else '.' :: cs) ++
      'e' :: (if exponent < 0 then '-' else '+') :: exponentPart exponent) := by
  have hplaces : (if (c :: cs).length ≤ 1 then ""
      else "." ++ String.ofList ((c :: cs).drop 1)).toList =
      if cs = [] then [] else '.' :: cs := by
    cases cs with
    | nil => rfl
    | cons d cs =>
      rw [if_neg (by simp), if_neg (List.cons_ne_nil d cs)]
      simp only [String.toList_append, String.toList_ofList]
      rfl
  have hmark : (if exponent < 0 then "-" else "+").toList =
      [if exponent < 0 then '-' else '+'] := by
    split <;> rfl
  simp only [scientific, String.toList_append, String.toList_ofList, List.append_assoc, hplaces,
    hmark]
  rfl

include h

/-- What stands before the point is a whole number. -/
theorem isWhole_wholePart (hhead : digits.head? ≠ some '0') (point : Int) :
    IsWhole (wholePart digits point) := by
  rw [wholePart]
  split
  · exact isWhole_zero
  · obtain ⟨c, cs, rfl⟩ := List.exists_cons_of_ne_nil h.1
    obtain ⟨n, hn⟩ : ∃ n, point.toNat = n + 1 := Nat.exists_eq_add_one.mpr (by omega)
    obtain ⟨hc, hcs⟩ := List.forall_mem_cons.mp h.2
    rw [hn, List.take_succ_cons]
    refine IsDigits.isWhole ⟨List.cons_ne_nil _ _, ?_⟩ hhead
    refine List.forall_mem_append.mpr ⟨List.forall_mem_cons.mpr ⟨hc, ?_⟩,
      isPlainDigit_of_mem_replicate⟩
    exact fun x hx => hcs x (List.mem_of_mem_take hx)

/-- What stands behind it are digits. -/
theorem isDigits_placesPart (point : Int) : IsDigits (placesPart digits point) := by
  rw [placesPart]
  split
  · exact .prepend isPlainDigit_of_mem_replicate h
  split
  · exact isWhole_zero.1
  · rename_i hempty
    exact ⟨mt List.isEmpty_iff.mpr hempty, fun x hx => h.2 x (List.mem_of_mem_drop hx)⟩

variable {sign : List Char} (hsign : sign ∈ [[], ['-']])

include hsign

theorem isDecimal_positional (hhead : digits.head? ≠ some '0') (point : Int) :
    IsDecimal (sign ++ (positional digits point).toList) := by
  refine ⟨sign, wholePart digits point, '.' :: placesPart digits point, [], ?_, hsign,
    isWhole_wholePart h hhead point, .inr ⟨_, rfl, isDigits_placesPart h point⟩, .inl rfl⟩
  rw [toList_positional, List.append_nil]

/-- With an exponent it is a decimal too. -/
theorem isDecimal_scientific (exponent : Int) :
    IsDecimal (sign ++ (scientific digits exponent).toList) := by
  obtain ⟨c, cs, rfl⟩ := List.exists_cons_of_ne_nil h.1
  obtain ⟨hc, hcs⟩ := List.forall_mem_cons.mp h.2
  refine ⟨sign, [c], if cs = [] then [] else '.' :: cs,
    'e' :: (if exponent < 0 then '-' else '+') :: _, ?_, hsign,
    ⟨⟨List.cons_ne_nil _ _, List.forall_mem_singleton.mpr hc⟩, ?_⟩, ?_,
    .inr ⟨_, _, rfl, ?_, isDigits_exponentPart exponent⟩⟩
  · rw [toList_scientific]
    rfl
  · exact fun hzero => congrArg (fun c => [c]) (Option.some.inj hzero)
  · split
    · exact .inl rfl
    · rename_i hne
      exact .inr ⟨cs, rfl, hne, hcs⟩
  · split <;> decide

end Spelled

/-- **A finite floating-point number is written as a decimal literal.** -/
theorem isDecimal_spell (f : FloatFormat) (s : Bool) (m : Nat) (q : Int) :
    IsDecimal ((Binary64.finite s m q).spell f).toList := by
  have hsign : (if s then "-" else "").toList ∈ [[], ['-']] := by
    cases s <;> decide
  simp only [Binary64.spell, String.toList_append]
  generalize (if s then "-" else "").toList = sign at hsign ⊢
  by_cases hm : m = 0
  · rw [if_pos hm]
    exact ⟨_, ['0'], ['.', '0'], [], rfl, hsign, isWhole_zero,
      .inr ⟨['0'], rfl, isWhole_zero.1⟩, .inl rfl⟩
  rw [if_neg hm]
  have hdigits := Decimal.isDigits_significant (Decimal.shortest m q)
  split
  · obtain hzero | hne := Decimal.digits_shortest hm q
    · rw [hzero]
      exact ⟨_, ['0'], ['.', '0'], [], rfl, hsign, isWhole_zero,
        .inr ⟨['0'], rfl, isWhole_zero.1⟩, .inl rfl⟩
    · exact isDecimal_positional hdigits hsign (Decimal.head?_significant hne) _
  · exact isDecimal_scientific hdigits hsign _

/-- The characters of decimal literals. -/
theorem IsDecimal.mem {cs : List Char} (h : IsDecimal cs) {c : Char} (hc : c ∈ cs) :
    isPlainDigit c = true ∨ c ∈ ['-', '.', 'e', '+'] := by
  obtain ⟨sign, whole, places, exponent, rfl, hsign, ⟨hwhole, -⟩, hplaces, hexponent⟩ := h
  obtain hc | hc | hc | hc : c ∈ sign ∨ c ∈ whole ∨ c ∈ places ∨ c ∈ exponent := by
    simpa only [List.mem_append] using hc
  · rw [List.mem_cons, List.mem_singleton] at hsign
    obtain rfl | rfl := hsign
    · cases hc
    · rw [List.mem_singleton.mp hc]
      exact .inr (by decide)
  · exact .inl (hwhole.2 c hc)
  · obtain rfl | ⟨ds, rfl, hds⟩ := hplaces
    · cases hc
    · obtain rfl | hc := List.mem_cons.mp hc
      · exact .inr (by decide)
      · exact .inl (hds.2 c hc)
  · obtain rfl | ⟨mark, ds, rfl, hmark, hds⟩ := hexponent
    · cases hc
    · obtain rfl | rfl | hc : c = 'e' ∨ c = mark ∨ c ∈ ds := by
        simpa only [List.mem_cons] using hc
      · exact .inr (by decide)
      · have hall : ∀ c ∈ ['+', '-'], c ∈ ['-', '.', 'e', '+'] := by decide
        exact .inr (hall c hmark)
      · exact .inl (hds.2 c hc)

end Scaffold.Number
