import Mathlib.Data.Nat.Digits.Defs
import Scaffold.Number.Numeral
import Scaffold.Number.Spelling
import Scaffold.Proofs.Number.Rounding
import Scaffold.Proofs.Text.Decimals

/-!
# Proofs/Number/Shortest — the fewest digits of a number round to it

A decimal on a grid is compared with the ends of the interval that rounds to a number
(`compareScaled_eq_lt_iff`), so what is found on a grid rounds to it (`roundsTo_of_onGrid?`).  With
seventeen digits two neighbours on the grid are closer than two neighbouring numbers, so one of them
is found (`roundsTo_shortest`).  The digits that are written for a decimal have its value, wherever
the point stands among them (`value_significant`, `value_positional`).
-/

namespace Scaffold.Number.Decimal

open Binary64

/-! ## Comparing -/

theorem zpow_mul_toNat {base : ℚ} (hbase : base ≠ 0) (k : Int) :
    base ^ k * base ^ (-k).toNat = base ^ k.toNat := by
  rw [← zpow_natCast, ← zpow_natCast, ← zpow_add₀ hbase]
  congr 1
  omega

section Compare

variable (a b : Nat) (p k : Int)

/-- Both sides in units small enough for whole numbers. -/
theorem exists_compareScaled_eq :
    ∃ left right : Nat, compareScaled a p b k = compare left right ∧ ∃ c : ℚ, 0 < c ∧
      (left : ℚ) = a * 2 ^ p * c ∧ (right : ℚ) = b * 10 ^ k * c := by
  refine ⟨_, _, rfl, 2 ^ (-p).toNat * 10 ^ (-k).toNat, by positivity, ?_, ?_⟩
  · push_cast [Nat.shiftLeft_eq, Nat.pow_eq]
    rw [← zpow_mul_toNat two_ne_zero p]
    ring
  · push_cast [Nat.shiftLeft_eq, Nat.pow_eq]
    rw [← zpow_mul_toNat (by norm_num : (10 : ℚ) ≠ 0) k]
    ring

theorem compareScaled_eq_lt_iff :
    compareScaled a p b k = .lt ↔ (a : ℚ) * 2 ^ p < b * 10 ^ k := by
  obtain ⟨left, right, heq, c, hc, hleft, hright⟩ := exists_compareScaled_eq a b p k
  rw [heq, Nat.compare_eq_lt, ← mul_lt_mul_iff_left₀ hc, ← hleft, ← hright, Nat.cast_lt]

theorem compareScaled_eq_gt_iff :
    compareScaled a p b k = .gt ↔ (b : ℚ) * 10 ^ k < a * 2 ^ p := by
  obtain ⟨left, right, heq, c, hc, hleft, hright⟩ := exists_compareScaled_eq a b p k
  rw [heq, Nat.compare_eq_gt, ← mul_lt_mul_iff_left₀ hc, ← hleft, ← hright, Nat.cast_lt]

theorem compareScaled_eq_eq_iff :
    compareScaled a p b k = .eq ↔ (a : ℚ) * 2 ^ p = b * 10 ^ k := by
  obtain ⟨left, right, heq, c, hc, hleft, hright⟩ := exists_compareScaled_eq a b p k
  rw [heq, Nat.compare_eq_eq, ← mul_left_inj' hc.ne', ← hleft, ← hright, Nat.cast_inj]

end Compare

/-! ## The leading digit -/

/-- The estimate of the leading digit is at most one too high. -/
theorem ten_zpow_estimate_le {e : Int} (hlow : -1074 ≤ e) (hhigh : e ≤ 1023) :
    (10 : ℚ) ^ (e * 30103 / 100000 - 1) ≤ 2 ^ e := by
  have hpositive : ∀ n < 1024, 10 ^ (n * 30103 / 100000) ≤ 10 * 2 ^ n := by decide +kernel
  have hnegative : ∀ n < 1075, 2 ^ n ≤ 10 ^ ((n * 30103 + 99999) / 100000 + 1) := by
    decide +kernel
  obtain ⟨n, rfl | rfl⟩ := Int.eq_nat_or_neg e
  · have hle : (10 : ℚ) ^ (n * 30103 / 100000) ≤ 10 * 2 ^ n := by
      exact_mod_cast hpositive n (by omega)
    have hexponent : (n : Int) * 30103 / 100000 = (n * 30103 / 100000 : Nat) := by omega
    rw [hexponent, zpow_sub_one₀ (by norm_num), zpow_natCast, zpow_natCast]
    linarith
  · have hle : (2 : ℚ) ^ n ≤ 10 ^ ((n * 30103 + 99999) / 100000 + 1) := by
      exact_mod_cast hnegative n (by omega)
    have hexponent : -(n : Int) * 30103 / 100000 - 1 =
        -((n * 30103 + 99999) / 100000 + 1 : Nat) := by omega
    rw [hexponent, zpow_neg, zpow_neg, zpow_natCast, zpow_natCast]
    exact inv_anti₀ (by positivity) hle

/-- The leading digit has a place. -/
theorem ten_zpow_leading_le {m : Nat} {q : Int} (hm : m ≠ 0) (h : IsStored m q) :
    (10 : ℚ) ^ leading m q ≤ m * 2 ^ q := by
  have htest {k : Int} (hk : (compareScaled m q 1 k != .lt) = true) :
      (10 : ℚ) ^ k ≤ m * 2 ^ q := by
    have hne : compareScaled m q 1 k ≠ .lt := by simpa using hk
    rwa [ne_eq, compareScaled_eq_lt_iff, Nat.cast_one, one_mul, not_lt] at hne
  unfold leading
  extract_lets guess
  split
  · exact htest ‹_›
  split
  · exact htest ‹_›
  · have hlog : m.log2 < 53 := (Nat.log2_lt hm).mpr h.lt
    have hleast := h.least
    have hgreatest := h.greatest
    have hpower : (2 : ℚ) ^ m.log2 ≤ m := by exact_mod_cast Nat.log2_self_le hm
    calc (10 : ℚ) ^ (guess - 1)
      _ ≤ 2 ^ ((m.log2 : Int) + q) := ten_zpow_estimate_le (by omega) (by omega)
      _ = 2 ^ m.log2 * 2 ^ q := (two_pow_mul_zpow m.log2 q).symm
      _ ≤ m * 2 ^ q := by gcongr

/-! ## Grids -/

/-- The decimal `d · 10^k` rounds to `m · 2^q`, as the search on a grid decides it. -/
def inside (m : Nat) (q k : Int) (d : Nat) : Bool :=
  let low := if m = 1 <<< 52 ∧ -1074 < q then 4 * m - 1 else 4 * m - 2
  match compareScaled low (q - 2) d k, compareScaled (4 * m + 2) (q - 2) d k with
  | .lt, .gt => true
  | .eq, _ | _, .eq => m % 2 == 0
  | _, _ => false

/-- The multiple of `10^k` at or below `m · 2^q`. -/
def below (m : Nat) (q k : Int) : Nat :=
  m <<< q.toNat * Nat.pow 10 (-k).toNat / Nat.pow 10 k.toNat <<< (-q).toNat

/-- On each grid there are two candidates, below and above. -/
theorem onGrid?_eq (m : Nat) (q k : Int) :
    onGrid? m q k =
      match inside m q k (below m q k), inside m q k (below m q k + 1) with
      | true, true =>
        match compareScaled (2 * m) q (2 * below m q k + 1) k with
        | .lt => some ⟨below m q k, k⟩
        | .gt => some ⟨below m q k + 1, k⟩
        | .eq => some ⟨if below m q k % 2 = 0 then below m q k else below m q k + 1, k⟩
      | true, false => some ⟨below m q k, k⟩
      | false, true => some ⟨below m q k + 1, k⟩
      | false, false => none := rfl

/-- What is found on a grid is one of two neighbours. -/
theorem onGrid?_eq_some {m : Nat} {q k : Int} {d : Decimal} (h : onGrid? m q k = some d) :
    inside m q k d.digits = true ∧ d.exponent = k := by
  rw [onGrid?_eq] at h
  split at h
  · rename_i hbelow hnext
    split at h <;> cases h
    · exact ⟨hbelow, rfl⟩
    · exact ⟨hnext, rfl⟩
    · refine ⟨?_, rfl⟩
      dsimp only
      split
      · exact hbelow
      · exact hnext
  · rename_i hbelow _
    cases h
    exact ⟨hbelow, rfl⟩
  · rename_i hnext
    cases h
    exact ⟨hnext, rfl⟩
  · cases h

/-- One of them inside is enough. -/
theorem onGrid?_ne_none {m : Nat} {q k : Int}
    (h : inside m q k (below m q k) = true ∨ inside m q k (below m q k + 1) = true) :
    onGrid? m q k ≠ none := by
  rw [onGrid?_eq]
  split
  · split <;> exact Option.some_ne_none _
  · exact Option.some_ne_none _
  · exact Option.some_ne_none _
  · rename_i hbelow hnext
    obtain h | h := h
    · rw [h] at hbelow
      cases hbelow
    · rw [h] at hnext
      cases hnext

section Inside

variable {m : Nat} (hm : m ≠ 0) (q k : Int) (d : Nat)

theorem zpow_sub_two (q : Int) : (2 : ℚ) ^ (q - 2) = 2 ^ q / 4 := by
  rw [zpow_sub₀ two_ne_zero]
  norm_num

theorem quarters_high : ((4 * m + 2 : Nat) : ℚ) * 2 ^ (q - 2) = (m + 1 / 2) * 2 ^ q := by
  rw [zpow_sub_two]
  push_cast
  ring

include hm

/-- The lower border in quarters of a unit. -/
theorem quarters_low :
    ((if m = 1 <<< 52 ∧ -1074 < q then 4 * m - 1 else 4 * m - 2 : Nat) : ℚ) * 2 ^ (q - 2) =
      (m - reach m q) * 2 ^ q := by
  have hone : (m : ℚ) = ((4 * m : Nat) : ℚ) / 4 := by
    push_cast
    ring
  rw [zpow_sub_two, reach]
  split
  · rename_i hpower
    have hpower : m = 2 ^ 52 ∧ -1074 < q := hpower
    rw [if_pos hpower, Nat.cast_sub (by omega), hone]
    push_cast
    ring
  · rename_i hpower
    have hpower : ¬(m = 2 ^ 52 ∧ -1074 < q) := hpower
    rw [if_neg hpower, Nat.cast_sub (by omega), hone]
    push_cast
    ring

/-- What the search accepts rounds to the number. -/
theorem roundsTo_of_inside {q k : Int} {d : Nat} (h : inside m q k d = true) :
    RoundsTo (d * 10 ^ k) m q := by
  have hlow := quarters_low hm q
  have hhigh := quarters_high (m := m) q
  have hends : (m - reach m q) * 2 ^ q < (m + 1 / 2) * 2 ^ q := by
    have := pos_reach m q
    gcongr
    linarith
  unfold inside at h
  extract_lets low at h
  have hlow : (low : ℚ) * 2 ^ (q - 2) = (m - reach m q) * 2 ^ q := hlow
  split at h
  · rename_i hlt hgt
    rw [compareScaled_eq_lt_iff, hlow] at hlt
    rw [compareScaled_eq_gt_iff, hhigh] at hgt
    exact ⟨hlt.le, hgt.le, fun _ => ⟨hlt, hgt⟩⟩
  · rename_i heq
    rw [compareScaled_eq_eq_iff, hlow] at heq
    refine ⟨heq.le, heq ▸ hends.le, fun hodd => ?_⟩
    simp [hodd] at h
  · rename_i heq _
    rw [compareScaled_eq_eq_iff, hhigh] at heq
    refine ⟨heq ▸ hends.le, heq.ge, fun hodd => ?_⟩
    simp [hodd] at h
  · cases h

/-- What is strictly between the borders is inside. -/
theorem inside_of_between {q k : Int} {d : Nat} (hlow : (m - reach m q) * 2 ^ q < d * 10 ^ k)
    (hhigh : (d : ℚ) * 10 ^ k < (m + 1 / 2) * 2 ^ q) : inside m q k d = true := by
  unfold inside
  extract_lets low
  have hends : (low : ℚ) * 2 ^ (q - 2) = (m - reach m q) * 2 ^ q := quarters_low hm q
  rw [← hends, ← compareScaled_eq_lt_iff] at hlow
  rw [← quarters_high, ← compareScaled_eq_gt_iff] at hhigh
  rw [hlow, hhigh]

end Inside

/-- The number lies between its two neighbours on the grid. -/
theorem below_bounds (m : Nat) (q k : Int) :
    (below m q k : ℚ) * 10 ^ k ≤ m * 2 ^ q ∧
      (m : ℚ) * 2 ^ q < (below m q k + 1 : Nat) * 10 ^ k := by
  -- the number and the width of the grid, in units small enough for whole numbers
  obtain ⟨num, hnum⟩ : ∃ n, m <<< q.toNat * Nat.pow 10 (-k).toNat = n := ⟨_, rfl⟩
  obtain ⟨width, hwidth⟩ : ∃ n, Nat.pow 10 k.toNat <<< (-q).toNat = n := ⟨_, rfl⟩
  have hc : (0 : ℚ) < 2 ^ (-q).toNat * 10 ^ (-k).toNat := by positivity
  have hnumRatio : (num : ℚ) = m * 2 ^ q * (2 ^ (-q).toNat * 10 ^ (-k).toNat) := by
    rw [← hnum]
    push_cast [Nat.shiftLeft_eq, Nat.pow_eq]
    rw [← zpow_mul_toNat two_ne_zero q]
    ring
  have hwidthRatio : (width : ℚ) = 10 ^ k * (2 ^ (-q).toNat * 10 ^ (-k).toNat) := by
    rw [← hwidth]
    push_cast [Nat.shiftLeft_eq, Nat.pow_eq]
    rw [← zpow_mul_toNat (by norm_num : (10 : ℚ) ≠ 0) k]
    ring
  have hpos : 0 < width := by
    rw [← Nat.cast_pos (α := ℚ), hwidthRatio]
    positivity
  rw [below, hnum, hwidth]
  constructor
  · rw [← mul_le_mul_iff_left₀ hc, ← hnumRatio, mul_assoc, ← hwidthRatio]
    exact_mod_cast Nat.div_mul_le_self num width
  · rw [← mul_lt_mul_iff_left₀ hc, ← hnumRatio, mul_assoc, ← hwidthRatio]
    exact_mod_cast Nat.lt_mul_of_div_lt (Nat.lt_succ_self (num / width)) hpos

/-- A grid finer than the numbers has a decimal that rounds to the number. -/
theorem onGrid?_ne_none_of_lt {m : Nat} (hm : m ≠ 0) {q k : Int}
    (h : (10 : ℚ) ^ k < (reach m q + 1 / 2) * 2 ^ q) : onGrid? m q k ≠ none := by
  obtain ⟨hbelow, hnext⟩ := below_bounds m q k
  have hpos : (0 : ℚ) < 2 ^ q := by positivity
  have hreach := pos_reach m q
  refine onGrid?_ne_none ?_
  by_cases hnear : m * 2 ^ q - reach m q * 2 ^ q < below m q k * 10 ^ k
  · refine .inl (inside_of_between hm (by linarith) (by linarith))
  · refine .inr (inside_of_between hm ?_ ?_)
    · nlinarith
    · push_cast
      linarith

/-- Seventeen digits make a grid that is fine enough. -/
theorem ten_zpow_lt {m : Nat} {q : Int} (hm : m ≠ 0) (h : IsStored m q) :
    (10 : ℚ) ^ (leading m q - 16) < (reach m q + 1 / 2) * 2 ^ q := by
  have hfew : (m : ℚ) < 10 ^ 16 * (reach m q + 1 / 2) := by
    rw [reach]
    split
    · rename_i hpower
      rw [hpower.1]
      norm_num
    · have hlt : (m : ℚ) < 2 ^ 53 := by exact_mod_cast h.lt
      refine hlt.trans ?_
      norm_num
  have hleading := ten_zpow_leading_le hm h
  rw [zpow_sub₀ (by norm_num), div_lt_iff₀ (by positivity)]
  calc (10 : ℚ) ^ leading m q
    _ ≤ m * 2 ^ q := hleading
    _ < 10 ^ 16 * (reach m q + 1 / 2) * 2 ^ q := by gcongr
    _ = (reach m q + 1 / 2) * 2 ^ q * 10 ^ (16 : Int) := by
      norm_num
      ring

/-- **The shortest decimal of a number rounds to it.** -/
theorem roundsTo_shortest {m : Nat} {q : Int} (hm : m ≠ 0) (h : IsStored m q) :
    RoundsTo ((shortest m q).digits * 10 ^ (shortest m q).exponent) m q := by
  rw [shortest, if_neg hm]
  dsimp only
  cases hfound : (List.range 17).findSome? fun n : Nat => onGrid? m q (leading m q - n) with
  | none =>
    rw [List.findSome?_eq_none_iff] at hfound
    exact absurd (hfound 16 (by decide)) (onGrid?_ne_none_of_lt hm (ten_zpow_lt hm h))
  | some d =>
    obtain ⟨n, -, hgrid⟩ := List.exists_of_findSome?_eq_some hfound
    obtain ⟨hinside, hexponent⟩ := onGrid?_eq_some hgrid
    rw [Option.getD_some, hexponent]
    exact roundsTo_of_inside hm hinside

end Scaffold.Number.Decimal

namespace Scaffold.Number

open Text

/-! ## Whole numbers -/

theorem natOfDigits_eq (ds : List Char) : Numeral.natOfDigits ds = Nat.ofDigitChars 10 ds 0 := by
  have hstep : (fun (n : Nat) (c : Char) => n * 10 + (c.toNat - 48)) =
      fun n c => 10 * n + (c.toNat - '0'.toNat) := by
    funext n c
    rw [Nat.mul_comm]
    rfl
  rw [Numeral.natOfDigits, hstep, Nat.ofDigitChars_eq_foldl]

theorem natOfDigits_append (xs ys : List Char) :
    Numeral.natOfDigits (xs ++ ys) =
      Numeral.natOfDigits xs * 10 ^ ys.length + Numeral.natOfDigits ys := by
  rw [natOfDigits_eq, natOfDigits_eq, natOfDigits_eq, Nat.ofDigitChars_append,
    Nat.ofDigitChars_eq_ofDigitChars_zero, Nat.mul_comm]

theorem natOfDigits_replicate (n : Nat) : Numeral.natOfDigits (List.replicate n '0') = 0 := by
  rw [natOfDigits_eq, Nat.ofDigitChars_replicate_zero, Nat.mul_zero]

theorem natOfDigits_toDigits (n : Nat) : Numeral.natOfDigits (Nat.toDigits 10 n) = n := by
  rw [natOfDigits_eq, Nat.ofDigitChars_ten_toDigits]

/-- So many digits write a number below that power of ten. -/
theorem natOfDigits_lt {ds : List Char} (h : ∀ c ∈ ds, isPlainDigit c = true) :
    Numeral.natOfDigits ds < 10 ^ ds.length := by
  induction ds using List.reverseRecOn with
  | nil => exact Nat.one_pos
  | append_singleton ds d ih =>
    obtain ⟨hds, hd⟩ := List.forall_mem_append.mp h
    have hlast : Numeral.natOfDigits [d] < 10 := by
      have hdigit := hd d (List.mem_singleton_self d)
      rw [isPlainDigit, Bool.and_eq_true, decide_eq_true_eq, decide_eq_true_eq] at hdigit
      have hnine : d.toNat ≤ 57 := hdigit.2
      change 0 * 10 + (d.toNat - 48) < 10
      omega
    rw [natOfDigits_append, List.length_append, List.length_singleton, pow_one, pow_succ]
    have := ih hds
    omega

/-- A number has no more digits than it was read from. -/
theorem length_toDigits_natOfDigits {ds : List Char} (h : IsDigits ds) :
    (Nat.toDigits 10 (Numeral.natOfDigits ds)).length ≤ ds.length :=
  Nat.toDigits_length 10 _ _ (List.length_pos_iff.mpr h.1) (natOfDigits_lt h.2)

/-! ## Decimals -/

/-- The value of digits with the point behind so many of them. -/
def valueAt (digits : List Char) (point : Int) : ℚ :=
  Numeral.natOfDigits digits * 10 ^ (point - digits.length)

/-- Zeros at the end do not count. -/
theorem valueAt_append_replicate (digits : List Char) (n : Nat) (point : Int) :
    valueAt (digits ++ List.replicate n '0') point = valueAt digits point := by
  rw [valueAt, valueAt, natOfDigits_append, natOfDigits_replicate, List.length_append,
    List.length_replicate, Nat.add_zero]
  push_cast
  rw [mul_assoc, ← zpow_natCast, ← zpow_add₀ (by norm_num)]
  congr 2
  ring

/-- Zeros in front move the point. -/
theorem valueAt_replicate_append (digits : List Char) (n : Nat) (point : Int) :
    valueAt (List.replicate n '0' ++ digits) (point + n) = valueAt digits point := by
  rw [valueAt, valueAt, natOfDigits_append, natOfDigits_replicate, Nat.zero_mul, Nat.zero_add,
    List.length_append, List.length_replicate]
  congr 2
  push_cast
  ring

/-- The digits that are kept of a decimal have its value. -/
theorem value_significant (d : Decimal) :
    valueAt d.significant.1 d.significant.2 = d.digits * 10 ^ d.exponent := by
  obtain ⟨zeros, hzeros, hwritten⟩ :=
    exists_eq_dropTail_append (· == '0') (Nat.toDigits 10 d.digits)
  have hreplicate : zeros = List.replicate zeros.length '0' :=
    List.eq_replicate_of_mem fun c hc => eq_of_beq (hzeros c hc)
  have hwhole : valueAt (Nat.toDigits 10 d.digits) d.significant.2 =
      d.digits * 10 ^ d.exponent := by
    rw [valueAt, natOfDigits_toDigits]
    congr 2
    exact add_sub_cancel_left _ _
  have hkept : valueAt (dropTail (· == '0') (Nat.toDigits 10 d.digits)) d.significant.2 =
      d.digits * 10 ^ d.exponent := by
    rw [← hwhole, ← valueAt_append_replicate _ zeros.length, ← hreplicate, ← hwritten]
  have hsignificant : d.significant.1 =
      if (dropTail (· == '0') (Nat.toDigits 10 d.digits)).isEmpty then ['0']
      else dropTail (· == '0') (Nat.toDigits 10 d.digits) := rfl
  rw [hsignificant]
  split
  · rename_i hempty
    rw [← hkept, List.isEmpty_iff.mp hempty]
    simp [valueAt, Numeral.natOfDigits]
  · exact hkept

/-- A positional spelling has the value of its digits. -/
theorem value_positional (digits : List Char) (point : Int) :
    valueAt (wholePart digits point ++ placesPart digits point) (wholePart digits point).length =
      valueAt digits point := by
  rw [wholePart, placesPart]
  split
  · obtain ⟨n, rfl⟩ : ∃ n : Nat, point = -n := ⟨(-point).toNat, by omega⟩
    have hzeros : ['0'] ++ (List.replicate (- -(n : Int)).toNat '0' ++ digits) =
        List.replicate (n + 1) '0' ++ digits := by
      rw [neg_neg, Int.toNat_natCast, List.replicate_succ]
      rfl
    rw [hzeros, ← valueAt_replicate_append digits (n + 1)]
    congr 1
    simp
  · obtain ⟨n, rfl⟩ : ∃ n : Nat, point = n := ⟨point.toNat, by omega⟩
    rw [Int.toNat_natCast]
    have hlength : (digits.take n ++ List.replicate (n - digits.length) '0').length = n := by
      rw [List.length_append, List.length_take, List.length_replicate]
      omega
    rw [hlength]
    split
    · rename_i hempty
      have hshort : digits.length ≤ n := List.drop_eq_nil_iff.mp (List.isEmpty_iff.mp hempty)
      have hzeros : digits.take n ++ List.replicate (n - digits.length) '0' ++ ['0'] =
          digits ++ List.replicate (n - digits.length + 1) '0' := by
        rw [List.take_of_length_le hshort, List.replicate_succ', List.append_assoc]
      rw [hzeros, valueAt_append_replicate]
    · rename_i hrest
      have hlong : n - digits.length = 0 := by
        rw [List.isEmpty_iff, List.drop_eq_nil_iff] at hrest
        omega
      rw [hlong, List.replicate_zero, List.append_nil, List.take_append_drop]

end Scaffold.Number
