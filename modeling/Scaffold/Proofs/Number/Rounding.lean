import Mathlib.Algebra.Order.Field.Power
import Mathlib.Data.Rat.Cast.Order
import Mathlib.Tactic.FieldSimp
import Mathlib.Tactic.Linarith
import Mathlib.Tactic.NormNum
import Mathlib.Tactic.Positivity
import Mathlib.Tactic.Ring
import Scaffold.Number.Binary64

/-!
# Proofs/Number/Rounding — which quotients round to a floating-point number

Around a number `m · 2^q` lie the quotients that round to it (`RoundsTo`): up to half a unit away,
or a quarter below a power of two, and the ends belong to even significands.  Each of them is
rounded to that number (`ofRatio_of_roundsTo`), also when it is given as a decimal
(`ofDecimal_of_roundsTo`).
-/

namespace Scaffold.Number.Binary64

/-! ## Numbers that are stored -/

/-- The significand and the exponent of a finite number. -/
structure IsStored (m : Nat) (q : Int) : Prop where
  lt : m < 2 ^ 53
  normal : 2 ^ 52 ≤ m ∨ q = -1074
  least : -1074 ≤ q
  greatest : q ≤ 971

/-- A number of 64 bits. -/
def IsProper : Binary64 → Prop
  | .nan | .infinite _ => True
  | .finite _ m q => IsStored m q

theorem isStored_zero : IsStored 0 (-1074) := ⟨by decide, .inr rfl, le_rfl, by decide⟩

/-! ## Rounding to whole numbers -/

/-- A quotient at most a half away is rounded to the whole number, if that is even or nearer. -/
theorem nearest_eq {a b n : Nat} (hb : 0 < b) (hlow : 2 * n * b ≤ 2 * a + b)
    (hhigh : 2 * a ≤ 2 * n * b + b)
    (htie : n % 2 = 1 → 2 * n * b < 2 * a + b ∧ 2 * a < 2 * n * b + b) : nearest a b = n := by
  have hdivision := Nat.div_add_mod a b
  have hrest := Nat.mod_lt a hb
  have hcases : nearest a b =
      if 2 * (a % b) < b ∨ 2 * (a % b) = b ∧ a / b % 2 = 0 then a / b else a / b + 1 := by
    simp [nearest]
  rw [hcases]
  generalize a / b = w at *
  generalize a % b = r at *
  subst hdivision
  obtain hn | rfl | rfl | hn : n < w ∨ n = w ∨ n = w + 1 ∨ w + 1 < n := by omega
  · have := Nat.mul_le_mul_left b hn
    exfalso
    grind
  · rw [if_pos]
    have hdouble : 2 * (b * n + r) = 2 * n * b + 2 * r := by ring
    omega
  · rw [if_neg]
    have hdouble : 2 * (b * w + r) = 2 * w * b + 2 * r := by ring
    have hnext : 2 * (w + 1) * b = 2 * w * b + 2 * b := by ring
    omega
  · have := Nat.mul_le_mul_left b hn
    exfalso
    grind

/-- As quotients: at most a half away, and less unless the whole number is even. -/
theorem nearest_eq_of_ratio {a b n : Nat} (hb : 0 < b) (hlow : (n : ℚ) - 1 / 2 ≤ a / b)
    (hhigh : (a : ℚ) / b ≤ n + 1 / 2)
    (htie : n % 2 = 1 → (n : ℚ) - 1 / 2 < a / b ∧ (a : ℚ) / b < n + 1 / 2) :
    nearest a b = n := by
  have hpos : (0 : ℚ) < b := by exact_mod_cast hb
  rw [le_div_iff₀ hpos] at hlow
  rw [div_le_iff₀ hpos] at hhigh
  rw [lt_div_iff₀ hpos, div_lt_iff₀ hpos] at htie
  refine nearest_eq hb ?_ ?_ fun hodd => ?_
  · have : (2 * n * b : ℚ) ≤ 2 * a + b := by linarith
    exact_mod_cast this
  · have : (2 * a : ℚ) ≤ 2 * n * b + b := by linarith
    exact_mod_cast this
  · obtain ⟨hlow, hhigh⟩ := htie hodd
    have hlow : (2 * n * b : ℚ) < 2 * a + b := by linarith
    have hhigh : (2 * a : ℚ) < 2 * n * b + b := by linarith
    exact ⟨by exact_mod_cast hlow, by exact_mod_cast hhigh⟩

/-! ## The exponent of a quotient -/

/-- A quotient in units of `2^q`. -/
def scaled (num den : Nat) (q : Int) : Nat × Nat :=
  if 0 ≤ q then (num, den <<< q.toNat) else (num <<< (-q).toNat, den)

/-- The exponent of the numbers among which a quotient lies. -/
def scale (num den : Nat) : Int :=
  let start : Int := max ((num.log2 : Int) - den.log2 - 53) (-1074)
  if (scaled num den start).1 / (scaled num den start).2 < 1 <<< 53 then start else start + 1

/-- A significand of one digit too many gives way to the next exponent. -/
def carried (m : Nat) (q : Int) : Nat × Int := if m = 1 <<< 53 then (1 <<< 52, q + 1) else (m, q)

theorem ofRatio_eq (s : Bool) {num : Nat} (h : num ≠ 0) (den : Nat) :
    ofRatio s num den =
      let q := scale num den
      let c := carried (nearest (scaled num den q).1 (scaled num den q).2) q
      if 971 < c.2 then .infinite s else .finite s c.1 c.2 := by
  rw [ofRatio, if_neg h]
  rfl

theorem carried_two_pow (q : Int) : carried (2 ^ 53) q = (2 ^ 52, q + 1) := rfl

theorem carried_of_ne {m : Nat} (h : m ≠ 2 ^ 53) (q : Int) : carried m q = (m, q) := if_neg h

theorem zpow_toNat {q : Int} (h : 0 ≤ q) : ((2 : ℚ) ^ q) = 2 ^ q.toNat := by
  obtain ⟨n, rfl⟩ := Int.eq_ofNat_of_zero_le h
  rw [zpow_natCast, Int.toNat_natCast]

theorem scaled_pos {num den : Nat} (hden : den ≠ 0) (q : Int) : 0 < (scaled num den q).2 := by
  rw [scaled]
  split
  · rw [Nat.shiftLeft_eq]
    positivity
  · exact Nat.pos_of_ne_zero hden

/-- Scaling moves a ratio by a power of two. -/
theorem scaled_ratio (num den : Nat) (q : Int) :
    ((scaled num den q).1 : ℚ) / (scaled num den q).2 = num / den / 2 ^ q := by
  rw [scaled]
  split
  · rename_i hq
    rw [zpow_toNat hq, Nat.shiftLeft_eq, Nat.cast_mul, Nat.cast_pow, Nat.cast_ofNat, div_div]
  · rename_i hq
    have hneg : (2 : ℚ) ^ q = (2 ^ (-q).toNat)⁻¹ := by
      rw [← zpow_toNat (by omega), ← zpow_neg, neg_neg]
    rw [hneg, Nat.shiftLeft_eq, Nat.cast_mul, Nat.cast_pow, Nat.cast_ofNat, div_inv_eq_mul,
      mul_div_right_comm]

/-- The quotient lies among the numbers with the exponent. -/
structure InScale (x : ℚ) (q : Int) : Prop where
  lt : x < 2 ^ 53 * 2 ^ q
  normal : 2 ^ 52 * 2 ^ q ≤ x ∨ q = -1074
  least : -1074 ≤ q

theorem two_pow_mul_zpow (n : Nat) (q : Int) : (2 : ℚ) ^ n * 2 ^ q = 2 ^ (n + q) := by
  rw [zpow_add₀ two_ne_zero, zpow_natCast]

/-- A number has one scale, since scales do not overlap. -/
theorem InScale.le_of_inScale {x : ℚ} {q r : Int} (hq : InScale x q) (hr : InScale x r) :
    q ≤ r := by
  obtain hnormal | rfl := hq.normal
  · have hlt := hnormal.trans_lt hr.lt
    rw [two_pow_mul_zpow, two_pow_mul_zpow, zpow_lt_zpow_iff_right₀ one_lt_two] at hlt
    push_cast at hlt
    omega
  · exact hr.least

theorem InScale.unique {x : ℚ} {q r : Int} (hq : InScale x q) (hr : InScale x r) : q = r :=
  le_antisymm (hq.le_of_inScale hr) (hr.le_of_inScale hq)

/-- The powers of two around a quotient. -/
theorem log2_ratio {num den : Nat} (hnum : num ≠ 0) (hden : den ≠ 0) :
    (2 : ℚ) ^ ((num.log2 : Int) - den.log2 - 1) < num / den ∧
      (num : ℚ) / den < 2 ^ ((num.log2 : Int) - den.log2 + 1) := by
  have hlog {n : Nat} (h : n ≠ 0) : (2 : ℚ) ^ n.log2 ≤ n ∧ (n : ℚ) < 2 ^ (n.log2 + 1) :=
    ⟨by exact_mod_cast Nat.log2_self_le h, by exact_mod_cast Nat.lt_log2_self⟩
  obtain ⟨hnumLow, hnumHigh⟩ := hlog hnum
  obtain ⟨hdenLow, hdenHigh⟩ := hlog hden
  have hpow (a b : Nat) : (2 : ℚ) ^ ((a : Int) - b) = 2 ^ a / 2 ^ b := by
    rw [zpow_sub₀ two_ne_zero, zpow_natCast, zpow_natCast]
  have hpos : (0 : ℚ) < den := by exact_mod_cast Nat.pos_of_ne_zero hden
  have hnumPos : (0 : ℚ) < num := by exact_mod_cast Nat.pos_of_ne_zero hnum
  constructor
  · have hexponent : (num.log2 : Int) - den.log2 - 1 = num.log2 - (den.log2 + 1 : Nat) := by
      push_cast
      ring
    rw [hexponent, hpow]
    calc (2 : ℚ) ^ num.log2 / 2 ^ (den.log2 + 1)
      _ ≤ num / 2 ^ (den.log2 + 1) := by gcongr
      _ < num / den := by gcongr
  · have hexponent : (num.log2 : Int) - den.log2 + 1 = (num.log2 + 1 : Nat) - den.log2 := by
      push_cast
      ring
    rw [hexponent, hpow]
    calc (num : ℚ) / den
      _ < 2 ^ (num.log2 + 1) / den := by gcongr
      _ ≤ 2 ^ (num.log2 + 1) / 2 ^ den.log2 := by gcongr

theorem div_lt_iff_ratio {a b n : Nat} (hb : 0 < b) : a / b < n ↔ (a : ℚ) / b < n := by
  rw [Nat.div_lt_iff_lt_mul hb, div_lt_iff₀ (by exact_mod_cast hb)]
  norm_cast

/-- The scale that is computed is the scale of the ratio. -/
theorem inScale_scale {num den : Nat} (hnum : num ≠ 0) (hden : den ≠ 0) :
    InScale (num / den) (scale num den) := by
  obtain ⟨hlow, hhigh⟩ := log2_ratio hnum hden
  unfold scale
  extract_lets start
  have hstart : (num.log2 : Int) - den.log2 - 53 ≤ start := le_max_left _ _
  have hleast : -1074 ≤ start := le_max_right _ _
  have hfits : (scaled num den start).1 / (scaled num den start).2 < 1 <<< 53 ↔
      (num / den : ℚ) < 2 ^ 53 * 2 ^ start := by
    rw [div_lt_iff_ratio (scaled_pos hden start), scaled_ratio, div_lt_iff₀ (by positivity),
      Nat.one_shiftLeft, Nat.cast_pow, Nat.cast_ofNat]
  split
  · rename_i hlt
    refine ⟨hfits.mp hlt, ?_, hleast⟩
    obtain heq | heq := max_choice ((num.log2 : Int) - den.log2 - 53) (-1074)
    · refine .inl (le_of_lt (lt_of_eq_of_lt ?_ hlow))
      have hexponent : start = num.log2 - den.log2 - 53 := heq
      rw [two_pow_mul_zpow, hexponent]
      congr 1
      push_cast
      ring
    · exact .inr heq
  · rename_i hge
    rw [hfits, not_lt, two_pow_mul_zpow] at hge
    refine ⟨hhigh.trans_le ?_, .inl ?_, by omega⟩
    · rw [two_pow_mul_zpow]
      refine zpow_le_zpow_right₀ one_le_two ?_
      push_cast
      omega
    · rw [two_pow_mul_zpow]
      refine le_of_eq_of_le ?_ hge
      congr 1
      push_cast
      ring

/-! ## Rounding -/

/-- How far below `m · 2^q` the quotients lie that round to it, in units of `2^q`: the numbers below
a power of two are closer to each other. -/
def reach (m : Nat) (q : Int) : ℚ := if m = 2 ^ 52 ∧ -1074 < q then 1 / 4 else 1 / 2

/-- The quotient rounds to `m · 2^q`: it is nearest to it, and a tie belongs to even significands. -/
structure RoundsTo (x : ℚ) (m : Nat) (q : Int) : Prop where
  low : (m - reach m q) * 2 ^ q ≤ x
  high : x ≤ (m + 1 / 2) * 2 ^ q
  tie : m % 2 = 1 → (m - reach m q) * 2 ^ q < x ∧ x < (m + 1 / 2) * 2 ^ q

theorem reach_le (m : Nat) (q : Int) : reach m q ≤ 1 / 2 := by
  rw [reach]
  split <;> norm_num

theorem pos_reach (m : Nat) (q : Int) : 0 < reach m q := by
  rw [reach]
  split <;> norm_num

/-- Half a unit around a whole number it is the nearest, and on the border if it is even. -/
theorem nearest_scaled {num den n : Nat} (hden : den ≠ 0) (q : Int)
    (hlow : ((n : ℚ) - 1 / 2) * 2 ^ q ≤ num / den) (hhigh : (num / den : ℚ) ≤ (n + 1 / 2) * 2 ^ q)
    (htie : n % 2 = 1 → ((n : ℚ) - 1 / 2) * 2 ^ q < num / den ∧
      (num / den : ℚ) < (n + 1 / 2) * 2 ^ q) :
    nearest (scaled num den q).1 (scaled num den q).2 = n := by
  have hpos : (0 : ℚ) < 2 ^ q := by positivity
  rw [← le_div_iff₀ hpos] at hlow
  rw [← div_le_iff₀ hpos] at hhigh
  rw [← lt_div_iff₀ hpos, ← div_lt_iff₀ hpos] at htie
  refine nearest_eq_of_ratio (scaled_pos hden q) ?_ ?_ ?_ <;> rwa [scaled_ratio]

theorem RoundsTo.pos {x : ℚ} {m : Nat} {q : Int} (hm : m ≠ 0) (h : RoundsTo x m q) : 0 < x := by
  have hone : (1 : ℚ) ≤ m := by exact_mod_cast Nat.one_le_iff_ne_zero.mpr hm
  have hreach := reach_le m q
  refine lt_of_lt_of_le ?_ h.low
  exact mul_pos (by linarith) (by positivity)

/-- A quotient with the exponent of the number. -/
theorem inScale_of_roundsTo {x : ℚ} {m : Nat} {q : Int} (h : IsStored m q) (hx : RoundsTo x m q)
    (hnormal : 2 ^ 52 * 2 ^ q ≤ x ∨ q = -1074) : InScale x q := by
  have hlt : (m : ℚ) + 1 ≤ 2 ^ 53 := by exact_mod_cast h.lt
  refine ⟨hx.high.trans_lt ?_, hnormal, h.least⟩
  gcongr
  linarith

/-- A quotient below the exponent of the number lies just below a power of two. -/
theorem eq_two_pow_of_roundsTo {x : ℚ} {m : Nat} {q : Int} (h : IsStored m q) (hx : RoundsTo x m q)
    (hbelow : x < 2 ^ 52 * 2 ^ q) (hq : q ≠ -1074) :
    m = 2 ^ 52 ∧ (2 ^ 53 - 1 / 2) * 2 ^ (q - 1) ≤ x ∧ x < 2 ^ 53 * 2 ^ (q - 1) := by
  have hleast : -1074 < q := lt_of_le_of_ne h.least (Ne.symm hq)
  have hhalf : (2 : ℚ) ^ q = 2 * 2 ^ (q - 1) := by
    rw [zpow_sub_one₀ two_ne_zero]
    ring
  have hpower : m = 2 ^ 52 := by
    refine le_antisymm (Nat.lt_succ_iff.mp ?_) (h.normal.resolve_right hq)
    have hlt := lt_of_mul_lt_mul_right (hx.low.trans_lt hbelow) (by positivity)
    have hreach := reach_le m q
    have : (m : ℚ) < (2 ^ 52 + 1 : Nat) := by
      push_cast
      linarith
    exact_mod_cast this
  have hlow := hx.low
  rw [reach, if_pos ⟨hpower, hleast⟩, hpower, hhalf] at hlow
  rw [hhalf] at hbelow
  push_cast at hlow
  exact ⟨hpower, by linarith, by linarith⟩

/-- **Every quotient that rounds to a number is rounded to it.** -/
theorem ofRatio_of_roundsTo (s : Bool) {num den m : Nat} {q : Int} (hden : den ≠ 0) (hm : m ≠ 0)
    (h : IsStored m q) (hx : RoundsTo (num / den) m q) : ofRatio s num den = .finite s m q := by
  have hnum : num ≠ 0 := by
    rintro rfl
    exact absurd (hx.pos hm) (by simp)
  have hscale := inScale_scale hnum hden
  rw [ofRatio_eq s hnum]
  by_cases hnormal : 2 ^ 52 * 2 ^ q ≤ (num / den : ℚ) ∨ q = -1074
  · have hq : scale num den = q := hscale.unique (inScale_of_roundsTo h hx hnormal)
    have hwide : ((m : ℚ) - 1 / 2) * 2 ^ q ≤ (m - reach m q) * 2 ^ q := by
      have hreach := reach_le m q
      gcongr
    have hnearest : nearest (scaled num den q).1 (scaled num den q).2 = m :=
      nearest_scaled hden q (hwide.trans hx.low) hx.high fun hodd =>
        ⟨hwide.trans_lt (hx.tie hodd).1, (hx.tie hodd).2⟩
    dsimp only
    rw [hq, hnearest, carried_of_ne (Nat.ne_of_lt h.lt), if_neg (not_lt.mpr h.greatest)]
  · -- a carry makes the significand of the numbers below a power of two
    obtain ⟨hbelow, hq⟩ := not_or.mp hnormal
    obtain ⟨rfl, hlow, hhigh⟩ := eq_two_pow_of_roundsTo h hx (not_le.mp hbelow) hq
    have hpos : (0 : ℚ) < 2 ^ (q - 1) := by positivity
    have hleast := h.least
    have hq : scale num den = q - 1 :=
      hscale.unique ⟨hhigh, .inl (by linarith), by omega⟩
    have hnearest : nearest (scaled num den (q - 1)).1 (scaled num den (q - 1)).2 = 2 ^ 53 := by
      refine nearest_scaled hden (q - 1) ?_ ?_ fun hodd => absurd hodd (by decide)
      · push_cast
        exact hlow
      · push_cast
        linarith
    dsimp only
    rw [hq, hnearest, carried_two_pow, Int.sub_add_cancel, if_neg (not_lt.mpr h.greatest)]

/-- What a ratio is rounded to is stored in a unique way. -/
theorem isProper_ofRatio (s : Bool) (num : Nat) {den : Nat} (hden : den ≠ 0) :
    (ofRatio s num den).IsProper := by
  by_cases hnum : num = 0
  · rw [ofRatio, if_pos hnum]
    exact isStored_zero
  have hscale := inScale_scale hnum hden
  rw [ofRatio_eq s hnum]
  dsimp only
  generalize scale num den = q at hscale ⊢
  have hpos : (0 : ℚ) < 2 ^ q := by positivity
  have hlt : (scaled num den q).1 / (scaled num den q).2 < 2 ^ 53 := by
    rw [div_lt_iff_ratio (scaled_pos hden q), scaled_ratio, div_lt_iff₀ hpos]
    exact_mod_cast hscale.lt
  have hnormal : 2 ^ 52 ≤ (scaled num den q).1 / (scaled num den q).2 ∨ q = -1074 := by
    refine hscale.normal.imp_left fun hle => ?_
    rw [← not_lt, div_lt_iff_ratio (scaled_pos hden q), scaled_ratio, div_lt_iff₀ hpos, not_lt]
    exact_mod_cast hle
  have hnearest (a b : Nat) : a / b ≤ nearest a b ∧ nearest a b ≤ a / b + 1 := by
    rw [nearest]
    split <;> omega
  obtain ⟨hlow, hhigh⟩ := hnearest (scaled num den q).1 (scaled num den q).2
  generalize nearest (scaled num den q).1 (scaled num den q).2 = m at *
  generalize (scaled num den q).1 / (scaled num den q).2 = whole at *
  have hleast := hscale.least
  by_cases hcarry : m = 2 ^ 53
  · rw [hcarry, carried_two_pow]
    dsimp only
    split
    · trivial
    · exact ⟨by decide, .inl le_rfl, by omega, by omega⟩
  · rw [carried_of_ne hcarry]
    dsimp only
    split
    · trivial
    · exact ⟨by omega, by omega, hleast, by omega⟩

/-! ## Decimals -/

/-- So is what a decimal is rounded to. -/
theorem isProper_ofDecimal (s : Bool) (digits : Nat) (exponent : Int) :
    (ofDecimal s digits exponent).IsProper := by
  have hpower (n : Nat) : Nat.pow 10 n ≠ 0 := Nat.ne_of_gt (Nat.pow_pos (by decide))
  rw [ofDecimal]
  split
  · exact isProper_ofRatio s 0 one_ne_zero
  split
  · trivial
  split
  · exact isProper_ofRatio s _ one_ne_zero
  split
  · exact isProper_ofRatio s 0 one_ne_zero
  · exact isProper_ofRatio s _ (hpower _)

/-- What is rounded to a number is not too large for one, -/
theorem lt_of_roundsTo {x : ℚ} {m : Nat} {q : Int} (h : IsStored m q) (hx : RoundsTo x m q) :
    x < 2 ^ (1024 : Int) := by
  have hlt : (m : ℚ) + 1 ≤ 2 ^ 53 := by exact_mod_cast h.lt
  have hpower : (2 : ℚ) ^ q ≤ 2 ^ (971 : Int) := zpow_le_zpow_right₀ one_le_two h.greatest
  calc x
    _ ≤ (m + 1 / 2) * 2 ^ q := hx.high
    _ < 2 ^ 53 * 2 ^ q := by
      gcongr
      linarith
    _ ≤ 2 ^ 53 * 2 ^ (971 : Int) := by gcongr
    _ = 2 ^ (1024 : Int) := two_pow_mul_zpow 53 971

/-- nor too small. -/
theorem le_of_roundsTo {x : ℚ} {m : Nat} {q : Int} (hm : m ≠ 0) (h : IsStored m q)
    (hx : RoundsTo x m q) : 2 ^ (-1075 : Int) ≤ x := by
  have hone : (1 : ℚ) ≤ m := by exact_mod_cast Nat.one_le_iff_ne_zero.mpr hm
  have hreach := reach_le m q
  have hpower : (2 : ℚ) ^ (-1074 : Int) ≤ 2 ^ q := zpow_le_zpow_right₀ one_le_two h.least
  calc (2 : ℚ) ^ (-1075 : Int)
    _ = 1 / 2 * 2 ^ (-1074 : Int) := by
      have hexponent : (-1075 : Int) = -1074 - 1 := rfl
      rw [hexponent, zpow_sub_one₀ two_ne_zero]
      ring
    _ ≤ (m - reach m q) * 2 ^ q :=
      mul_le_mul (by linarith) hpower (by positivity) (by linarith)
    _ ≤ x := hx.low

theorem two_pow_le_ten_pow (n : Nat) : (2 : ℚ) ^ (3 * n) ≤ 10 ^ n := by
  rw [pow_mul]
  gcongr
  norm_num

/-- A decimal so large that it is not looked at lies above all numbers. -/
theorem le_of_lt_exponent {digits : Nat} (hdigits : digits ≠ 0) {exponent : Int}
    (h : 400 < exponent) : 2 ^ (1024 : Int) ≤ (digits : ℚ) * 10 ^ exponent := by
  have hone : (1 : ℚ) ≤ digits := by exact_mod_cast Nat.one_le_iff_ne_zero.mpr hdigits
  calc (2 : ℚ) ^ (1024 : Int)
    _ ≤ 2 ^ ((3 * 401 : Nat) : Int) := zpow_le_zpow_right₀ one_le_two (by decide)
    _ = 2 ^ (3 * 401) := zpow_natCast _ _
    _ ≤ 10 ^ 401 := two_pow_le_ten_pow 401
    _ = 10 ^ ((401 : Nat) : Int) := (zpow_natCast _ _).symm
    _ ≤ 10 ^ exponent := zpow_le_zpow_right₀ (by norm_num) h
    _ ≤ digits * 10 ^ exponent := le_mul_of_one_le_left (by positivity) hone

/-- A decimal so small that it is not looked at lies below all numbers. -/
theorem lt_of_log2 {digits : Nat} {exponent : Int}
    (h : (digits.log2 : Int) + 1 < -exponent * 3 - 1100) :
    (digits : ℚ) * 10 ^ exponent < 2 ^ (-1075 : Int) := by
  obtain ⟨n, rfl⟩ : ∃ n : Nat, exponent = -n := ⟨exponent.natAbs, by omega⟩
  have hdigits : (digits : ℚ) < 2 ^ (digits.log2 + 1) := by exact_mod_cast Nat.lt_log2_self
  have hten : (0 : ℚ) < 10 ^ n := by positivity
  rw [zpow_neg, zpow_natCast, ← div_eq_mul_inv, div_lt_iff₀ hten]
  calc (digits : ℚ)
    _ < 2 ^ (digits.log2 + 1) := hdigits
    _ = 2 ^ ((digits.log2 + 1 : Nat) : Int) := (zpow_natCast _ _).symm
    _ ≤ 2 ^ ((-1075 : Int) + (3 * n : Nat)) := by
      refine zpow_le_zpow_right₀ one_le_two ?_
      push_cast
      omega
    _ = 2 ^ (-1075 : Int) * 2 ^ (3 * n) := by rw [zpow_add₀ two_ne_zero, zpow_natCast]
    _ ≤ 2 ^ (-1075 : Int) * 10 ^ n := by
      gcongr
      exact two_pow_le_ten_pow n

/-- **A decimal that rounds to a number is rounded to it**; it is neither so large nor so small that
it is not looked at. -/
theorem ofDecimal_of_roundsTo (s : Bool) {digits m : Nat} {exponent q : Int} (hm : m ≠ 0)
    (h : IsStored m q) (hx : RoundsTo (digits * 10 ^ exponent) m q) :
    ofDecimal s digits exponent = .finite s m q := by
  have hpos := hx.pos hm
  have hdigits : digits ≠ 0 := by
    rintro rfl
    exact absurd hpos (by simp)
  rw [ofDecimal, if_neg hdigits]
  by_cases hlarge : 400 < exponent
  · exact absurd (le_of_lt_exponent hdigits hlarge) (not_le.mpr (lt_of_roundsTo h hx))
  rw [if_neg hlarge]
  by_cases hwhole : 0 ≤ exponent
  · obtain ⟨n, rfl⟩ := Int.eq_ofNat_of_zero_le hwhole
    rw [if_pos hwhole]
    refine ofRatio_of_roundsTo s one_ne_zero hm h ?_
    rw [zpow_natCast] at hx
    simpa using hx
  rw [if_neg hwhole]
  by_cases hsmall : (digits.log2 : Int) + 1 < -exponent * 3 - 1100
  · exact absurd (lt_of_log2 hsmall) (not_lt.mpr (le_of_roundsTo hm h hx))
  · rw [if_neg hsmall]
    refine ofRatio_of_roundsTo s (Nat.ne_of_gt (Nat.pow_pos (by decide))) hm h ?_
    obtain ⟨n, rfl⟩ : ∃ n : Nat, exponent = -n := ⟨exponent.natAbs, by omega⟩
    rw [zpow_neg, zpow_natCast, ← div_eq_mul_inv] at hx
    simpa using hx

end Scaffold.Number.Binary64
