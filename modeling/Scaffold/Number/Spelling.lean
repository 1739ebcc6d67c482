import Scaffold.Number.Binary64

/-!
# Number/Spelling — how numbers are written

Floating-point numbers are written with the fewest digits that read back, positionally while the
leading digit stands near the point, and with an exponent of at least two digits otherwise; a
`FloatFormat` says how near that is.  `places` writes a fixed number of decimal places.

Between two neighbouring numbers every decimal rounds to one of them.  `shortest` takes the first
number of digits whose decimal grid meets the interval that rounds to the given number, and on that
grid the point nearest to it.
-/

namespace Scaffold.Number

/-! ## The fewest digits -/

/-- The decimal `digits · 10^exponent`. -/
structure Decimal where
  digits : Nat
  exponent : Int
deriving DecidableEq, Repr, Inhabited

namespace Decimal

/-- Compares `a · 2^p` with `b · 10^k`. -/
def compareScaled (a : Nat) (p : Int) (b : Nat) (k : Int) : Ordering :=
  let left := a <<< p.toNat * Nat.pow 10 (-k).toNat
  let right := (b * Nat.pow 10 k.toNat) <<< (-p).toNat
  compare left right

/-- The exponent of the leading decimal digit of `m · 2^q`, for positive `m`. -/
def leading (m : Nat) (q : Int) : Int :=
  let guess := ((m.log2 : Int) + q) * 30103 / 100000
  if compareScaled m q 1 (guess + 1) != .lt then guess + 1
  else if compareScaled m q 1 guess != .lt then guess
  else guess - 1

/-- The decimal on the grid of multiples of `10^k` that rounds to `m · 2^q` and is nearest to it, if
the grid has one.  Of two equally near ones the even is taken. -/
def onGrid? (m : Nat) (q : Int) (k : Int) : Option Decimal :=
  -- in quarters of a unit: the number, and the ends of the interval that rounds to it
  let unit := q - 2
  let low := if m = 1 <<< 52 ∧ -1074 < q then 4 * m - 1 else 4 * m - 2
  let high := 4 * m + 2
  let inside (d : Nat) : Bool :=
    match compareScaled low unit d k, compareScaled high unit d k with
    | .lt, .gt => true
    | .eq, _ | _, .eq => m % 2 == 0
    | _, _ => false
  let below := m <<< q.toNat * Nat.pow 10 (-k).toNat / Nat.pow 10 k.toNat <<< (-q).toNat
  match inside below, inside (below + 1) with
  | true, true =>
    match compareScaled (2 * m) q (2 * below + 1) k with
    | .lt => some ⟨below, k⟩
    | .gt => some ⟨below + 1, k⟩
    | .eq => some ⟨if below % 2 = 0 then below else below + 1, k⟩
  | true, false => some ⟨below, k⟩
  | false, true => some ⟨below + 1, k⟩
  | false, false => none

/-- The shortest decimal that rounds to `m · 2^q`; seventeen digits always suffice. -/
def shortest (m : Nat) (q : Int) : Decimal :=
  if m = 0 then ⟨0, 0⟩
  else
    let top := leading m q
    ((List.range 17).findSome? fun (n : Nat) => onGrid? m q (top - n)).getD ⟨0, 0⟩

/-- The digits without trailing zeros, and the place of the decimal point counted from the first
digit. -/
def significant (d : Decimal) : List Char × Int :=
  let written := (Nat.toDigits 10 d.digits)
  let kept := (written.reverse.dropWhile (· == '0')).reverse
  (if kept.isEmpty then ['0'] else kept, written.length + d.exponent)

end Decimal

/-! ## Texts of numbers -/

/-- The texts of the numbers that have no digits. -/
structure SpecialTexts where
  nan : String
  infinite : String

/-- How a floating-point number is written. -/
structure FloatFormat where
  /-- Leading digits from `10^(-small)` on are written positionally. -/
  small : Int
  /-- Leading digits below `10^large` are written positionally. -/
  large : Int
  special : SpecialTexts

/-- The plain spelling: `1.0`, `1e+16`, `1e-05`, `inf`. -/
def FloatFormat.plain : FloatFormat := ⟨4, 16, ⟨"nan", "inf"⟩⟩

/-- The spelling inside a document: as `plain`, with `NaN` and `Infinity`. -/
def FloatFormat.document : FloatFormat := { FloatFormat.plain with special := ⟨"NaN", "Infinity"⟩ }

/-- The spelling inside a compact document, which has no text for the numbers without digits:
`1e+16`, `0.00001`, `null`. -/
def FloatFormat.compact : FloatFormat := ⟨5, 16, ⟨"null", "null"⟩⟩

/-- Pads a text on the left to `width`. -/
def padLeft (width : Nat) (fill : Char) (s : String) : String :=
  String.ofList (List.replicate (width - s.length) fill) ++ s

/-- Pads a text on the right to `width`. -/
def padRight (width : Nat) (fill : Char) (s : String) : String :=
  s ++ String.ofList (List.replicate (width - s.length) fill)

/-- Digits with the point after `point` of them, at least one digit on each side. -/
def positional (digits : List Char) (point : Int) : String :=
  if point ≤ 0 then
    "0." ++ String.ofList (List.replicate (-point).toNat '0' ++ digits)
  else
    let n := point.toNat
    let whole := digits.take n ++ List.replicate (n - digits.length) '0'
    let rest := digits.drop n
    String.ofList whole ++ "." ++ (if rest.isEmpty then "0" else String.ofList rest)

/-- Digits with the point after the first and an exponent of at least two digits. -/
def scientific (digits : List Char) (exponent : Int) : String :=
  let sign := if exponent < 0 then "-" else "+"
  let mantissa := String.ofList (digits.take 1) ++
    (if digits.length ≤ 1 then "" else "." ++ String.ofList (digits.drop 1))
  mantissa ++ "e" ++ sign ++ padLeft 2 '0' (toString exponent.natAbs)

/-- The text of a floating-point number. -/
def Binary64.spell (f : FloatFormat) : Binary64 → String
  | .nan => f.special.nan
  | .infinite s => (if s && f.special.infinite != "null" then "-" else "") ++ f.special.infinite
  | .finite s m q =>
    let (digits, point) := (Decimal.shortest m q).significant
    let body :=
      if m = 0 then "0.0"
      else if -f.small < point && point ≤ f.large then positional digits point
      else scientific digits (point - 1)
    (if s then "-" else "") ++ body

/-- The number with exactly `n` decimal places; a tie goes to the even last digit. -/
def Binary64.places (n : Nat) : Binary64 → String
  | .nan => "nan"
  | .infinite s => if s then "-inf" else "inf"
  | .finite s m q =>
    let (num, den) := ratio m q
    let grid := Nat.pow 10 n
    let units := nearest (num * grid) den
    let whole := toString (units / grid)
    let body := if n = 0 then whole else whole ++ "." ++ padLeft n '0' (toString (units % grid))
    (if s then "-" else "") ++ body

/-- Digits in groups of three, counted from the right. -/
def grouped (n : Nat) : String :=
  String.ofList (go (Nat.toDigits 10 n))
where
  go : List Char → List Char
    | [] => []
    | c :: cs => if cs.length % 3 = 0 && cs.length ≠ 0 then c :: ',' :: go cs else c :: go cs

/-- A whole number with its digits in groups of three. -/
def groupedInt (n : Int) : String := (if n < 0 then "-" else "") ++ grouped n.natAbs

end Scaffold.Number
