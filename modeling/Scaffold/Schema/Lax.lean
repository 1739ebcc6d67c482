import Scaffold.Schema.Checked
import Scaffold.Number.Numeral

/-!
# Schema/Lax — conversions of plain values

Texts are taken from texts and from bytes that encode one.  Truth values are also taken from the
numbers 0 and 1 and from a few words in any case; whole numbers from truth values, whole
floating-point numbers and texts that spell one.  A number that is to be a truth value, and a
floating-point number that is to be whole, must fit in 64 bits.
-/

namespace Scaffold.Schema

open Document Number

def text : Value → Checked String
  | .text s => .ok s
  | .bytes bs => (Value.textOfBytes? bs).elim (.fail .unreadableText) .ok
  | _ => .fail .notText

/-- A text with at least `least` characters and, if there is a bound, at most `most`. -/
def boundedText (least : Nat) (most : Option Nat) (v : Value) : Checked String :=
  (text v).andThen fun s =>
    if s.length < least then .fail (.tooShort least)
    else match most with
      | some n => if n < s.length then .fail (.tooLong n) else .ok s
      | none => .ok s

/-! ## Truth values -/

/-- The words for true and false, in any case. -/
def boolOfWord? (s : String) : Option Bool :=
  let small := String.ofList (s.toList.map Text.plainLower)
  if ["0", "off", "f", "false", "n", "no"].contains small then some false
  else if ["1", "on", "t", "true", "y", "yes"].contains small then some true
  else none

def boolOfInt? (n : Int) : Option Bool :=
  if n = 0 then some false else if n = 1 then some true else none

/-- The whole number that a floating-point number is, if it lies between the least and the greatest
number of 64 bits. -/
def wordOf? (x : Binary64) : Option Int :=
  x.toInt?.filter fun n => n.natAbs < Numeral.wordLimit

def bool : Value → Checked Bool
  | .bool b => .ok b
  | .int n =>
    if Numeral.fitsWord n then (boolOfInt? n).elim (.fail .unclearBool) .ok else .fail .notBool
  | .text s => (boolOfWord? s).elim (.fail .unclearBool) .ok
  | .bytes bs => ((Value.textOfBytes? bs).bind boolOfWord?).elim (.fail .unclearBool) .ok
  | .real x =>
    match wordOf? x with
    | some n => (boolOfInt? n).elim (.fail .unclearBool) .ok
    | none => .fail .notBool
  | _ => .fail .notBool

/-! ## Whole numbers -/

/-- White space at the ends of a number: the information separators are not part of it. -/
def isPadding (c : Char) : Bool := Text.isBlank c && !('\x1c' ≤ c && c ≤ '\x1f')

/-- The text without padding at its ends. -/
def trimPadding (cs : List Char) : List Char := Text.dropTail isPadding (cs.dropWhile isPadding)

/-- A minus or none, then digits of which the first is zero only if it is the only one. -/
def isCanonical : List Char → Bool
  | '-' :: cs => isMagnitude cs
  | cs => isMagnitude cs
where
  isMagnitude : List Char → Bool
    | [] => false
    | ['0'] => true
    | d :: ds => d != '0' && (d :: ds).all Text.isPlainDigit

/-- The text from its first digit that is not zero on; of zeros alone, and of those before a point,
the last one stays. -/
def withoutZeros? : List Char → Option (List Char)
  | '0' :: cs => go '0' cs
  | c :: cs => if c = '-' || Text.isPlainDigit c then some (c :: cs) else none
  | [] => none
where
  go (last : Char) : List Char → Option (List Char)
    | [] => some [last]
    | c :: cs =>
      if c = '0' || c = '_' then go c cs
      else if Text.isPlainDigit c then some (c :: cs)
      else if c = '.' then some (last :: c :: cs)
      else none

/-- The text without a point at its end that has nothing but zeros behind it, and at least one. -/
def withoutPlaces (cs : List Char) : List Char :=
  let places := (cs.dropWhile (· ≠ '.')).drop 1
  if !places.isEmpty && places.all (· == '0') then cs.takeWhile (· ≠ '.') else cs

/-- The canonical spelling of a whole number that may have padding, a plus, zeros in front, places
that are zero, and single gaps. -/
def canonicalOf? (cs : List Char) : Option (List Char) := do
  let cs ← match trimPadding cs with
    | '+' :: '-' :: _ => none
    | '+' :: r => some r
    | r => some r
  let cs := withoutPlaces (← withoutZeros? cs)
  let cs := (Numeral.withoutGaps? cs).getD cs
  if isCanonical cs then some cs else none

/-- A text that spells a whole number. -/
def intOfText (s : String) : Checked Int :=
  let cs := s.toList
  match if isCanonical cs then some cs else canonicalOf? cs with
  | none => .fail .unclearInt
  | some cs =>
    if Numeral.digitLimit < cs.length then .fail .excessiveInt
    else
      let (negative, ds) := Numeral.signed cs
      .ok (Numeral.withSign negative (Numeral.natOfDigits ds))

def int : Value → Checked Int
  | .int n => .ok n
  | .bool b => .ok (if b then 1 else 0)
  | .real x =>
    match x, wordOf? x with
    | .finite .., some n => .ok n
    | .finite .., none => .fail (if x.toInt?.isSome then .excessiveInt else .fractional)
    | _, _ => .fail .notFinite
  | .text s => intOfText s
  | .bytes bs => ((Value.textOfBytes? bs).map intOfText).getD (.fail .unclearInt)
  | _ => .fail .notInt

/-- A whole number from `least` to `most`. -/
def intBetween (least most : Nat) (v : Value) : Checked Nat :=
  (int v).andThen fun n =>
    if n < least then .fail (.tooSmall least)
    else if (most : Int) < n then .fail (.tooLarge most)
    else .ok n.toNat

/-- A mapping from texts to texts. -/
def textMap (v : Value) : Checked (List (String × String)) :=
  match v.entries? with
  | none => .fail .notMapping
  | some entries => go entries
where
  go : List (Value × Value) → Checked (List (String × String))
    | [] => .ok []
    | (k, x) :: rest =>
      let key := ((text k).under (.name "[key]")).under (stepOf k)
      let value := (text x).under (stepOf k)
      Checked.apply (Checked.apply (key.map fun k x ms => (k, x) :: ms) value) (go rest)

end Scaffold.Schema
