import Scaffold.Text.CaseTable
import Scaffold.Text.Class

/-!
# Text/Lettercase — full lower and upper case of a text

Case mapping is a map on texts and not on characters: `ß` has the upper case `SS`, and a capital
sigma at the end of a word has the lower case `ς`.
-/

namespace Scaffold.Text

/-- The shift of `n` in a list of runs, `0` where no run covers it. -/
def CaseRun.shiftOf (runs : List CaseRun) (n : Nat) : Int :=
  match runs.find? fun r => r.first ≤ n && n ≤ r.last && (n - r.first) % r.step == 0 with
  | some r => r.shift
  | none => 0

/-- The simple mapping given by a list of runs. -/
def CaseRun.apply (runs : List CaseRun) (c : Char) : Char :=
  Char.ofNat (c.toNat + CaseRun.shiftOf runs c.toNat).toNat

/-- The characters that replace `c` when it is in lower case. -/
def lowerChar (c : Char) : List Char :=
  if c.toNat < 128 then [plainLower c]
  else match lowerExpansions.lookup c.toNat with
    | some codes => codes.map Char.ofNat
    | none => [CaseRun.apply lowerRuns c]

/-- The characters that replace `c` when it is in upper case. -/
def upperChar (c : Char) : List Char :=
  if c.toNat < 128 then [plainUpper c]
  else match upperExpansions.lookup c.toNat with
    | some codes => codes.map Char.ofNat
    | none => [CaseRun.apply upperRuns c]

/-- A cased letter that is not case-ignorable. -/
def isCased (c : Char) : Bool :=
  if c.toNat < 128 then isPlainLetter c else inRanges casedRanges c.toNat

/-- A character through which the ends of a word are seen. -/
def isCaseIgnorable (c : Char) : Bool :=
  if c.toNat < 128 then ['\x27', '.', ':', '^', '\x60'].contains c
  else inRanges caseIgnorableRanges c.toNat

/-- The nearest character that is not case-ignorable is cased. -/
def seesCased (cs : List Char) : Bool :=
  match cs.dropWhile isCaseIgnorable with
  | c :: _ => isCased c
  | [] => false

/-- Lower case of the rest of a text; `before` holds what precedes it, nearest first. -/
def lowerFrom (before : List Char) : List Char → List Char
  | [] => []
  | c :: cs =>
    let small :=
      if c = 'Σ' then
        if seesCased before && !seesCased cs then ['ς'] else ['σ']
      else lowerChar c
    small ++ lowerFrom (c :: before) cs

/-- The lower case of a text. -/
def lower (s : String) : String := String.ofList (lowerFrom [] s.toList)

/-- The upper case of a text. -/
def upper (s : String) : String := String.ofList (s.toList.flatMap upperChar)

/-- The text with its first character in upper case and the rest as it is. -/
def upperFirst (s : String) : String :=
  match s.toList with
  | [] => ""
  | c :: cs => String.ofList (upperChar c ++ cs)

end Scaffold.Text
