import Scaffold.Format.Layout
import Scaffold.Format.Finish

/-!
# Format/Code — semicolons, quotes and trailing commas

After `layout` three passes run over the lines.  Each decides on painted text alone and adds,
removes or exchanges single characters, so literals and comments keep theirs.
-/

namespace Scaffold.Format

/-- The next line that shows code. -/
def nextCode? (ls : List Line) : Option Line := ls.find? Line.hasCode

/-- A pass changes each line in view of the lines after it. -/
def pass (change : Line → List Line → Line) : List Line → List Line
  | [] => []
  | l :: ls => change l ls :: pass change ls

/-! ## Semicolons -/

/-- The words that start a statement that ends in a semicolon. -/
def statementWords : List (List Char) :=
  ["const", "let", "var", "return", "throw", "break", "continue", "export", "import"].map
    String.toList

/-- Code that starts with `word` and goes on with no letter, digit or underscore. -/
def startsWithWord (word code : List Char) : Bool :=
  match Text.afterWord? word code with
  | some (c :: _) => !Text.isWord c
  | some [] => true
  | none => false

/-- The beginnings of a line that continues the statement before it. -/
def continuations : List (List Char) :=
  [".", "?", ":", "+", "-", "*", "/", "&&", "||", "="].map String.toList

/-- The last character of code can end a statement. -/
def endsStatement (code : List Char) : Bool :=
  match code.getLast? with
  | some c => Text.isWord c || isQuote c || c == ')' || c == ']'
  | none => false

def isBalanced (code : List Char) : Bool := code.countP isOpener == code.countP isCloser

/-- The line is a statement that lacks its semicolon. -/
def lacksSemicolon (l : Line) (after : List Line) : Bool :=
  let code := l.code
  !l.kept && statementWords.any (startsWithWord · code) && endsStatement code &&
    isBalanced code && !(after.head?.any (·.kept)) &&
    !((nextCode? after).any fun n => continuations.any (Text.startsWith · n.code))

def addSemicolon (l : Line) (after : List Line) : Line :=
  if lacksSemicolon l after then { l with cells := l.cells ++ [(';', .code)] } else l

/-- Cells whose painted text ends in `c`, white space apart: the cells without that character. -/
def withoutFinal? (c : Char) (cs : List Cell) : Option (List Cell) :=
  let tail := cs.reverse.takeWhile fun x => Text.isBlank x.painted
  match cs.reverse.dropWhile fun x => Text.isBlank x.painted with
  | x :: rest => if x.painted = c then some (rest.reverse ++ tail.reverse) else none
  | [] => none

def removeSemicolon (l : Line) (_ : List Line) : Line :=
  if l.kept then l
  else match withoutFinal? ';' l.cells with
    | some cs => { l with cells := cs }
    | none => l

/-! ## Quotes -/

/-- Exchanges the quotes of a literal unless its text holds the new quote or a backslash. -/
def requote (source target : Char) (opener : Cell) (body : List Cell) (closer : Cell) : List Cell :=
  if opener.1 = source && !(plain body).contains target && !(plain body).contains '\\' then
    (target, opener.2) :: body ++ [(target, closer.2)]
  else opener :: body ++ [closer]

/-- The literals of a line with their quotes exchanged; `started` is the literal that is being
read, its body backwards.  A literal that does not end on the line is left alone. -/
def requoteFrom (source target : Char) (started : Option (Cell × List Cell)) :
    List Cell → List Cell
  | [] =>
    match started with
    | some (opener, body) => opener :: body.reverse
    | none => []
  | c :: cs =>
    match started with
    | none =>
      if isQuote c.painted then requoteFrom source target (some (c, [])) cs
      else c :: requoteFrom source target none cs
    | some (opener, body) =>
      if c.painted = opener.painted then
        requote source target opener body.reverse c ++ requoteFrom source target none cs
      else requoteFrom source target (some (opener, c :: body)) cs

def convertQuotes (source target : Char) (l : Line) (_ : List Line) : Line :=
  if l.kept then l else { l with cells := requoteFrom source target none l.cells }

/-! ## Trailing commas -/

/-- The last character of code can end an item. -/
def endsItem (code : List Char) : Bool := endsStatement code || code.getLast? == some '}'

def addComma (l : Line) (after : List Line) : Line :=
  match l.innermost with
  | none => l
  | some o =>
    let closesIt := ((nextCode? after).bind (·.closes.head?)) == some o.bracket
    if !l.kept && o.isLiteral && endsItem (Text.trimRight l.mask) && closesIt then
      { l with cells := Text.dropTail (fun c => Text.isBlank c.1) l.cells ++ [(',', .code)] }
    else l

def removeComma (l : Line) (after : List Line) : Line :=
  if !l.kept && (nextCode? after).any (!·.closes.isEmpty) then
    match withoutFinal? ',' l.cells with
    | some cs => { l with cells := cs }
    | none => l
  else l

/-- A program in the layout that the options ask for. -/
def formatCode (o : Options) (cs : List Char) : List Char :=
  let lines := layout o.indentUnit cs
  let lines := pass (if o.semicolons then addSemicolon else removeSemicolon) lines
  let quotes := if o.singleQuotes then convertQuotes '"' '\'' else convertQuotes '\'' '"'
  let lines := pass quotes lines
  let lines := pass (if o.trailingCommas then addComma else removeComma) lines
  finish (lines.map fun l => plain l.cells)

/-! ## Checking -/

/-- The kinds of brackets that are opened and closed a different number of times. -/
def codeErrors (cs : List Char) : List String :=
  let seen := painted (cells cs)
  [('{', '}', "braces"), ('(', ')', "parentheses"), ('[', ']', "brackets")].filterMap
    fun (opener, closer, label) =>
      if seen.count opener = seen.count closer then none else some s!"Mismatched {label}"

end Scaffold.Format
