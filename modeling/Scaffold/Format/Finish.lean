import Scaffold.Text.Lines

/-!
# Format/Finish — the normal form of a formatted text

No line ends in white space, no two empty lines follow each other, none stands at either end, and
the text ends in one line feed.
-/

namespace Scaffold.Format

/-- Of neighbouring empty lines only the first is kept. -/
def collapse : List (List Char) → List (List Char)
  | [] => []
  | [] :: [] :: ls => collapse ([] :: ls)
  | l :: ls => l :: collapse ls

/-- The lines as a text in normal form. -/
def finish (lines : List (List Char)) : List Char :=
  let trimmed := collapse (lines.map Text.trimRight)
  Text.joinWith ['\n'] (Text.dropTail (· = []) (trimmed.dropWhile (· = []))) ++ ['\n']

end Scaffold.Format
