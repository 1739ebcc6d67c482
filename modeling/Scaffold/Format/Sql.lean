import Scaffold.Format.Finish
import Scaffold.Text.Lettercase

/-!
# Format/Sql — keyword case and indentation of SQL, and a check of its statements

A line is split into quoted literals and what stands between them; keywords are put in capitals
between literals and before a comment.  Indentation follows the parentheses and the bodies between
`$$` signs.  `statements` splits a text at the semicolons outside literals, comments and bodies.
-/

namespace Scaffold.Format.Sql

open Text

/-- The words that are put in capitals. -/
def keywords : List String :=
  ["CREATE", "TABLE", "INSERT", "INTO", "SELECT", "FROM", "WHERE", "AND", "OR", "ORDER", "BY",
    "GROUP", "HAVING", "LIMIT", "OFFSET", "VALUES", "UPDATE", "DELETE", "SET", "NOT", "NULL",
    "UNIQUE", "PRIMARY", "KEY", "DEFAULT", "REFERENCES", "INDEX", "ON", "TRIGGER", "BEFORE",
    "AFTER", "FOR", "EACH", "ROW", "EXECUTE", "FUNCTION", "RETURNS", "BEGIN", "END", "RETURN",
    "REPLACE", "CHECK", "IN", "AS", "LANGUAGE", "CASCADE"]

/-- The words that start a statement or a clause at the margin. -/
def starters : List String :=
  ["CREATE", "INSERT", "SELECT", "UPDATE", "DELETE", "DROP", "ALTER", "GRANT", "REVOKE", "RETURNS",
    "VALUES", "WITH"]

/-- The words that start a statement. -/
def statementWords : List String :=
  ["CREATE", "INSERT", "SELECT", "UPDATE", "DELETE", "DROP", "ALTER", "GRANT", "REVOKE"]

/-- The capital ASCII letter that a character matches without regard to case: besides the letter
itself the long s, the dotted and dotless i and the Kelvin sign match one. -/
def foldLetter (c : Char) : Char :=
  if c = 'ſ' then 'S' else if c = 'ı' || c = 'İ' then 'I' else if c = '\u212a' then 'K'
  else plainUpper c

/-- The leading letters, digits and underscores, and what follows them. -/
def spanWord (cs : List Char) : List Char × List Char :=
  (cs.takeWhile isWord, cs.dropWhile isWord)

/-! ## Literals -/

/-- The rest of a quoted literal after its opening quote, and what follows it.  A doubled quote
belongs to the literal if a later quote closes it. -/
def closeLiteral? : List Char → Option (List Char × List Char)
  | [] => none
  | '\'' :: '\'' :: cs =>
    match closeLiteral? cs with
    | some (body, rest) => some ('\'' :: '\'' :: body, rest)
    | none => some (['\''], '\'' :: cs)
  | '\'' :: cs => some (['\''], cs)
  | c :: cs => (closeLiteral? cs).map fun (body, rest) => (c :: body, rest)

/-- Behind a literal less is left to read. -/
theorem length_of_closeLiteral? {cs body rest : List Char}
    (h : closeLiteral? cs = some (body, rest)) : rest.length < cs.length := by
  fun_induction closeLiteral? cs generalizing body rest with
  | case1 => simp at h
  | case2 cs b r hr ih =>
    simp only [Option.some.injEq, Prod.mk.injEq] at h
    obtain ⟨-, rfl⟩ := h
    have := ih hr
    simp only [List.length_cons]
    omega
  | case3 cs hr ih =>
    simp only [Option.some.injEq, Prod.mk.injEq] at h
    obtain ⟨-, rfl⟩ := h
    simp
  | case4 cs hcs =>
    simp only [Option.some.injEq, Prod.mk.injEq] at h
    obtain ⟨-, rfl⟩ := h
    simp
  | case5 c cs _ _ ih =>
    simp only [Option.map_eq_some_iff, Prod.mk.injEq, Prod.exists] at h
    obtain ⟨b, r, hr, -, rfl⟩ := h
    have := ih hr
    simp only [List.length_cons]
    omega

/-- A part of a line: code, or a complete quoted literal. -/
inductive Part where
  | code (cs : List Char)
  | literal (cs : List Char)
deriving DecidableEq, Repr

/-- Puts a character in front of the parts of the rest of a line. -/
def Part.addCode (c : Char) : List Part → List Part
  | .code cs :: ps => .code (c :: cs) :: ps
  | ps => .code [c] :: ps

/-- The parts of a line. -/
def parts (cs : List Char) : List Part :=
  match cs with
  | [] => []
  | c :: cs =>
    if c = '\'' then
      match h : closeLiteral? cs with
      | some (body, rest) =>
        have := length_of_closeLiteral? h
        .literal (c :: body) :: parts rest
      | none => Part.addCode c (parts cs)
    else Part.addCode c (parts cs)
termination_by cs.length
decreasing_by all_goals simp_all; try omega

/-! ## Keywords -/

/-- Code with its keywords in capitals.  `fresh` holds if the character before is no part of a word;
the first argument bounds the number of words. -/
def capitalize : Nat → List Char → List Char
  | 0, cs => cs
  | n + 1, cs =>
    match spanWord cs with
    | ([], []) => []
    | ([], c :: rest) => c :: capitalize n rest
    | (w, rest) =>
      let isKeyword := keywords.contains (String.ofList (w.map foldLetter))
      (if isKeyword then w.flatMap upperChar else w) ++ capitalize n rest

/-- A line with its keywords in capitals, outside literals and before a comment. -/
def upperKeywords (cs : List Char) : List Char := go (parts cs)
where
  go : List Part → List Char
    | [] => []
    | .literal l :: ps => l ++ go ps
    | .code l :: ps =>
      match cutAt? ['-', '-'] l with
      | none => capitalize (l.length + 1) l ++ go ps
      | some (code, comment) =>
        capitalize (code.length + 1) code ++ '-' :: '-' :: comment ++ restOf ps
  restOf : List Part → List Char
    | [] => []
    | .literal l :: ps => l ++ restOf ps
    | .code l :: ps => l ++ restOf ps

/-- Opening less closing parentheses of a line, outside literals and before a comment. -/
def parenDelta (cs : List Char) : Int :=
  let code := match cutAt? ['-', '-'] cs with
    | some (code, _) => code
    | none => cs
  let counted := (parts code).flatMap fun
    | .code l => l
    | .literal _ => []
  (counted.count '(' : Int) - counted.count ')'

/-! ## Indentation -/

/-- What the indentation of a line depends on. -/
structure State where
  /-- Open parentheses. -/
  depth : Nat
  /-- The line is between `$$` signs. -/
  inBody : Bool
  /-- The statement before the line has no end yet. -/
  isOpen : Bool
deriving DecidableEq, Repr

def State.start : State := ⟨0, false, false⟩

/-- The text starts with one of the words and goes on with no letter, digit or underscore. -/
def startsWithOneOf (words : List String) (cs : List Char) : Bool :=
  let (w, _) := spanWord cs
  words.contains (String.ofList w)

/-- The levels of indentation of a line in capitals. -/
def State.indent (s : State) (text : List Char) : Nat :=
  if s.inBody then
    let capitals := text.flatMap upperChar
    if startsWith ['$', '$'] text || startsWith "BEGIN".toList capitals ||
      startsWith "END".toList capitals || startsWith "DECLARE".toList capitals then 0 else 1
  else if startsWith [')'] text then s.depth - 1
  else if 0 < s.depth then s.depth
  else if startsWithOneOf starters (text.map foldLetter) then 0
  else if s.isOpen then 1
  else 0

/-- The number of occurrences of `$$` that do not overlap. -/
def bodySigns : List Char → Nat
  | '$' :: '$' :: cs => bodySigns cs + 1
  | _ :: cs => bodySigns cs
  | [] => 0

/-- The state after a line. -/
def State.after (s : State) (text : List Char) : State :=
  let inBody := if bodySigns text % 2 = 1 then !s.inBody else s.inBody
  if inBody then { s with inBody }
  else ⟨((s.depth : Int) + parenDelta text).toNat, inBody, (trimRight text).getLast? ≠ some ';'⟩

def unit (levels : Nat) : List Char := List.replicate (2 * levels) ' '

/-- One line, and the state after it. -/
def formatLine (s : State) (raw : List Char) : List Char × State :=
  let text := trimChars raw
  if text.isEmpty then ([], s)
  else if startsWith ['-', '-'] text then (unit s.depth ++ text, s)
  else
    let text := upperKeywords text
    (unit (s.indent text) ++ text, s.after text)

def formatFrom (s : State) : List (List Char) → List (List Char)
  | [] => []
  | l :: ls =>
    let (line, after) := formatLine s l
    line :: formatFrom after ls

def format (cs : List Char) : List Char := finish (formatFrom .start (lines cs))

/-! ## Checking -/

/-- Where the splitter stands. -/
structure Place where
  inQuote : Bool
  inBody : Bool
deriving DecidableEq, Repr

/-- The pieces between the semicolons that end a statement; comments are dropped.  `skipping` holds
inside a comment. -/
def splitFrom (p : Place) (skipping : Bool) : List Char → List (List Char)
  | [] => [[]]
  | c :: cs =>
    if skipping then
      if c = '\n' then addChar c (splitFrom p false cs) else splitFrom p true cs
    else if c = '-' && cs.head? = some '-' && !p.inQuote && !p.inBody then splitFrom p true cs
    else if c = '$' && cs.head? = some '$' && !p.inQuote then
      match cs with
      | d :: rest => addChar c (addChar d (splitFrom { p with inBody := !p.inBody } false rest))
      | [] => [[c]]
    else
      let p := if c = '\'' && !p.inBody then { p with inQuote := !p.inQuote } else p
      if c = ';' && !p.inQuote && !p.inBody then [] :: splitFrom p false cs
      else addChar c (splitFrom p false cs)
where
  addChar (c : Char) : List (List Char) → List (List Char)
    | [] => [[c]]
    | l :: ls => (c :: l) :: ls

/-- The statements of a text, without white space at their ends and without empty ones. -/
def statements (cs : List Char) : List (List Char) :=
  ((splitFrom ⟨false, false⟩ false cs).map trimChars).filter (· ≠ [])

/-- The statements that start with no word that starts a statement. -/
def errors (cs : List Char) : List String :=
  ((statements cs).filter fun s => !startsWithOneOf statementWords (s.flatMap upperChar)).map
    fun s => "Invalid SQL statement: " ++ String.ofList (s.take 50) ++ "..."

end Scaffold.Format.Sql
