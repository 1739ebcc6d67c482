import Scaffold.Text.Class

/-!
# Text/Lines — cutting a text into lines and pieces, and trimming it

Putting the separator back between the pieces of a text that was cut at it gives the text
(`joinWith_pieces`).  So does putting back a word at which it was cut (`eq_append_of_cutAt?`).
-/

namespace Scaffold.Text

/-! ## Trimming -/

/-- Drops the longest tail whose members all satisfy `p`. -/
def dropTail {α : Type} (p : α → Bool) (xs : List α) : List α := (xs.reverse.dropWhile p).reverse

def trimLeft (cs : List Char) : List Char := cs.dropWhile isBlank

def trimRight (cs : List Char) : List Char := dropTail isBlank cs

def trimChars (cs : List Char) : List Char := trimRight (trimLeft cs)

/-- The text without the white space at both ends. -/
def trim (s : String) : String := String.ofList (trimChars s.toList)

/-! ## Pieces -/

/-- The pieces between the separators. -/
def pieces {α : Type} [DecidableEq α] (sep : α) : List α → List (List α)
  | [] => [[]]
  | x :: xs =>
    if x = sep then [] :: pieces sep xs
    else match pieces sep xs with
      | [] => [[x]]
      | p :: ps => (x :: p) :: ps

/-- The pieces with `sep` between them. -/
def joinWith {α : Type} (sep : List α) : List (List α) → List α
  | [] => []
  | [p] => p
  | p :: q :: ps => p ++ sep ++ joinWith sep (q :: ps)

theorem pieces_ne_nil {α : Type} [DecidableEq α] (sep : α) (xs : List α) : pieces sep xs ≠ [] := by
  cases xs with
  | nil => simp [pieces]
  | cons x xs =>
    simp only [pieces]
    split
    · simp
    · split <;> simp

/-- Pieces are joined again. -/
theorem joinWith_pieces {α : Type} [DecidableEq α] (sep : α) (xs : List α) :
    joinWith [sep] (pieces sep xs) = xs := by
  induction xs with
  | nil => rfl
  | cons x xs ih =>
    simp only [pieces]
    by_cases h : x = sep
    · cases hp : pieces sep xs with
      | nil => exact absurd hp (pieces_ne_nil sep xs)
      | cons p ps => rw [if_pos h, joinWith, ← hp, ih, h]; rfl
    · cases hp : pieces sep xs with
      | nil => exact absurd hp (pieces_ne_nil sep xs)
      | cons p ps =>
        rw [hp] at ih
        cases ps with
        | nil => simpa [h, joinWith] using ih
        | cons q qs => simpa [h, joinWith] using ih

/-- The lines of a text, cut at line feeds. -/
def lines (cs : List Char) : List (List Char) := pieces '\n' cs

/-- The texts with a line feed between them. -/
def unlines (ls : List String) : String := "\n".intercalate ls

/-- The texts, each with a line feed after it. -/
def paragraph (ls : List String) : String := String.join (ls.map (· ++ "\n"))

/-- A carriage return before a line feed is dropped. -/
def unifyLineEnds : List Char → List Char
  | '\r' :: '\n' :: cs => '\n' :: unifyLineEnds cs
  | c :: cs => c :: unifyLineEnds cs
  | [] => []

/-- The number of lines of a text; a final line feed opens no new line. -/
def lineCount (s : String) : Nat :=
  let cs := s.toList
  match cs.getLast? with
  | none => 0
  | some c => cs.count '\n' + if c = '\n' then 0 else 1

/-! ## Searching -/

/-- `cs` starts with `word`; the result is what follows it. -/
def afterWord? : List Char → List Char → Option (List Char)
  | [], cs => some cs
  | _ :: _, [] => none
  | w :: ws, c :: cs => if w = c then afterWord? ws cs else none

/-- What follows a word follows it. -/
theorem eq_append_of_afterWord? {word cs rest : List Char} (h : afterWord? word cs = some rest) :
    cs = word ++ rest := by
  induction word generalizing cs with
  | nil => exact Option.some.inj h
  | cons w ws ih =>
    cases cs with
    | nil => cases h
    | cons c cs =>
      rw [afterWord?] at h
      split at h
      · rename_i hw
        rw [ih h, hw, List.cons_append]
      · cases h

/-- `cs` starts with `word`. -/
def startsWith (word cs : List Char) : Bool := (afterWord? word cs).isSome

/-- The text before the first occurrence of `word` and the text after it. -/
def cutAt? (word : List Char) : List Char → Option (List Char × List Char)
  | [] => if word.isEmpty then some ([], []) else none
  | c :: cs =>
    match afterWord? word (c :: cs) with
    | some rest => some ([], rest)
    | none => (cutAt? word cs).map fun (a, b) => (c :: a, b)

/-- A text is cut in two around the word. -/
theorem eq_append_of_cutAt? {word cs before after : List Char}
    (h : cutAt? word cs = some (before, after)) : cs = before ++ word ++ after := by
  induction cs generalizing before with
  | nil =>
    rw [cutAt?] at h
    split at h
    · rename_i hword
      cases h
      rw [List.isEmpty_iff.mp hword, List.append_nil, List.append_nil]
    · cases h
  | cons c cs ih =>
    rw [cutAt?] at h
    split at h
    · rename_i rest hrest
      cases h
      exact eq_append_of_afterWord? hrest
    · obtain ⟨⟨a, b⟩, hcut, heq⟩ := Option.map_eq_some_iff.mp h
      cases heq
      rw [ih hcut, List.cons_append, List.cons_append]

/-- `word` occurs in `cs`. -/
def contains (word cs : List Char) : Bool := (cutAt? word cs).isSome

end Scaffold.Text
