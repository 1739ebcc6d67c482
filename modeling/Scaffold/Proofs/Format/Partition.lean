import Scaffold.Proofs.Format.Capitals
import Scaffold.Proofs.Text.Lexicon

/-!
# Proofs/Format/Partition — the statements of SQL are what stands between the separators

SQL is read as **lexemes**: comments, quoted literals, bodies between `$$` signs, semicolons that
end a statement, and any other characters one by one.  A comment goes to the end of its line, a
literal to the next quote, a body to the next `$$`, or each to the end of the text.

The splitter goes lexeme by lexeme (`splitFrom_text_append`), so the statements are what stands
between the separators, without comments (`statements_eq`): nothing else is lost or doubled, and the
semicolons that are left stand in literals and bodies (`statements_partition`).
-/

namespace Scaffold.Format.Sql

open Text

inductive Lexeme where
  | plain (c : Char)
  /-- A semicolon that ends a statement. -/
  | separator
  | comment (cs : List Char)
  | literal (cs : List Char) (closed : Bool)
  | body (cs : List Char) (closed : Bool)
deriving DecidableEq, Repr

namespace Lexeme

def text : Lexeme → List Char
  | plain c => [c]
  | separator => [';']
  | comment cs => '-' :: '-' :: cs
  | literal cs closed => '\'' :: (cs ++ ending ['\''] closed)
  | body cs closed => '$' :: '$' :: (cs ++ ending ['$', '$'] closed)

/-- Where a lexeme may stand: it goes on as far as it can. -/
def Fits : Lexeme → List Char → Prop
  | plain c, rest => c ∉ ['\'', ';'] ∧ (c = '-' ∨ c = '$' → rest.head? ≠ some c)
  | separator, _ => True
  | comment cs, rest => '\n' ∉ cs ∧ ∀ d ∈ rest.head?, d = '\n'
  | literal cs closed, rest => '\'' ∉ cs ∧ (closed = false → rest = [])
  | body cs closed, rest => Lacks '$' '$' (cs ++ ending ['$'] closed) ∧ (closed = false → rest = [])

/-- It belongs to a statement. -/
def isKept : Lexeme → Bool
  | separator | comment _ => false
  | plain _ | literal _ _ | body _ _ => true

/-- It is a quoted literal or a body. -/
def isQuoted : Lexeme → Bool
  | literal _ _ | body _ _ => true
  | plain _ | separator | comment _ => false

/-- Every text begins with a lexeme that fits what follows. -/
theorem exists_begin (c : Char) (cs : List Char) :
    ∃ (x : Lexeme) (rest : List Char), c :: cs = x.text ++ rest ∧ x.Fits rest := by
  by_cases hquote : c = '\''
  · obtain ⟨body, rest, rfl, hbody, hrest⟩ := exists_stretch '\'' cs
    subst hquote
    cases rest with
    | nil => exact ⟨.literal body false, [], by simp [text, ending], hbody, fun _ => rfl⟩
    | cons d rest =>
      obtain rfl := hrest d rfl
      exact ⟨.literal body true, rest, by simp [text, ending], hbody, Bool.noConfusion⟩
  by_cases hseparator : c = ';'
  · exact ⟨.separator, cs, by rw [hseparator]; rfl, trivial⟩
  by_cases hpair : c = '-' ∨ c = '$' → cs.head? ≠ some c
  · exact ⟨.plain c, cs, rfl, by simp [hquote, hseparator], hpair⟩
  obtain ⟨hc, hnext⟩ := Classical.not_imp.mp hpair
  obtain ⟨cs, rfl⟩ := List.head?_eq_some_iff.mp (not_not.mp hnext)
  obtain rfl | rfl := hc
  · obtain ⟨body, rest, rfl, hbody, hrest⟩ := exists_stretch '\n' cs
    exact ⟨.comment body, rest, rfl, hbody, hrest⟩
  · obtain ⟨body, closed, rest, rfl, hbody, hrest⟩ := exists_cut '$' '$' cs
    exact ⟨.body body closed, rest, rfl, hbody, hrest⟩

/-- The lexemes of SQL. -/
def lexicon : Lexicon Lexeme where
  text := text
  Fits := Fits
  text_ne_nil x := by cases x <;> exact List.cons_ne_nil _ _
  begins := exists_begin

end Lexeme

/-! ## The splitter goes lexeme by lexeme -/

/-- A plain character is put in front of the first piece. -/
theorem splitFrom_plain {c : Char} {rest : List Char} (hc : c ∉ ['\'', ';'])
    (hpair : c = '-' ∨ c = '$' → rest.head? ≠ some c) :
    splitFrom code false (c :: rest) = splitFrom.addChar c (splitFrom code false rest) := by
  have hdash : ¬(c = '-' ∧ rest.head? = some '-') := fun h => hpair (.inl h.1) (h.1 ▸ h.2)
  have hdollar : ¬(c = '$' ∧ rest.head? = some '$') := fun h => hpair (.inr h.1) (h.1 ▸ h.2)
  simp only [List.mem_cons, List.not_mem_nil, or_false, not_or] at hc
  rw [splitFrom_eq]
  simp [Place.past, hc, hdash, hdollar]

/-- A comment is skipped up to the line feed. -/
theorem splitFrom_comment {cs rest : List Char} (hcs : '\n' ∉ cs)
    (hrest : ∀ d ∈ rest.head?, d = '\n') :
    splitFrom code true (cs ++ rest) = splitFrom code false rest := by
  rw [splitFrom_skipping_append hcs]
  cases rest with
  | nil => rfl
  | cons d rest =>
    obtain rfl := hrest d rfl
    rw [splitFrom_skipping_feed, splitFrom_cons (by decide)]

/-- A literal goes into one piece. -/
theorem splitFrom_literal {cs rest : List Char} {closed : Bool} (hcs : '\'' ∉ cs)
    (hrest : closed = false → rest = []) :
    splitFrom ⟨true, false⟩ false (cs ++ ending ['\''] closed ++ rest) =
      prepend (cs ++ ending ['\''] closed) (splitFrom code false rest) := by
  induction cs with
  | nil =>
    cases closed with
    | false => rw [hrest rfl]; rfl
    | true => exact splitFrom_closeQuote rest
  | cons c cs ih =>
    obtain ⟨hc, hcs⟩ := not_or.mp (mt List.mem_cons.mpr hcs)
    rw [List.cons_append, List.cons_append, splitFrom_inQuote (Ne.symm hc), ih hcs]
    rfl

/-- So does a body between two pairs of signs. -/
theorem splitFrom_body {cs rest : List Char} {closed : Bool}
    (hcs : Lacks '$' '$' (cs ++ ending ['$'] closed)) (hrest : closed = false → rest = []) :
    splitFrom ⟨false, true⟩ false (cs ++ ending ['$', '$'] closed ++ rest) =
      prepend (cs ++ ending ['$', '$'] closed) (splitFrom code false rest) := by
  induction cs with
  | nil =>
    cases closed with
    | false => rw [hrest rfl]; rfl
    | true => exact splitFrom_closeBody rest
  | cons c cs ih =>
    obtain ⟨hc, hcs⟩ := List.isChain_cons.mp hcs
    have hnext : ¬(c = '$' ∧ (cs ++ ending ['$', '$'] closed ++ rest).head? = some '$') := by
      rw [head?_append_ending hrest]
      exact fun h => hc '$' h.2 ⟨h.1, rfl⟩
    rw [List.cons_append, List.cons_append, splitFrom_inBody hnext, ih hcs]
    rfl

/-- What a lexeme does to the pieces behind it. -/
def Lexeme.extend : Lexeme → List (List Char) → List (List Char)
  | separator, ls => [] :: ls
  | comment _, ls => ls
  | x@(plain _), ls | x@(literal _ _), ls | x@(body _ _), ls => prepend x.text ls

/-- So does every lexeme but the semicolon, which ends a piece, and comments, which are dropped. -/
theorem splitFrom_text_append {x : Lexeme} {rest : List Char} (h : x.Fits rest) :
    splitFrom code false (x.text ++ rest) = x.extend (splitFrom code false rest) := by
  cases x with
  | plain c => exact splitFrom_plain h.1 h.2
  | separator => exact splitFrom_eq _ _ _
  | comment cs => exact (splitFrom_openComment _).trans (splitFrom_comment h.1 h.2)
  | literal cs closed =>
    rw [Lexeme.text, List.cons_append, splitFrom_openQuote, splitFrom_literal h.1 h.2]
    rfl
  | body cs closed =>
    rw [Lexeme.text, List.cons_append, List.cons_append, splitFrom_openBody,
      splitFrom_body h.1 h.2]
    rfl

/-! ## Statements -/

/-- The text of lexemes without the comments and separators. -/
def kept (xs : List Lexeme) : List Char := (xs.filter Lexeme.isKept).flatMap Lexeme.text

theorem kept_cons (x : Lexeme) (xs : List Lexeme) :
    kept (x :: xs) = (if x.isKept then x.text else []) ++ kept xs := by
  cases hx : x.isKept <;> simp [kept, hx]

/-- **The statements are what stands between the separators**, without comments. -/
theorem splitFrom_eq_pieces {xs : List Lexeme} {cs : List Char} (h : Lexeme.lexicon.Reads xs cs) :
    splitFrom code false cs = (pieces .separator xs).map kept := by
  rw [h.foldr_eq fun _ _ => splitFrom_text_append]
  clear h
  induction xs with
  | nil => rfl
  | cons x xs ih =>
    rw [List.foldr_cons, ih, pieces]
    cases hpieces : pieces .separator xs with
    | nil => exact absurd hpieces (pieces_ne_nil _ _)
    | cons p ps =>
      cases x with
      | separator => rfl
      | comment cs => simp [Lexeme.extend, kept_cons, Lexeme.isKept]
      | plain c | literal cs closed | body cs closed =>
        simp [Lexeme.extend, kept_cons, Lexeme.isKept, prepend_cons]

theorem statements_eq {xs : List Lexeme} {cs : List Char} (h : Lexeme.lexicon.Reads xs cs) :
    statements cs = (((pieces .separator xs).map kept).map trimChars).filter (· ≠ []) := by
  rw [statements, splitFrom_eq_pieces h]

theorem visible_flatten (ls : List (List Char)) : visible ls.flatten = (ls.map visible).flatten :=
  List.filter_flatten

theorem kept_flatten (xss : List (List Lexeme)) : kept xss.flatten = (xss.map kept).flatten := by
  induction xss with
  | nil => rfl
  | cons xs xss ih =>
    rw [List.flatten_cons, List.map_cons, List.flatten_cons, ← ih, kept, kept, kept,
      List.filter_append, List.flatMap_append]

theorem flatten_kept_pieces (xs : List Lexeme) :
    ((pieces .separator xs).map kept).flatten = kept xs := by
  have hkept : ∀ x ∈ xs, (x.isKept && x ≠ .separator) = x.isKept := by
    intro x hx
    cases x <;> rfl
  rw [← kept_flatten, flatten_pieces, kept, kept, List.filter_filter, List.filter_congr hkept]

theorem visible_flatten_statements {xs : List Lexeme} {cs : List Char}
    (h : Lexeme.lexicon.Reads xs cs) : visible (statements cs).flatten = visible (kept xs) := by
  have htrim : visible ∘ trimChars = visible := funext visible_trimChars
  rw [statements_eq h, List.flatten_filter_ne_nil, visible_flatten, List.map_map, htrim,
    ← visible_flatten, flatten_kept_pieces]

/-- A semicolon that ends no statement is quoted. -/
theorem Lexeme.isQuoted_of_semicolon {x : Lexeme} {rest : List Char} (h : x.Fits rest)
    (hx : x.isKept = true) (hmem : ';' ∈ x.text) : x.isQuoted = true := by
  cases x with
  | plain c =>
    obtain rfl := List.mem_singleton.mp hmem
    exact absurd h.1 (by decide)
  | separator | comment cs => cases hx
  | literal cs closed | body cs closed => rfl

/-- **The splitter partitions a text.**  The text can be read as lexemes, and however it is, the
statements hold what it holds, white space, comments and separators apart; each statement is the
text between two separators, without comments and trimmed, and not empty; and the semicolons in it
are those of quoted literals and bodies. -/
theorem statements_partition (cs : List Char) :
    (∃ xs, Lexeme.lexicon.Reads xs cs) ∧ ∀ xs, Lexeme.lexicon.Reads xs cs →
      visible (statements cs).flatten = visible (kept xs) ∧
      ∀ s ∈ statements cs, s ≠ [] ∧ ∃ ys ∈ pieces .separator xs, s = trimChars (kept ys) ∧
        ∀ y ∈ ys, y.isKept = true → ';' ∈ y.text → y.isQuoted = true := by
  refine ⟨Lexeme.lexicon.exists_reads cs, fun xs h => ?_⟩
  refine ⟨visible_flatten_statements h, fun s hs => ?_⟩
  rw [statements_eq h] at hs
  obtain ⟨hs, hne⟩ := List.mem_filter.mp hs
  obtain ⟨l, hl, rfl⟩ := List.mem_map.mp hs
  obtain ⟨ys, hys, rfl⟩ := List.mem_map.mp hl
  refine ⟨of_decide_eq_true hne, ys, hys, rfl, fun y hy hkept => ?_⟩
  obtain ⟨rest, hrest⟩ := h.exists_fits (mem_of_mem_pieces hys hy)
  exact Lexeme.isQuoted_of_semicolon hrest hkept

example : statements "a -- ;\n';'; ;$$;$$".toList = ["a \n';'".toList, "$$;$$".toList] := by cbv

end Scaffold.Format.Sql
