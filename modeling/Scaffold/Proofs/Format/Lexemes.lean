import Scaffold.Proofs.Format.Cells
import Scaffold.Proofs.Text.Lexicon

/-!
# Proofs/Format/Lexemes — what a program is made of, and what the painted text shows of it

A program is read as **lexemes**: comments, literals and single characters of code.  A line comment
goes to the end of its line, a block comment to the first end sign, a literal to the next quote of
its own that no backslash covers; what is substituted in a template literal is a part of its inside,
and a literal that is not in backticks ends with its line.  A comment or literal that nothing ends
takes up the rest of the program.

The scanner marks a program lexeme by lexeme (`cells_eq_flatMap`).  So the painted text has every
character in its place or blotted out, and the lines that are flagged as continued are those whose
beginning is inside a template literal (`painted_in_place`).
-/

namespace Scaffold.Format

open Text

inductive Lexeme where
  | code (c : Char)
  | lineComment (body : List Char)
  | blockComment (body : List Char) (closed : Bool)
  | literal (quote : Char) (body : List Char) (closed : Bool)
deriving DecidableEq, Repr

/-- The inside of a literal with the quote `q`, in front of `rest`.  A backslash covers the
character behind it, but no line feed. -/
inductive IsInside (q : Char) (rest : List Char) : List Char → Prop
  | nil : IsInside q rest []
  | covered {c : Char} {body : List Char} (hc : c ≠ '\n') (h : IsInside q rest body) :
      IsInside q rest ('\\' :: c :: body)
  | char {c : Char} {body : List Char} (hquote : c ≠ q) (hline : c = '\n' → q = '\x60')
      (hcovers : c = '\\' → ∀ d ∈ (body ++ rest).head?, d = '\n') (h : IsInside q rest body) :
      IsInside q rest (c :: body)

namespace Lexeme

def text : Lexeme → List Char
  | code c => [c]
  | lineComment body => '/' :: '/' :: body
  | blockComment body closed => '/' :: '*' :: (body ++ ending ['*', '/'] closed)
  | literal q body closed => q :: (body ++ ending [q] closed)

/-- Where a lexeme may stand: it goes on as far as it can. -/
def Fits : Lexeme → List Char → Prop
  | code c, rest =>
    isQuote c = false ∧ (c = '/' → ∀ d ∈ rest.head?, d ≠ '/' ∧ d ≠ '*')
  | lineComment body, rest => '\n' ∉ body ∧ ∀ d ∈ rest.head?, d = '\n'
  | blockComment body closed, rest =>
    Lacks '*' '/' (body ++ ending ['*'] closed) ∧ (closed = false → rest = [])
  | literal q body closed, rest =>
    isQuote q = true ∧ IsInside q (ending [q] closed ++ rest) body ∧
      (closed = false → ∀ d ∈ rest.head?, d = '\n' ∧ q ≠ '\x60')

/-- The characters of a lexeme with their marks. -/
def cells : Lexeme → List Cell
  | code c => [(c, .code)]
  | lineComment body => (lineComment body).text.map fun c => (c, .comment)
  | blockComment body closed => (blockComment body closed).text.map fun c => (c, .comment)
  | literal q body closed =>
    (q, .quote) ::
      ((body.map fun c => (c, .body q)) ++ (ending [q] closed).map fun c => (c, .quote))

/-- What the painted text shows of a lexeme: comments are blanks and the insides of literals are
blotted out, line feeds apart. -/
def shown : Lexeme → List Char
  | code c => [c]
  | lineComment body => (lineComment body).text.map (blot ' ')
  | blockComment body closed => (blockComment body closed).text.map (blot ' ')
  | literal q body closed => q :: (body.map (blot 'x') ++ ending [q] closed)
where
  blot (paint c : Char) : Char := if c = '\n' then c else paint

end Lexeme

/-! ## Every program can be read -/

/-- A literal goes to its next quote that is not covered, to the end of its line if it is not in
backticks, or else to the end of the text. -/
theorem exists_inside (q : Char) : ∀ cs : List Char, ∃ body closed rest,
    cs = body ++ ending [q] closed ++ rest ∧ IsInside q (ending [q] closed ++ rest) body ∧
      (closed = false → ∀ d ∈ rest.head?, d = '\n' ∧ q ≠ '\x60')
  | [] => ⟨[], false, [], rfl, .nil, fun _ d hd => by cases hd⟩
  | c :: cs => by
    by_cases hquote : c = q
    · exact ⟨[], true, cs, by rw [hquote]; rfl, .nil, Bool.noConfusion⟩
    by_cases hline : c = '\n' ∧ q ≠ '\x60'
    · refine ⟨[], false, c :: cs, rfl, .nil, fun _ d hd => ?_⟩
      cases hd
      exact hline
    by_cases hcovers : c = '\\' → ∀ d ∈ cs.head?, d = '\n'
    · obtain ⟨body, closed, rest, rfl, hbody, hrest⟩ := exists_inside q cs
      rw [List.append_assoc] at hcovers
      exact ⟨c :: body, closed, rest, rfl,
        .char hquote (fun hc => not_not.mp fun hq => hline ⟨hc, hq⟩) hcovers hbody, hrest⟩
    · match cs with
      | [] => exact absurd (fun _ d hd => by cases hd) hcovers
      | d :: cs =>
        obtain ⟨rfl, hd⟩ : c = '\\' ∧ d ≠ '\n' := by simpa using hcovers
        obtain ⟨body, closed, rest, rfl, hbody, hrest⟩ := exists_inside q cs
        exact ⟨'\\' :: d :: body, closed, rest, rfl, .covered hd hbody, hrest⟩

/-- Every text begins with a lexeme that fits what follows. -/
theorem Lexeme.exists_begin (c : Char) (cs : List Char) :
    ∃ (x : Lexeme) (rest : List Char), c :: cs = x.text ++ rest ∧ x.Fits rest := by
  by_cases hquote : isQuote c = true
  · obtain ⟨body, closed, rest, rfl, hbody, hrest⟩ := exists_inside c cs
    exact ⟨.literal c body closed, rest, rfl, hquote, hbody, hrest⟩
  by_cases hstroke : c = '/' → ∀ d ∈ cs.head?, d ≠ '/' ∧ d ≠ '*'
  · exact ⟨.code c, cs, rfl, by simpa using hquote, hstroke⟩
  match cs with
  | [] => exact absurd (fun _ d hd => by cases hd) hstroke
  | d :: cs =>
    obtain ⟨rfl, hd⟩ : c = '/' ∧ ¬(d ≠ '/' ∧ d ≠ '*') := by simpa using hstroke
    obtain rfl | rfl : d = '/' ∨ d = '*' := by tauto
    · obtain ⟨body, rest, rfl, hbody, hrest⟩ := exists_stretch '\n' cs
      exact ⟨.lineComment body, rest, rfl, hbody, hrest⟩
    · obtain ⟨body, closed, rest, rfl, hbody, hrest⟩ := exists_cut '*' '/' cs
      exact ⟨.blockComment body closed, rest, rfl, hbody, hrest⟩

/-- The lexemes of programs. -/
def Lexeme.lexicon : Lexicon Lexeme where
  text := text
  Fits := Fits
  text_ne_nil x := by cases x <;> exact List.cons_ne_nil _ _
  begins := exists_begin

/-! ## The scanner goes lexeme by lexeme -/

/-- A character of code is marked by itself, unless it begins a comment. -/
theorem marks_code_char {c : Char} {cs : List Char}
    (h : c = '/' → ∀ d ∈ cs.head?, d ≠ '/' ∧ d ≠ '*') :
    marks .code (c :: cs) =
      if isQuote c then .quote :: marks (.literal c) cs else .code :: marks .code cs := by
  refine marks.eq_4 c cs ?_ ?_
  · rintro ds rfl rfl
    exact (h rfl '/' rfl).1 rfl
  · rintro ds rfl rfl
    exact (h rfl '*' rfl).2 rfl

/-- A comment to the end of a line. -/
theorem marks_lineComment {body rest : List Char} (hbody : '\n' ∉ body)
    (hrest : ∀ d ∈ rest.head?, d = '\n') :
    marks .lineComment (body ++ rest) = (body.map fun _ => .comment) ++ marks .code rest := by
  induction body with
  | nil =>
    cases rest with
    | nil => rfl
    | cons d rest =>
      obtain rfl := hrest d rfl
      rfl
  | cons c body ih =>
    obtain ⟨hc, hbody⟩ := not_or.mp (mt List.mem_cons.mpr hbody)
    rw [List.cons_append, marks, if_neg (Ne.symm hc), ih hbody]
    rfl

theorem marks_blockComment_char {c : Char} {cs : List Char} (h : c = '*' → cs.head? ≠ some '/') :
    marks .blockComment (c :: cs) = .comment :: marks .blockComment cs := by
  refine marks.eq_7 c cs ?_
  rintro ds rfl rfl
  exact h rfl rfl

/-- A comment that is closed, or goes on to the end. -/
theorem marks_blockComment {body rest : List Char} {closed : Bool}
    (hbody : Lacks '*' '/' (body ++ ending ['*'] closed)) (hrest : closed = false → rest = []) :
    marks .blockComment (body ++ ending ['*', '/'] closed ++ rest) =
      ((body ++ ending ['*', '/'] closed).map fun _ => .comment) ++ marks .code rest := by
  induction body with
  | nil =>
    cases closed with
    | false => rw [hrest rfl]; rfl
    | true => rfl
  | cons c body ih =>
    obtain ⟨hc, hbody⟩ := List.isChain_cons.mp hbody
    have hnext : c = '*' → (body ++ ending ['*', '/'] closed ++ rest).head? ≠ some '/' := by
      rw [head?_append_ending hrest]
      exact fun hstar hstroke => hc '/' hstroke ⟨hstar, rfl⟩
    rw [List.cons_append, List.cons_append, marks_blockComment_char hnext, ih hbody]
    rfl

/-- A character of a literal that neither ends it nor covers another. -/
theorem marks_literal_char {q c : Char} {cs : List Char} (hquote : c ≠ q)
    (hline : c = '\n' → q = '\x60') (hcovers : c = '\\' → ∀ d ∈ cs.head?, d = '\n') :
    marks (.literal q) (c :: cs) = .body q :: marks (.literal q) cs := by
  by_cases hc : c = '\\'
  · subst hc
    cases cs with
    | nil => simp [marks, hquote]
    | cons d cs =>
      obtain rfl := hcovers rfl d rfl
      simp [marks]
  · simp +contextual [marks, hc, hquote, hline]

/-- What is inside of a literal is marked as its body. -/
theorem marks_inside {q : Char} {rest body : List Char} (h : IsInside q rest body) :
    marks (.literal q) (body ++ rest) =
      (body.map fun _ => .body q) ++ marks (.literal q) rest := by
  induction h with
  | nil => rfl
  | covered hc h ih =>
    rw [List.cons_append, List.cons_append, marks, if_neg hc, ih]
    rfl
  | char hquote hline hcovers h ih =>
    rw [List.cons_append, marks_literal_char hquote hline hcovers, ih]
    rfl

theorem marks_literal_quote {q : Char} (hq : isQuote q = true) (cs : List Char) :
    marks (.literal q) (q :: cs) = .quote :: marks .code cs := by
  have hother : q ≠ '\n' ∧ q ≠ '\\' := by
    constructor <;> (rintro rfl; exact Bool.noConfusion hq)
  rw [marks.eq_9 q q cs fun d ds hd => absurd hd hother.2, if_neg hother.1, if_pos rfl]

theorem marks_unfinished {q : Char} {rest : List Char}
    (h : ∀ d ∈ rest.head?, d = '\n' ∧ q ≠ '\x60') : marks (.literal q) rest = marks .code rest := by
  cases rest with
  | nil => rfl
  | cons d rest =>
    obtain ⟨rfl, hq⟩ := h d rfl
    simp [marks, hq, isQuote]

namespace Lexeme

theorem map_fst_cells (x : Lexeme) : x.cells.map (·.1) = x.text := by
  cases x <;> simp [cells, text, Function.comp_def]

/-- A lexeme that fits is marked by itself, and the rest from code on. -/
theorem marks_text_append {x : Lexeme} {rest : List Char} (h : x.Fits rest) :
    marks .code (x.text ++ rest) = x.cells.map (·.2) ++ marks .code rest := by
  cases x with
  | code c =>
    have hmarks : marks .code (c :: rest) = _ := marks_code_char h.2
    rw [h.1, if_neg Bool.false_ne_true] at hmarks
    exact hmarks
  | lineComment body =>
    have hmarks := marks_lineComment h.1 h.2
    simp [text, cells, marks, hmarks, Function.comp_def]
  | blockComment body closed =>
    have hmarks := marks_blockComment h.1 h.2
    simp only [text, List.cons_append, marks, hmarks]
    simp [text, cells, Function.comp_def]
  | literal q body closed =>
    obtain ⟨hquote, hbody, hrest⟩ := h
    have hopen (cs : List Char) : marks .code (q :: cs) = .quote :: marks (.literal q) cs := by
      have hstroke : q ≠ '/' := by rintro rfl; exact Bool.noConfusion hquote
      rw [marks_code_char fun hq => absurd hq hstroke, if_pos hquote]
    have hclose : marks (.literal q) (ending [q] closed ++ rest) =
        ((ending [q] closed).map fun _ => .quote) ++ marks .code rest := by
      cases closed with
      | false => exact marks_unfinished (hrest rfl)
      | true => exact marks_literal_quote hquote rest
    simp only [text, List.cons_append, List.append_assoc, hopen, marks_inside hbody, hclose]
    simp [cells, Function.comp_def]

end Lexeme

/-- So are its cells. -/
theorem cells_text_append {x : Lexeme} {rest : List Char} (h : x.Fits rest) :
    Format.cells (x.text ++ rest) = x.cells ++ Format.cells rest := by
  have hlength : x.text.length = (x.cells.map (·.2)).length := by
    rw [← x.map_fst_cells, List.length_map, List.length_map]
  have hzip : x.text.zip (x.cells.map (·.2)) = x.cells := by
    rw [← x.map_fst_cells, List.zip_map']
    exact List.map_id _
  rw [Format.cells, x.marks_text_append h, List.zip_append hlength, hzip]
  rfl

/-- **The scanner goes lexeme by lexeme.** -/
theorem cells_eq_flatMap {xs : List Lexeme} {cs : List Char} (h : Lexeme.lexicon.Reads xs cs) :
    cells cs = xs.flatMap Lexeme.cells :=
  h.flatMap_eq rfl fun _ _ => cells_text_append

/-- What is seen of a lexeme is what its cells are painted as. -/
theorem Lexeme.painted_cells (x : Lexeme) : painted x.cells = x.shown := by
  have hmap (m : Mark) (cs : List Char) :
      painted (cs.map fun c => (c, m)) = cs.map fun c => Cell.painted (c, m) := List.map_map
  cases x with
  | code c => exact congrArg ([·]) (ite_self c)
  | lineComment body => exact hmap _ _
  | blockComment body closed => exact hmap _ _
  | literal q body closed =>
    have hquote : ∀ c ∈ ending [q] closed, Cell.painted (c, .quote) = c := fun c _ => ite_self c
    rw [cells, painted_cons, painted_append, hmap, hmap, List.map_congr_left hquote, List.map_id']
    exact congrArg (· :: _) (ite_self q)

theorem painted_flatMap {α : Type} (f : α → List Cell) (xs : List α) :
    painted (xs.flatMap f) = xs.flatMap fun x => painted (f x) :=
  List.map_flatMap

theorem painted_eq_flatMap {xs : List Lexeme} {cs : List Char} (h : Lexeme.lexicon.Reads xs cs) :
    painted (cells cs) = xs.flatMap Lexeme.shown := by
  rw [cells_eq_flatMap h, painted_flatMap, List.flatMap_congr fun x _ => x.painted_cells]

/-! ## Lines that begin inside a literal -/

/-- The lines that are flagged as continued, by number. -/
def continuedLines (cs : List Char) : Set ℕ :=
  {k | ∃ l, (cellLines false (cells cs))[k]? = some (true, l)}

/-- The lines that begin inside a template literal, by number: the line feed in front of such a line
is in the body of the literal, whose opening backtick is therefore on an earlier line. -/
def templateLines (xs : List Lexeme) : Set ℕ :=
  {k | ∃ before front back closed after,
    xs = before ++ .literal '\x60' (front ++ '\n' :: back) closed :: after ∧
      k = (before.flatMap Lexeme.text ++ '\x60' :: front).count '\n' + 1}

/-- A line is continued if the line feed in front of it is in a body. -/
theorem map_fst_cellLines (flag : Bool) (ys : List Cell) :
    (cellLines flag ys).map (·.1) = flag :: (ys.filter (·.1 = '\n')).map (·.2.isBody) := by
  induction ys generalizing flag with
  | nil => rfl
  | cons y ys ih =>
    obtain ⟨c, m⟩ := y
    by_cases hc : c = '\n'
    · subst hc
      rw [cellLines_lineFeed, List.map_cons, ih, List.filter_cons_of_pos (by simp), List.map_cons]
    · obtain ⟨l, ls, hlines⟩ := exists_cellLines flag ys
      rw [cellLines_cons hc flag m hlines, List.filter_cons_of_neg (by simpa using hc), ← ih,
        hlines]
      rfl

/-- What a filter leaves at a place, and what stands in front of it. -/
theorem getElem?_filter_iff {α : Type} {p : α → Bool} {ys : List α} {k : ℕ} {x : α} :
    (ys.filter p)[k]? = some x ↔ ∃ front back,
      ys = front ++ x :: back ∧ p x = true ∧ front.countP p = k := by
  constructor
  · intro h
    induction ys generalizing k with
    | nil => cases h
    | cons y ys ih =>
      cases hy : p y with
      | false =>
        rw [List.filter_cons_of_neg (by simp [hy])] at h
        obtain ⟨front, back, rfl, hx, rfl⟩ := ih h
        exact ⟨y :: front, back, rfl, hx, List.countP_cons_of_neg (by simp [hy])⟩
      | true =>
        rw [List.filter_cons_of_pos hy] at h
        cases k with
        | zero =>
          cases h
          exact ⟨[], ys, rfl, hy, rfl⟩
        | succ k =>
          obtain ⟨front, back, rfl, hx, rfl⟩ := ih h
          exact ⟨y :: front, back, rfl, hx, List.countP_cons_of_pos hy⟩
  · rintro ⟨front, back, rfl, hx, rfl⟩
    rw [List.filter_append, List.filter_cons_of_pos hx, List.countP_eq_length_filter,
      List.getElem?_append_right (Nat.le_refl _), Nat.sub_self]
    rfl

/-- A line behind the first is flagged if the line feed in front of it is inside a literal. -/
theorem mem_continuedLines_iff {cs : List Char} {k : ℕ} :
    k ∈ continuedLines cs ↔ ∃ front m back, cells cs = front ++ ('\n', m) :: back ∧
      m.isBody = true ∧ k = (plain front).count '\n' + 1 := by
  have hflag : k ∈ continuedLines cs ↔
      (false :: ((cells cs).filter (·.1 = '\n')).map (·.2.isBody))[k]? = some true := by
    rw [← map_fst_cellLines, List.getElem?_map]
    simp [continuedLines]
  rw [hflag]
  cases k with
  | zero => simp
  | succ k =>
    have hcount (front : List Cell) :
        front.countP (·.1 = '\n') = (plain front).count '\n' := by
      rw [plain, List.count, List.countP_map]
      rfl
    simp only [List.getElem?_cons_succ, List.getElem?_map, Option.map_eq_some_iff,
      getElem?_filter_iff, hcount, Nat.add_right_cancel_iff]
    constructor
    · rintro ⟨⟨c, m⟩, ⟨front, back, hcells, hc, rfl⟩, hm⟩
      obtain rfl : c = '\n' := by simpa using hc
      exact ⟨front, m, back, hcells, hm, rfl⟩
    · rintro ⟨front, m, back, hcells, hm, rfl⟩
      exact ⟨('\n', m), ⟨front, back, hcells, rfl, rfl⟩, hm⟩

/-- Where a member of lists that are put together comes from. -/
theorem exists_of_flatMap_eq {α β : Type} {f : α → List β} {xs : List α} {us vs : List β} {y : β}
    (h : xs.flatMap f = us ++ y :: vs) : ∃ before x after front back,
      xs = before ++ x :: after ∧ f x = front ++ y :: back ∧ us = before.flatMap f ++ front := by
  induction xs generalizing us with
  | nil => exact absurd h.symm (List.append_ne_nil_of_right_ne_nil us (List.cons_ne_nil y vs))
  | cons x xs ih =>
    rw [List.flatMap_cons] at h
    obtain ⟨ws, rfl, hrest⟩ | ⟨ws, hx, hws⟩ := List.append_eq_append_iff.mp h
    · obtain ⟨before, z, after, front, back, rfl, hz, rfl⟩ := ih hrest
      exact ⟨x :: before, z, after, front, back, rfl, hz, (List.append_assoc _ _ _).symm⟩
    · obtain ⟨rfl, hrest⟩ | ⟨ws, rfl, -⟩ := List.cons_eq_append_iff.mp hws
      · have hstart : xs.flatMap f = [] ++ y :: vs := hrest
        obtain ⟨before, z, after, front, back, rfl, hz, hfront⟩ := ih hstart
        refine ⟨x :: before, z, after, front, back, rfl, hz, ?_⟩
        rw [List.flatMap_cons, List.append_assoc, ← hfront, hx, List.append_nil, List.append_nil]
      · exact ⟨[], x, xs, us, ws, rfl, hx, rfl⟩

/-- Only a template goes over several lines. -/
theorem IsInside.eq_backtick {q : Char} {rest body : List Char} (h : IsInside q rest body)
    (hfeed : '\n' ∈ body) : q = '\x60' := by
  induction h with
  | nil => cases hfeed
  | covered hc h ih =>
    exact ih (by simpa [Ne.symm hc] using hfeed)
  | char hquote hline hcovers h ih =>
    obtain hc | hfeed := List.mem_cons.mp hfeed
    · exact hline hc.symm
    · exact ih hfeed

namespace Lexeme

/-- Only in a template literal a line feed counts as the inside of a literal. -/
theorem exists_body {x : Lexeme} {rest : List Char} (hx : x.Fits rest) {us vs : List Cell}
    {m : Mark} (hcells : x.cells = us ++ ('\n', m) :: vs) (hm : m.isBody = true) : ∃ front back closed,
      x = .literal '\x60' (front ++ '\n' :: back) closed ∧ plain us = '\x60' :: front := by
  have hmem : ('\n', m) ∈ x.cells := hcells ▸ List.mem_append_right us List.mem_cons_self
  cases x with
  | code c =>
    cases List.mem_singleton.mp hmem
    cases hm
  | lineComment body | blockComment body closed =>
    obtain ⟨c, -, heq⟩ := List.mem_map.mp hmem
    cases heq
    cases hm
  | literal q body closed =>
    -- neither quote is the inside of the literal, so the line feed is in its body
    have hquote : ('\n', m) ∉ (ending [q] closed).map fun c => (c, Mark.quote) := by
      intro hmem
      obtain ⟨c, -, heq⟩ := List.mem_map.mp hmem
      cases heq
      cases hm
    obtain ⟨-, heq⟩ | ⟨us, rfl, hinside⟩ := List.cons_eq_append_iff.mp hcells
    · cases heq
      cases hm
    obtain ⟨ws, rfl, hend⟩ | ⟨ws, hbody, hws⟩ := List.append_eq_append_iff.mp hinside
    · exact absurd (hend ▸ List.mem_append_right ws List.mem_cons_self) hquote
    obtain ⟨rfl, hend⟩ | ⟨ws, rfl, -⟩ := List.cons_eq_append_iff.mp hws
    · exact absurd (hend ▸ List.mem_cons_self) hquote
    obtain ⟨front, back, rfl, rfl, hback⟩ := List.map_eq_append_iff.mp hbody
    obtain ⟨c, back, rfl, heq, -⟩ := List.map_eq_cons_iff.mp hback
    cases heq
    obtain rfl := hx.2.1.eq_backtick (List.mem_append_right front List.mem_cons_self)
    exact ⟨front, back, closed, rfl, by simp⟩

end Lexeme

theorem plain_flatMap_cells (xs : List Lexeme) :
    plain (xs.flatMap Lexeme.cells) = xs.flatMap Lexeme.text := by
  rw [plain, List.map_flatMap, List.flatMap_congr fun x _ => x.map_fst_cells]

/-- **The lines that are continued are those that begin inside of a template.** -/
theorem continuedLines_eq {xs : List Lexeme} {cs : List Char} (h : Lexeme.lexicon.Reads xs cs) :
    continuedLines cs = templateLines xs := by
  ext k
  rw [mem_continuedLines_iff, cells_eq_flatMap h]
  constructor
  · rintro ⟨us, m, vs, hcells, hm, rfl⟩
    obtain ⟨before, x, after, us, vs, rfl, hx, rfl⟩ := exists_of_flatMap_eq hcells
    obtain ⟨rest, hrest⟩ := h.exists_fits (List.mem_append_right before List.mem_cons_self)
    obtain ⟨front, back, closed, rfl, hfront⟩ := Lexeme.exists_body hrest hx hm
    refine ⟨before, front, back, closed, after, rfl, ?_⟩
    rw [plain_append, plain_flatMap_cells, hfront]
  · rintro ⟨before, front, back, closed, after, rfl, rfl⟩
    refine ⟨before.flatMap Lexeme.cells ++ ('\x60', .quote) :: front.map fun c => (c, .body '\x60'),
      .body '\x60', (back.map fun c => (c, .body '\x60')) ++
        ((ending ['\x60'] closed).map fun c => (c, .quote)) ++ after.flatMap Lexeme.cells,
      by simp [Lexeme.cells], rfl, ?_⟩
    rw [plain_append, plain_flatMap_cells, plain_cons, plain_map_mark]

theorem Cell.painted_eq_lineFeed_iff {x : Cell} : x.painted = '\n' ↔ x.1 = '\n' :=
  ⟨fun h => fst_of_painted h (by decide) (by decide), fun h => (if_pos h).trans h⟩

/-- **The painted text keeps everything in its place.**  It is as long as the program and has its
line feeds; every other character is the one of the program, an `x` or a blank, so a sign that is
seen is one of the program.  The program can be read as lexemes, and however it is, the painted text
shows them one by one, and the lines flagged as continued are those that begin inside a template
literal. -/
theorem painted_in_place (cs : List Char) :
    (painted (cells cs)).length = cs.length ∧
      (∀ i : ℕ, (painted (cells cs))[i]? = some '\n' ↔ cs[i]? = some '\n') ∧
      (∀ (i : ℕ) c, (painted (cells cs))[i]? = some c → c = 'x' ∨ c = ' ' ∨ cs[i]? = some c) ∧
      (∀ (i : ℕ) c, isQuote c = true ∨ isOpener c = true ∨ isCloser c = true ∨ c = ';' ∨ c = ',' →
        (painted (cells cs))[i]? = some c → cs[i]? = some c) ∧
      (∃ xs, Lexeme.lexicon.Reads xs cs) ∧ ∀ xs, Lexeme.lexicon.Reads xs cs →
        painted (cells cs) = xs.flatMap Lexeme.shown ∧ continuedLines cs = templateLines xs := by
  have hpainted (i : ℕ) : (painted (cells cs))[i]? = (cells cs)[i]?.map Cell.painted :=
    List.getElem?_map
  have hplain (i : ℕ) : cs[i]? = (cells cs)[i]?.map (·.1) := by
    conv_lhs => rw [← plain_cells cs]
    exact List.getElem?_map
  have hkept (i : ℕ) (c : Char) (h : (painted (cells cs))[i]? = some c) :
      c = 'x' ∨ c = ' ' ∨ cs[i]? = some c := by
    rw [hpainted] at h
    obtain ⟨x, hx, rfl⟩ := Option.map_eq_some_iff.mp h
    rw [hplain, hx]
    obtain heq | heq | heq := x.painted_eq_or
    · exact .inr (.inr (congrArg some heq.symm))
    · exact .inl heq
    · exact .inr (.inl heq)
  refine ⟨?_, fun i => ?_, hkept, fun i c hc h => ?_, Lexeme.lexicon.exists_reads cs,
    fun xs hxs => ⟨painted_eq_flatMap hxs, continuedLines_eq hxs⟩⟩
  · rw [painted, List.length_map, ← List.length_map (·.1), ← plain, plain_cells]
  · rw [hpainted, hplain, Option.map_eq_some_iff, Option.map_eq_some_iff]
    simp only [Cell.painted_eq_lineFeed_iff]
  · obtain rfl | rfl | hsame := hkept i c h
    · exact absurd hc (by decide)
    · exact absurd hc (by decide)
    · exact hsame

example : painted (cells "f(`a;\n`) // [".toList) = "f(`xx\n`)     ".toList := by cbv

end Scaffold.Format
