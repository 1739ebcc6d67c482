import Scaffold.Proofs.Format.Cells

/-!
# Proofs/Format/Phases — the scanner, one character at a time

The marks of a text are found by looking for pairs of characters.  Here the same marks come from an
automaton that reads one character at a time (`marks_eq`): its `Phase` also knows whether the
character before was the first of a pair, and a mark depends on the phase, the character and the one
behind it.  Texts can then be cut anywhere but inside such a pair (`marks_append`), in particular
at line feeds, and characters that mean nothing to the scanner can be added at both ends of a line.
-/

namespace Scaffold.Format

open Text

/-- Where the scanner is, seen from one character to the next. -/
inductive Phase where
  | code
  /-- Behind a stroke in code that may begin a comment. -/
  | stroke
  | lineComment
  | blockComment
  /-- Behind a star in a block comment. -/
  | star
  | literal (quote : Char)
  /-- Behind a backslash in a literal. -/
  | escape (quote : Char)
deriving DecidableEq, Repr

def Scan.phase : Scan → Phase
  | .code => .code
  | .lineComment => .lineComment
  | .blockComment => .blockComment
  | .literal q => .literal q

/-- The literal, if the scanner is in one, has a quote. -/
def Scan.IsQuoted : Scan → Prop
  | .literal q => isQuote q = true
  | _ => True

namespace Phase

/-- The phase behind a line feed: block comments and template literals go on, all else ends. -/
def newline : Phase → Phase
  | .blockComment | .star => .blockComment
  | .literal q | .escape q => if q = '\x60' then .literal q else .code
  | .code | .stroke | .lineComment => .code

def step (p : Phase) (c : Char) : Phase :=
  if c = '\n' then p.newline
  else match p with
    | .code => if c = '/' then .stroke else if isQuote c then .literal c else .code
    | .stroke =>
      if c = '/' then .lineComment
      else if c = '*' then .blockComment
      else if isQuote c then .literal c
      else .code
    | .lineComment => .lineComment
    | .blockComment => if c = '*' then .star else .blockComment
    | .star => if c = '/' then .code else if c = '*' then .star else .blockComment
    | .literal q =>
      if c = '\\' then .escape q else if isQuote c && c == q then .code else .literal q
    | .escape q => .literal q

/-- The second character of a pair that begins a comment. -/
def isSecond (c : Option Char) : Bool := c == some '/' || c == some '*'

/-- The mark of a character in view of the one behind it. -/
def mark (p : Phase) (c : Char) (next : Option Char) : Mark :=
  match p with
  | .code =>
    if c = '/' && isSecond next then .comment else if isQuote c then .quote else .code
  | .stroke => if isSecond (some c) then .comment else if isQuote c then .quote else .code
  | .lineComment => if c = '\n' then .code else .comment
  | .blockComment | .star => .comment
  | .literal q =>
    if c = '\n' then if q = '\x60' then .body q else .code
    else if c = '\\' then .body q
    else if isQuote c && c == q then .quote
    else .body q
  | .escape q => if c = '\n' ∧ q ≠ '\x60' then .code else .body q

/-- The marks of a text from a phase on. -/
def marks : Phase → List Char → List Mark
  | _, [] => []
  | p, c :: cs => p.mark c cs.head? :: marks (p.step c) cs

/-- The phase behind a text. -/
def run (p : Phase) (cs : List Char) : Phase := cs.foldl step p

end Phase

open Phase

/-- A stroke that begins no comment is a character of code like others. -/
theorem marks_stroke {cs : List Char} (h : isSecond cs.head? = false) :
    Phase.stroke.marks cs = Phase.code.marks cs := by
  cases cs with
  | nil => rfl
  | cons c cs =>
    have hc : isSecond (some c) = false := h
    have hne : c ≠ '/' ∧ c ≠ '*' := by simpa [isSecond] using hc
    simp [Phase.marks, Phase.mark, Phase.step, Phase.newline, hc, hne]

theorem marks_star {cs : List Char} (h : cs.head? ≠ some '/') :
    Phase.star.marks cs = Phase.blockComment.marks cs := by
  cases cs with
  | nil => rfl
  | cons c cs =>
    have hc : c ≠ '/' := by simpa using h
    simp [Phase.marks, Phase.mark, Phase.step, Phase.newline, hc]

/-- A character of code that begins neither a comment nor a literal. -/
theorem marks_code_cons {c : Char} {cs : List Char} (hline : ∀ ds, c = '/' → cs ≠ '/' :: ds)
    (hblock : ∀ ds, c = '/' → cs ≠ '*' :: ds) (hquote : ¬isQuote c = true) :
    Phase.code.marks (c :: cs) = .code :: Phase.code.marks cs := by
  by_cases hc : c = '/'
  · subst hc
    have hnext : isSecond cs.head? = false := by
      cases cs with
      | nil => rfl
      | cons d cs =>
        have hd : d ≠ '/' := by rintro rfl; exact hline cs rfl rfl
        have hd' : d ≠ '*' := by rintro rfl; exact hblock cs rfl rfl
        simp [isSecond, hd, hd']
    have hstep : Phase.code.step '/' = .stroke := rfl
    rw [Phase.marks, hstep, marks_stroke hnext]
    simp [Phase.mark, hnext, isQuote]
  · simp [Phase.marks, Phase.mark, Phase.step, Phase.newline, hc, hquote]

/-- A character that does not end its block comment. -/
theorem marks_blockComment_cons {c : Char} {cs : List Char}
    (hend : ∀ ds, c = '*' → cs ≠ '/' :: ds) :
    Phase.blockComment.marks (c :: cs) = .comment :: Phase.blockComment.marks cs := by
  by_cases hc : c = '*'
  · subst hc
    have hnext : cs.head? ≠ some '/' := fun hhead =>
      have ⟨ds, hds⟩ := List.head?_eq_some_iff.mp hhead
      hend ds rfl hds
    have hstep : Phase.blockComment.step '*' = .star := rfl
    rw [Phase.marks, hstep, marks_star hnext]
    rfl
  · simp [Phase.marks, Phase.mark, Phase.step, Phase.newline, hc]

/-- A character in a literal; a backslash is one itself at the end of the text. -/
theorem marks_literal_cons {q c : Char} {cs : List Char}
    (hescape : ∀ d ds, c = '\\' → cs ≠ d :: ds) (hc : c ≠ '\n') (hq : c ≠ q) :
    (Phase.literal q).marks (c :: cs) = .body q :: (Phase.literal q).marks cs := by
  by_cases hslash : c = '\\'
  · cases cs with
    | nil => simp [Phase.marks, Phase.mark, hslash]
    | cons d ds => exact absurd rfl (hescape d ds hslash)
  · simp [Phase.marks, Phase.mark, Phase.step, hc, hq, hslash]

/-- **The scanner as an automaton.** -/
theorem marks_eq {s : Scan} (hs : s.IsQuoted) (cs : List Char) :
    marks s cs = s.phase.marks cs := by
  fun_induction marks s cs with
  | case1 s => rfl
  | case2 cs ih => rw [ih trivial]; rfl
  | case3 cs ih => rw [ih trivial]; rfl
  | case4 c cs hnotLine hnotBlock hquote ih =>
    have hc : c ≠ '/' := by rintro rfl; exact Bool.noConfusion hquote
    have hfeed : c ≠ '\n' := by rintro rfl; exact Bool.noConfusion hquote
    rw [ih hquote]
    simp [Scan.phase, Phase.marks, Phase.mark, Phase.step, hc, hfeed, hquote]
  | case5 c cs hline hblock hquote ih =>
    rw [ih trivial]
    exact (marks_code_cons hline hblock hquote).symm
  | case6 cs ih => rw [ih trivial]; rfl
  | case7 c cs hc ih =>
    rw [ih trivial]
    simp [Scan.phase, Phase.marks, Phase.mark, Phase.step, hc]
  | case8 cs ih => rw [ih trivial]; rfl
  | case9 c cs hend ih =>
    rw [ih trivial]
    exact (marks_blockComment_cons hend).symm
  | case10 q cs ih =>
    rw [ih hs]
    simp [Scan.phase, Phase.marks, Phase.mark, Phase.step, Phase.newline]
  | case11 q d cs hd ih =>
    rw [ih hs]
    simp [Scan.phase, Phase.marks, Phase.mark, Phase.step, hd]
  | case12 cs hnotEscape ih => rw [ih hs]; rfl
  | case13 q cs hq hnotEscape ih =>
    rw [ih trivial]
    simp [Scan.phase, Phase.marks, Phase.mark, Phase.step, Phase.newline, hq]
  | case14 c cs hnotEscape hc ih =>
    have hescape : c ≠ '\\' := by rintro rfl; exact Bool.noConfusion hs
    rw [ih trivial]
    have hquote : isQuote c = true := hs
    simp [Scan.phase, Phase.marks, Phase.mark, Phase.step, hc, hescape, hquote]
  | case15 q c cs hescape hc hq ih =>
    rw [ih hs]
    exact (marks_literal_cons hescape hc hq).symm

/-! ## Cutting texts -/

theorem Phase.mark_congr {p : Phase} {c : Char} {next next' : Option Char}
    (h : isSecond next = isSecond next') : p.mark c next = p.mark c next' := by
  cases p <;> simp [Phase.mark, h]

/-- A text can be cut before any character that is not the second of a pair. -/
theorem marks_append (p : Phase) (cs : List Char) {ds : List Char}
    (h : isSecond ds.head? = false) :
    p.marks (cs ++ ds) = p.marks cs ++ (p.run cs).marks ds := by
  induction cs generalizing p with
  | nil => rfl
  | cons c cs ih =>
    have hmark : p.mark c (cs ++ ds).head? = p.mark c cs.head? := by
      cases cs with
      | nil => exact Phase.mark_congr h
      | cons d cs => rfl
    rw [List.cons_append, Phase.marks, Phase.marks, ih, hmark]
    rfl

theorem Phase.run_append (p : Phase) (cs ds : List Char) :
    p.run (cs ++ ds) = (p.run cs).run ds :=
  List.foldl_append

@[simp] theorem Phase.length_marks (p : Phase) (cs : List Char) :
    (p.marks cs).length = cs.length := by
  induction cs generalizing p with
  | nil => rfl
  | cons c cs ih => rw [Phase.marks, List.length_cons, List.length_cons, ih]

/-- The characters of a text with their marks. -/
def Phase.cells (p : Phase) (cs : List Char) : List Cell := cs.zip (p.marks cs)

theorem cells_eq (cs : List Char) : cells cs = Phase.code.cells cs := by
  rw [cells, Phase.cells, marks_eq (s := .code) trivial]
  rfl

@[simp] theorem plain_phaseCells (p : Phase) (cs : List Char) : plain (p.cells cs) = cs := by
  rw [plain, Phase.cells, List.map_fst_zip (Nat.le_of_eq (p.length_marks cs).symm)]

theorem Phase.cells_append (p : Phase) (cs : List Char) {ds : List Char}
    (h : isSecond ds.head? = false) :
    p.cells (cs ++ ds) = p.cells cs ++ (p.run cs).cells ds := by
  rw [Phase.cells, marks_append p cs h, List.zip_append (p.length_marks cs).symm]
  rfl

theorem Phase.cells_cons (p : Phase) (c : Char) (cs : List Char) :
    p.cells (c :: cs) = (c, p.mark c cs.head?) :: (p.step c).cells cs :=
  rfl

/-! ## Lines -/

/-- The scanner is in a literal. -/
def Phase.isInside : Phase → Bool
  | .literal _ | .escape _ => true
  | _ => false

/-- The lines of a program, each scanned from the phase that the line before it leads to. -/
def scanned : Phase → List (List Char) → List (Bool × List Cell)
  | _, [] => []
  | p, l :: ls => (p.isInside, p.cells l) :: scanned (p.run l).newline ls

theorem isBody_mark_lineFeed (p : Phase) (next : Option Char) :
    (p.mark '\n' next).isBody = p.newline.isInside := by
  cases p with
  | literal q | escape q => by_cases hq : q = '\x60' <;> simp [Phase.mark, Phase.newline, hq] <;> rfl
  | code | stroke | lineComment | blockComment | star => rfl

/-- At its end a line looks on to the line feed, which is the second character of no pair. -/
theorem isSecond_head?_line {cs l : List Char} {ls : List (List Char)} (h : lines cs = l :: ls) :
    isSecond l.head? = isSecond cs.head? := by
  cases cs with
  | nil => cases h; rfl
  | cons c cs =>
    rw [lines, pieces] at h
    split at h
    · rename_i hc
      cases h
      rw [hc]
      rfl
    · split at h
      · cases h; rfl
      · cases h; rfl

/-- The lines of the cells of a text are its lines, scanned one after the other. -/
theorem cellLines_phaseCells (p : Phase) (continued : Bool) (cs : List Char) :
    ∃ l ls, lines cs = l :: ls ∧ cellLines continued (p.cells cs) =
      (continued, p.cells l) :: scanned (p.run l).newline ls := by
  induction cs generalizing p continued with
  | nil => exact ⟨[], [], rfl, rfl⟩
  | cons c cs ih =>
    by_cases hc : c = '\n'
    · subst hc
      obtain ⟨l, ls, hlines, hcells⟩ := ih p.newline (p.mark '\n' cs.head?).isBody
      refine ⟨[], l :: ls, ?_, ?_⟩
      · rw [lines, pieces, if_pos rfl, ← hlines]
        rfl
      · have hstep : p.step '\n' = p.newline := if_pos rfl
        rw [Phase.cells_cons, cellLines_lineFeed, hstep, hcells, isBody_mark_lineFeed]
        rfl
    · obtain ⟨l, ls, hlines, hcells⟩ := ih (p.step c) continued
      have hmark : p.mark c cs.head? = p.mark c l.head? :=
        Phase.mark_congr (isSecond_head?_line hlines).symm
      refine ⟨c :: l, ls, ?_, ?_⟩
      · rw [lines] at hlines
        rw [lines, pieces, if_neg hc, hlines]
      · rw [Phase.cells_cons, cellLines_cons hc continued _ hcells, hmark]
        rfl

theorem cellLines_cells (cs : List Char) :
    cellLines false (cells cs) = scanned .code (lines cs) := by
  obtain ⟨l, ls, hlines, hcells⟩ := cellLines_phaseCells .code false cs
  rw [cells_eq, hcells, hlines]
  rfl

theorem layout_eq (unit cs : List Char) :
    layout unit cs = layoutFrom unit [] (scanned .code (lines cs)) := by
  rw [layout, cellLines_cells]

/-! ## Characters that mean nothing to the scanner -/

/-- The character neither begins nor ends anything, and it is no bracket. -/
def isInert (c : Char) : Bool :=
  c ∉ ['\n', '/', '*', '\\', '\'', '"', '\x60', '{', '}', '[', ']', '(', ')']

theorem isInert_of_isBlank {c : Char} (h : isBlank c = true) (hfeed : c ≠ '\n') :
    isInert c = true := by
  have hspecial : ∀ d ∈ ['/', '*', '\\', '\'', '"', '\x60', '{', '}', '[', ']', '(', ')'],
      isBlank d = false := by decide
  rw [isInert, decide_eq_true_eq, List.mem_cons, not_or]
  exact ⟨hfeed, fun hc => by simp [hspecial c hc] at h⟩

/-- The blanks of a line are inert. -/
theorem inert_of_blank {cs l : List Char} (hl : '\n' ∉ l) (hsub : cs ⊆ l)
    (h : ∀ c ∈ cs, isBlank c = true) : ∀ c ∈ cs, isInert c = true := fun c hc =>
  isInert_of_isBlank (h c hc) fun hfeed => hl (hfeed ▸ hsub hc)

/-- The phase behind an inert character: what could have begun a pair has not. -/
def Phase.settle : Phase → Phase
  | .code | .stroke => .code
  | .lineComment => .lineComment
  | .blockComment | .star => .blockComment
  | .literal q | .escape q => .literal q

/-- The mark of an inert character. -/
def Phase.surroundings : Phase → Mark
  | .code | .stroke => .code
  | .lineComment | .blockComment | .star => .comment
  | .literal q | .escape q => .body q

section Inert

variable {c : Char} (h : isInert c = true)
include h

theorem Phase.step_inert (p : Phase) : p.step c = p.settle := by
  simp only [isInert, decide_eq_true_eq, List.mem_cons, not_or] at h
  cases p <;> simp [Phase.step, Phase.settle, isQuote, h]

theorem Phase.mark_inert (p : Phase) (next : Option Char) : p.mark c next = p.surroundings := by
  simp only [isInert, decide_eq_true_eq, List.mem_cons, not_or] at h
  cases p <;> simp [Phase.mark, Phase.surroundings, isSecond, isQuote, h]

theorem isSecond_of_isInert : isSecond (some c) = false := by
  simp only [isInert, decide_eq_true_eq, List.mem_cons, not_or] at h
  simp [isSecond, h]

end Inert

theorem isSecond_head?_inert {cs : List Char} (h : ∀ c ∈ cs, isInert c = true) :
    isSecond cs.head? = false := by
  cases cs with
  | nil => rfl
  | cons c cs => exact isSecond_of_isInert (h c List.mem_cons_self)

theorem isInert_map {cs : List Char} (h : ∀ c ∈ cs, isInert c = true) (m : Mark) :
    ∀ x ∈ cs.map fun c => (c, m), isInert x.1 = true := by
  intro x hx
  obtain ⟨c, hc, rfl⟩ := List.mem_map.mp hx
  exact h c hc

theorem isInert_indentCells {o : Options} {stack : List Open} {code : List Char} :
    ∀ x ∈ indentCells o.indentUnit stack code, isInert x.1 = true := by
  intro x hx
  obtain rfl | rfl := mem_indentCells hx <;> rfl

theorem Phase.settle_settle (p : Phase) : p.settle.settle = p.settle := by cases p <;> rfl

theorem Phase.newline_settle (p : Phase) : p.settle.newline = p.newline := by cases p <;> rfl

theorem Phase.settle_newline (p : Phase) : p.newline.settle = p.newline := by
  cases p with
  | literal q | escape q => by_cases hq : q = '\x60' <;> simp [newline, settle, hq]
  | code | stroke | lineComment | blockComment | star => rfl

/-- Behind inert characters the scanner is where it was, settled if there are any. -/
theorem Phase.run_inert {cs : List Char} (h : ∀ c ∈ cs, isInert c = true) (p : Phase) :
    p.run cs = if cs = [] then p else p.settle := by
  induction cs generalizing p with
  | nil => rfl
  | cons c cs ih =>
    obtain ⟨hc, hcs⟩ := List.forall_mem_cons.mp h
    have hrun : p.run (c :: cs) = (p.step c).run cs := rfl
    rw [hrun, ih hcs, step_inert hc, settle_settle, ite_self, if_neg (List.cons_ne_nil c cs)]

/-- Inert characters are marked as what surrounds them. -/
theorem Phase.cells_inert {cs : List Char} (h : ∀ c ∈ cs, isInert c = true) (p : Phase) :
    p.cells cs = cs.map fun c => (c, p.surroundings) := by
  have hsettle (p : Phase) : p.settle.surroundings = p.surroundings := by cases p <;> rfl
  induction cs generalizing p with
  | nil => rfl
  | cons c cs ih =>
    obtain ⟨hc, hcs⟩ := List.forall_mem_cons.mp h
    rw [cells_cons, step_inert hc, ih hcs, mark_inert hc, hsettle]
    rfl

/-- Inert characters in front of a text do not change its marks. -/
theorem Phase.cells_inert_append {front : List Char} (h : ∀ c ∈ front, isInert c = true) {p : Phase}
    (hp : p.settle = p) (cs : List Char) :
    p.cells (front ++ cs) = (front.map fun c => (c, p.surroundings)) ++ p.cells cs := by
  induction front with
  | nil => rfl
  | cons c front ih =>
    obtain ⟨hc, hfront⟩ := List.forall_mem_cons.mp h
    rw [List.cons_append, cells_cons, step_inert hc, hp, ih hfront, mark_inert hc]
    rfl

/-- Inert characters behind a text do not change its marks. -/
theorem Phase.cells_append_inert {tail : List Char} (h : ∀ c ∈ tail, isInert c = true) (p : Phase)
    (cs : List Char) :
    p.cells (cs ++ tail) =
      p.cells cs ++ tail.map fun c => (c, (p.run cs).surroundings) := by
  rw [cells_append p cs (isSecond_head?_inert h), cells_inert h]

/-- The blanks around a line do not change the marks of what stands between them. -/
theorem trimCells_phaseCells {p : Phase} (hp : p.settle = p) {l : List Char} (hl : '\n' ∉ l) :
    trimCells (p.cells l) = p.cells (trimChars l) := by
  obtain ⟨front, tail, hfront, htail, heq⟩ := exists_trim isBlank l
  have hcells : p.cells l = (front.map fun c => (c, p.surroundings)) ++ p.cells (trimChars l) ++
      tail.map fun c => (c, (p.run (trimChars l)).surroundings) := by
    rw [List.append_assoc, ← Phase.cells_append_inert (inert_of_blank hl ?_ htail), ←
      Phase.cells_inert_append (inert_of_blank hl ?_ hfront) hp, ← List.append_assoc]
    · exact congrArg p.cells heq
    · rw [heq, List.append_assoc]
      exact List.subset_append_left _ _
    · rw [heq]
      exact List.subset_append_right _ _
  have hends : trimCells (p.cells l) = trimCells (p.cells (trimChars l)) := by
    rw [hcells]
    refine trim_append (fun x hx => ?_) (fun x hx => ?_) _
    · obtain ⟨c, hc, rfl⟩ := List.mem_map.mp hx
      exact hfront c hc
    · obtain ⟨c, hc, rfl⟩ := List.mem_map.mp hx
      exact htail c hc
  -- Nothing is left to trim, since the text of the cells is trimmed.
  have htrimmed : IsTrimmed isBlank (plain (p.cells (trimChars l))) := by
    rw [plain_phaseCells]
    exact isTrimmed_trim l
  exact hends.trans (isTrimmed_map.mp htrimmed).trim_eq

end Scaffold.Format
