import Scaffold.Format.Basic
import Scaffold.Proofs.Format.Literals
import Scaffold.Proofs.Format.Spacing

/-!
# Proofs/Format/Brackets — formatting keeps the brackets that are seen

The brackets of a program are those that stand outside of literals and comments.  Scanned from a
phase on, two lines are **alike** if they show the same brackets and leave the scanner alike behind
their line feeds; what the formatter does to a line, be it inside a comment or an unfinished
literal, gives a line alike.  So a program that gets semicolons and commas, but loses none, shows
the same brackets before and after (`brackets_kept`), and the check finds the same errors.
-/

namespace Scaffold.Format

open Text Phase

def isBracket (c : Char) : Bool := isOpener c || isCloser c

/-- The brackets of a program outside of literals and comments. -/
def brackets (cs : List Char) : List Char := (painted (cells cs)).filter isBracket

/-- The brackets of a text that is scanned from a phase on. -/
def Phase.brackets (p : Phase) (cs : List Char) : List Char :=
  (painted (p.cells cs)).filter isBracket

/-! ## Line by line -/

/-- The brackets of lines. -/
def bracketsOf : Phase → List (List Char) → List Char
  | _, [] => []
  | p, l :: ls => p.brackets l ++ bracketsOf (p.run l).newline ls

/-- The brackets of a text are those of its lines, each scanned from where the last one ends. -/
theorem brackets_eq (cs : List Char) : brackets cs = bracketsOf .code (lines cs) := by
  have hlines (p : Phase) : ∃ l ls, lines cs = l :: ls ∧
      p.brackets cs = p.brackets l ++ bracketsOf (p.run l).newline ls := by
    induction cs generalizing p with
    | nil => exact ⟨[], [], rfl, rfl⟩
    | cons c cs ih =>
      obtain ⟨l, ls, hlines, hbrackets⟩ := ih (p.step c)
      by_cases hc : c = '\n'
      · subst hc
        refine ⟨[], l :: ls, ?_, ?_⟩
        · rw [lines, pieces, if_pos rfl, ← hlines]
          rfl
        · have hstep : p.step '\n' = p.newline := if_pos rfl
          have hseen : Cell.painted ('\n', p.mark '\n' cs.head?) = '\n' := by simp [Cell.painted]
          rw [hstep] at hbrackets
          rw [Phase.brackets, Phase.cells_cons, painted_cons, hseen, hstep]
          exact hbrackets
      · refine ⟨c :: l, ls, ?_, ?_⟩
        · rw [lines] at hlines
          rw [lines, pieces, if_neg hc, hlines]
        · have hmark : p.mark c cs.head? = p.mark c l.head? :=
            Phase.mark_congr (isSecond_head?_line hlines).symm
          have hsplit (cs : List Char) : p.brackets (c :: cs) =
              [Cell.painted (c, p.mark c cs.head?)].filter isBracket ++ (p.step c).brackets cs := by
            rw [Phase.brackets, Phase.cells_cons, painted_cons, ← List.singleton_append,
              List.filter_append]
            rfl
          rw [hsplit, hsplit, hbrackets, hmark, List.append_assoc]
          rfl
  obtain ⟨l, ls, hls, hbrackets⟩ := hlines .code
  rw [brackets, cells_eq, hls]
  exact hbrackets

/-- Scanned from a phase, the second text shows the brackets of the first and leads to the same
phase behind a line feed. -/
structure Alike (p : Phase) (l l' : List Char) : Prop where
  brackets : p.brackets l' = p.brackets l
  newline : (p.run l').newline = (p.run l).newline

namespace Alike

variable {p : Phase} {l l' l'' : List Char}

theorem refl (p : Phase) (l : List Char) : Alike p l l := ⟨rfl, rfl⟩

theorem symm (h : Alike p l l') : Alike p l' l := ⟨h.brackets.symm, h.newline.symm⟩

theorem trans (h : Alike p l l') (h' : Alike p l' l'') : Alike p l l'' :=
  ⟨h'.brackets.trans h.brackets, h'.newline.trans h.newline⟩

end Alike

theorem isBracket_eq_false {c : Char} (h : isInert c = true) : isBracket c = false := by
  simp only [isInert, decide_eq_true_eq, List.mem_cons, not_or] at h
  simp [isBracket, isOpener, isCloser, closerOf?, h]

/-- What is seen of a character that is no bracket is none. -/
theorem isBracket_painted {c : Char} (h : isBracket c = false) (m : Mark) :
    isBracket (Cell.painted (c, m)) = false := by
  obtain hseen | hseen | hseen := Cell.painted_eq_or (c, m) <;> rw [hseen]
  · exact h
  · rfl
  · rfl

/-- Inert characters show no brackets. -/
theorem filter_isBracket_inert {cs : List Cell} (h : ∀ x ∈ cs, isInert x.1 = true) :
    (painted cs).filter isBracket = [] := by
  rw [List.filter_eq_nil_iff]
  intro c hc
  obtain ⟨x, hx, rfl⟩ := List.mem_map.mp hc
  rw [isBracket_painted (isBracket_eq_false (h x hx)) x.2]
  exact Bool.false_ne_true

/-- Inert characters behind a line change neither its brackets nor how it ends. -/
theorem alike_append {tail : List Char} (h : ∀ c ∈ tail, isInert c = true) (p : Phase)
    (l : List Char) : Alike p l (l ++ tail) := by
  constructor
  · rw [Phase.brackets, Phase.cells_append_inert h, painted_append, List.filter_append,
      filter_isBracket_inert (isInert_map h _), List.append_nil]
    rfl
  · rw [Phase.run_append, Phase.run_inert h]
    split
    · rfl
    · exact Phase.newline_settle _

theorem alike_append_left {front : List Char} (h : ∀ c ∈ front, isInert c = true) {p : Phase}
    (hp : p.settle = p) (l : List Char) : Alike p l (front ++ l) := by
  constructor
  · rw [Phase.brackets, Phase.cells_inert_append h hp, painted_append, List.filter_append,
      filter_isBracket_inert (isInert_map h _), List.nil_append]
    rfl
  · rw [Phase.run_append, Phase.run_inert h, hp, ite_self]

theorem alike_trimRight (p : Phase) {l : List Char} (hl : '\n' ∉ l) : Alike p l (trimRight l) := by
  obtain ⟨tail, htail, heq⟩ := exists_eq_dropTail_append isBlank l
  have hsub : tail ⊆ l := by rw [heq]; exact List.subset_append_right _ _
  have h := alike_append (inert_of_blank hl hsub htail) p (trimRight l)
  rw [trimRight, ← heq] at h
  exact h.symm

/-- Nor do the blanks at both ends of a line that begins where the scanner waits for nothing. -/
theorem alike_trimChars {p : Phase} (hp : p.settle = p) {l : List Char} (hl : '\n' ∉ l) :
    Alike p l (trimChars l) := by
  obtain ⟨front, hfront, heq⟩ := exists_eq_append_dropWhile isBlank l
  have hsub : front ⊆ l := by rw [heq]; exact List.subset_append_left _ _
  have hrest : '\n' ∉ trimLeft l := fun hfeed => hl ((List.dropWhile_suffix _).subset hfeed)
  have h := alike_append_left (inert_of_blank hl hsub hfront) hp (trimLeft l)
  rw [trimLeft, ← heq] at h
  exact h.symm.trans (alike_trimRight p hrest)

/-! ## Programs, line by line -/

/-- Lines that are related one by one, each in the phase that the line before it leads to. -/
inductive Threaded {β : Type} (R : Phase → List Char → β → Prop) :
    Phase → List (List Char) → List β → Prop
  | nil (p : Phase) : Threaded R p [] []
  | cons {p : Phase} {l : List Char} {x : β} {ls : List (List Char)} {xs : List β} (h : R p l x)
      (hs : Threaded R (p.run l).newline ls xs) : Threaded R p (l :: ls) (x :: xs)

namespace Threaded

variable {β γ : Type} {R : Phase → List Char → β → Prop} {S : Phase → List Char → γ → Prop}
  {p : Phase} {ls : List (List Char)}

theorem map {xs : List β} (h : Threaded R p ls xs) {f : β → γ}
    (hf : ∀ p l x, R p l x → S p l (f x)) : Threaded S p ls (xs.map f) := by
  induction h with
  | nil p => exact .nil p
  | cons h hs ih => exact .cons (hf _ _ _ h) ih

/-- What a pass keeps of every line, it keeps of the program. -/
theorem pass {R S : Phase → List Char → Line → Prop} {xs : List Line} (h : Threaded R p ls xs)
    {change : Line → List Line → Line} (hchange : ∀ p l x after, R p l x → S p l (change x after)) :
    Threaded S p ls (pass change xs) := by
  induction h with
  | nil p => exact .nil p
  | cons h hs ih => exact .cons (hchange _ _ _ _ h) ih

theorem forall_mem {xs : List β} (h : Threaded R p ls xs) {P : β → Prop}
    (hP : ∀ p l x, R p l x → P x) : ∀ x ∈ xs, P x := by
  induction h with
  | nil p => exact List.forall_mem_nil P
  | cons h hs ih => exact List.forall_mem_cons.mpr ⟨hP _ _ _ h, ih⟩

theorem bracketsOf_eq {ls' : List (List Char)} (h : Threaded Alike p ls ls') :
    bracketsOf p ls' = bracketsOf p ls := by
  induction h with
  | nil p => rfl
  | cons h hs ih => rw [bracketsOf, bracketsOf, h.brackets, h.newline, ih]

end Threaded

/-- At the beginning of a line the scanner has just read a line feed. -/
theorem Phase.newline_newline (p : Phase) : p.newline.newline = p.newline := by
  cases p with
  | literal q | escape q => by_cases hq : q = '\x60' <;> simp [newline, hq]
  | code | stroke | lineComment | blockComment | star => rfl

/-- Empty lines show no brackets and lead nowhere. -/
theorem bracketsOf_filled {p : Phase} (hp : p.newline = p) (ls : List (List Char)) :
    bracketsOf p (filled ls) = bracketsOf p ls := by
  induction ls generalizing p with
  | nil => rfl
  | cons l ls ih =>
    by_cases hl : l = []
    · have hempty : bracketsOf p ([] :: ls) = bracketsOf p.newline ls := rfl
      rw [hl, hempty, hp, filled_empty, ih hp]
    · rw [filled_cons hl, bracketsOf, bracketsOf, ih (Phase.newline_newline _)]

theorem bracketsOf_finish {ls : List (List Char)} (h : ∀ l ∈ ls, '\n' ∉ l) :
    brackets (finish ls) = bracketsOf .code (ls.map trimRight) := by
  rw [brackets_eq, ← bracketsOf_filled rfl, filled_lines_finish h, bracketsOf_filled rfl]

/-- A line end is no bracket. -/
theorem brackets_unifyLineEnds (cs : List Char) : brackets (unifyLineEnds cs) = brackets cs := by
  have hthreaded (p : Phase) {ls ls' : List (List Char)} (h : List.Forall₂ LineEnd ls ls') :
      Threaded Alike p ls ls' := by
    induction h generalizing p with
    | nil => exact .nil p
    | cons hl _ ih =>
      refine .cons ?_ (ih _)
      obtain rfl | rfl := hl
      · exact .refl p _
      · exact (alike_append (by decide) p _).symm
  rw [brackets_eq, brackets_eq, (hthreaded .code (lines_unifyLineEnds cs)).bracketsOf_eq]

/-! ## What the passes do to a line -/

/-- The line of a program after layout: it is kept, or its code stands between a margin and what
has been put behind it. -/
inductive Placed (p : Phase) (l : List Char) (x : Line) : Prop
  | kept (hl : '\n' ∉ l) (hkept : x.kept = true) (hcells : x.cells = p.cells l)
  | shifted {front code tail : List Cell} {p' : Phase} (hp : p.isInside = false)
      (hsettled : p.settle = p) (hkept : x.kept = false) (hcells : x.cells = front ++ code ++ tail)
      (hfront : ∀ c ∈ front, isInert c.1 = true) (htail : ∀ c ∈ tail, isInert c.1 = true)
      (hcode : Scanned p code p') (hbrackets : (painted code).filter isBracket = p.brackets l)
      (hnewline : p'.newline = (p.run l).newline)

/-- A line that is laid out has its characters, in its place. -/
theorem placed_layoutLine (o : Options) (stack : List Open) {p : Phase} (hsettled : p.settle = p)
    {l : List Char} (hl : '\n' ∉ l) :
    Placed p l (layoutLine o.indentUnit stack p.isInside (p.cells l)).1 := by
  cases hp : p.isInside with
  | true => exact .kept hl rfl rfl
  | false =>
    have htrim := trimCells_phaseCells hsettled hl
    have halike := alike_trimChars hsettled hl
    have hscanned := scanned_cells hp (l := trimChars l) fun hfeed => hl <| by
      obtain ⟨front, tail, -, -, heq⟩ := exists_trim isBlank l
      rw [heq]
      exact List.mem_append_left _ (List.mem_append_right _ hfeed)
    by_cases hempty : trimCells (p.cells l) = []
    · rw [layoutLine_blank hempty]
      rw [← htrim, hempty] at hscanned
      refine .shifted hp hsettled rfl rfl (List.forall_mem_nil _) (List.forall_mem_nil _) hscanned
        ?_ halike.newline
      rw [← halike.brackets, Phase.brackets, ← htrim, hempty]
    · rw [layoutLine_code hempty]
      refine .shifted hp hsettled rfl (List.append_nil _).symm isInert_indentCells
        (List.forall_mem_nil _) (htrim ▸ hscanned) ?_ halike.newline
      rw [htrim]
      exact halike.brackets

/-- So have all lines. -/
theorem placed_layoutFrom (o : Options) (stack : List Open) {p : Phase} (hsettled : p.settle = p)
    {ls : List (List Char)} (h : ∀ l ∈ ls, '\n' ∉ l) :
    Threaded Placed p ls (layoutFrom o.indentUnit stack (scanned p ls)) := by
  induction ls generalizing p stack with
  | nil => exact .nil p
  | cons l ls ih =>
    obtain ⟨hl, hls⟩ := List.forall_mem_cons.mp h
    exact .cons (placed_layoutLine o stack hsettled hl) (ih _ (Phase.settle_newline _) hls)

/-- A semicolon is no bracket. -/
theorem Placed.addSemicolon {p : Phase} {l : List Char} {x : Line} (h : Placed p l x)
    (after : List Line) : Placed p l (addSemicolon x after) := by
  rw [Format.addSemicolon]
  split
  · rename_i hlacks
    cases h with
    | kept hl hkept hcells => simp [lacksSemicolon, hkept] at hlacks
    | @shifted front code tail p' hp hsettled hkept hcells hfront htail hcode hbrackets hnewline =>
      have hcells' : x.cells ++ [(';', .code)] = front ++ code ++ (tail ++ [(';', .code)]) := by
        rw [hcells, List.append_assoc]
      have htail' : ∀ c ∈ tail ++ [(';', Mark.code)], isInert c.1 = true :=
        List.forall_mem_append.mpr ⟨htail, List.forall_mem_singleton.mpr rfl⟩
      exact .shifted hp hsettled hkept hcells' hfront htail' hcode hbrackets hnewline
  · exact h

/-- Quotes that are exchanged for another kind open and close the same literals. -/
theorem Placed.convertQuotes {source target : Char} (hblur : blur source = blur target)
    (hquote : isQuote target = true) {p : Phase} {l : List Char} {x : Line} (h : Placed p l x)
    (after : List Line) : Placed p l (convertQuotes source target x after) := by
  rw [Format.convertQuotes]
  split
  · exact h
  · cases h with
    | kept hl hkept hcells => contradiction
    | @shifted front code tail p' hp hsettled hkept hcells hfront htail hcode hbrackets hnewline =>
      have hsplit : requoteFrom source target none x.cells =
          front ++ requoteFrom source target none code ++ tail := by
        rw [hcells, requoteFrom_between hfront htail]
      refine .shifted hp hsettled hkept hsplit hfront htail (hcode.requoteFrom hquote hp) ?_
        hnewline
      have hseen (cs : List Cell) :
          (painted (cs.map Cell.blurred)).filter isBracket = (painted cs).filter isBracket := by
        rw [painted_map_blurred, filter_map_blur rfl rfl]
      rw [← hseen, blurred_requoteFrom hblur code (by simp), hseen]
      exact hbrackets

/-- Written out, the line shows the brackets that it had. -/
structure Written (p : Phase) (l : List Char) (x : Line) : Prop where
  alike : Alike p l (plain x.cells)
  oneLine : '\n' ∉ plain x.cells

/-- A line in its place is written with the same brackets. -/
theorem Placed.written {p : Phase} {l : List Char} {x : Line} (h : Placed p l x) :
    Written p l x := by
  cases h with
  | kept hl hkept hcells =>
    have hplain : plain x.cells = l := by rw [hcells, plain_phaseCells]
    exact ⟨by rw [hplain]; exact .refl p l, by rwa [hplain]⟩
  | @shifted front code tail p' hp hsettled hkept hcells hfront htail hcode hbrackets hnewline =>
    have hinert {cs : List Cell} (h : ∀ c ∈ cs, isInert c.1 = true) :
        ∀ c ∈ plain cs, isInert c = true := by
      intro c hc
      obtain ⟨x, hx, rfl⟩ := List.mem_map.mp hc
      exact h x hx
    have hplain : plain x.cells = plain front ++ plain code ++ plain tail := by
      rw [hcells, plain_append, plain_append]
    have hcore : Alike p l (plain code) := by
      constructor
      · rw [Phase.brackets, hcode.painted_eq, hbrackets]
      · rw [hcode.run_eq, hnewline]
    constructor
    · rw [hplain]
      exact (hcore.trans (alike_append_left (hinert hfront) hsettled _)).trans
        (alike_append (hinert htail) p _)
    · rw [hplain, List.mem_append, List.mem_append, not_or, not_or]
      have hfeed {cs : List Cell} (h : ∀ c ∈ cs, isInert c.1 = true) : '\n' ∉ plain cs :=
        fun hmem => Bool.noConfusion (hinert h _ hmem)
      exact ⟨⟨hfeed hfront, hcode.oneLine⟩, hfeed htail⟩

/-- A comma is no bracket. -/
theorem Written.addComma {p : Phase} {l : List Char} {x : Line} (h : Written p l x)
    (after : List Line) : Written p l (addComma x after) := by
  rw [Format.addComma]
  split
  · exact h
  · dsimp only
    split
    · have hplain : plain (dropTail (fun c : Cell => isBlank c.1) x.cells ++ [(',', .code)]) =
          trimRight (plain x.cells) ++ [','] := by
        rw [plain_append, plain_dropTail]
        rfl
      constructor
      · rw [hplain]
        exact (h.alike.trans (alike_trimRight p h.oneLine)).trans
          (alike_append (List.forall_mem_singleton.mpr rfl) p _)
      · rw [hplain, List.mem_append, not_or]
        exact ⟨fun hfeed => h.oneLine ((List.rdropWhile_prefix isBlank _).subset hfeed), by decide⟩
    · exact h

/-! ## The program -/

/-- All passes keep what a line is written with. -/
theorem written_passes (o : Options) (cs : List Char) :
    Threaded Written .code (lines cs) (passes o (layout o.indentUnit cs)) := by
  have hlines : ∀ l ∈ lines cs, '\n' ∉ l := fun l hl => notMem_of_mem_pieces hl
  have hlayout := placed_layoutFrom o [] (p := .code) rfl hlines
  rw [← layout_eq] at hlayout
  have hsemicolons := hlayout.pass fun _ _ _ after h => h.addSemicolon after
  have hquotes := hsemicolons.pass fun _ _ _ after h =>
    h.convertQuotes o.blur_quotes o.isQuote_target after
  exact hquotes.pass fun _ _ _ after h => h.written.addComma after

theorem oneLine_passes (o : Options) (cs : List Char) :
    ∀ l ∈ (passes o (layout o.indentUnit cs)).map fun x => plain x.cells, '\n' ∉ l := by
  have h := (written_passes o cs).forall_mem (P := fun x => '\n' ∉ plain x.cells)
    fun _ _ _ h => h.oneLine
  simpa using h

/-- With semicolons and trailing commas the brackets are those of the text, -/
theorem brackets_formatCode {o : Options} (hsemicolons : o.semicolons = true)
    (hcommas : o.trailingCommas = true) (cs : List Char) :
    brackets (formatCode o cs) = brackets cs := by
  have halike := (written_passes o cs).map (S := Alike) (f := fun x => trimRight (plain x.cells))
    fun p _ _ h => h.alike.trans (alike_trimRight p h.oneLine)
  rw [formatCode_eq hsemicolons hcommas, bracketsOf_finish (oneLine_passes o cs), List.map_map,
    brackets_eq cs, ← halike.bracketsOf_eq]
  rfl

/-- Texts with the same brackets have the same errors. -/
theorem codeErrors_congr {cs ds : List Char} (h : brackets cs = brackets ds) :
    codeErrors cs = codeErrors ds := by
  have hcount {c : Char} (hc : isBracket c = true) :
      (painted (cells cs)).count c = (painted (cells ds)).count c := by
    rw [← List.count_filter (l := painted (cells cs)) hc,
      ← List.count_filter (l := painted (cells ds)) hc]
    exact congrArg (List.count c) h
  simp only [codeErrors, List.filterMap_cons, List.filterMap_nil, hcount (c := '{') rfl,
    hcount (c := '}') rfl, hcount (c := '(') rfl, hcount (c := ')') rfl, hcount (c := '[') rfl,
    hcount (c := ']') rfl]

/-- **Formatting keeps the brackets that are seen** outside of literals and comments, and so the
check says the same of a program before and after, however malformed it is. -/
theorem brackets_kept {o : Options} (hsemicolons : o.semicolons = true)
    (hcommas : o.trailingCommas = true) {language : Option String}
    (h : Tag.of? language = some .code) (content : String) :
    brackets (formatText o language content).toList = brackets content.toList ∧
      check language (formatText o language content) = check language content := by
  have hbrackets : brackets (formatText o language content).toList = brackets content.toList := by
    rw [formatText, h]
    change brackets (String.ofList (formatCode o (unifyLineEnds content.toList))).toList = _
    rw [String.toList_ofList, brackets_formatCode hsemicolons hcommas, brackets_unifyLineEnds]
  refine ⟨hbrackets, ?_⟩
  rw [check, check, h]
  exact congrArg Except.ok (codeErrors_congr hbrackets)

/-- A program that closes its bracket in a literal and in a comment. -/
theorem brackets_kept_unbalanced :
    let text := "return [\r\n \"]\" // ]\r\n`b"
    let formatted := formatText Options.default (some "typescript") text
    brackets formatted.toList = brackets text.toList ∧
      check (some "typescript") formatted = check (some "typescript") text :=
  brackets_kept rfl rfl rfl "return [\r\n \"]\" // ]\r\n`b"

end Scaffold.Format
