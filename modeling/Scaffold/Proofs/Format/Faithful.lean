import Scaffold.Proofs.Format.Spans

/-!
# Proofs/Format/Faithful — cells that are read as they are marked

The passes trust the marks of the cells that they change.  Cells are **faithful** to a phase if
their text, scanned from it, gets the marks that they carry.  Exchanging quotes keeps this
(`Faithful.requoteFrom`), and so does taking out a semicolon or a comma, unless a stroke of code
then stands before a comment (`Faithful.without`): the two would be read as the beginning of one.
-/

namespace Scaffold.Format

open Text Phase

/-! ## Cutting behind anything but a stroke -/

/-- A text can be cut behind any character that begins no pair. -/
theorem marks_append_of_ne_stroke {p : Phase} {cs : List Char} (h : p.run cs ≠ .stroke)
    (ds : List Char) : p.marks (cs ++ ds) = p.marks cs ++ (p.run cs).marks ds := by
  induction cs generalizing p with
  | nil => rfl
  | cons c cs ih =>
    have hmark : p.mark c (cs ++ ds).head? = p.mark c cs.head? := by
      cases cs with
      | cons d cs => rfl
      | nil =>
        have hstep : p.step c ≠ .stroke := h
        cases p with
        | code =>
          have hc : c ≠ '/' := by
            rintro rfl
            exact hstep rfl
          simp [Phase.mark, hc]
        | stroke | lineComment | blockComment | star | literal q | escape q => rfl
    rw [List.cons_append, Phase.marks, Phase.marks, ih h, hmark]
    rfl

theorem cells_append_of_ne_stroke {p : Phase} {cs : List Char} (h : p.run cs ≠ .stroke)
    (ds : List Char) : p.cells (cs ++ ds) = p.cells cs ++ (p.run cs).cells ds := by
  rw [Phase.cells, marks_append_of_ne_stroke h, List.zip_append (p.length_marks cs).symm]
  rfl

theorem cells_stroke {cs : List Char} (h : isSecond cs.head? = false) :
    Phase.stroke.cells cs = Phase.code.cells cs := by
  rw [Phase.cells, Phase.cells, marks_stroke h]

/-- A stroke that begins no comment leaves the scanner where other code does. -/
theorem step_stroke {c : Char} (h : isSecond (some c) = false) :
    Phase.stroke.step c = Phase.code.step c := by
  have hne : c ≠ '/' ∧ c ≠ '*' := by simpa [isSecond] using h
  simp [Phase.step, newline, hne]

/-- A stroke that no comment begins with does not matter behind the next character. -/
theorem settle_run_stroke {cs : List Char} (h : isSecond cs.head? = false) :
    (Phase.stroke.run cs).settle = (Phase.code.run cs).settle := by
  cases cs with
  | nil => rfl
  | cons c cs =>
    change ((Phase.stroke.step c).run cs).settle = _
    rw [step_stroke h]
    rfl

/-- Nor does it matter for the spans. -/
theorem Span.pieces_stroke (s : Span) {cs : List Char} (h : isSecond cs.head? = false) :
    s.pieces .stroke cs = s.pieces .code cs := by
  cases cs with
  | nil => cases s <;> rfl
  | cons c cs =>
    have hemit : s.emit .stroke c = s.emit .code c := by
      rw [Span.emit, Span.emit, step_stroke h]
      cases s <;> rfl
    rw [Span.pieces_cons, Span.pieces_cons, step_stroke h, hemit]

/-- The phase behind a stroke is reached from code alone. -/
theorem of_run_eq_stroke {p : Phase} (hp : p ≠ .stroke) {cs : List Char}
    (h : p.run cs = .stroke) : ∃ ds, cs = ds ++ ['/'] ∧ p.run ds = .code := by
  obtain rfl | ⟨ds, c, rfl⟩ := List.eq_nil_or_concat cs
  · exact absurd h hp
  · rw [List.concat_eq_append, Phase.run_append] at h
    generalize hq : p.run ds = q at h
    change q.step c = .stroke at h
    have hboth : q = .code ∧ c = '/' := by
      cases q <;> simp only [Phase.step, newline] at h <;> split_ifs at h
      exact ⟨rfl, ‹_›⟩
    exact ⟨ds, by rw [hboth.2, List.concat_eq_append], hq.trans hboth.1⟩

/-- A line comment is all that comes on its line. -/
theorem pieces_lineComment (s : Span) {cs : List Char} (h : '\n' ∉ cs) :
    s.pieces .lineComment cs = (if s.holds .lineComment then [cs] else []) ∧
      Phase.lineComment.run cs = .lineComment := by
  induction cs with
  | nil => exact ⟨rfl, rfl⟩
  | cons c cs ih =>
    obtain ⟨hfeed, hcs⟩ := not_or.mp (mt List.mem_cons.mpr h)
    have hstep : Phase.lineComment.step c = .lineComment := if_neg (Ne.symm hfeed)
    obtain ⟨hpieces, hrun⟩ := ih hcs
    constructor
    · rw [Span.pieces_cons, hstep, hpieces]
      cases s with
      | comment => rfl
      | template => rw [Span.template.emit_eq_nil rfl (by rw [hstep]; rfl)]; rfl
    · change (Phase.lineComment.step c).run cs = _
      rw [hstep, hrun]

/-! ## Faithful cells -/

/-- Scanned from the phase, the cells have the marks that they carry, but for the names of
quotes. -/
structure Faithful (p : Phase) (cs : List Cell) : Prop where
  oneLine : '\n' ∉ plain cs
  marked : (p.cells (plain cs)).map Cell.faded = cs.map Cell.faded

namespace Faithful

variable {p : Phase} {cs ds : List Cell}

theorem cells {l : List Char} (hl : '\n' ∉ l) (p : Phase) : Faithful p (p.cells l) :=
  ⟨by rwa [plain_phaseCells], by rw [plain_phaseCells]⟩

/-- Exchanging quotes keeps faithful cells faithful, and their spans. -/
theorem requoteFrom {source target : Char} (hquote : isQuote target = true)
    (hsource : source ≠ '\x60') (htarget : target ≠ '\x60') (h : Faithful p cs)
    (hp : p.isInside = false) :
    Faithful p (requoteFrom source target none cs) ∧
      p.run (plain (Format.requoteFrom source target none cs)) = p.run (plain cs) ∧
      ∀ s : Span, s.pieces p (plain (Format.requoteFrom source target none cs)) =
        s.pieces p (plain cs) := by
  have hscanned := scanned_cells hp h.oneLine
  have hexchanged : Scanned p
      (Format.requoteFrom source target none (p.cells (plain cs))) (p.run (plain cs)) :=
    hscanned.requoteFrom hquote hp
  have hplain : plain (Format.requoteFrom source target none cs) =
      plain (Format.requoteFrom source target none (p.cells (plain cs))) :=
    plain_requoteFrom_congr h.marked.symm
  refine ⟨⟨?_, ?_⟩, ?_, fun s => ?_⟩
  · rw [hplain]
    exact hexchanged.oneLine
  · rw [hplain, hexchanged.faded_eq, map_faded_requoteFrom, h.marked, map_faded_requoteFrom]
  · rw [hplain, hexchanged.run_eq]
  · rw [hplain, s.pieces_requoteFrom hsource htarget hquote hscanned hp, plain_phaseCells]

/-- Marks are faithful on both sides of a place where no stroke is left open. -/
theorem append (h : Faithful p cs) (hne : p.run (plain cs) ≠ .stroke)
    (hds : Faithful (p.run (plain cs)) ds) : Faithful p (cs ++ ds) where
  oneLine := by
    rw [plain_append, List.mem_append, not_or]
    exact ⟨h.oneLine, hds.oneLine⟩
  marked := by
    rw [plain_append, cells_append_of_ne_stroke hne, List.map_append, h.marked, hds.marked,
      List.map_append]

/-- Faithful cells can be cut before a character that is not the second of a pair. -/
theorem cut (h : Faithful p (cs ++ ds)) (hsecond : isSecond (plain ds).head? = false) :
    Faithful p cs ∧ Faithful (p.run (plain cs)) ds := by
  obtain ⟨hline, hmarked⟩ := h
  rw [plain_append, List.mem_append, not_or] at hline
  rw [plain_append, Phase.cells_append p _ hsecond, List.map_append, List.map_append] at hmarked
  have hlength : ((p.cells (plain cs)).map Cell.faded).length = (cs.map Cell.faded).length := by
    simp [Phase.cells, plain]
  obtain ⟨hfront, hback⟩ := List.append_inj hmarked hlength
  exact ⟨⟨hline.1, hfront⟩, hline.2, hback⟩

/-- The first of faithful cells has its mark, and the others are faithful behind it. -/
theorem uncons {x : Cell} (h : Faithful p (x :: cs)) :
    Cell.faded (x.1, p.mark x.1 (plain cs).head?) = x.faded ∧ Faithful (p.step x.1) cs := by
  obtain ⟨hline, hmarked⟩ := h
  rw [plain_cons, List.mem_cons, not_or] at hline
  rw [plain_cons, Phase.cells_cons, List.map_cons, List.map_cons] at hmarked
  obtain ⟨hfirst, hrest⟩ := List.cons.inj hmarked
  exact ⟨hfirst, hline.2, hrest⟩

/-- A character that is seen and belongs to no literal is read in code. -/
theorem of_painted {x : Cell} {c : Char} (h : Faithful p (x :: cs)) (hc : isInert c = true)
    (hx : x.painted = c) (hletter : c ≠ 'x') (hblank : c ≠ ' ') :
    x.1 = c ∧ (p = .code ∨ p = .stroke) := by
  have hfst : x.1 = c := Cell.fst_of_painted hx hletter hblank
  refine ⟨hfst, ?_⟩
  obtain ⟨hmark, -⟩ := h.uncons
  have hpainted : Cell.painted (c, p.surroundings) = c := by
    have hseen := congrArg Cell.painted hmark
    rwa [Cell.painted_faded, Cell.painted_faded, hx, hfst, mark_inert hc] at hseen
  have hfeed : c ≠ '\n' := by
    rintro rfl
    exact Bool.noConfusion hc
  cases p with
  | code => exact .inl rfl
  | stroke => exact .inr rfl
  | lineComment | blockComment | star =>
    exact absurd ((if_neg hfeed).symm.trans hpainted).symm hblank
  | literal q | escape q => exact absurd ((if_neg hfeed).symm.trans hpainted).symm hletter

/-- What is seen as blank behind code begins with a comment, if it begins with the second character
of a pair. -/
theorem head?_of_blank (h : Faithful .code cs) (hblank : ∀ y ∈ cs, isBlank y.painted = true)
    (hsecond : isSecond (plain cs).head? = true) : (plain cs).head? = some '/' := by
  cases cs with
  | nil => cases hsecond
  | cons x cs =>
    have hx : x.1 = '/' ∨ x.1 = '*' := by simpa [isSecond] using hsecond
    obtain hx | hx := hx
    · exact congrArg some hx
    · obtain ⟨hmark, -⟩ := h.uncons
      have hpainted := hblank x List.mem_cons_self
      rw [← Cell.painted_faded x, ← hmark, Cell.painted_faded, hx] at hpainted
      exact Bool.noConfusion hpainted

end Faithful

/-! ## Taking out a character of code -/

/-- A semicolon or a comma. -/
def IsMark (c : Char) : Prop := c = ';' ∨ c = ','

section Without

variable {p : Phase} {before after : List Cell} {x : Cell} {c : Char} (hc : IsMark c)
  (h : Faithful p (before ++ x :: after)) (hx : x.painted = c)
include hc h hx

/-- Behind the code in front of it, and in front of the code behind it, a mark means nothing. -/
theorem Faithful.around : (p.run (plain before) = .code ∨ p.run (plain before) = .stroke) ∧
    Faithful p before ∧ Faithful .code after ∧
    (∀ s : Span, s.pieces p (plain (before ++ x :: after)) =
      s.pieces p (plain before) ++ s.pieces .code (plain after)) ∧
    p.run (plain (before ++ x :: after)) = Phase.code.run (plain after) := by
  have hinert : isInert c = true := by obtain rfl | rfl := hc <;> rfl
  have hfst : x.1 = c := Cell.fst_of_painted hx (by rintro rfl; simp [IsMark] at hc)
    (by rintro rfl; simp [IsMark] at hc)
  have hsecond : isSecond (plain (x :: after)).head? = false := by
    rw [plain_cons, hfst]
    exact isSecond_of_isInert hinert
  obtain ⟨hbefore, hrest⟩ := h.cut hsecond
  obtain ⟨-, hrun⟩ := hrest.of_painted hinert hx (by rintro rfl; simp [IsMark] at hc)
    (by rintro rfl; simp [IsMark] at hc)
  obtain ⟨-, hafter⟩ := hrest.uncons
  have hstep : (p.run (plain before)).step x.1 = .code := by
    rw [hfst, step_inert hinert]
    obtain hrun | hrun := hrun <;> rw [hrun] <;> rfl
  rw [hstep] at hafter
  refine ⟨hrun, hbefore, hafter, fun s => ?_, ?_⟩
  · have hholds : s.holds (p.run (plain before)) = false := by
      obtain hrun | hrun := hrun <;> rw [hrun] <;> cases s <;> rfl
    have hcode : s.holds .code = false := by cases s <;> rfl
    rw [plain_append, s.pieces_append_of_not_holds hholds, plain_cons, s.pieces_cons, hstep,
      s.emit_eq_nil hholds (by rw [hstep, hcode])]
    rfl
  · rw [plain_append, Phase.run_append, plain_cons]
    change ((p.run (plain before)).step x.1).run _ = _
    rw [hstep]

/-- **Taken out, a mark leaves the others as they are marked**, unless a stroke then stands before a
comment. -/
theorem Faithful.without
    (hfree : p.run (plain before) = .stroke → isSecond (plain after).head? = false) :
    Faithful p (before ++ after) ∧
      (∀ s : Span, s.pieces p (plain (before ++ after)) =
        s.pieces p (plain (before ++ x :: after))) ∧
      (p.run (plain (before ++ after))).settle =
        (p.run (plain (before ++ x :: after))).settle := by
  obtain ⟨hrun, hbefore, hafter, hpieces, hend⟩ := h.around hc hx
  rw [hend]
  obtain hrun | hrun := hrun
  · have hholds (s : Span) : s.holds (p.run (plain before)) = false := by rw [hrun]; cases s <;> rfl
    refine ⟨hbefore.append (by rw [hrun]; exact Phase.noConfusion) (hrun ▸ hafter), fun s => ?_, ?_⟩
    · rw [hpieces, plain_append, s.pieces_append_of_not_holds (hholds s), hrun]
    · rw [plain_append, Phase.run_append, hrun]
  · have hsecond := hfree hrun
    have hholds (s : Span) : s.holds (p.run (plain before)) = false := by rw [hrun]; cases s <;> rfl
    refine ⟨⟨?_, ?_⟩, fun s => ?_, ?_⟩
    · rw [plain_append, List.mem_append, not_or]
      exact ⟨hbefore.oneLine, hafter.oneLine⟩
    · rw [plain_append, Phase.cells_append p _ hsecond, List.map_append, hbefore.marked, hrun,
        cells_stroke hsecond, hafter.marked, List.map_append]
    · rw [hpieces, plain_append, s.pieces_append_of_not_holds (hholds s), hrun,
        s.pieces_stroke hsecond]
    · rw [plain_append, Phase.run_append, hrun, settle_run_stroke hsecond]

end Without

/-! ## A stroke before a comment -/

/-- A stroke of code stands before a comment. -/
def fuses : List Cell → Bool
  | x :: y :: cs => decide (x = ('/', .code) ∧ y = ('/', .comment)) || fuses (y :: cs)
  | _ => false

theorem fuses_cons_cons (x y : Cell) (cs : List Cell) :
    fuses (x :: y :: cs) = (decide (x = ('/', .code) ∧ y = ('/', .comment)) || fuses (y :: cs)) :=
  rfl

/-- A stroke in front of a comment fuses with it. -/
theorem fuses_between (front tail : List Cell) :
    fuses (front ++ ('/', .code) :: ('/', .comment) :: tail) = true := by
  induction front with
  | nil => rfl
  | cons x front ih =>
    cases front with
    | nil => rw [List.cons_append, List.nil_append, fuses_cons_cons]; simp [fuses_cons_cons]
    | cons y front =>
      rw [List.cons_append, List.cons_append, fuses_cons_cons]
      rw [List.cons_append] at ih
      rw [ih, Bool.or_true]

/-- Cells without strokes in front change nothing. -/
theorem fuses_append_left {front : List Cell} (h : ∀ y ∈ front, y.1 ≠ '/') (cs : List Cell) :
    fuses (front ++ cs) = fuses cs := by
  induction front with
  | nil => rfl
  | cons x front ih =>
    obtain ⟨hx, hfront⟩ := List.forall_mem_cons.mp h
    have hne : x ≠ ('/', .code) := by
      rintro rfl
      exact hx rfl
    rw [← ih hfront, List.cons_append]
    cases front ++ cs with
    | nil => rfl
    | cons y ys => rw [fuses_cons_cons]; simp [hne]

/-- Nor do cells without strokes behind. -/
theorem fuses_append_right {tail : List Cell} (h : ∀ y ∈ tail, y.1 ≠ '/') (cs : List Cell) :
    fuses (cs ++ tail) = fuses cs := by
  induction cs with
  | nil =>
    have hnil := fuses_append_left h []
    rwa [List.append_nil] at hnil
  | cons x cs ih =>
    cases cs with
    | nil =>
      cases tail with
      | nil => rfl
      | cons y ys =>
        have hy : y ≠ ('/', .comment) := by
          rintro rfl
          exact h _ List.mem_cons_self rfl
        rw [List.nil_append] at ih
        rw [List.singleton_append, fuses_cons_cons, ih]
        simp [hy, fuses]
    | cons y cs =>
      rw [List.cons_append] at ih
      rw [List.cons_append, List.cons_append, fuses_cons_cons, ih, fuses_cons_cons]

/-- Where cells are read as they are marked, no stroke of code stands before a comment. -/
theorem Faithful.fuses_eq_false {p : Phase} {cs : List Cell} (h : Faithful p cs) :
    fuses cs = false := by
  induction cs generalizing p with
  | nil => rfl
  | cons x cs ih =>
    obtain ⟨hmark, hcs⟩ := h.uncons
    cases cs with
    | nil => rfl
    | cons y cs =>
      rw [fuses_cons_cons, ih hcs, Bool.or_false, decide_eq_false_iff_not]
      rintro ⟨rfl, rfl⟩
      cases p <;> cases hmark

/-- Cells that lead behind a stroke end in one. -/
theorem Faithful.exists_stroke {q : Phase} (hq : q ≠ .stroke) {cs : List Cell} (h : Faithful q cs)
    (hrun : q.run (plain cs) = .stroke) : ∃ ds, cs = ds ++ [('/', .code)] := by
  obtain ⟨text, htext, hcode⟩ := of_run_eq_stroke hq hrun
  obtain rfl | ⟨ds, y, rfl⟩ := List.eq_nil_or_concat cs
  · exact absurd hrun hq
  · rw [List.concat_eq_append, plain_append] at htext
    obtain ⟨hds, hy⟩ := List.append_inj' htext rfl
    rw [← hds] at hcode
    have hds' : q.run (plain ds) ≠ .stroke := by rw [hcode]; exact Phase.noConfusion
    have hmarked := h.marked
    rw [List.concat_eq_append, plain_append, cells_append_of_ne_stroke hds', List.map_append,
      List.map_append] at hmarked
    obtain ⟨-, hlast⟩ := List.append_inj' hmarked rfl
    rw [hy, hcode] at hlast
    have hfaded : Cell.faded ('/', .code) = y.faded := List.head_eq_of_cons_eq hlast
    refine ⟨ds, ?_⟩
    obtain ⟨c, m⟩ := y
    obtain ⟨rfl, hm⟩ := Prod.mk.inj hfaded
    cases m with
    | code => rw [List.concat_eq_append]
    | quote | body q | comment => cases hm

/-- Cells that are seen as blank and begin with a stroke begin a comment. -/
theorem Faithful.exists_comment {cs : List Cell} (h : Faithful .code cs)
    (hblank : ∀ y ∈ cs, isBlank y.painted = true) (hhead : (plain cs).head? = some '/') :
    ∃ ds, cs = ('/', .comment) :: ds ∧ isSecond (plain ds).head? = true := by
  cases cs with
  | nil => cases hhead
  | cons y ds =>
    obtain ⟨c, m⟩ := y
    obtain rfl : c = '/' := Option.some.inj hhead
    obtain ⟨hmark, -⟩ := h.uncons
    have hseen := hblank ('/', m) List.mem_cons_self
    refine ⟨ds, ?_, ?_⟩
    · cases m with
      | comment => rfl
      | code | quote | body q => cases hseen
    · by_contra hsecond
      rw [Bool.not_eq_true] at hsecond
      rw [← Cell.painted_faded, ← hmark, Cell.painted_faded, Phase.mark, hsecond] at hseen
      cases hseen

/-- A cell that is seen as blank begins no literal. -/
theorem Faithful.isInside_step {p : Phase} (hp : p.isInside = false) {y : Cell} {cs : List Cell}
    (h : Faithful p (y :: cs)) (hblank : isBlank y.painted = true) :
    (p.step y.1).isInside = false := by
  have hfeed : y.1 ≠ '\n' := fun hy => h.oneLine (hy ▸ List.mem_cons_self)
  by_contra hinside
  rw [Bool.not_eq_false] at hinside
  obtain ⟨hcode, hquote⟩ := of_isInside_step hp hfeed hinside
  rw [← Cell.painted_faded, ← h.uncons.1, Cell.painted_faded, mark_quote hquote hcode,
    painted_quote hquote] at hblank
  simp only [isQuote, Bool.or_eq_true, beq_iff_eq] at hquote
  obtain (hquote | hquote) | hquote := hquote <;> rw [hquote] at hblank <;> cases hblank

/-- Behind code, cells that are seen as blank hold no literal. -/
theorem Faithful.of_blank {p : Phase} (hp : p.isInside = false) {cs : List Cell}
    (h : Faithful p cs) (hblank : ∀ y ∈ cs, isBlank y.painted = true) :
    (p.run (plain cs)).isInside = false ∧ Span.template.pieces p (plain cs) = [] := by
  have hnot {q : Phase} (hq : q.isInside = false) : Span.template.holds q = false := by
    cases q with
    | literal r | escape r => cases hq
    | code | stroke | lineComment | blockComment | star => rfl
  induction cs generalizing p with
  | nil => exact ⟨hp, Span.template.pieces_nil_of_not_holds (hnot hp)⟩
  | cons y cs ih =>
    obtain ⟨-, hcs⟩ := h.uncons
    obtain ⟨hy, hblanks⟩ := List.forall_mem_cons.mp hblank
    have hstep := h.isInside_step hp hy
    obtain ⟨hend, hpieces⟩ := ih hstep hcs hblanks
    refine ⟨hend, ?_⟩
    rw [plain_cons, Span.pieces_cons, Span.template.emit_eq_nil (hnot hp) (hnot hstep), hpieces]
    rfl

/-- Where a comment comes behind a stroke, the two fuse. -/
theorem fuses_of_stroke {p : Phase} (hp : p ≠ .stroke) {before comment : List Cell}
    (hbefore : Faithful p before) (hstroke : p.run (plain before) = .stroke)
    (hcomment : Faithful .code comment) (hblank : ∀ y ∈ comment, isBlank y.painted = true)
    (hhead : (plain comment).head? = some '/') : fuses (before ++ comment) = true := by
  obtain ⟨ds, rfl⟩ := hbefore.exists_stroke hp hstroke
  obtain ⟨cs, rfl, -⟩ := hcomment.exists_comment hblank hhead
  rw [List.append_assoc]
  exact fuses_between ds cs

end Scaffold.Format
