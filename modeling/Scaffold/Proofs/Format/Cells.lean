import Scaffold.Format.Code
import Scaffold.Proofs.Text.Trim

/-!
# Proofs/Format/Cells — cells, their lines, and what a pass does to a list of lines

The passes of the formatter work on cells; the texts before and after are read off them by `plain`
and `painted`.  What holds of the lines one by one, before and after a pass, is lifted here to whole
programs.
-/

namespace Scaffold.Format

open Text

@[simp] theorem plain_nil : plain [] = [] := rfl

@[simp] theorem plain_cons (x : Cell) (cs : List Cell) : plain (x :: cs) = x.1 :: plain cs := rfl

@[simp] theorem plain_append (cs ds : List Cell) : plain (cs ++ ds) = plain cs ++ plain ds :=
  List.map_append

@[simp] theorem painted_nil : painted [] = [] := rfl

@[simp] theorem painted_cons (x : Cell) (cs : List Cell) :
    painted (x :: cs) = x.painted :: painted cs := rfl

@[simp] theorem painted_append (cs ds : List Cell) :
    painted (cs ++ ds) = painted cs ++ painted ds :=
  List.map_append

@[simp] theorem plain_map_mark (m : Mark) (cs : List Char) :
    plain (cs.map fun c => (c, m)) = cs := by
  simp [plain, Function.comp_def]

theorem painted_map_code (cs : List Char) : painted (cs.map fun c => (c, .code)) = cs := by
  simp [painted, Cell.painted, Function.comp_def]

/-- A character is seen as itself or blotted out. -/
theorem Cell.painted_eq_or (x : Cell) : x.painted = x.1 ∨ x.painted = 'x' ∨ x.painted = ' ' := by
  obtain ⟨c, m⟩ := x
  by_cases hc : c = '\n'
  · exact .inl (if_pos hc)
  · cases m with
    | code | quote => exact .inl (if_neg hc)
    | body q => exact .inr (.inl (if_neg hc))
    | comment => exact .inr (.inr (if_neg hc))

theorem Cell.fst_of_painted {x : Cell} {c : Char} (h : x.painted = c) (hletter : c ≠ 'x')
    (hblank : c ≠ ' ') : x.1 = c := by
  obtain hx | hx | hx := x.painted_eq_or
  · exact hx.symm.trans h
  · exact absurd (h.symm.trans hx) hletter
  · exact absurd (h.symm.trans hx) hblank

/-- The last character that is seen, and what stands around it. -/
theorem withoutFinal?_eq_some {c : Char} {cs ds : List Cell} (h : withoutFinal? c cs = some ds) :
    ∃ (before : List Cell) (y : Cell) (after : List Cell), cs = before ++ y :: after ∧
      ds = before ++ after ∧ y.painted = c ∧ ∀ z ∈ after, isBlank z.painted = true := by
  let b : Cell → Bool := fun z => isBlank z.painted
  have hcs : (cs.reverse.dropWhile b).reverse ++ (cs.reverse.takeWhile b).reverse = cs :=
    List.rdropWhile_append_rtakeWhile
  rw [withoutFinal?] at h
  split at h
  · rename_i y before hdrop
    rw [hdrop, List.reverse_cons, List.append_assoc] at hcs
    split at h
    · rename_i hy
      refine ⟨before.reverse, y, (cs.reverse.takeWhile b).reverse, hcs.symm,
        (Option.some.inj h).symm, hy, fun z hz => ?_⟩
      exact List.mem_takeWhile_imp (p := b) (List.mem_reverse.mp hz)
    · cases h
  · cases h

/-- What is seen as a quote is one. -/
theorem Cell.fst_of_isQuote {x : Cell} (h : isQuote x.painted = true) : x.1 = x.painted := by
  refine fst_of_painted rfl ?_ ?_
  all_goals
    intro hx
    rw [hx] at h
    exact Bool.noConfusion h

/-! ## Lines of cells -/

/-- The mark of the inside of a literal. -/
def Mark.isBody : Mark → Bool
  | .body _ => true
  | _ => false

theorem cellLines_lineFeed (continued : Bool) (m : Mark) (cs : List Cell) :
    cellLines continued (('\n', m) :: cs) = (continued, []) :: cellLines m.isBody cs := by
  cases m <;> rfl

theorem cellLines_cons {c : Char} (hc : c ≠ '\n') (continued : Bool) (m : Mark) {cs : List Cell}
    {k : Bool} {l : List Cell} {ls : List (Bool × List Cell)}
    (h : cellLines continued cs = (k, l) :: ls) :
    cellLines continued ((c, m) :: cs) = (k, (c, m) :: l) :: ls := by
  cases m <;> simp only [cellLines, if_neg hc, h]

/-- There is always a first line, and it is continued as told. -/
theorem exists_cellLines (continued : Bool) (cs : List Cell) :
    ∃ l ls, cellLines continued cs = (continued, l) :: ls := by
  induction cs with
  | nil => exact ⟨[], [], rfl⟩
  | cons x cs ih =>
    obtain ⟨c, m⟩ := x
    obtain ⟨l, ls, hls⟩ := ih
    by_cases hc : c = '\n'
    · exact ⟨[], _, hc ▸ cellLines_lineFeed continued m cs⟩
    · exact ⟨(c, m) :: l, ls, cellLines_cons hc continued m hls⟩

/-- The cells of the lines are those of the text. -/
theorem mem_of_mem_cellLines {continued : Bool} {cs : List Cell} {l : Bool × List Cell}
    (hl : l ∈ cellLines continued cs) {x : Cell} (hx : x ∈ l.2) : x ∈ cs := by
  induction cs generalizing continued l with
  | nil =>
    rw [List.mem_singleton.mp hl] at hx
    exact hx
  | cons y cs ih =>
    obtain ⟨c, m⟩ := y
    by_cases hc : c = '\n'
    · subst hc
      rw [cellLines_lineFeed] at hl
      obtain rfl | hl := List.mem_cons.mp hl
      · exact absurd hx List.not_mem_nil
      · exact List.mem_cons_of_mem _ (ih hl hx)
    · obtain ⟨k, ks, hks⟩ := exists_cellLines continued cs
      rw [cellLines_cons hc continued m hks] at hl
      obtain rfl | hl := List.mem_cons.mp hl
      · obtain rfl | hx := List.mem_cons.mp hx
        · exact List.mem_cons_self
        · exact List.mem_cons_of_mem _ (ih (hks ▸ List.mem_cons_self) hx)
      · exact List.mem_cons_of_mem _ (ih (hks ▸ List.mem_cons_of_mem _ hl) hx)

/-- The lines of the cells are those of the text. -/
theorem map_plain_cellLines (continued : Bool) (cs : List Cell) :
    (cellLines continued cs).map (fun l => plain l.2) = lines (plain cs) := by
  induction cs generalizing continued with
  | nil => rfl
  | cons x cs ih =>
    obtain ⟨c, m⟩ := x
    rw [plain_cons, lines, pieces]
    by_cases hc : c = '\n'
    · subst hc
      rw [cellLines_lineFeed, List.map_cons, ih, if_pos rfl]
      rfl
    · obtain ⟨l, ls, hls⟩ := exists_cellLines continued cs
      have hpieces : pieces '\n' (plain cs) = plain l :: ls.map fun l => plain l.2 := by
        rw [← lines, ← ih continued, hls]
        rfl
      rw [cellLines_cons hc continued m hls, if_neg hc, hpieces]
      rfl

theorem plain_dropTail (cs : List Cell) :
    plain (dropTail (fun c => isBlank c.1) cs) = trimRight (plain cs) := by
  rw [plain, plain, trimRight, dropTail, dropTail, ← List.map_reverse, List.dropWhile_map,
    ← List.map_reverse]
  rfl

theorem plain_trimCells (cs : List Cell) : plain (trimCells cs) = trimChars (plain cs) := by
  rw [trimCells, plain_dropTail, trimChars, trimLeft, plain, plain, List.dropWhile_map]
  rfl

/-! ## Layout, line by line -/

/-- What a line of code does to the open brackets: those that its leading closers leave, the
brackets that these close, and those that are open after the line. -/
def turn (stack : List Open) (code : List Char) : List Open × List Char × List Open :=
  let (left, closed, rest) := leadingClosers stack code
  let (after, opened) := through left 0 (code.take (code.length - rest.length)).reverse rest
  (left, closed, carry after opened)

/-- The cells that are put before a line of code. -/
def indentCells (unit : List Char) (stack : List Open) (code : List Char) : List Cell :=
  (margin unit ((turn stack code).1.countP (·.carries)) code).map fun c => (c, .code)

theorem layoutLine_blank {cs : List Cell} (h : trimCells cs = []) (unit : List Char)
    (stack : List Open) : layoutLine unit stack false cs = (Line.blank, stack) := by
  rw [layoutLine, if_neg Bool.false_ne_true, h]
  rfl

/-- A line of code is trimmed and indented, and its brackets are counted. -/
theorem layoutLine_code {cs : List Cell} (h : trimCells cs ≠ []) (unit : List Char)
    (stack : List Open) :
    layoutLine unit stack false cs =
      let code := painted (trimCells cs)
      let (_, closed, after) := turn stack code
      (⟨indentCells unit stack code ++ trimCells cs, false, after.head?, closed⟩, after) := by
  have hempty : (trimCells cs).isEmpty ≠ true := by rwa [ne_eq, List.isEmpty_iff]
  rw [layoutLine, if_neg Bool.false_ne_true]
  exact if_neg hempty

/-- A margin is made of the unit and of blanks. -/
theorem mem_margin {unit : List Char} {level : Nat} {code : List Char} {c : Char}
    (h : c ∈ margin unit level code) : c ∈ unit ∨ c = ' ' := by
  have hbase {c : Char} (hc : c ∈ (List.replicate level unit).flatten) : c ∈ unit := by
    obtain ⟨l, hl, hc⟩ := List.mem_flatten.mp hc
    exact List.eq_of_mem_replicate hl ▸ hc
  simp only [margin] at h
  split at h
  · exact .inl ((List.mem_append.mp h).elim hbase id)
  · exact .inl (hbase h)
  · exact (List.mem_append.mp h).imp hbase List.mem_singleton.mp
  · exact .inl (hbase h)

/-- A margin is white space. -/
theorem mem_indentCells {o : Options} {stack : List Open} {code : List Char} {x : Cell}
    (h : x ∈ indentCells o.indentUnit stack code) :
    x = ('\t', Mark.code) ∨ x = (' ', Mark.code) := by
  obtain ⟨c, hc, rfl⟩ := List.mem_map.mp h
  have hunit : c ∈ o.indentUnit → c = '\t' ∨ c = ' ' := by
    rw [Options.indentUnit]
    split
    · exact fun h => .inl (List.mem_singleton.mp h)
    · exact fun h => .inr (List.eq_of_mem_replicate h)
  obtain rfl | rfl := (mem_margin hc).elim hunit .inr
  · exact .inl rfl
  · exact .inr rfl

/-! ## Passes -/

/-- What a pass keeps of every line, it keeps of the program. -/
theorem map_pass {β : Type} {f : Line → β} {change : Line → List Line → Line}
    (h : ∀ l after, f (change l after) = f l) (ls : List Line) :
    (pass change ls).map f = ls.map f := by
  induction ls with
  | nil => rfl
  | cons l ls ih => rw [pass, List.map_cons, List.map_cons, h, ih]

/-! ## Up to the kind of quotes -/

/-- The two plain quotes look alike. -/
def blur (c : Char) : Char := if c = '\'' then '"' else c

/-- A property of characters that does not tell the two plain quotes apart. -/
theorem apply_blur {α : Type} {f : Char → α} (h : f '\'' = f '"') (c : Char) :
    f (blur c) = f c := by
  by_cases hc : c = '\''
  · subst hc
    exact h.symm
  · rw [blur, if_neg hc]

theorem blur_double : blur '"' = blur '\'' := rfl

/-- What is neither of the two plain quotes is seen alike. -/
theorem filter_map_blur {p : Char → Bool} (hsingle : p '\'' = false) (hdouble : p '"' = false)
    (cs : List Char) : (cs.map blur).filter p = cs.filter p := by
  induction cs with
  | nil => rfl
  | cons c cs ih =>
    rw [List.map_cons, List.filter_cons, List.filter_cons, ih,
      apply_blur (f := p) (hsingle.trans hdouble.symm)]
    split
    · rename_i hc
      have hquote : c ≠ '\'' := by
        rintro rfl
        exact Bool.false_ne_true (hsingle.symm.trans hc)
      rw [blur, if_neg hquote]
    · rfl

def Cell.blurred (x : Cell) : Cell := (blur x.1, x.2)

/-- Blurring a cell blurs what is seen of it. -/
theorem Cell.painted_blurred (x : Cell) : x.blurred.painted = blur x.painted := by
  obtain ⟨c, m⟩ := x
  by_cases hc : c = '\''
  · subst hc
    cases m <;> rfl
  · have hblur : blur c = c := if_neg hc
    have hx : Cell.blurred (c, m) = (c, m) := by rw [Cell.blurred, hblur]
    rw [hx]
    obtain h | h | h := Cell.painted_eq_or (c, m) <;> rw [h]
    · exact hblur.symm
    · rfl
    · rfl

theorem painted_map_blurred (cs : List Cell) :
    painted (cs.map Cell.blurred) = (painted cs).map blur := by
  simp [painted, Cell.painted_blurred]

theorem plain_map_blurred (cs : List Cell) : plain (cs.map Cell.blurred) = (plain cs).map blur := by
  simp [plain, Cell.blurred]

theorem map_snd_blurred (cs : List Cell) : (cs.map Cell.blurred).map (·.2) = cs.map (·.2) := by
  simp [Cell.blurred, Function.comp_def]

section Blurred

variable {source target : Char} (h : blur source = blur target)
include h

/-- A literal in other quotes is the same literal when quotes are blurred. -/
theorem blurred_requote {opener closer : Cell} (hopener : isQuote opener.painted = true)
    (hcloser : closer.painted = opener.painted) (body : List Cell) :
    (requote source target opener body closer).map Cell.blurred =
      (opener :: body ++ [closer]).map Cell.blurred := by
  have hsame : closer.1 = opener.1 := by
    rw [Cell.fst_of_isQuote hopener, Cell.fst_of_isQuote (hcloser ▸ hopener), hcloser]
  rw [requote]
  split
  · rename_i hexchange
    have hsource : opener.1 = source := by
      simp only [Bool.and_eq_true, decide_eq_true_eq] at hexchange
      exact hexchange.1.1
    simp [Cell.blurred, hsame, hsource, h]
  · rfl

/-- Exchanging quotes leaves the rest of a line as it is. -/
theorem blurred_requoteFrom {started : Option (Cell × List Cell)} (cs : List Cell)
    (hstarted : ∀ s ∈ started, isQuote s.1.painted = true) :
    (requoteFrom source target started cs).map Cell.blurred =
      ((started.elim [] fun s => s.1 :: s.2.reverse) ++ cs).map Cell.blurred := by
  fun_induction requoteFrom source target started cs with
  | case1 opener body => simp
  | case2 => rfl
  | case3 c cs hquote ih => exact ih (by simpa using hquote)
  | case4 c cs hquote ih =>
    rw [List.map_cons, ih hstarted]
    rfl
  | case5 c cs opener body hcloser ih =>
    rw [List.map_append, ih (by simp), blurred_requote h (hstarted _ rfl) hcloser,
      ← List.map_append]
    simp
  | case6 c cs opener body hcloser ih => simpa using ih (by simpa using hstarted)

end Blurred

/-! ## Up to the literal that a character is in -/

/-- The mark, without the quote of the literal whose inside it marks. -/
def Mark.faded : Mark → Mark
  | .body _ => .body '"'
  | m => m

def Cell.faded (x : Cell) : Cell := (x.1, x.2.faded)

theorem Cell.painted_faded (x : Cell) : x.faded.painted = x.painted := by
  obtain ⟨c, m⟩ := x
  cases m <;> rfl

theorem painted_map_faded (cs : List Cell) : painted (cs.map Cell.faded) = painted cs := by
  simp [painted, Cell.painted_faded]

theorem plain_map_faded (cs : List Cell) : plain (cs.map Cell.faded) = plain cs := by
  simp [plain, Cell.faded]

/-- The quotes are exchanged whatever literal the marks name. -/
theorem map_faded_requoteFrom {source target : Char} (started : Option (Cell × List Cell))
    (cs : List Cell) : (requoteFrom source target started cs).map Cell.faded =
      requoteFrom source target (started.map fun s => (s.1.faded, s.2.map Cell.faded))
        (cs.map Cell.faded) := by
  have hrequote (opener closer : Cell) (body : List Cell) :
      (requote source target opener body closer).map Cell.faded =
        requote source target opener.faded (body.map Cell.faded) closer.faded := by
    rw [requote, requote, plain_map_faded]
    simp only [apply_ite (List.map Cell.faded), List.map_cons, List.map_append, List.map_nil]
    rfl
  fun_induction requoteFrom source target started cs with
  | case1 opener body => simp [requoteFrom]
  | case2 => rfl
  | case3 c cs hquote ih =>
    rw [List.map_cons, Option.map_none, requoteFrom, Cell.painted_faded, if_pos hquote, ih]
    rfl
  | case4 c cs hquote ih =>
    rw [List.map_cons, List.map_cons, Option.map_none, requoteFrom, Cell.painted_faded,
      if_neg hquote, ih]
    rfl
  | case5 c cs opener body hcloser ih =>
    simp only [List.map_cons, Option.map_some, requoteFrom, Cell.painted_faded, if_pos hcloser,
      List.map_append, hrequote, ih, Option.map_none, List.map_reverse]
  | case6 c cs opener body hcloser ih =>
    simp only [List.map_cons, Option.map_some, requoteFrom, Cell.painted_faded, if_neg hcloser, ih]

theorem plain_requoteFrom_congr {source target : Char} {cs ds : List Cell}
    (h : cs.map Cell.faded = ds.map Cell.faded) :
    plain (requoteFrom source target none cs) = plain (requoteFrom source target none ds) := by
  rw [← plain_map_faded, map_faded_requoteFrom, h, ← plain_map_faded (requoteFrom _ _ none ds),
    map_faded_requoteFrom]

/-! ## The passes that add to a program -/

/-- The quotes that are exchanged, and those that take their place. -/
def Options.quotes (o : Options) : Char × Char :=
  if o.singleQuotes then ('"', '\'') else ('\'', '"')

theorem Options.isQuote_target (o : Options) : isQuote o.quotes.2 = true := by
  rw [Options.quotes]
  split <;> rfl

theorem Options.blur_quotes (o : Options) : blur o.quotes.1 = blur o.quotes.2 := by
  rw [Options.quotes]
  split <;> rfl

/-- The three passes that add to the lines of a program. -/
def passes (o : Options) (xs : List Line) : List Line :=
  pass addComma (pass (convertQuotes o.quotes.1 o.quotes.2) (pass addSemicolon xs))

/-- Formatting is a layout, the passes over its lines, and the normal form. -/
theorem formatCode_eq {o : Options} (hsemicolons : o.semicolons = true)
    (hcommas : o.trailingCommas = true) (cs : List Char) :
    formatCode o cs = finish ((passes o (layout o.indentUnit cs)).map fun x => plain x.cells) := by
  have hquotes : (if o.singleQuotes then convertQuotes '"' '\'' else convertQuotes '\'' '"') =
      convertQuotes o.quotes.1 o.quotes.2 := by
    rw [Options.quotes]
    split <;> rfl
  simp only [formatCode, hsemicolons, hcommas, if_true, hquotes, passes]

end Scaffold.Format
