import Scaffold.Format.Basic
import Scaffold.Proofs.Format.Decisions
import Scaffold.Proofs.Format.Spacing

/-!
# Proofs/Format/Tidy — what formatting makes of a program, line by line

A line is **tidy** if it holds no comment and closes every literal that it opens.  In a program of
tidy lines all begin in code, so the formatter can be told in one sweep: each line of code gets the
margin of its place among the brackets, its quotes are exchanged, and one ending is put behind it
(`written`).  The layout and the three passes come to this (`filled_texts`).
-/

namespace Scaffold.Format

open Text Phase

/-- The line holds no comment, and it closes every literal that it opens. -/
structure IsTidy (l : List Char) : Prop where
  uncommented : Mark.comment ∉ Phase.code.marks l
  closed : (Phase.code.run l).isInside = false

/-! ## Tidy lines begin and end in code -/

def Phase.isComment : Phase → Bool
  | .lineComment | .blockComment | .star => true
  | _ => false

/-- A comment is entered at a character that is marked as such. -/
theorem Phase.isComment_step {p : Phase} (hp : p.isComment = false) {c : Char} {next : Option Char}
    (h : p.mark c next ≠ .comment) : (p.step c).isComment = false := by
  cases p with
  | lineComment | blockComment | star => cases hp
  | code | literal q | escape q =>
    simp only [Phase.step, Phase.newline]
    split_ifs <;> rfl
  | stroke =>
    have hsecond : isSecond (some c) = false := by
      by_contra hsecond
      exact h (if_pos (by simpa using hsecond))
    have hc : c ≠ '/' ∧ c ≠ '*' := by simpa [isSecond] using hsecond
    simp only [Phase.step, Phase.newline, if_neg hc.1, if_neg hc.2]
    split_ifs <;> rfl

theorem Phase.isComment_run {p : Phase} (hp : p.isComment = false) {cs : List Char}
    (h : Mark.comment ∉ p.marks cs) : (p.run cs).isComment = false := by
  induction cs generalizing p with
  | nil => exact hp
  | cons c cs ih =>
    rw [Phase.marks, List.mem_cons, not_or] at h
    exact ih (Phase.isComment_step hp (Ne.symm h.1)) h.2

namespace IsTidy

variable {l : List Char} (h : IsTidy l)
include h

/-- A tidy line ends in code. -/
theorem surroundings : (Phase.code.run l).surroundings = .code := by
  have hcomment := Phase.isComment_run (p := .code) rfl h.uncommented
  have hclosed := h.closed
  generalize Phase.code.run l = p at hcomment hclosed
  cases p with
  | code | stroke => rfl
  | lineComment | blockComment | star => cases hcomment
  | literal q | escape q => cases hclosed

theorem newline : (Phase.code.run l).newline = .code := by
  have hcode := h.surroundings
  generalize Phase.code.run l = p at hcode
  cases p with
  | code | stroke => rfl
  | lineComment | blockComment | star | literal q | escape q => cases hcode

end IsTidy

/-- The lines of a tidy program, each scanned on its own. -/
theorem scanned_tidy {ls : List (List Char)} (h : ∀ l ∈ ls, IsTidy l) :
    scanned .code ls = ls.map fun l => (false, Phase.code.cells l) := by
  induction ls with
  | nil => rfl
  | cons l ls ih =>
    obtain ⟨hl, hls⟩ := List.forall_mem_cons.mp h
    rw [scanned, hl.newline, ih hls]
    rfl

theorem Phase.marks_eq_map (p : Phase) (cs : List Char) : p.marks cs = (p.cells cs).map (·.2) :=
  (List.map_snd_zip (Nat.le_of_eq (p.length_marks cs))).symm

theorem Phase.uncommented_iff {p : Phase} {cs : List Char} :
    Mark.comment ∉ p.marks cs ↔ ∀ x ∈ p.cells cs, x.2 ≠ .comment := by
  rw [Phase.marks_eq_map, List.mem_map]
  simp only [not_exists, not_and, ne_eq]

theorem Phase.isInside_run_inert {cs : List Char} (h : ∀ c ∈ cs, isInert c = true) (p : Phase) :
    (p.run cs).isInside = p.isInside := by
  rw [Phase.run_inert h]
  split
  · rfl
  · cases p <;> rfl

/-- A trimmed line is as tidy. -/
theorem IsTidy.trim {l : List Char} (h : IsTidy l) (hl : '\n' ∉ l) : IsTidy (trimChars l) := by
  constructor
  · have hsub : trimCells (Phase.code.cells l) ⊆ Phase.code.cells l := fun _ hx =>
      (List.dropWhile_suffix _).subset ((List.rdropWhile_prefix _ _).subset hx)
    rw [trimCells_phaseCells rfl hl] at hsub
    rw [Phase.uncommented_iff]
    exact fun x hx => Phase.uncommented_iff.mp h.uncommented x (hsub hx)
  · obtain ⟨front, tail, hfront, htail, heq⟩ := exists_trim isBlank l
    have hfront' : ∀ c ∈ front, isInert c = true := inert_of_blank hl (by
      rw [heq, List.append_assoc]
      exact List.subset_append_left _ _) hfront
    have htail' : ∀ c ∈ tail, isInert c = true := inert_of_blank hl (by
      rw [heq]
      exact List.subset_append_right _ _) htail
    have hcode : Phase.code.run front = .code := by
      rw [Phase.run_inert hfront']
      exact ite_self _
    have hclosed := h.closed
    rw [heq, Phase.run_append, Phase.isInside_run_inert htail', Phase.run_append, hcode] at hclosed
    exact hclosed

/-! ## Lines without white space at their ends -/

/-- A tidy line that is not empty and has no white space at its ends. -/
structure IsCore (k : List Char) : Prop where
  tidy : IsTidy k
  trimmed : IsTrimmed isBlank k
  oneLine : '\n' ∉ k
  nonempty : k ≠ []

theorem IsTidy.isCore {l : List Char} (h : IsTidy l) (hl : '\n' ∉ l) (hne : trimChars l ≠ []) :
    IsCore (trimChars l) where
  tidy := h.trim hl
  trimmed := isTrimmed_trim l
  oneLine hfeed :=
    hl ((List.dropWhile_suffix _).subset ((List.rdropWhile_prefix isBlank _).subset hfeed))
  nonempty := hne

/-- The painted text of a line that is scanned on its own. -/
def seen (k : List Char) : List Char := painted (Phase.code.cells k)

/-- What is no comment is seen as blank only if it is. -/
theorem isBlank_painted {x : Cell} (hx : x.2 ≠ .comment) : isBlank x.painted = true →
    isBlank x.1 = true := by
  obtain ⟨c, m⟩ := x
  cases m with
  | comment => exact absurd rfl hx
  | code | quote | body q =>
    simp only [Cell.painted]
    split
    · exact id
    · first | exact id | exact fun h => Bool.noConfusion h

namespace IsCore

variable {k : List Char} (h : IsCore k)
include h

theorem seen_ne_nil : seen k ≠ [] := by
  have hplain := plain_phaseCells .code k
  intro hnil
  rw [seen, painted, List.map_eq_nil_iff] at hnil
  rw [hnil] at hplain
  exact h.nonempty hplain.symm

/-- A core has nothing blank to be seen at its ends. -/
theorem isTrimmed_seen : IsTrimmed isBlank (seen k) := by
  have hcells : IsTrimmed (fun x : Cell => isBlank x.1) (Phase.code.cells k) := by
    refine isTrimmed_map.mp ?_
    have hplain : (Phase.code.cells k).map (·.1) = k := plain_phaseCells .code k
    rw [hplain]
    exact h.trimmed
  have hseen {x : Cell} (hx : x ∈ Phase.code.cells k) (hblank : isBlank x.1 = false) :
      isBlank x.painted = false := by
    by_contra hpainted
    rw [Bool.not_eq_false] at hpainted
    rw [isBlank_painted (Phase.uncommented_iff.mp h.tidy.uncommented x hx) hpainted] at hblank
    cases hblank
  refine isTrimmed_map.mpr ⟨fun x hx => ?_, fun x hx => ?_⟩
  · exact hseen (List.mem_of_mem_head? hx) (hcells.first x hx)
  · exact hseen (List.mem_of_mem_getLast? hx) (hcells.last x hx)

end IsCore

theorem isCore_of_mem_cores {ls : List (List Char)} (h : ∀ l ∈ ls, IsTidy l)
    (hls : ∀ l ∈ ls, '\n' ∉ l) : ∀ k ∈ cores ls, IsCore k := by
  intro k hk
  obtain ⟨hk, hne⟩ := List.mem_filter.mp hk
  obtain ⟨l, hl, rfl⟩ := List.mem_map.mp hk
  exact (h l hl).isCore (hls l hl) (by simpa using hne)

/-! ## The layout of a tidy program -/

/-- A line of code in its place among the brackets. -/
def laid (o : Options) (stack : List Open) (k : List Char) : Line where
  cells := indentCells o.indentUnit stack (seen k) ++ Phase.code.cells k
  kept := false
  innermost := (turn stack (seen k)).2.2.head?
  closes := (turn stack (seen k)).2.1

def laidOut (o : Options) (stack : List Open) (ls : List (List Char)) : List Line :=
  layoutFrom o.indentUnit stack (ls.map fun l => (false, Phase.code.cells l))

/-- A blank line is laid out as one, and leaves the stack. -/
theorem laidOut_blank (o : Options) (stack : List Open) {l : List Char} (hl : '\n' ∉ l)
    (h : trimChars l = []) (ls : List (List Char)) :
    laidOut o stack (l :: ls) = Line.blank :: laidOut o stack ls := by
  have htrim : trimCells (Phase.code.cells l) = [] := by
    rw [trimCells_phaseCells rfl hl, h]
    rfl
  rw [laidOut, List.map_cons, layoutFrom, layoutLine_blank htrim]
  rfl

/-- Any other line is laid out by its core, and turns the stack. -/
theorem laidOut_core (o : Options) (stack : List Open) {l : List Char} (hl : '\n' ∉ l)
    (h : trimChars l ≠ []) (ls : List (List Char)) :
    laidOut o stack (l :: ls) =
      laid o stack (trimChars l) :: laidOut o (turn stack (seen (trimChars l))).2.2 ls := by
  have htrim := trimCells_phaseCells (p := .code) rfl hl
  have hne : trimCells (Phase.code.cells l) ≠ [] := fun hnil => h <| by
    rw [htrim] at hnil
    rw [← plain_phaseCells .code (trimChars l), hnil]
    rfl
  rw [laidOut, List.map_cons, layoutFrom, layoutLine_code hne, htrim]
  rfl

theorem painted_indentCells (unit : List Char) (stack : List Open) (code : List Char) :
    painted (indentCells unit stack code) = plain (indentCells unit stack code) := by
  rw [indentCells, painted_map_code, plain_map_mark]

theorem isBlank_indentCells (o : Options) (stack : List Open) (code : List Char) :
    ∀ c ∈ plain (indentCells o.indentUnit stack code), isBlank c = true := by
  intro c hc
  obtain ⟨x, hx, rfl⟩ := List.mem_map.mp hc
  obtain rfl | rfl := mem_indentCells hx <;> rfl

/-- A line has code if some can be seen. -/
theorem hasCode_iff (x : Line) : x.hasCode = true ↔ x.code ≠ [] := by
  have hnil : x.code = [] ↔ ∀ c ∈ x.mask, isBlank c = true := by
    constructor
    · intro h
      obtain ⟨front, tail, hfront, htail, heq⟩ := exists_trim isBlank x.mask
      have htrim : dropTail isBlank (x.mask.dropWhile isBlank) = [] := h
      rw [htrim, List.append_nil] at heq
      rw [heq]
      exact List.forall_mem_append.mpr ⟨hfront, htail⟩
    · intro h
      rw [Line.code, trimChars, trimLeft, List.dropWhile_eq_nil_iff.mpr h]
      rfl
  rw [ne_eq, hnil, Line.hasCode, List.any_eq_true]
  simp

section Laid

variable {o : Options} {stack : List Open}

theorem code_laid {k : List Char} (h : IsCore k) : (laid o stack k).code = seen k := by
  rw [Line.code, Line.mask, laid, painted_append, painted_indentCells]
  exact h.isTrimmed_seen.trim_append (isBlank_indentCells o stack _)

variable {ls : List (List Char)} (h : ∀ l ∈ ls, IsTidy l) (hls : ∀ l ∈ ls, '\n' ∉ l)
include h hls

/-- The next line with code is that of the next core. -/
theorem nextCode?_laidOut :
    nextCode? (laidOut o stack ls) = (cores ls).head?.map (laid o stack) := by
  induction ls with
  | nil => rfl
  | cons l ls ih =>
    obtain ⟨hl, htidy⟩ := List.forall_mem_cons.mp h
    obtain ⟨hfeed, hfeeds⟩ := List.forall_mem_cons.mp hls
    by_cases hblank : trimChars l = []
    · rw [laidOut_blank o stack hfeed hblank, cores_blank hblank]
      exact ih htidy hfeeds
    · have hcore := hl.isCore hfeed hblank
      have hcode : (laid o stack (trimChars l)).hasCode = true := by
        rw [hasCode_iff, code_laid hcore]
        exact hcore.seen_ne_nil
      rw [laidOut_core o stack hfeed hblank, cores_core hblank, nextCode?,
        List.find?_cons_of_pos hcode]
      rfl

/-- No line is kept. -/
theorem kept_laidOut : ∀ x ∈ laidOut o stack ls, x.kept = false := by
  induction ls generalizing stack with
  | nil => exact List.forall_mem_nil _
  | cons l ls ih =>
    obtain ⟨hl, htidy⟩ := List.forall_mem_cons.mp h
    obtain ⟨hfeed, hfeeds⟩ := List.forall_mem_cons.mp hls
    by_cases hblank : trimChars l = []
    · rw [laidOut_blank o stack hfeed hblank]
      exact List.forall_mem_cons.mpr ⟨rfl, ih htidy hfeeds⟩
    · rw [laidOut_core o stack hfeed hblank]
      exact List.forall_mem_cons.mpr ⟨rfl, ih htidy hfeeds⟩

end Laid

/-! ## The passes over a tidy program -/

/-- The cells of a line with the quotes of its literals exchanged. -/
def exchanged (o : Options) (k : List Char) : List Cell :=
  requoteFrom o.quotes.1 o.quotes.2 none (Phase.code.cells k)

theorem blurred_exchanged (o : Options) (k : List Char) :
    (exchanged o k).map Cell.blurred = (Phase.code.cells k).map Cell.blurred :=
  blurred_requoteFrom o.blur_quotes _ (by simp)

theorem blur_painted_exchanged (o : Options) (k : List Char) :
    (painted (exchanged o k)).map blur = (seen k).map blur := by
  rw [← painted_map_blurred, blurred_exchanged, painted_map_blurred, seen]

theorem blur_plain_exchanged (o : Options) (k : List Char) :
    (plain (exchanged o k)).map blur = k.map blur := by
  rw [← plain_map_blurred, blurred_exchanged, plain_map_blurred, plain_phaseCells]

theorem isTrimmed_blur {cs : List Char} :
    IsTrimmed isBlank (cs.map blur) ↔ IsTrimmed isBlank cs := by
  rw [isTrimmed_map]
  simp only [isBlank_blur]

namespace IsCore

variable {k : List Char} (h : IsCore k) (o : Options)
include h

theorem isTrimmed_exchanged : IsTrimmed isBlank (plain (exchanged o k)) := by
  rw [← isTrimmed_blur, blur_plain_exchanged, isTrimmed_blur]
  exact h.trimmed

theorem isTrimmed_painted_exchanged : IsTrimmed isBlank (painted (exchanged o k)) := by
  rw [← isTrimmed_blur, blur_painted_exchanged, isTrimmed_blur]
  exact h.isTrimmed_seen

theorem plain_exchanged_ne_nil : plain (exchanged o k) ≠ [] := by
  intro hnil
  have hplain := blur_plain_exchanged o k
  rw [hnil] at hplain
  exact h.nonempty (List.map_eq_nil_iff.mp hplain.symm)

theorem painted_exchanged_ne_nil : painted (exchanged o k) ≠ [] := by
  intro hnil
  rw [painted, List.map_eq_nil_iff] at hnil
  exact h.plain_exchanged_ne_nil o (by rw [hnil]; rfl)

end IsCore

/-- The line that the passes make of one, in view of the lines after it. -/
def passed (o : Options) (x : Line) (after : List Line) : Line :=
  addComma (convertQuotes o.quotes.1 o.quotes.2 (addSemicolon x after) (pass addSemicolon after))
    (pass (convertQuotes o.quotes.1 o.quotes.2) (pass addSemicolon after))

theorem passes_cons (o : Options) (x : Line) (xs : List Line) :
    passes o (x :: xs) = passed o x xs :: passes o xs :=
  rfl

theorem passed_blank (o : Options) (after : List Line) : passed o Line.blank after = Line.blank := by
  have hlacks : lacksSemicolon Line.blank after = false := rfl
  rw [passed, addSemicolon, hlacks]
  rfl

/-! ### The next line of code -/

/-- A semicolon is added behind code. -/
theorem hasCode_addSemicolon (x : Line) (after : List Line) :
    (addSemicolon x after).hasCode = x.hasCode := by
  rw [addSemicolon]
  split
  · rename_i hlacks
    have hcode : x.hasCode = true := by
      rw [hasCode_iff]
      intro hnil
      simp [lacksSemicolon, hnil, endsStatement] at hlacks
    rw [hcode, Line.hasCode, Line.mask, painted_append, List.any_append]
    exact Bool.or_true _
  · rfl

/-- Quotes are code in either kind. -/
theorem hasCode_convertQuotes (o : Options) (x : Line) (after : List Line) :
    (convertQuotes o.quotes.1 o.quotes.2 x after).hasCode = x.hasCode := by
  have hblur (cs : List Char) :
      ((cs.map blur).any fun c => !isBlank c) = cs.any fun c => !isBlank c := by
    rw [List.any_map]
    exact congrArg (List.any cs) (funext fun c => by simp)
  rw [convertQuotes]
  split
  · rfl
  · rw [Line.hasCode, Line.hasCode, Line.mask, Line.mask, ← hblur, ← painted_map_blurred,
      blurred_requoteFrom o.blur_quotes _ (by simp), painted_map_blurred, hblur]
    rfl

/-- A pass that neither takes code away nor adds it leaves the next line where it is. -/
theorem nextCode?_pass {change : Line → List Line → Line}
    (hcode : ∀ x after, (change x after).hasCode = x.hasCode)
    (hcloses : ∀ x after, (change x after).closes = x.closes) (xs : List Line) :
    (nextCode? (pass change xs)).map (·.closes) = (nextCode? xs).map (·.closes) := by
  induction xs with
  | nil => rfl
  | cons x xs ih =>
    rw [nextCode?, nextCode?, pass, List.find?_cons, List.find?_cons, hcode]
    split
    · exact congrArg some (hcloses x xs)
    · exact ih

/-- So what the next line closes is known before the passes. -/
theorem closes_passes (o : Options) (xs : List Line) :
    (nextCode? (pass (convertQuotes o.quotes.1 o.quotes.2) (pass addSemicolon xs))).map (·.closes) =
      (nextCode? xs).map (·.closes) := by
  rw [nextCode?_pass (hasCode_convertQuotes o) fun x after => ?_,
    nextCode?_pass hasCode_addSemicolon fun x after => ?_]
  · rw [addSemicolon]
    split <;> rfl
  · rw [convertQuotes]
    split <;> rfl

/-! ### A line of code -/

theorem addSemicolon_eq (x : Line) (after : List Line) :
    addSemicolon x after =
      { x with cells := x.cells ++ if lacksSemicolon x after then [(';', .code)] else [] } := by
  rw [addSemicolon]
  split
  · rfl
  · rw [List.append_nil]

/-- When a comma is added, and where. -/
theorem plain_addComma {x : Line} (h : x.kept = false) (after : List Line) :
    plain (addComma x after).cells =
      if (x.innermost.any fun o => o.isLiteral && endsItem (trimRight x.mask) &&
          ((nextCode? after).bind (·.closes.head?)) == some o.bracket) then
        trimRight (plain x.cells) ++ [',']
      else plain x.cells := by
  rw [addComma]
  cases x.innermost with
  | none => rfl
  | some o =>
    simp only [h, Option.any_some, Bool.not_false, Bool.true_and]
    split
    · rw [plain_append, plain_dropTail]
      rfl
    · rfl

theorem endsItem_append (front : List Char) {code : List Char} (h : code ≠ []) :
    endsItem (front ++ code) = endsItem code := by
  rw [endsItem, endsStatement, List.getLast?_append_of_ne_nil front h, endsItem, endsStatement]

/-- The margin of a line of code. -/
def indent (o : Options) (stack : List Open) (k : List Char) : List Char :=
  plain (indentCells o.indentUnit stack (seen k))

/-- Whether a semicolon is wanted is known from the core and the next one. -/
theorem lacksSemicolon_laid (o : Options) (stack : List Open) {k : List Char} (hk : IsCore k)
    {xs : List Line} (hkept : ∀ x ∈ xs, x.kept = false) :
    lacksSemicolon (laid o stack k) xs =
      wantsSemicolon (seen k) ((nextCode? xs).map Line.code) := by
  have hhead : xs.head?.any (·.kept) = false := by
    cases xs with
    | nil => rfl
    | cons x xs => exact hkept x List.mem_cons_self
  rw [lacksSemicolon, wantsSemicolon, code_laid hk, hhead, Option.any_map, Bool.not_false,
    Bool.and_true]
  rfl

/-- The cells of a line of code when it is its turn to get a comma. -/
theorem cells_convertQuotes_laid (o : Options) (stack : List Open) (k : List Char)
    (xs after : List Line) :
    (convertQuotes o.quotes.1 o.quotes.2 (addSemicolon (laid o stack k) xs) after).cells =
      indentCells o.indentUnit stack (seen k) ++ exchanged o k ++
        if lacksSemicolon (laid o stack k) xs then [(';', .code)] else [] := by
  have htail : ∀ x ∈ (if lacksSemicolon (laid o stack k) xs then [(';', Mark.code)] else []),
      isInert x.1 = true := by
    split
    · exact List.forall_mem_singleton.mpr rfl
    · exact List.forall_mem_nil _
  rw [addSemicolon_eq]
  exact requoteFrom_between isInert_indentCells htail _

theorem trimRight_concat {c : Char} (hc : isBlank c = false) (cs : List Char) :
    trimRight (cs ++ [c]) = cs ++ [c] :=
  dropTail_of_getLast (by simpa using hc)

/-- Behind a semicolon no item ends. -/
theorem endsItem_semicolon (cs : List Cell) :
    endsItem (trimRight (painted (cs ++ [(';', .code)]))) = false := by
  rw [painted_append]
  exact (congrArg endsItem (trimRight_concat (by decide) _)).trans
    (endsItem_append _ (List.cons_ne_nil _ _))

/-- Neither a margin nor the exchange of quotes changes whether an item ends. -/
theorem endsItem_exchanged (o : Options) (stack : List Open) {k : List Char} (hk : IsCore k) :
    endsItem (trimRight (painted (indentCells o.indentUnit stack (seen k) ++ exchanged o k))) =
      endsItem (seen k) := by
  have hne := hk.painted_exchanged_ne_nil o
  rw [painted_append, trimRight, (hk.isTrimmed_painted_exchanged o).dropTail_append _ hne,
    endsItem_append _ hne, ← endsItem_blur, blur_painted_exchanged, endsItem_blur]

/-- **A line of code behind the passes**: its margin, its text with exchanged quotes, its ending. -/
theorem plain_passed (o : Options) (stack : List Open) {k : List Char} (hk : IsCore k)
    {xs : List Line} (hkept : ∀ x ∈ xs, x.kept = false) {next : Option (List Char)}
    (hcode : (nextCode? xs).map Line.code = next)
    (hcloses : (nextCode? xs).bind (·.closes.head?) =
      next.bind fun n => (turn (turn stack (seen k)).2.2 n).2.1.head?) :
    trimRight (plain (passed o (laid o stack k) xs).cells) =
      indent o stack k ++ plain (exchanged o k) ++
        ending (turn stack (seen k)).2.2 (seen k) next := by
  have hcells := cells_convertQuotes_laid o stack k xs (pass addSemicolon xs)
  rw [lacksSemicolon_laid o stack hk hkept, hcode] at hcells
  have hbind (ys : List Line) : (nextCode? ys).bind (·.closes.head?) =
      ((nextCode? ys).map (·.closes)).bind List.head? := by
    rw [Option.bind_map]
    rfl
  have hkept' : (convertQuotes o.quotes.1 o.quotes.2 (addSemicolon (laid o stack k) xs)
      (pass addSemicolon xs)).kept = false := by
    rw [addSemicolon_eq]
    rfl
  have hinnermost : (convertQuotes o.quotes.1 o.quotes.2 (addSemicolon (laid o stack k) xs)
      (pass addSemicolon xs)).innermost = (turn stack (seen k)).2.2.head? := by
    rw [addSemicolon_eq]
    rfl
  rw [passed, plain_addComma hkept', hinnermost, Line.mask, hcells, hbind, closes_passes, ← hbind,
    hcloses, ending]
  by_cases hsemicolon : wantsSemicolon (seen k) next = true
  · have hnone (os : Option Open) (f g : Open → Bool) :
        os.any (fun o => f o && false && g o) = false := by
      cases os <;> simp
    simp only [if_pos hsemicolon, endsItem_semicolon, hnone]
    rw [plain_append, plain_append]
    exact trimRight_concat (by decide) _
  · have htext : trimRight (indent o stack k ++ plain (exchanged o k)) =
        indent o stack k ++ plain (exchanged o k) :=
      (hk.isTrimmed_exchanged o).dropTail_append _ (hk.plain_exchanged_ne_nil o)
    have hplain : plain (indentCells o.indentUnit stack (seen k) ++ exchanged o k) =
        indent o stack k ++ plain (exchanged o k) := plain_append _ _
    simp only [if_neg hsemicolon, List.append_nil, endsItem_exchanged o stack hk, hplain, htext]
    rw [wantsComma]
    split
    · exact trimRight_concat (by decide) _
    · rw [htext, List.append_nil]

/-! ## The program -/

/-- The lines of code of a tidy program, formatted. -/
def written (o : Options) (stack : List Open) : List (List Char) → List (List Char)
  | [] => []
  | k :: ks =>
    (indent o stack k ++ plain (exchanged o k) ++
      ending (turn stack (seen k)).2.2 (seen k) (ks.head?.map seen)) ::
        written o (turn stack (seen k)).2.2 ks

/-- The lines of a tidy program behind the passes. -/
def texts (o : Options) (stack : List Open) (ls : List (List Char)) : List (List Char) :=
  (passes o (laidOut o stack ls)).map fun x => trimRight (plain x.cells)

theorem texts_blank (o : Options) (stack : List Open) {l : List Char} (hl : '\n' ∉ l)
    (h : trimChars l = []) (ls : List (List Char)) :
    texts o stack (l :: ls) = [] :: texts o stack ls := by
  rw [texts, laidOut_blank o stack hl h, passes_cons, passed_blank]
  rfl

section Texts

variable {o : Options} {stack : List Open}

/-- What is written for a core: its margin, its characters and its mark. -/
theorem texts_core {l : List Char} {ls : List (List Char)} (h : ∀ l ∈ ls, IsTidy l)
    (hls : ∀ l ∈ ls, '\n' ∉ l) (hl : '\n' ∉ l) (hcore : IsCore (trimChars l)) :
    texts o stack (l :: ls) =
      (indent o stack (trimChars l) ++ plain (exchanged o (trimChars l)) ++
        ending (turn stack (seen (trimChars l))).2.2 (seen (trimChars l))
          ((cores ls).head?.map seen)) ::
        texts o (turn stack (seen (trimChars l))).2.2 ls := by
  have hnext (stack : List Open) :
      nextCode? (laidOut o stack ls) = (cores ls).head?.map (laid o stack) :=
    nextCode?_laidOut h hls
  have hcode (stack : List Open) :
      (nextCode? (laidOut o stack ls)).map Line.code = (cores ls).head?.map seen := by
    rw [hnext, Option.map_map]
    cases hhead : (cores ls).head? with
    | none => rfl
    | some k =>
      exact congrArg some (code_laid (isCore_of_mem_cores h hls k (List.mem_of_mem_head? hhead)))
  have hcloses (stack : List Open) : (nextCode? (laidOut o stack ls)).bind (·.closes.head?) =
      ((cores ls).head?.map seen).bind fun n => (turn stack n).2.1.head? := by
    rw [hnext]
    cases (cores ls).head? <;> rfl
  rw [texts, laidOut_core o stack hl hcore.nonempty, passes_cons, List.map_cons,
    plain_passed o stack hcore (kept_laidOut h hls) (hcode _) (hcloses _)]
  rfl

variable {ls : List (List Char)} (h : ∀ l ∈ ls, IsTidy l) (hls : ∀ l ∈ ls, '\n' ∉ l)
include h hls

/-- **What formatting makes of a tidy program.** -/
theorem filled_texts : filled (texts o stack ls) = written o stack (cores ls) := by
  induction ls generalizing stack with
  | nil => rfl
  | cons l ls ih =>
    obtain ⟨hl, htidy⟩ := List.forall_mem_cons.mp h
    obtain ⟨hfeed, hfeeds⟩ := List.forall_mem_cons.mp hls
    by_cases hblank : trimChars l = []
    · rw [texts_blank o stack hfeed hblank, filled_empty, ih htidy hfeeds, cores_blank hblank]
    · have hcore := hl.isCore hfeed hblank
      have hne := hcore.plain_exchanged_ne_nil o
      rw [texts_core htidy hfeeds hfeed hcore, filled_cons (by simp [hne]), ih htidy hfeeds,
        cores_core hblank]
      rfl

/-- Formatting leaves the blank lines empty, and no others. -/
theorem map_fst_spaced_texts :
    (spaced (texts o stack ls)).map Prod.fst = (spaced (ls.map trimChars)).map Prod.fst := by
  refine map_fst_spaced ?_
  induction ls generalizing stack with
  | nil => exact .nil
  | cons l ls ih =>
    obtain ⟨hl, htidy⟩ := List.forall_mem_cons.mp h
    obtain ⟨hfeed, hfeeds⟩ := List.forall_mem_cons.mp hls
    by_cases hblank : trimChars l = []
    · rw [texts_blank o stack hfeed hblank]
      exact .cons (by simp [hblank]) (ih htidy hfeeds)
    · have hcore := hl.isCore hfeed hblank
      rw [texts_core htidy hfeeds hfeed hcore]
      exact .cons (by simp [hblank, hcore.plain_exchanged_ne_nil o]) (ih htidy hfeeds)

end Texts

end Scaffold.Format
