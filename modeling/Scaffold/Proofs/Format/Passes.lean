import Scaffold.Proofs.Format.Edits

/-!
# Proofs/Format/Passes — the lines of a formatted program

Layout and the three passes make a line of the program into an edited one, each in the phase that
the line before it leads to and in view of the lines behind it (`edited_formattedLines`).  That view
is what keeps template literals from being added to: the line behind an open one is kept, and shows
no closing bracket.
-/

namespace Scaffold.Format

open Text Phase

variable {p : Phase} {l : List Char} {rest : List (List Char)} {x : Line}

/-! ## Lines in turn -/

/-- Lines that are related one by one, each in the phase that the line before it leads to, and in
view of the lines that follow. -/
inductive Chained {β : Type} (R : Phase → List Char → List (List Char) → β → Prop) :
    Phase → List (List Char) → List β → Prop
  | nil (p : Phase) : Chained R p [] []
  | cons {p : Phase} {l : List Char} {x : β} {ls : List (List Char)} {xs : List β} (h : R p l ls x)
      (hs : Chained R (p.run l).newline ls xs) : Chained R p (l :: ls) (x :: xs)

/-- What a pass does to a line in view of the lines after it, it does to the program. -/
theorem Chained.pass {R S : Phase → List Char → List (List Char) → Line → Prop}
    {ls : List (List Char)} {xs : List Line} (h : Chained R p ls xs)
    {change : Line → List Line → Line}
    (hchange : ∀ p l ls x after, R p l ls x → Chained R (p.run l).newline ls after →
      S p l ls (change x after)) : Chained S p ls (pass change xs) := by
  induction h with
  | nil p => exact .nil p
  | cons h hs ih => exact .cons (hchange _ _ _ _ _ h hs) ih

theorem Chained.threaded {β : Type} {R : Phase → List Char → List (List Char) → β → Prop}
    {T : Phase → List Char → β → Prop} {ls : List (List Char)} {xs : List β}
    (h : Chained R p ls xs) (hT : ∀ p l ls x, R p l ls x → T p l x) : Threaded T p ls xs := by
  induction h with
  | nil p => exact .nil p
  | cons h hs ih => exact .cons (hT _ _ _ _ h) ih

/-- A template literal that is open at the end of a line is open at the beginning of the next. -/
theorem Span.newline_eq_of_template (h : Span.template.holds p = true) :
    p.newline = .literal '\x60' := by
  cases p with
  | literal q | escape q =>
    obtain rfl : q = '\x60' := by simpa [Span.holds] using h
    rfl
  | code | stroke | lineComment | blockComment | star => cases h

theorem Span.holds_newline (p : Phase) : Span.template.holds p.newline = Span.template.holds p := by
  cases p with
  | literal q | escape q => by_cases hq : q = '\x60' <;> simp [newline, holds, hq]
  | code | stroke | lineComment | blockComment | star => rfl

theorem newline_run_trimChars (hsettled : p.settle = p) (hl : '\n' ∉ l) :
    (p.run (trimChars l)).newline = (p.run l).newline := (alike_trimChars hsettled hl).newline

variable {after : List Line}

/-- The inside of a template literal is seen, and so is its quote. -/
theorem isBlank_painted_template {c : Char} (hc : c ≠ '\n') (next : Option Char) :
    isBlank (Cell.painted (c, (Phase.literal '\x60').mark c next)) = false := by
  by_cases hescape : c = '\\'
  · rw [hescape]
    rfl
  · cases hquote : isQuote c && c == '\x60' with
    | true =>
      obtain ⟨-, hc⟩ := Bool.and_eq_true_iff.mp hquote
      rw [eq_of_beq hc]
      rfl
    | false =>
      have hmark : (Phase.literal '\x60').mark c next = .body '\x60' := by
        simp [Phase.mark, hc, hescape, hquote]
      rw [hmark, Cell.painted]
      simp [hc]
      rfl

/-- Behind a line that ends in a template literal, no bracket is closed at the start of the next
line that shows code. -/
theorem closes_eq_nil (h : Chained Edited (.literal '\x60') rest after) :
    ∀ y ∈ nextCode? after, y.closes = [] := by
  generalize hp : Phase.literal '\x60' = p at h
  induction h with
  | nil p => simp [nextCode?]
  | @cons p l x ls xs h hs ih =>
    subst hp
    obtain ⟨-, hl, -, hcloses, hcells⟩ : (Phase.literal '\x60').isInside = true ∧ '\n' ∉ l ∧
        x.kept = true ∧ x.closes = [] ∧ x.cells = (Phase.literal '\x60').cells l := by
      cases h with
      | kept hp hl hkept hcloses hcells => exact ⟨hp, hl, hkept, hcloses, hcells⟩
      | sound hp | fused hp => cases hp
    rw [nextCode?, List.find?_cons]
    cases l with
    | nil =>
      have hcode : x.hasCode = false := by rw [Line.hasCode, Line.mask, hcells]; rfl
      rw [hcode]
      exact ih rfl
    | cons c cs =>
      have hfeed : c ≠ '\n' := fun hc => hl (hc ▸ List.mem_cons_self)
      have hcode : x.hasCode = true := by
        rw [Line.hasCode, Line.mask, hcells, Phase.cells_cons, painted_cons, List.any_cons,
          isBlank_painted_template hfeed]
        rfl
      rw [hcode]
      exact fun y hy => Option.some.inj hy ▸ hcloses

/-! ## Passes -/

/-- The end of trimmed painted text is seen. -/
theorem exists_seen {cs : List Cell} {c : Char} (h : (trimRight (painted cs)).getLast? = some c) :
    ∃ y ∈ cs, isBlank y.painted = false := by
  obtain ⟨hne, rfl⟩ := List.mem_getLast?_eq_getLast h
  have hlast : isBlank ((trimRight (painted cs)).getLast hne) = false :=
    Bool.eq_false_iff.mpr (List.rdropWhile_last_not isBlank _ hne)
  obtain ⟨y, hy, hpainted⟩ := List.mem_map.mp
    ((List.rdropWhile_prefix isBlank _).subset (List.getLast_mem hne))
  exact ⟨y, hy, hpainted ▸ hlast⟩

/-- What does not satisfy the predicate is not dropped. -/
theorem mem_dropTail {α : Type} {b : α → Bool} {xs : List α} {y : α} (hy : y ∈ xs)
    (hb : b y = false) : y ∈ dropTail b xs := by
  obtain ⟨tail, htail, heq⟩ := exists_eq_dropTail_append b xs
  rw [heq] at hy
  obtain hy | hy := List.mem_append.mp hy
  · exact hy
  · rw [htail y hy] at hb
    cases hb

/-- Outside of literals a character is seen as it is, or not at all. -/
theorem painted_mark_eq_or {q : Phase} (hq : q.isInside = false) {c : Char} (hc : c ≠ '\n')
    (next : Option Char) :
    Cell.painted (c, q.mark c next) = c ∨ Cell.painted (c, q.mark c next) = ' ' := by
  have hseen : Cell.painted (c, .code) = c ∧ Cell.painted (c, .quote) = c ∧
      Cell.painted (c, .comment) = ' ' := by simp [Cell.painted, hc]
  cases q with
  | literal r | escape r => cases hq
  | lineComment | blockComment | star => exact .inr (by simp [Phase.mark, hc, hseen])
  | code | stroke =>
    simp only [Phase.mark]
    split_ifs
    · exact .inr hseen.2.2
    · exact .inl hseen.2.1
    · exact .inl hseen.1

/-- If anything is seen of faithful cells, a character is that is not blank: in front of what is
seen of a literal stands its quote. -/
theorem Faithful.exists_seen {q : Phase} (hq : q.isInside = false) {cs : List Cell}
    (h : Faithful q cs) (hseen : ∃ y ∈ cs, isBlank y.painted = false) :
    ∃ y ∈ cs, isBlank y.1 = false ∧ isBlank y.painted = false := by
  induction cs generalizing q with
  | nil =>
    obtain ⟨y, hy, -⟩ := hseen
    cases hy
  | cons x cs ih =>
    obtain ⟨hmark, hcs⟩ := h.uncons
    have hpainted : x.painted = Cell.painted (x.1, q.mark x.1 (plain cs).head?) := by
      rw [← Cell.painted_faded x, ← hmark, Cell.painted_faded]
    have hfeed : x.1 ≠ '\n' := fun hx => h.oneLine (hx ▸ List.mem_cons_self)
    by_cases hx : isBlank x.painted = true
    · have hstep := h.isInside_step hq hx
      obtain ⟨y, hy, hvisible⟩ := hseen
      have hmem : y ∈ cs := by
        obtain rfl | hmem := List.mem_cons.mp hy
        · rw [hx] at hvisible
          cases hvisible
        · exact hmem
      obtain ⟨z, hz, hboth⟩ := ih hstep hcs ⟨y, hmem, hvisible⟩
      exact ⟨z, List.mem_cons_of_mem x hz, hboth⟩
    · rw [Bool.not_eq_true] at hx
      refine ⟨x, List.mem_cons_self, ?_, hx⟩
      obtain hsame | hblank := painted_mark_eq_or hq hfeed (plain cs).head?
      · rwa [← hsame, ← hpainted]
      · rw [hpainted, hblank] at hx
        cases hx

theorem exists_getLast?_of_endsStatement {code : List Char} (h : endsStatement code = true) :
    ∃ c, code.getLast? = some c := by
  rw [endsStatement] at h
  cases hlast : code.getLast? with
  | none => rw [hlast] at h; cases h
  | some c => exact ⟨c, rfl⟩

namespace Edited

variable (h : Edited p l rest x)
include h

theorem oneLine : '\n' ∉ l := by
  cases h with
  | kept _ hl => exact hl
  | sound _ _ hl => exact hl
  | fused _ _ hl => exact hl

theorem settled (hkept : x.kept = false) : p.settle = p := by
  cases h with
  | kept _ _ hkept' => rw [hkept] at hkept'; cases hkept'
  | sound _ hsettled => exact hsettled
  | fused _ hsettled => exact hsettled

/-- Nothing is put behind a template literal that goes on in the next line. -/
theorem rest_eq_nil (hkept : x.kept = false)
    (hafter : Chained Edited (p.run l).newline rest after)
    (hnext : after.head?.any (·.kept) = false)
    (htemplate : Span.template.holds (p.run (trimChars l)) = true) : rest = [] := by
  have hnewline : (p.run l).newline = .literal '\x60' := by
    rw [← newline_run_trimChars (h.settled hkept) h.oneLine,
      Span.newline_eq_of_template htemplate]
  rw [hnewline] at hafter
  cases hafter with
  | nil => rfl
  | cons hy _ =>
    rw [List.head?_cons, Option.any_some, hy.kept_eq] at hnext
    cases hnext

/-- It leads where it led, unless a stroke has come before a block comment that goes on. -/
theorem newline_eq (hfree : (p.run l).newline = .blockComment → fuses x.cells = false) :
    (p.run (plain x.cells)).newline = (p.run l).newline := by
  cases h with
  | kept _ _ _ _ hcells => rw [hcells, plain_phaseCells]
  | @sound front code tail hp hsettled hl _ hcells hfront htail hcode hsame =>
    rw [hcells, plain_append, plain_append, List.append_assoc,
      settle_run_append_left hfront.plain_inert hsettled, Phase.run_append,
      newline_run_inert htail.plain_inert, hsame.newline, newline_run_trimChars hsettled hl]
  | @fused front before comment tail hp hsettled hl _ hcells hfront htail hbefore hstroke hcomment
      hblank hhead hpieces hsettle =>
    have hne : p ≠ .stroke := by
      rintro rfl
      cases hsettled
    have hfuses : fuses x.cells = true := by
      rw [hcells, fuses_around hfront htail,
        fuses_of_stroke hne hbefore hstroke hcomment hblank hhead]
    have hold : (p.run l).newline = (Phase.code.run (plain comment)).newline := by
      rw [← newline_run_trimChars hsettled hl, ← newline_settle, hsettle, newline_settle]
    obtain ⟨hinside, -⟩ := hcomment.of_blank rfl hblank
    have hcode : (p.run l).newline = .code := by
      rw [hfuses] at hfree
      rw [hold] at hfree ⊢
      cases hend : Phase.code.run (plain comment) with
      | literal q | escape q => rw [hend] at hinside; cases hinside
      | code | stroke | lineComment => rfl
      | blockComment | star => rw [hend] at hfree; cases hfree rfl
    obtain ⟨cs, rfl, -⟩ := hcomment.exists_comment hblank hhead
    have hline : '\n' ∉ plain cs ++ plain tail := by
      rw [List.mem_append, not_or]
      exact ⟨List.not_mem_of_not_mem_cons hcomment.oneLine, htail.oneLine⟩
    have hnew : p.run (plain x.cells) = .lineComment := by
      rw [hcells, plain_append, plain_append, plain_append, List.append_assoc, List.append_assoc,
        settle_run_append_left hfront.plain_inert hsettled, Phase.run_append, hstroke]
      exact (pieces_lineComment .template hline).2
    rw [hnew, hcode]
    rfl

/-- What is seen of a line of code is a character that is no blank. -/
theorem exists_seen_char (hkept : x.kept = false)
    (hseen : ∃ y ∈ x.cells, isBlank y.painted = false) :
    ∃ y ∈ x.cells, isBlank y.1 = false ∧ isBlank y.painted = false := by
  cases h with
  | kept _ _ hkept' => rw [hkept] at hkept'; cases hkept'
  | @sound front code tail hp _ _ _ hcells hfront htail hcode =>
    obtain ⟨y, hy, hvisible⟩ := hseen
    rw [hcells, List.mem_append, List.mem_append] at hy
    rw [hcells]
    obtain (hy | hy) | hy := hy
    · rw [(hfront.blank y hy).2] at hvisible
      cases hvisible
    · obtain ⟨z, hz, hboth⟩ := hcode.exists_seen hp ⟨y, hy, hvisible⟩
      exact ⟨z, List.mem_append_left _ (List.mem_append_right _ hz), hboth⟩
    · exact ⟨y, List.mem_append_right _ hy, htail.visible y hy⟩
  | @fused front before comment tail _ hsettled _ _ hcells _ _ hbefore hstroke =>
    have hne : p ≠ .stroke := by
      rintro rfl
      cases hsettled
    obtain ⟨ds, rfl⟩ := hbefore.exists_stroke hne hstroke
    exact ⟨('/', .code), by simp [hcells], rfl, rfl⟩

/-- Adding a semicolon is an edit. -/
theorem addSemicolon (hafter : Chained Edited (p.run l).newline rest after) :
    Edited p l rest (addSemicolon x after) := by
  rw [Format.addSemicolon]
  split
  · rename_i hlacks
    simp only [lacksSemicolon, Bool.and_eq_true, Bool.not_eq_true'] at hlacks
    obtain ⟨⟨⟨⟨⟨hkept, -⟩, hends⟩, -⟩, hnext⟩, -⟩ := hlacks
    refine h.append (.inl rfl) hkept (h.rest_eq_nil hkept hafter hnext) ?_
    obtain ⟨c, hc⟩ := exists_getLast?_of_endsStatement hends
    have hcode : x.code = trimRight (painted (x.cells.dropWhile fun y => isBlank y.painted)) := by
      rw [Line.code, trimChars, trimLeft, Line.mask, painted, painted, List.dropWhile_map]
      rfl
    rw [hcode] at hc
    obtain ⟨y, hy, hseen⟩ := exists_seen hc
    exact ⟨y, (List.dropWhile_suffix _).subset hy, hseen⟩
  · exact h

/-- So is removing it. -/
theorem removeSemicolon (after : List Line) : Edited p l rest (removeSemicolon x after) := by
  rw [Format.removeSemicolon]
  split
  · exact h
  · rename_i hkept
    split
    · rename_i ds hds
      exact h.withoutFinal (.inl rfl) (by simpa using hkept) hds
    · exact h

/-- So is exchanging quotes. -/
theorem convertQuotes (o : Options) (after : List Line) :
    Edited p l rest (convertQuotes o.quotes.1 o.quotes.2 x after) := by
  have hquotes : o.quotes.1 ≠ '\x60' ∧ o.quotes.2 ≠ '\x60' := by
    rw [Options.quotes]
    split <;> exact ⟨by decide, by decide⟩
  rw [Format.convertQuotes]
  split
  · exact h
  · rename_i hkept
    exact h.requote o.blur_quotes o.isQuote_target hquotes.1 hquotes.2 (by simpa using hkept)

/-- So is adding a comma. -/
theorem addComma (hafter : Chained Edited (p.run l).newline rest after) :
    Edited p l rest (addComma x after) := by
  rw [Format.addComma]
  split
  · exact h
  · rename_i o _
    dsimp only
    split
    · rename_i hadds
      simp only [Bool.and_eq_true, Bool.not_eq_true', beq_iff_eq] at hadds
      obtain ⟨⟨⟨hkept, -⟩, hends⟩, hcloses⟩ := hadds
      obtain ⟨c, hc⟩ : ∃ c, (trimRight x.mask).getLast? = some c := by
        rw [endsItem, Bool.or_eq_true] at hends
        obtain hends | hends := hends
        · exact exists_getLast?_of_endsStatement hends
        · exact ⟨_, beq_iff_eq.mp hends⟩
      refine (h.trim hkept).append (.inr rfl) hkept (fun htemplate => ?_) ?_
      · -- the bracket that the comma stands before is closed outside of literals
        have hnewline : (p.run l).newline = .literal '\x60' := by
          rw [← newline_run_trimChars (h.settled hkept) h.oneLine,
            Span.newline_eq_of_template htemplate]
        rw [hnewline] at hafter
        obtain ⟨y, hy, hhead⟩ := Option.bind_eq_some_iff.mp hcloses
        rw [closes_eq_nil hafter y hy] at hhead
        cases hhead
      · obtain ⟨y, hy, hblank, hseen⟩ := h.exists_seen_char hkept (exists_seen hc)
        exact ⟨y, mem_dropTail hy hblank, hseen⟩
    · exact h

/-- So is removing it. -/
theorem removeComma (after : List Line) : Edited p l rest (removeComma x after) := by
  rw [Format.removeComma]
  split
  · rename_i hkept
    rw [Bool.and_eq_true, Bool.not_eq_true'] at hkept
    split
    · rename_i ds hds
      exact h.withoutFinal (.inr rfl) hkept.1 hds
    · exact h
  · exact h

end Edited

/-! ## Programs -/

/-- The lines of a formatted program, up to the finishing pass. -/
def formattedLines (o : Options) (cs : List Char) : List Line :=
  let lines :=
    pass (if o.semicolons then addSemicolon else removeSemicolon) (layout o.indentUnit cs)
  pass (if o.trailingCommas then addComma else removeComma)
    (pass (convertQuotes o.quotes.1 o.quotes.2) lines)

/-- A formatted text is the normal form of its formatted lines. -/
theorem formatCode_eq_finish (o : Options) (cs : List Char) :
    formatCode o cs = finish ((formattedLines o cs).map fun x => plain x.cells) := by
  have hquotes : (if o.singleQuotes then convertQuotes '"' '\'' else convertQuotes '\'' '"') =
      convertQuotes o.quotes.1 o.quotes.2 := by
    rw [Options.quotes]
    split <;> rfl
  rw [formatCode, hquotes]
  rfl

/-- The layout of all lines is an edit, line by line. -/
theorem edited_layoutFrom (o : Options) (stack : List Open) (hsettled : p.settle = p)
    {ls : List (List Char)} (h : ∀ l ∈ ls, '\n' ∉ l) :
    Chained Edited p ls (layoutFrom o.indentUnit stack (scanned p ls)) := by
  induction ls generalizing p stack with
  | nil => exact .nil p
  | cons l ls ih =>
    obtain ⟨hl, hls⟩ := List.forall_mem_cons.mp h
    exact .cons (edited_layoutLine o stack hsettled hl ls) (ih _ (settle_newline _) hls)

/-- **What becomes of the lines of a program**, whatever the options. -/
theorem edited_formattedLines (o : Options) (cs : List Char) :
    Chained Edited .code (lines cs) (formattedLines o cs) := by
  have hlayout : Chained Edited .code (lines cs)
      (layoutFrom o.indentUnit [] (scanned .code (lines cs))) :=
    edited_layoutFrom o [] rfl fun l hl => notMem_of_mem_pieces hl
  rw [← layout_eq] at hlayout
  have hsemicolons : Chained Edited .code (lines cs)
      (pass (if o.semicolons then addSemicolon else removeSemicolon) (layout o.indentUnit cs)) := by
    split
    · exact hlayout.pass fun _ _ _ _ _ h hafter => h.addSemicolon hafter
    · exact hlayout.pass fun _ _ _ _ after h _ => h.removeSemicolon after
  have hquotes := hsemicolons.pass fun _ _ _ _ after h _ => h.convertQuotes o after
  rw [formattedLines]
  split
  · exact hquotes.pass fun _ _ _ _ _ h hafter => h.addComma hafter
  · exact hquotes.pass fun _ _ _ _ after h _ => h.removeComma after

theorem oneLine_formattedLines (o : Options) (cs : List Char) :
    ∀ k ∈ (formattedLines o cs).map fun x => plain x.cells, '\n' ∉ k := by
  have hthreaded := (edited_formattedLines o cs).threaded
    (T := fun _ _ x => '\n' ∉ plain x.cells) fun _ _ _ _ h => h.oneLine_plain
  exact List.forall_mem_map.mpr (hthreaded.forall_mem fun _ _ _ h => h)

/-! ## Adding alone -/

/-- A front of cells that do not fuse does not fuse. -/
theorem fuses_of_append {cs ds : List Cell} (h : fuses (cs ++ ds) = false) : fuses cs = false := by
  induction cs with
  | nil => rfl
  | cons x cs ih =>
    cases cs with
    | nil => rfl
    | cons y cs =>
      rw [List.cons_append, List.cons_append, fuses_cons_cons, Bool.or_eq_false_iff] at h
      rw [fuses_cons_cons, h.1, ih h.2]
      rfl

/-- Quotes do not matter for fusing. -/
theorem fuses_map_blurred (cs : List Cell) : fuses (cs.map Cell.blurred) = fuses cs := by
  have hstroke (x : Cell) (m : Mark) : x.blurred = ('/', m) ↔ x = ('/', m) := by
    have hblur : blur x.1 = '/' ↔ x.1 = '/' := by
      rw [blur]
      split
      · rename_i hx
        rw [hx]
        decide
      · rfl
    rw [Cell.blurred, Prod.ext_iff, Prod.ext_iff]
    exact and_congr_left' hblur
  induction cs with
  | nil => rfl
  | cons x cs ih =>
    cases cs with
    | nil => rfl
    | cons y cs =>
      rw [List.map_cons] at ih
      rw [List.map_cons, List.map_cons, fuses_cons_cons, ih, fuses_cons_cons,
        decide_eq_decide.mpr (and_congr (hstroke x .code) (hstroke y .comment))]

/-- What every change establishes, holds of all lines behind the pass. -/
theorem forall_mem_pass {P Q : Line → Prop} {change : Line → List Line → Line}
    (hchange : ∀ x after, P x → Q (change x after)) {xs : List Line} (h : ∀ x ∈ xs, P x) :
    ∀ x ∈ pass change xs, Q x := by
  induction xs with
  | nil => exact List.forall_mem_nil Q
  | cons x xs ih =>
    obtain ⟨hx, hxs⟩ := List.forall_mem_cons.mp h
    exact List.forall_mem_cons.mpr ⟨hchange x xs hx, ih hxs⟩

/-- A line that is laid out does not fuse. -/
theorem fuses_layoutLine (o : Options) (stack : List Open) (hsettled : p.settle = p)
    (hl : '\n' ∉ l) :
    fuses (layoutLine o.indentUnit stack p.isInside (p.cells l)).1.cells = false := by
  cases p.isInside with
  | true => exact (Faithful.cells hl p).fuses_eq_false
  | false =>
    have htrim := trimCells_phaseCells hsettled hl
    by_cases hempty : trimCells (p.cells l) = []
    · rw [layoutLine_blank hempty]
      rfl
    · have hline : '\n' ∉ trimChars l := fun hfeed =>
        hl ((List.dropWhile_suffix _).subset ((List.rdropWhile_prefix isBlank _).subset hfeed))
      have hindent : ∀ y ∈ indentCells o.indentUnit stack (painted (trimCells (p.cells l))),
          y.1 ≠ '/' := by
        intro y hy
        obtain rfl | rfl := mem_indentCells hy <;> decide
      rw [layoutLine_code hempty, fuses_append_left hindent, htrim]
      exact (Faithful.cells hline p).fuses_eq_false

/-- Nor do the others. -/
theorem fuses_layoutFrom (o : Options) (stack : List Open) (hsettled : p.settle = p)
    {ls : List (List Char)} (h : ∀ l ∈ ls, '\n' ∉ l) :
    ∀ x ∈ layoutFrom o.indentUnit stack (scanned p ls), fuses x.cells = false := by
  induction ls generalizing p stack with
  | nil => exact List.forall_mem_nil _
  | cons l ls ih =>
    obtain ⟨hl, hls⟩ := List.forall_mem_cons.mp h
    exact List.forall_mem_cons.mpr
      ⟨fuses_layoutLine o stack hsettled hl, ih _ (settle_newline _) hls⟩

/-- Where semicolons and commas are added alone, no stroke comes before a comment. -/
theorem fuses_formattedLines {o : Options} (hsemicolons : o.semicolons = true)
    (hcommas : o.trailingCommas = true) (cs : List Char) :
    ∀ x ∈ formattedLines o cs, fuses x.cells = false := by
  have hadded {c : Char} (hc : IsMark c) (cs : List Cell) :
      fuses (cs ++ [(c, .code)]) = fuses cs := by
    refine fuses_append_right (List.forall_mem_singleton.mpr ?_) cs
    obtain rfl | rfl := hc <;> decide
  have hlayout : ∀ x ∈ layout o.indentUnit cs, fuses x.cells = false := by
    rw [layout_eq]
    exact fuses_layoutFrom o [] rfl fun l hl => notMem_of_mem_pieces hl
  rw [formattedLines, if_pos hsemicolons, if_pos hcommas]
  refine forall_mem_pass (P := fun x => fuses x.cells = false) ?_
    (forall_mem_pass (P := fun x => fuses x.cells = false) ?_ (forall_mem_pass ?_ hlayout))
  · intro x after hx
    rw [addComma]
    split
    · exact hx
    · dsimp only
      split
      · obtain ⟨tail, -, heq⟩ := exists_eq_dropTail_append (fun y : Cell => isBlank y.1) x.cells
        rw [hadded (.inr rfl)]
        rw [heq] at hx
        exact fuses_of_append hx
      · exact hx
  · intro x after hx
    have hblurred : (requoteFrom o.quotes.1 o.quotes.2 none x.cells).map Cell.blurred =
        x.cells.map Cell.blurred := blurred_requoteFrom o.blur_quotes _ (by simp)
    rw [convertQuotes]
    split
    · exact hx
    · rw [← fuses_map_blurred, hblurred, fuses_map_blurred, hx]
  · intro x after hx
    rw [addSemicolon]
    split
    · rw [hadded (.inl rfl), hx]
    · exact hx

end Scaffold.Format
