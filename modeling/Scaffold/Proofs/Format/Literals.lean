import Scaffold.Proofs.Format.Phases

/-!
# Proofs/Format/Literals — the literals of a line, and what becomes of them

Read from left to right, a line that begins outside of literals is made of code, of comments and of
literals, the last of which may be unfinished; `Scanned` derives its cells in this way.  Exchanging
the quotes of some literals leads from one derivation to another (`Scanned.requoteFrom`), so the
scanner reads the new line as the old one: nothing else changes its place.
-/

namespace Scaffold.Format

open Text Phase

/-- The scanner reads the cells as the inside of a literal with the quote `q`. -/
structure IsBody (q : Char) (body : List Cell) : Prop where
  marked : ∀ x ∈ body, x.2.isBody = true
  oneLine : '\n' ∉ plain body
  read : (Phase.literal q).marks (plain body) = (plain body).map fun _ => .body q

/-- The cells of a line that does not begin in a literal, from the phase before it to the phase
behind it.  A mark inside a literal may name a quote that the literal had before. -/
inductive Scanned : Phase → List Cell → Phase → Prop
  | nil (p : Phase) : Scanned p [] p
  | cell {p p' : Phase} {c : Char} {cs : List Cell} (hfeed : c ≠ '\n')
      (hc : (p.step c).isInside = false) (h : Scanned (p.step c) cs p') :
      Scanned p ((c, p.mark c (plain cs).head?) :: cs) p'
  | literal {p p' : Phase} {q : Char} {body cs : List Cell} (hp : p = .code ∨ p = .stroke)
      (hq : isQuote q = true) (hbody : IsBody q body)
      (hclosed : (Phase.literal q).run (plain body) = .literal q) (h : Scanned .code cs p') :
      Scanned p ((q, .quote) :: body ++ (q, .quote) :: cs) p'
  | unfinished {p : Phase} {q : Char} {body : List Cell} (hp : p = .code ∨ p = .stroke)
      (hq : isQuote q = true) (hbody : IsBody q body) :
      Scanned p ((q, .quote) :: body) ((Phase.literal q).run (plain body))

/-! ## Lines are scanned -/

theorem isSecond_of_isQuote {q : Char} (h : isQuote q = true) : isSecond (some q) = false := by
  have hne : q ≠ '/' ∧ q ≠ '*' := by
    constructor <;> (rintro rfl; exact Bool.noConfusion h)
  simp [isSecond, hne]

section Quote

variable {q : Char} (hq : isQuote q = true)
include hq

theorem quote_ne_lineFeed : q ≠ '\n' := by rintro rfl; exact Bool.noConfusion hq

theorem step_quote {p : Phase} (hp : p = .code ∨ p = .stroke) : p.step q = .literal q := by
  have hstroke : q ≠ '/' ∧ q ≠ '*' := by
    constructor <;> (rintro rfl; exact Bool.noConfusion hq)
  obtain rfl | rfl := hp <;> simp [Phase.step, quote_ne_lineFeed hq, hstroke, hq]

theorem mark_quote {p : Phase} (hp : p = .code ∨ p = .stroke) (next : Option Char) :
    p.mark q next = .quote := by
  have hstroke : q ≠ '/' := by rintro rfl; exact Bool.noConfusion hq
  obtain rfl | rfl := hp <;> simp [Phase.mark, isSecond_of_isQuote hq, hstroke, hq]

theorem step_literal_quote : (Phase.literal q).step q = .code := by
  have hne : q ≠ '\\' := by rintro rfl; exact Bool.noConfusion hq
  simp [Phase.step, quote_ne_lineFeed hq, hne, hq]

/-- A literal is closed by its quote. -/
theorem cells_literal_quote (cs : List Char) :
    (Phase.literal q).cells (q :: cs) = (q, .quote) :: Phase.code.cells cs := by
  have hne : q ≠ '\\' := by rintro rfl; exact Bool.noConfusion hq
  have hmark : (Phase.literal q).mark q cs.head? = .quote := by
    simp [Phase.mark, quote_ne_lineFeed hq, hne, hq]
  rw [Phase.cells_cons, step_literal_quote hq, hmark]

theorem cells_append_quote (p : Phase) (cs ds : List Char) :
    p.cells (cs ++ q :: ds) = p.cells cs ++ (p.run cs).cells (q :: ds) :=
  Phase.cells_append p cs (isSecond_of_isQuote hq)

theorem run_literal_quote (cs : List Char) :
    (Phase.literal q).run (q :: cs) = Phase.code.run cs := by
  rw [Phase.run, List.foldl_cons, step_literal_quote hq]
  rfl

end Quote

/-- What follows the quote of a literal on its line: its body and the closing quote, or no more than
a body. -/
theorem exists_body {q : Char} {p : Phase} (hp : p = .literal q ∨ p = .escape q) {cs : List Char}
    (hcs : '\n' ∉ cs) :
    (∃ body rest, cs = body ++ q :: rest ∧ p.marks body = (body.map fun _ => .body q) ∧
      p.run body = .literal q) ∨
      p.marks cs = (cs.map fun _ => .body q) ∧ (p.run cs).isInside = true := by
  induction cs generalizing p with
  | nil => obtain rfl | rfl := hp <;> exact .inr ⟨rfl, rfl⟩
  | cons c cs ih =>
    obtain ⟨hc, hcs⟩ := not_or.mp (mt List.mem_cons.mpr hcs)
    have hfeed : c ≠ '\n' := Ne.symm hc
    by_cases hclose : p = .literal q ∧ c = q
    · obtain ⟨rfl, rfl⟩ := hclose
      exact .inl ⟨[], cs, rfl, rfl, rfl⟩
    · -- The character belongs to the body, and the literal goes on behind it.
      have hmark : p.mark c cs.head? = .body q := by
        obtain rfl | rfl := hp <;> simp_all [Phase.mark]
      have hstep : p.step c = .literal q ∨ p.step c = .escape q := by
        obtain rfl | rfl := hp
        · by_cases hescape : c = '\\' <;> simp_all [Phase.step]
        · exact .inl (if_neg hfeed)
      obtain ⟨body, rest, rfl, hmarks, hrun⟩ | ⟨hmarks, hrun⟩ := ih hstep hcs
      · refine .inl ⟨c :: body, rest, rfl, ?_, hrun⟩
        have hnext : p.mark c body.head? = .body q := by
          obtain rfl | rfl := hp <;> simp_all [Phase.mark]
        rw [Phase.marks, hmarks, hnext]
        rfl
      · refine .inr ⟨?_, hrun⟩
        rw [Phase.marks, hmarks, hmark]
        rfl

/-- Only a quote leads from code into a literal. -/
theorem of_isInside_step {p : Phase} {c : Char} (hp : p.isInside = false) (hc : c ≠ '\n')
    (h : (p.step c).isInside = true) : (p = .code ∨ p = .stroke) ∧ isQuote c = true := by
  cases p with
  | literal q | escape q => cases hp
  | lineComment => rw [Phase.step, if_neg hc] at h; cases h
  | code | stroke | blockComment | star =>
    simp only [Phase.step, if_neg hc] at h
    split_ifs at h <;> simp_all [Phase.isInside]

/-- Characters that are marked as a body are one. -/
theorem IsBody.of_marks {q : Char} {cs : List Char} (hcs : '\n' ∉ cs)
    (h : (Phase.literal q).marks cs = cs.map fun _ => .body q) :
    IsBody q ((Phase.literal q).cells cs) where
  marked x hx := by
    have hmem : x.2 ∈ (Phase.literal q).marks cs := (List.of_mem_zip hx).2
    rw [h] at hmem
    obtain ⟨-, -, hbody⟩ := List.mem_map.mp hmem
    rw [← hbody]
    rfl
  oneLine := by rwa [plain_phaseCells]
  read := by rwa [plain_phaseCells]

/-- The inside of a literal is the same under every quote, but for the name of the quote. -/
theorem IsBody.faded_eq {q : Char} {body : List Cell} (h : IsBody q body) :
    ((Phase.literal q).cells (plain body)).map Cell.faded = body.map Cell.faded := by
  rw [Phase.cells, h.read]
  obtain ⟨hmarked, -, -⟩ := h
  induction body with
  | nil => rfl
  | cons x body ih =>
    obtain ⟨hx, hbody⟩ := List.forall_mem_cons.mp hmarked
    obtain ⟨c, m⟩ := x
    have hfaded : Cell.faded (c, .body q) = Cell.faded (c, m) := by
      cases m with
      | body r => rfl
      | code | quote | comment => cases hx
    rw [plain_cons, List.map_cons, List.zip_cons_cons, List.map_cons, hfaded, ih hbody]
    rfl

/-- **A line is scanned** as code, comments and literals. -/
theorem scanned_cells {p : Phase} (hp : p.isInside = false) {l : List Char} (hl : '\n' ∉ l) :
    Scanned p (p.cells l) (p.run l) := by
  induction hlength : l.length using Nat.strong_induction_on generalizing p l with
  | _ n ih =>
    cases l with
    | nil => exact .nil p
    | cons c cs =>
      obtain ⟨hc, hcs⟩ := not_or.mp (mt List.mem_cons.mpr hl)
      have hrun : p.run (c :: cs) = (p.step c).run cs := rfl
      rw [List.length_cons] at hlength
      by_cases hinside : (p.step c).isInside = true
      · obtain ⟨hcode, hquote⟩ := of_isInside_step hp (Ne.symm hc) hinside
        rw [hrun, Phase.cells_cons, step_quote hquote hcode, mark_quote hquote hcode]
        obtain ⟨body, rest, rfl, hmarks, hclosed⟩ | ⟨hmarks, -⟩ :=
          exists_body (q := c) (.inl rfl) hcs
        · rw [List.mem_append, List.mem_cons, not_or, not_or] at hcs
          rw [List.length_append, List.length_cons] at hlength
          rw [cells_append_quote hquote, Phase.run_append, hclosed,
            cells_literal_quote hquote, run_literal_quote hquote]
          exact .literal hcode hquote (.of_marks hcs.1 hmarks) (by rwa [plain_phaseCells])
            (ih rest.length (by omega) rfl hcs.2.2 rfl)
        · have h := Scanned.unfinished hcode hquote (.of_marks hcs hmarks)
          rwa [plain_phaseCells] at h
      · have hstep : (p.step c).isInside = false := by rwa [Bool.not_eq_true] at hinside
        have h := Scanned.cell (Ne.symm hc) hstep (ih cs.length (by omega) hstep hcs rfl)
        rwa [plain_phaseCells] at h

/-! ## Scanning again -/

namespace Scanned

variable {p p' : Phase} {cs : List Cell} (h : Scanned p cs p')
include h

/-- Behind a literal the scanner is where it was. -/
theorem run_eq : p.run (plain cs) = p' := by
  induction h with
  | nil p => rfl
  | cell hfeed hc h ih => exact ih
  | @literal p p' q body cs hp hq hbody hclosed h ih =>
    have hrun : p.run (plain ((q, .quote) :: body ++ (q, .quote) :: cs)) =
        (p.step q).run (plain body ++ q :: plain cs) := by
      rw [List.cons_append, plain_cons, plain_append]
      rfl
    rw [hrun, step_quote hq hp, Phase.run_append, hclosed, run_literal_quote hq, ih]
  | @unfinished p q body hp hq hbody =>
    have hrun : p.run (plain ((q, .quote) :: body)) = (p.step q).run (plain body) := rfl
    rw [hrun, step_quote hq hp]

/-- Scanned again, the cells are what they were, but for the names of quotes. -/
theorem faded_eq : (p.cells (plain cs)).map Cell.faded = cs.map Cell.faded := by
  induction h with
  | nil p => rfl
  | cell hfeed hc h ih => rw [plain_cons, Phase.cells_cons, List.map_cons, List.map_cons, ih]
  | @literal p p' q body cs hp hq hbody hclosed h ih =>
    rw [List.cons_append, plain_cons, plain_append, plain_cons, Phase.cells_cons,
      step_quote hq hp, mark_quote hq hp, cells_append_quote hq, hclosed, cells_literal_quote hq,
      List.map_cons, List.map_append, List.map_cons, ih, hbody.faded_eq, List.map_cons,
      List.map_append, List.map_cons]
  | @unfinished p q body hp hq hbody =>
    rw [plain_cons, Phase.cells_cons, step_quote hq hp, mark_quote hq hp, List.map_cons,
      hbody.faded_eq, List.map_cons]

theorem painted_eq : painted (p.cells (plain cs)) = painted cs := by
  rw [← painted_map_faded, h.faded_eq, painted_map_faded]

/-- Cells that are not marked as comments are none when scanned again. -/
theorem uncommented (hcs : ∀ x ∈ cs, x.2 ≠ .comment) :
    ∀ x ∈ p.cells (plain cs), x.2 ≠ .comment := by
  have hfaded (x : Cell) : x.faded.2 = .comment ↔ x.2 = .comment := by
    obtain ⟨c, m⟩ := x
    cases m <;> simp [Cell.faded, Mark.faded]
  intro x hx hcomment
  have hmem : x.faded ∈ cs.map Cell.faded := h.faded_eq ▸ List.mem_map_of_mem hx
  obtain ⟨y, hy, heq⟩ := List.mem_map.mp hmem
  exact hcs y hy ((hfaded y).mp (heq ▸ (hfaded x).mpr hcomment))

/-- Cells of one line hold no line feed. -/
theorem oneLine : '\n' ∉ plain cs := by
  induction h with
  | nil p => exact List.not_mem_nil
  | cell hfeed hc h ih =>
    rw [plain_cons, List.mem_cons]
    exact not_or.mpr ⟨Ne.symm hfeed, ih⟩
  | literal hp hq hbody hclosed h ih =>
    have hfeed := Ne.symm (quote_ne_lineFeed hq)
    simp only [List.cons_append, plain_cons, plain_append, List.mem_cons, List.mem_append]
    exact not_or.mpr ⟨hfeed, not_or.mpr ⟨hbody.oneLine, not_or.mpr ⟨hfeed, ih⟩⟩⟩
  | unfinished hp hq hbody =>
    rw [plain_cons, List.mem_cons]
    exact not_or.mpr ⟨Ne.symm (quote_ne_lineFeed hq), hbody.oneLine⟩

end Scanned

/-! ## Exchanging quotes -/

section Requote

variable {source target : Char}

/-- What is no quote is passed over. -/
theorem requoteFrom_append_of_forall {front : List Cell}
    (h : ∀ x ∈ front, isQuote x.painted = false) (cs : List Cell) :
    requoteFrom source target none (front ++ cs) =
      front ++ requoteFrom source target none cs := by
  induction front with
  | nil => rfl
  | cons x front ih =>
    obtain ⟨hx, hfront⟩ := List.forall_mem_cons.mp h
    rw [List.cons_append, requoteFrom, if_neg (by simp [hx]), ih hfront]
    rfl

/-- A literal that is not closed is left as it is. -/
theorem requoteFrom_some_of_forall {opener : Cell} {body : List Cell} {cs : List Cell}
    (h : ∀ x ∈ cs, x.painted ≠ opener.painted) :
    requoteFrom source target (some (opener, body)) cs = opener :: body.reverse ++ cs := by
  induction cs generalizing body with
  | nil => simp [requoteFrom]
  | cons x cs ih =>
    obtain ⟨hx, hcs⟩ := List.forall_mem_cons.mp h
    rw [requoteFrom, if_neg hx, ih hcs]
    simp

/-- Behind what has been read, text without quotes stays. -/
theorem requoteFrom_append_tail {started : Option (Cell × List Cell)} {cs tail : List Cell}
    (hstarted : ∀ s ∈ started, isQuote s.1.painted = true)
    (h : ∀ x ∈ tail, isQuote x.painted = false) :
    requoteFrom source target started (cs ++ tail) =
      requoteFrom source target started cs ++ tail := by
  fun_induction requoteFrom source target started cs with
  | case1 opener body =>
    rw [List.nil_append, requoteFrom_some_of_forall]
    intro x hx heq
    have hopener := hstarted _ rfl
    rw [← heq, h x hx] at hopener
    exact Bool.noConfusion hopener
  | case2 =>
    have hnil : requoteFrom source target none (tail ++ []) =
        tail ++ requoteFrom source target none [] := requoteFrom_append_of_forall h []
    simpa [requoteFrom] using hnil
  | case3 c cs hquote ih => rw [List.cons_append, requoteFrom, if_pos hquote, ih (by simpa)]
  | case4 c cs hquote ih => rw [List.cons_append, requoteFrom, if_neg hquote, ih hstarted]; rfl
  | case5 c cs opener body hcloser ih =>
    rw [List.cons_append, requoteFrom, if_pos hcloser, ih (by simp), List.append_assoc]
  | case6 c cs opener body hcloser ih =>
    rw [List.cons_append, requoteFrom, if_neg hcloser, ih (by simpa using hstarted)]

theorem isQuote_painted_inert {x : Cell} (h : isInert x.1 = true) : isQuote x.painted = false := by
  obtain hx | hx | hx := x.painted_eq_or <;> rw [hx]
  · simp only [isInert, decide_eq_true_eq, List.mem_cons, not_or] at h
    simp [isQuote, h]
  · rfl
  · rfl

/-- What means nothing to the scanner stays where it is, in front of the code and behind it. -/
theorem requoteFrom_between {front tail : List Cell} (hfront : ∀ x ∈ front, isInert x.1 = true)
    (htail : ∀ x ∈ tail, isInert x.1 = true) (code : List Cell) :
    requoteFrom source target none (front ++ code ++ tail) =
      front ++ requoteFrom source target none code ++ tail := by
  rw [List.append_assoc,
    requoteFrom_append_of_forall fun x hx => isQuote_painted_inert (hfront x hx),
    requoteFrom_append_tail (by simp) fun x hx => isQuote_painted_inert (htail x hx),
    List.append_assoc]

/-- A literal is exchanged or kept as a whole. -/
theorem requoteFrom_literal {opener closer : Cell} {body : List Cell}
    (hopener : isQuote opener.painted = true) (hcloser : closer.painted = opener.painted)
    (hbody : ∀ x ∈ body, x.painted ≠ opener.painted) (cs : List Cell) :
    requoteFrom source target none (opener :: body ++ closer :: cs) =
      requote source target opener body closer ++ requoteFrom source target none cs := by
  have hread (read : List Cell) :
      requoteFrom source target (some (opener, read)) (body ++ closer :: cs) =
        requote source target opener (read.reverse ++ body) closer ++
          requoteFrom source target none cs := by
    induction body generalizing read with
    | nil => rw [List.nil_append, requoteFrom, if_pos hcloser, List.append_nil]
    | cons x body ih =>
      obtain ⟨hx, hbody⟩ := List.forall_mem_cons.mp hbody
      rw [List.cons_append, requoteFrom, if_neg hx, ih hbody]
      simp
  rw [List.cons_append, requoteFrom, if_pos hopener, hread]
  rfl

end Requote

/-- A text without line feeds, backslashes and the quote is the body of a literal. -/
theorem read_of_notMem {q : Char} {cs : List Char} (hfeed : '\n' ∉ cs) (hescape : '\\' ∉ cs)
    (hquote : q ∉ cs) :
    ((Phase.literal q).marks cs = cs.map fun _ => .body q) ∧
      (Phase.literal q).run cs = .literal q := by
  induction cs with
  | nil => exact ⟨rfl, rfl⟩
  | cons c cs ih =>
    rw [List.mem_cons, not_or] at hfeed hescape hquote
    have hstep : (Phase.literal q).step c = .literal q := by
      simp [Phase.step, Ne.symm hfeed.1, Ne.symm hescape.1, Ne.symm hquote.1]
    have hmark : (Phase.literal q).mark c cs.head? = .body q := by
      simp [Phase.mark, Ne.symm hfeed.1, Ne.symm hescape.1, Ne.symm hquote.1]
    obtain ⟨hmarks, hrun⟩ := ih hfeed.2 hescape.2 hquote.2
    refine ⟨?_, ?_⟩
    · rw [Phase.marks, hstep, hmark, hmarks]
      rfl
    · rw [Phase.run, List.foldl_cons, hstep]
      exact hrun

/-- No quote is seen in a body. -/
theorem IsBody.painted_ne {q : Char} {body : List Cell} (h : IsBody q body) {r : Char}
    (hr : isQuote r = true) : ∀ x ∈ body, x.painted ≠ r := by
  intro x hx
  obtain ⟨c, m⟩ := x
  cases m with
  | code | quote | comment => cases h.marked _ hx
  | body _ =>
    rintro rfl
    simp only [Cell.painted] at hr
    split at hr
    · rename_i hfeed
      exact quote_ne_lineFeed hr hfeed
    · exact Bool.noConfusion hr

theorem painted_quote {q : Char} (h : isQuote q = true) : Cell.painted (q, .quote) = q :=
  if_neg (quote_ne_lineFeed h)

/-- A mark outside of literals shows no quote. -/
theorem isQuote_painted_mark {p : Phase} (hp : p.isInside = false) {c : Char}
    (hc : (p.step c).isInside = false) (next : Option Char) :
    isQuote (Cell.painted (c, p.mark c next)) = false := by
  by_cases hfeed : c = '\n'
  · subst hfeed
    rfl
  have hquote (hcode : p = .code ∨ p = .stroke) : isQuote c = false := by
    by_contra h
    rw [Bool.not_eq_false] at h
    rw [step_quote h hcode] at hc
    cases hc
  have hseen : Cell.painted (c, p.mark c next) = c ∧ isQuote c = false ∨
      Cell.painted (c, p.mark c next) = ' ' := by
    cases p with
    | literal q | escape q => cases hp
    | lineComment | blockComment | star => simp [Phase.mark, Cell.painted, hfeed]
    | code | stroke =>
      simp only [Phase.mark, hquote (by simp), Cell.painted, hfeed]
      split_ifs <;> simp_all
  obtain ⟨hseen, hquote⟩ | hseen := hseen
  · rw [hseen, hquote]
  · rw [hseen]
    rfl

section Requote

variable {source target q : Char} {p : Phase} {body : List Cell}

theorem requoteFrom_cell (hp : p.isInside = false) {c : Char} (hc : (p.step c).isInside = false)
    (next : Option Char) (cs : List Cell) :
    requoteFrom source target none ((c, p.mark c next) :: cs) =
      (c, p.mark c next) :: requoteFrom source target none cs :=
  if_neg (by rw [isQuote_painted_mark hp hc]; exact Bool.false_ne_true)

theorem requoteFrom_unfinished (hq : isQuote q = true) (hbody : IsBody q body) :
    requoteFrom source target none ((q, .quote) :: body) = (q, .quote) :: body := by
  have hopen : requoteFrom source target none ((q, .quote) :: body) =
      requoteFrom source target (some ((q, .quote), [])) body :=
    if_pos (by rwa [painted_quote hq])
  rw [hopen, requoteFrom_some_of_forall (by rw [painted_quote hq]; exact hbody.painted_ne hq)]
  rfl

theorem requoteFrom_closed (hq : isQuote q = true) (hbody : IsBody q body) (cs : List Cell) :
    requoteFrom source target none ((q, .quote) :: body ++ (q, .quote) :: cs) =
      requote source target (q, .quote) body (q, .quote) ++
        requoteFrom source target none cs :=
  requoteFrom_literal (by rwa [painted_quote hq]) rfl
    (by rw [painted_quote hq]; exact hbody.painted_ne hq) cs

/-- Looking ahead, the scanner does not tell quotes apart. -/
theorem isSecond_head?_requoteFrom (htarget : isQuote target = true) (hp : p.isInside = false)
    {p' : Phase} {cs : List Cell} (h : Scanned p cs p') :
    isSecond (plain (requoteFrom source target none cs)).head? = isSecond (plain cs).head? := by
  cases h with
  | nil => rfl
  | cell hfeed hc h =>
    rw [requoteFrom_cell hp hc]
    rfl
  | literal _ hq hbody hclosed h =>
    rw [requoteFrom_closed hq hbody, requote]
    split
    · exact (isSecond_of_isQuote htarget).trans (isSecond_of_isQuote hq).symm
    · rfl
  | unfinished _ hq hbody => rw [requoteFrom_unfinished hq hbody]

/-- **Exchanging quotes keeps the scan.** -/
theorem Scanned.requoteFrom (htarget : isQuote target = true) (hp : p.isInside = false)
    {p' : Phase} {cs : List Cell} (h : Scanned p cs p') :
    Scanned p (requoteFrom source target none cs) p' := by
  induction h with
  | nil p => exact .nil p
  | cell hfeed hc h ih =>
    rw [requoteFrom_cell hp hc, Phase.mark_congr (isSecond_head?_requoteFrom htarget hc h).symm]
    exact .cell hfeed hc (ih hc)
  | literal hcode hq hbody hclosed h ih =>
    rw [requoteFrom_closed hq hbody, requote]
    split
    · rename_i hexchange
      simp only [Bool.and_eq_true, Bool.not_eq_true', List.contains_eq_mem,
        decide_eq_true_eq, decide_eq_false_iff_not] at hexchange
      obtain ⟨⟨-, hnot⟩, hescape⟩ := hexchange
      obtain ⟨hmarks, hrun⟩ := read_of_notMem hbody.oneLine hescape hnot
      rw [List.append_assoc]
      exact .literal hcode htarget ⟨hbody.marked, hbody.oneLine, hmarks⟩ hrun (ih rfl)
    · rw [List.append_assoc]
      exact .literal hcode hq hbody hclosed (ih rfl)
  | unfinished hcode hq hbody =>
    rw [requoteFrom_unfinished hq hbody]
    exact .unfinished hcode hq hbody

end Requote

/-! ## Exchanging quotes twice -/

/-- The quote of a literal stands inside only behind a backslash. -/
theorem IsBody.notMem {q : Char} (hq : isQuote q = true) {body : List Cell} (h : IsBody q body)
    (hescape : '\\' ∉ plain body) : q ∉ plain body := by
  have hread := h.read
  have hline := h.oneLine
  generalize plain body = cs at hescape hread hline
  induction cs with
  | nil => exact List.not_mem_nil
  | cons c cs ih =>
    rw [List.mem_cons, not_or] at hescape hline ⊢
    obtain ⟨hmark, hrest⟩ := List.cons.inj hread
    have hc : q ≠ c := by
      rintro rfl
      simp [Phase.mark, Ne.symm hline.1, Ne.symm hescape.1, hq] at hmark
    have hstep : (Phase.literal q).step c = .literal q := by
      simp [Phase.step, Ne.symm hline.1, Ne.symm hescape.1, Ne.symm hc]
    rw [hstep] at hrest
    exact ⟨hc, ih hescape.2 hrest hline.2⟩

section Twice

variable {source target source' target' : Char} (hne : source ≠ target)
  (htarget : isQuote target = true)
  (hpair : source' = source ∧ target' = target ∨ source' = target ∧ target' = source)
include hne hpair

/-- Exchanged before or not, a literal comes to have the same quotes. -/
theorem requote_exchanged {body : List Cell} (htext : target ∉ plain body)
    (hescape : '\\' ∉ plain body) (hbody : source ∉ plain body) :
    requote source' target' (target, .quote) body (target, .quote) =
      requote source' target' (source, .quote) body (source, .quote) := by
  obtain ⟨rfl, rfl⟩ | ⟨rfl, rfl⟩ := hpair
  · simp [requote, Ne.symm hne, htext, hescape]
  · simp [requote, hne, hbody, hescape]

include htarget

/-- **Of two exchanges of quotes the last one counts.** -/
theorem Scanned.requoteFrom_requoteFrom {p p' : Phase} {cs : List Cell} (h : Scanned p cs p')
    (hp : p.isInside = false) :
    Format.requoteFrom source' target' none (Format.requoteFrom source target none cs) =
      Format.requoteFrom source' target' none cs := by
  induction h with
  | nil p => rfl
  | cell hfeed hc h ih =>
    rw [requoteFrom_cell hp hc, requoteFrom_cell hp hc, requoteFrom_cell hp hc, ih hc]
  | @literal p p' q body cs hcode hq hbody hclosed h ih =>
    rw [requoteFrom_closed hq hbody, requoteFrom_closed hq hbody, requote]
    split
    · rename_i hexchange
      simp only [Bool.and_eq_true, Bool.not_eq_true', List.contains_eq_mem, decide_eq_true_eq,
        decide_eq_false_iff_not] at hexchange
      obtain ⟨⟨rfl, htext⟩, hescape⟩ := hexchange
      have hbody' : IsBody target body :=
        ⟨hbody.marked, hbody.oneLine, (read_of_notMem hbody.oneLine hescape htext).1⟩
      rw [List.append_assoc, List.singleton_append, requoteFrom_closed htarget hbody',
        requote_exchanged hne hpair htext hescape (hbody.notMem hq hescape), ih rfl]
    · rw [List.append_assoc, List.singleton_append, requoteFrom_closed hq hbody, ih rfl]
  | unfinished hcode hq hbody => rw [requoteFrom_unfinished hq hbody]

end Twice

end Scaffold.Format
