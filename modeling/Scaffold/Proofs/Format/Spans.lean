import Scaffold.Proofs.Format.Brackets

/-!
# Proofs/Format/Spans — the comments and the template literals of a program

Comments and template literals are the two kinds of **spans** that can run over several lines.
Scanned from a phase on, a line has its `pieces` of the spans of a kind; where a span goes on, the
last piece of the line and the first of the next are seamed together (`ofLines`).  Cut anywhere, a
text has the pieces of its parts, seamed alike (`pieces_append`), and its pieces of comments are the
characters that are marked as comments (`flatten_pieces_comment`).
-/

namespace Scaffold.Format

open Text Phase

/-! ## Seams -/

section Seam

variable {α β : Type}

/-- Lists one behind the other; if they go on, the last of the one and the first of the other are
one. -/
def seam (goesOn : Bool) : List (List α) → List (List α) → List (List α)
  | [], vs => vs
  | [u], vs =>
    match goesOn, vs with
    | true, v :: vs => (u ++ v) :: vs
    | _, vs => u :: vs
  | u :: u' :: us, vs => u :: seam goesOn (u' :: us) vs

@[simp] theorem seam_nil_left (o : Bool) (vs : List (List α)) : seam o [] vs = vs := rfl

@[simp] theorem seam_nil_right (o : Bool) (us : List (List α)) : seam o us [] = us := by
  induction us with
  | nil => rfl
  | cons u us ih =>
    cases us with
    | nil => cases o <;> rfl
    | cons u' us => exact congrArg (u :: ·) ih

theorem seam_false (us vs : List (List α)) : seam false us vs = us ++ vs := by
  induction us with
  | nil => rfl
  | cons u us ih =>
    cases us with
    | nil => rfl
    | cons u' us => exact congrArg (u :: ·) ih

theorem seam_singleton (u v : List α) (vs : List (List α)) :
    seam true [u] (v :: vs) = (u ++ v) :: vs := rfl

/-- What is in front of the last one is not touched by a seam. -/
theorem seam_append (o : Bool) (us : List (List α)) {ws : List (List α)} (h : ws ≠ [])
    (vs : List (List α)) : seam o (us ++ ws) vs = us ++ seam o ws vs := by
  induction us with
  | nil => rfl
  | cons u us ih =>
    cases hws : us ++ ws with
    | nil => exact absurd (List.append_eq_nil_iff.mp hws).2 h
    | cons w ws' =>
      rw [hws] at ih
      rw [List.cons_append, hws, List.cons_append, ← ih]
      rfl

theorem seam_true (us : List (List α)) (u v : List α) (vs : List (List α)) :
    seam true (us ++ [u]) (v :: vs) = us ++ (u ++ v) :: vs :=
  seam_append true us (List.cons_ne_nil u []) (v :: vs)

/-- A seam of something is not empty. -/
theorem seam_eq_nil_iff {o : Bool} {us vs : List (List α)} :
    seam o us vs = [] ↔ us = [] ∧ vs = [] := by
  cases o with
  | false => rw [seam_false, List.append_eq_nil_iff]
  | true =>
    obtain rfl | ⟨us, u, rfl⟩ := List.eq_nil_or_concat us
    · simp
    · cases vs <;> simp [seam_true]

/-- Seams are set one after the other, as long as there is something between them. -/
theorem seam_assoc {o o' : Bool} (us : List (List α)) {vs : List (List α)} (h : vs = [] → o = o')
    (ws : List (List α)) : seam o' (seam o us vs) ws = seam o us (seam o' vs ws) := by
  cases vs with
  | nil => rw [seam_nil_right, seam_nil_left, h rfl]
  | cons v vs =>
    cases o with
    | false => rw [seam_false, seam_false, seam_append _ _ (List.cons_ne_nil v vs)]
    | true =>
      obtain rfl | ⟨us, u, rfl⟩ := List.eq_nil_or_concat us
      · rfl
      · rw [List.concat_eq_append, seam_true, seam_append _ _ (List.cons_ne_nil _ _)]
        cases vs with
        | nil =>
          cases o' with
          | false => rw [seam_false, seam_false, List.singleton_append, List.singleton_append,
              seam_true]
          | true =>
            cases ws with
            | nil => rw [seam_nil_right, seam_nil_right, seam_true]
            | cons w ws => rw [seam_singleton, seam_singleton, seam_true, List.append_assoc]
        | cons v' vs => exact (seam_true us u v _).symm

/-- What is lengthened by what is put behind it can be taken of the lists one by one. -/
theorem map_seam {f : List α → List β} (hf : ∀ u v, f (u ++ v) = f u ++ f v) (o : Bool)
    (us vs : List (List α)) : (seam o us vs).map f = seam o (us.map f) (vs.map f) := by
  cases o with
  | false => rw [seam_false, seam_false, List.map_append]
  | true =>
    obtain rfl | ⟨us, u, rfl⟩ := List.eq_nil_or_concat us
    · rfl
    · cases vs with
      | nil => rw [seam_nil_right, List.map_nil, seam_nil_right]
      | cons v vs =>
        rw [List.concat_eq_append, seam_true, List.map_append, List.map_append, List.map_singleton,
          List.map_cons, List.map_cons, seam_true, hf]

/-- A seam loses nothing. -/
theorem flatten_seam (o : Bool) (us vs : List (List α)) :
    (seam o us vs).flatten = us.flatten ++ vs.flatten := by
  cases o with
  | false => rw [seam_false, List.flatten_append]
  | true =>
    obtain rfl | ⟨us, u, rfl⟩ := List.eq_nil_or_concat us
    · rfl
    · cases vs with
      | nil => simp
      | cons v vs => simp [seam_true]

/-- The last span ends as before. -/
theorem exists_seam_concat (o : Bool) (us vs : List (List α)) (v : List α) :
    ∃ ws w, seam o us (vs ++ [v]) = ws ++ [w] ∧ v <:+ w := by
  cases o with
  | false => exact ⟨us ++ vs, v, by rw [seam_false, List.append_assoc], List.suffix_refl v⟩
  | true =>
    obtain rfl | ⟨us, u, rfl⟩ := List.eq_nil_or_concat us
    · exact ⟨vs, v, rfl, List.suffix_refl v⟩
    · rw [List.concat_eq_append]
      cases vs with
      | nil => exact ⟨us, u ++ v, seam_true us u v [], List.suffix_append u v⟩
      | cons w vs =>
        refine ⟨us ++ (u ++ w) :: vs, v, ?_, List.suffix_refl v⟩
        rw [List.cons_append, seam_true, List.append_assoc, List.cons_append]

/-- The first span begins as before. -/
theorem exists_seam_cons (o : Bool) (a : α) (us vs : List (List α)) :
    ∃ rest ws, seam o ([a] :: us) vs = (a :: rest) :: ws := by
  cases us with
  | cons u us => exact ⟨[], seam o (u :: us) vs, rfl⟩
  | nil =>
    cases o with
    | false => exact ⟨[], vs, rfl⟩
    | true =>
      cases vs with
      | nil => exact ⟨[], [], rfl⟩
      | cons v vs => exact ⟨v, vs, rfl⟩

/-- With something on both sides of a seam, both are known from it. -/
theorem seam_inj {o : Bool} {us vs : List (List α)} (hus : o = true → us ≠ [])
    (hvs : o = true → vs ≠ []) (ws : List (List α)) : seam o ws us = seam o ws vs ↔ us = vs := by
  refine ⟨fun h => ?_, fun h => h ▸ rfl⟩
  cases o with
  | false =>
    rw [seam_false, seam_false] at h
    exact List.append_cancel_left h
  | true =>
    obtain ⟨u, us, rfl⟩ := List.exists_cons_of_ne_nil (hus rfl)
    obtain ⟨v, vs, rfl⟩ := List.exists_cons_of_ne_nil (hvs rfl)
    obtain rfl | ⟨ws, w, rfl⟩ := List.eq_nil_or_concat ws
    · exact h
    · rw [List.concat_eq_append, seam_true, seam_true] at h
      obtain ⟨hfirst, hrest⟩ := List.cons.inj (List.append_cancel_left h)
      rw [List.append_cancel_left hfirst, hrest]

end Seam

/-! ## Spans -/

/-- The phase behind lines and their line feeds. -/
def Phase.runLines (p : Phase) (ls : List (List Char)) : Phase :=
  ls.foldl (fun p l => (p.run l).newline) p

/-- The phases at the ends of lines, in front of their line feeds. -/
def lineEnds (p : Phase) : List (List Char) → List Phase
  | [] => []
  | l :: ls => p.run l :: lineEnds (p.run l).newline ls

/-- A kind of the spans of a program. -/
inductive Span where
  | template
  | comment
deriving DecidableEq, Repr

namespace Span

/-- The scanner is inside such a span. -/
def holds (s : Span) (p : Phase) : Bool :=
  match s with
  | .template =>
    match p with
    | .literal q | .escape q => q == '\x60'
    | _ => false
  | .comment =>
    match p with
    | .lineComment | .blockComment | .star => true
    | _ => false

/-- What a span has when its beginning is known: the stroke of a comment is known to belong to it
with the character behind. -/
def opening : Span → Char → List Char
  | .template, c => [c]
  | .comment, c => ['/', c]

/-- What a character adds to the spans. -/
def emit (s : Span) (p : Phase) (c : Char) : List (List Char) :=
  if s.holds p then [[c]] else if s.holds (p.step c) then [s.opening c] else []

/-- The pieces of spans in a line that is scanned from a phase on.  If the line begins inside a
span, this has the first piece, be it empty. -/
def pieces (s : Span) (p : Phase) : List Char → List (List Char)
  | [] => if s.holds p then [[]] else []
  | c :: cs => seam (s.holds (p.step c)) (s.emit p c) (s.pieces (p.step c) cs)

/-- The spans of lines, each as its lines. -/
def ofLines (s : Span) (p : Phase) : List (List Char) → List (List (List Char))
  | [] => if s.holds p then [[]] else []
  | l :: ls =>
    let next := (p.run l).newline
    seam (s.holds next) ((s.pieces p l).map ([·])) (s.ofLines next ls)

/-! ## Pieces of a line -/

variable (s : Span) {p : Phase}

theorem pieces_cons (p : Phase) (c : Char) (cs : List Char) :
    s.pieces p (c :: cs) = seam (s.holds (p.step c)) (s.emit p c) (s.pieces (p.step c) cs) := rfl

theorem pieces_nil_of_holds (hp : s.holds p = true) : s.pieces p [] = [[]] := if_pos hp

theorem pieces_nil_of_not_holds (hp : s.holds p = false) : s.pieces p [] = [] :=
  if_neg (by rw [hp]; exact Bool.false_ne_true)

theorem emit_of_holds (hp : s.holds p = true) (c : Char) : s.emit p c = [[c]] := if_pos hp

theorem emit_ne_nil {c : Char} (h : s.holds p = true ∨ s.holds (p.step c) = true) :
    s.emit p c ≠ [] := by
  rw [emit]
  split_ifs with hp hstep
  · exact List.cons_ne_nil _ _
  · exact List.cons_ne_nil _ _
  · exact absurd h (by simp [hp, hstep])

theorem emit_eq_nil {c : Char} (hp : s.holds p = false) (hc : s.holds (p.step c) = false) :
    s.emit p c = [] := by
  rw [emit, hp, hc]
  rfl

/-- There is no piece only where no span is touched. -/
theorem holds_of_pieces_eq_nil {cs : List Char} (h : s.pieces p cs = []) :
    s.holds p = false ∧ s.holds (p.run cs) = false := by
  induction cs generalizing p with
  | nil =>
    have hp : s.holds p = false := by
      by_contra hp
      rw [s.pieces_nil_of_holds (by simpa using hp)] at h
      cases h
    exact ⟨hp, hp⟩
  | cons c cs ih =>
    obtain ⟨hemit, hrest⟩ := seam_eq_nil_iff.mp h
    obtain ⟨-, hrun⟩ := ih hrest
    refine ⟨?_, hrun⟩
    by_contra hp
    exact s.emit_ne_nil (.inl (by simpa using hp)) hemit

/-- **A line can be cut anywhere.** -/
theorem pieces_append (p : Phase) (cs ds : List Char) :
    s.pieces p (cs ++ ds) =
      seam (s.holds (p.run cs)) (s.pieces p cs) (s.pieces (p.run cs) ds) := by
  induction cs generalizing p with
  | nil =>
    change s.pieces p ds = seam (s.holds p) (s.pieces p []) (s.pieces p ds)
    cases hp : s.holds p with
    | false => rw [s.pieces_nil_of_not_holds hp, seam_nil_left]
    | true =>
      rw [s.pieces_nil_of_holds hp]
      cases hds : s.pieces p ds with
      | nil => exact absurd (s.holds_of_pieces_eq_nil hds).1 (by simp [hp])
      | cons v vs => rfl
  | cons c cs ih =>
    have hrun : p.run (c :: cs) = (p.step c).run cs := rfl
    rw [List.cons_append, pieces_cons, ih, pieces_cons, hrun, seam_assoc]
    intro hnil
    obtain ⟨hstep, hend⟩ := s.holds_of_pieces_eq_nil hnil
    rw [hstep, hend]

theorem pieces_append_of_not_holds {cs : List Char} (h : s.holds (p.run cs) = false)
    (ds : List Char) : s.pieces p (cs ++ ds) = s.pieces p cs ++ s.pieces (p.run cs) ds := by
  rw [pieces_append, h, seam_false]

@[simp] theorem holds_settle (p : Phase) : s.holds p.settle = s.holds p := by
  cases s <;> cases p <;> rfl

theorem holds_of_newline (h : s.holds p.newline = true) : s.holds p = true := by
  cases p with
  | literal q | escape q =>
    by_cases hq : q = '\x60' <;> cases s <;> simp_all [newline, holds]
  | code | stroke | lineComment | blockComment | star => cases s <;> simp_all [newline, holds]

/-- The pieces of characters that mean nothing to the scanner. -/
theorem pieces_inert {cs : List Char} (h : ∀ c ∈ cs, isInert c = true) (p : Phase) :
    s.pieces p cs = if s.holds p then [cs] else [] := by
  induction cs generalizing p with
  | nil => rfl
  | cons c cs ih =>
    obtain ⟨hc, hcs⟩ := List.forall_mem_cons.mp h
    rw [pieces_cons, step_inert hc, ih hcs, holds_settle]
    cases hp : s.holds p with
    | true => rw [s.emit_of_holds hp]; rfl
    | false =>
      rw [s.emit_eq_nil hp (by rw [step_inert hc, holds_settle, hp])]
      rfl

/-- Outside of a span such characters add nothing to it. -/
theorem pieces_append_inert {cs tail : List Char} (htail : ∀ c ∈ tail, isInert c = true)
    (hnot : s.holds (p.run cs) = false) : s.pieces p (cs ++ tail) = s.pieces p cs := by
  rw [s.pieces_append_of_not_holds hnot, s.pieces_inert htail, hnot, if_neg Bool.false_ne_true,
    List.append_nil]

/-! ## Literals -/

section Literal

variable {q : Char}

/-- Inside a literal, what is marked as its body is all of one span, or of none. -/
theorem pieces_body {cs : List Char} (hcs : '\n' ∉ cs) {p : Phase}
    (hp : p = .literal q ∨ p = .escape q) (h : p.marks cs = cs.map fun _ => .body q) :
    (s.pieces p cs = if s.holds (.literal q) then [cs] else []) ∧
      s.holds (p.run cs) = s.holds (.literal q) := by
  have hholds {p : Phase} (hp : p = .literal q ∨ p = .escape q) :
      s.holds p = s.holds (.literal q) := by
    obtain rfl | rfl := hp
    · rfl
    · cases s <;> rfl
  induction cs generalizing p with
  | nil =>
    refine ⟨?_, hholds hp⟩
    rw [pieces, hholds hp]
  | cons c cs ih =>
    obtain ⟨hfeed, hcs⟩ := not_or.mp (mt List.mem_cons.mpr hcs)
    obtain ⟨hmark, hmarks⟩ := List.cons.inj h
    have hstep : p.step c = .literal q ∨ p.step c = .escape q := by
      obtain rfl | rfl := hp
      · by_cases hescape : c = '\\'
        · exact .inr (by simp [Phase.step, hescape])
        · have hquote : (isQuote c && c == q) = false := by
            by_contra hquote
            rw [Bool.not_eq_false] at hquote
            simp [Phase.mark, Ne.symm hfeed, hescape, hquote] at hmark
          exact .inl (by simp [Phase.step, Ne.symm hfeed, hescape, hquote])
      · exact .inl (if_neg (Ne.symm hfeed))
    obtain ⟨hpieces, hrun⟩ := ih hcs hstep hmarks
    refine ⟨?_, hrun⟩
    rw [pieces_cons, hpieces, hholds hstep]
    cases hq : s.holds (.literal q) with
    | true => rw [s.emit_of_holds ((hholds hp).trans hq)]; rfl
    | false => rw [s.emit_eq_nil ((hholds hp).trans hq) ((hholds hstep).trans hq)]; rfl

/-- A literal that is no span is passed over. -/
theorem pieces_literal (hq : isQuote q = true) (hnot : s.holds (.literal q) = false)
    (hp : p = .code ∨ p = .stroke) {body : List Cell} (hbody : IsBody q body)
    (hclosed : (Phase.literal q).run (plain body) = .literal q) (cs : List Char) :
    s.pieces p (q :: plain body ++ q :: cs) = s.pieces .code cs := by
  have hcode : s.holds p = false := by obtain rfl | rfl := hp <;> cases s <;> rfl
  have hend : s.holds .code = false := by cases s <;> rfl
  obtain ⟨hpieces, -⟩ := s.pieces_body hbody.oneLine (.inl rfl) hbody.read
  rw [List.cons_append, pieces_cons, step_quote hq hp,
    s.emit_eq_nil hcode (step_quote hq hp ▸ hnot), pieces_append, hpieces, hclosed, hnot,
    pieces_cons, step_literal_quote hq,
    s.emit_eq_nil hnot (by rw [step_literal_quote hq, hend])]
  rfl

end Literal

theorem holds_literal {q : Char} (hq : q ≠ '\x60') : s.holds (.literal q) = false := by
  cases s
  · simpa [holds] using hq
  · rfl

/-- **Exchanging plain quotes keeps the spans.** -/
theorem pieces_requoteFrom {source target : Char} (hsource : source ≠ '\x60')
    (htarget : target ≠ '\x60') (hquote : isQuote target = true) {p p' : Phase} {cs : List Cell}
    (h : Scanned p cs p') (hp : p.isInside = false) :
    s.pieces p (plain (requoteFrom source target none cs)) = s.pieces p (plain cs) := by
  induction h with
  | nil p => rfl
  | cell hfeed hc h ih =>
    rw [requoteFrom_cell hp hc, plain_cons, plain_cons, pieces_cons, ih hc]
    rfl
  | @literal p p' q body cs hcode hq hbody hclosed h ih =>
    rw [requoteFrom_closed hq hbody, requote]
    split
    · rename_i hexchange
      simp only [Bool.and_eq_true, Bool.not_eq_true', List.contains_eq_mem, decide_eq_true_eq,
        decide_eq_false_iff_not] at hexchange
      obtain ⟨⟨rfl, hnot⟩, hescape⟩ := hexchange
      obtain ⟨hmarks, hrun⟩ := read_of_notMem hbody.oneLine hescape hnot
      have hbody' : IsBody target body := ⟨hbody.marked, hbody.oneLine, hmarks⟩
      have hnew := s.pieces_literal hquote (s.holds_literal htarget) hcode hbody' hrun
        (plain (requoteFrom q target none cs))
      have hold := s.pieces_literal hq (s.holds_literal hsource) hcode hbody hclosed (plain cs)
      simp only [plain_append, plain_cons, List.append_assoc, List.cons_append,
        List.nil_append] at hnew hold ⊢
      rw [hnew, hold, ih rfl]
    · have hrun : p.run (plain ((q, .quote) :: body ++ [(q, .quote)])) = .code := by
        rw [List.cons_append, plain_cons, plain_append]
        change (p.step q).run _ = _
        rw [step_quote hq hcode, Phase.run_append, hclosed]
        exact step_literal_quote hq
      have hcut (ds : List Cell) :
          s.pieces p (plain ((q, .quote) :: body ++ (q, .quote) :: ds)) =
            seam (s.holds .code) (s.pieces p (plain ((q, .quote) :: body ++ [(q, .quote)])))
              (s.pieces .code (plain ds)) := by
        rw [← hrun, ← pieces_append, ← plain_append, List.append_assoc, List.singleton_append]
      rw [List.append_assoc, List.singleton_append]
      exact (hcut _).trans (ih rfl ▸ (hcut cs).symm)
  | unfinished hcode hq hbody => rw [requoteFrom_unfinished hq hbody]

/-! ## Up to blanks at the ends of pieces -/

/-- Blanks behind a line are blanks behind its pieces. -/
theorem map_trimRight_pieces_append {tail : List Char} (h : ∀ c ∈ tail, isInert c = true)
    (hblank : ∀ c ∈ tail, isBlank c = true) (p : Phase) (cs : List Char) :
    (s.pieces p (cs ++ tail)).map trimRight = (s.pieces p cs).map trimRight := by
  rw [pieces_append, s.pieces_inert h]
  cases hrun : s.holds (p.run cs) with
  | false => rw [if_neg Bool.false_ne_true, seam_nil_right]
  | true =>
    obtain hnil | ⟨us, u, hus⟩ := List.eq_nil_or_concat (s.pieces p cs)
    · exact absurd (s.holds_of_pieces_eq_nil hnil).2 (by simp [hrun])
    · rw [hus, List.concat_eq_append, if_pos rfl, seam_true, List.map_append, List.map_append,
        List.map_singleton, List.map_singleton, trimRight, dropTail_append_of_all hblank]
      rfl

/-- So are blanks in front of a line, but for the first piece of a span that goes on. -/
theorem pieces_append_left {front : List Char} (h : ∀ c ∈ front, isInert c = true) {p : Phase}
    (hp : p.settle = p) (cs : List Char) :
    s.pieces p (front ++ cs) =
      seam (s.holds p) (if s.holds p then [front] else []) (s.pieces p cs) := by
  have hrun : p.run front = p := by rw [run_inert h, hp, ite_self]
  rw [pieces_append, s.pieces_inert h, hrun]

/-! ## Comments and marks -/

/-- **The pieces of comments are what is marked as comments**, on every line that does not begin
behind a stroke. -/
theorem flatten_pieces_comment {l : List Char} (hl : '\n' ∉ l) {p : Phase} (hp : p ≠ .stroke) :
    (Span.comment.pieces p l).flatten = plain ((p.cells l).filter (·.2 = .comment)) := by
  -- behind a stroke the comment may have begun one character earlier
  have hall (p : Phase) : (Span.comment.pieces p l).flatten =
      (if p = .stroke ∧ isSecond l.head? then ['/'] else []) ++
        plain ((p.cells l).filter (·.2 = .comment)) := by
    clear hp
    induction l generalizing p with
    | nil => cases p <;> rfl
    | cons c cs ih =>
      obtain ⟨hfeed, hcs⟩ := not_or.mp (mt List.mem_cons.mpr hl)
      rw [pieces_cons, flatten_seam, ih hcs, cells_cons, List.filter_cons]
      cases p with
      | code =>
        by_cases hstroke : c = '/'
        · subst hstroke
          cases hsecond : isSecond cs.head? <;>
            simp [emit, holds, Phase.step, Phase.mark, isQuote, hsecond]
        · by_cases hquote : isQuote c = true <;>
            simp [emit, holds, Phase.step, Phase.mark, Ne.symm hfeed, hstroke, hquote]
      | stroke =>
        by_cases hstroke : c = '/'
        · subst hstroke
          simp [emit, holds, opening, Phase.step, Phase.mark, isSecond]
        · by_cases hstar : c = '*'
          · subst hstar
            simp [emit, holds, opening, Phase.step, Phase.mark, isSecond]
          · by_cases hquote : isQuote c = true <;>
              simp [emit, holds, Phase.step, Phase.mark, isSecond, Ne.symm hfeed, hstroke, hstar,
                hquote]
      | lineComment => simp [emit, holds, Phase.step, Phase.mark, Ne.symm hfeed]
      | blockComment =>
        by_cases hstar : c = '*' <;>
          simp [emit, holds, Phase.step, Phase.mark, Ne.symm hfeed, hstar]
      | star =>
        by_cases hstroke : c = '/'
        · simp [emit, holds, Phase.step, Phase.mark, hstroke]
        · by_cases hstar : c = '*' <;>
            simp [emit, holds, Phase.step, Phase.mark, Ne.symm hfeed, hstroke, hstar]
      | literal q =>
        by_cases hescape : c = '\\'
        · simp [emit, holds, Phase.step, Phase.mark, hescape]
        · cases hquote : isQuote c && c == q <;>
            simp [emit, holds, Phase.step, Phase.mark, Ne.symm hfeed, hescape, hquote]
      | escape q => simp [emit, holds, Phase.step, Phase.mark, Ne.symm hfeed]
  rw [hall, if_neg (fun h => hp h.1)]
  rfl

/-! ## Spans of several lines -/

theorem ofLines_cons (p : Phase) (l : List Char) (ls : List (List Char)) :
    s.ofLines p (l :: ls) = seam (s.holds (p.run l).newline) ((s.pieces p l).map ([·]))
      (s.ofLines (p.run l).newline ls) := rfl

/-- Lines without a span begin and end outside of one. -/
theorem holds_of_ofLines_eq_nil {ls : List (List Char)} (h : s.ofLines p ls = []) :
    s.holds p = false ∧ s.holds (p.runLines ls) = false := by
  induction ls generalizing p with
  | nil =>
    have hp : s.holds p = false := by
      by_contra hp
      rw [Bool.not_eq_false] at hp
      rw [ofLines, if_pos hp] at h
      cases h
    exact ⟨hp, hp⟩
  | cons l ls ih =>
    obtain ⟨hpieces, hrest⟩ := seam_eq_nil_iff.mp h
    obtain ⟨hp, -⟩ := s.holds_of_pieces_eq_nil (List.map_eq_nil_iff.mp hpieces)
    exact ⟨hp, (ih hrest).2⟩

/-- **Lines can be cut anywhere.** -/
theorem ofLines_append (p : Phase) (ls ms : List (List Char)) :
    s.ofLines p (ls ++ ms) =
      seam (s.holds (p.runLines ls)) (s.ofLines p ls) (s.ofLines (p.runLines ls) ms) := by
  induction ls generalizing p with
  | nil =>
    change s.ofLines p ms = seam (s.holds p) (s.ofLines p []) (s.ofLines p ms)
    cases hp : s.holds p with
    | false => rw [ofLines, hp]; rfl
    | true =>
      rw [ofLines, if_pos hp]
      cases hms : s.ofLines p ms with
      | nil => exact absurd (s.holds_of_ofLines_eq_nil hms).1 (by simp [hp])
      | cons v vs => rfl
  | cons l ls ih =>
    have hrun : p.runLines (l :: ls) = (p.run l).newline.runLines ls := rfl
    rw [List.cons_append, ofLines_cons, ih, ofLines_cons, hrun, seam_assoc]
    intro hnil
    obtain ⟨hnext, hend⟩ := s.holds_of_ofLines_eq_nil hnil
    rw [hnext, hend]

end Span

end Scaffold.Format
