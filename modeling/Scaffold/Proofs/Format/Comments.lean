import Scaffold.Proofs.Format.Passes

/-!
# Proofs/Format/Comments — when the comments of a program survive formatting

The passes judge a line by its painted text, where a comment is blank, but they add to its end and
take out of its middle.  A line is **spoiled** if a semicolon or a comma has come behind the comment
that it ends in, or if a stroke of code has come before a comment.  Where every literal is closed on
its line, the comments survive exactly if no line is spoiled (`comments_kept_iff`): an edited line
that is not spoiled has the comments that it had, and one that is parts from them at a piece that
can be seen.
-/

namespace Scaffold.Format

open Text Phase

/-! ## Comments -/

/-- The comments of a program, each as its lines that are not blank, without the white space around
them. -/
def comments (cs : List Char) : List (List (List Char)) :=
  (Span.comment.ofLines .code (lines cs)).map cores

/-- Every literal of the program is closed on the line that it begins on. -/
def ClosesLiterals (cs : List Char) : Prop := ∀ q ∈ lineEnds .code (lines cs), q.isInside = false

instance (cs : List Char) : Decidable (ClosesLiterals cs) :=
  inferInstanceAs (Decidable (∀ q ∈ lineEnds .code (lines cs), q.isInside = false))

/-- The cells end in a semicolon or a comma of code. -/
def endsInMark (cs : List Cell) : Bool :=
  cs.getLast?.any fun y => decide (y = (';', .code) ∨ y = (',', .code))

/-- Code has come into a comment: a semicolon or a comma into the one that the line ends in, in the
phase `q`, or a stroke into one that it stands before. -/
def spoiled (q : Phase) (x : Line) : Bool :=
  fuses x.cells || Span.comment.holds q && endsInMark x.cells

/-- The pieces of comments on a line, each as the one line that it is, or none if it is blank. -/
def coresOn (p : Phase) (l : List Char) : List (List (List Char)) :=
  (Span.comment.pieces p l).map fun t => cores [t]

/-- The comments of lines. -/
def coresOf (p : Phase) (ls : List (List Char)) : List (List (List Char)) :=
  (Span.comment.ofLines p ls).map cores

theorem cores_append (ls ms : List (List Char)) : cores (ls ++ ms) = cores ls ++ cores ms := by
  rw [cores, List.map_append, filled, List.filter_append]
  rfl

theorem coresOf_cons (p : Phase) (l : List Char) (ls : List (List Char)) :
    coresOf p (l :: ls) =
      seam (Span.comment.holds (p.run l).newline) (coresOn p l) (coresOf (p.run l).newline ls) := by
  rw [coresOf, Span.ofLines_cons, map_seam cores_append, List.map_map]
  rfl

theorem coresOf_ne_nil {p : Phase} (hp : Span.comment.holds p = true) (ls : List (List Char)) :
    coresOf p ls ≠ [] := by
  intro hnil
  rw [(Span.comment.holds_of_ofLines_eq_nil (List.map_eq_nil_iff.mp hnil)).1] at hp
  cases hp

/-! ## White space around a line -/

theorem trimChars_trimRight (cs : List Char) : trimChars (trimRight cs) = trimChars cs := by
  obtain ⟨tail, htail, heq⟩ := exists_eq_dropTail_append isBlank cs
  have htrim := trim_append (List.forall_mem_nil _) htail (trimRight cs)
  rw [List.nil_append, trimRight, ← heq] at htrim
  exact htrim.symm

theorem trimChars_append_left {front : List Char} (h : ∀ c ∈ front, isBlank c = true)
    (cs : List Char) : trimChars (front ++ cs) = trimChars cs := by
  rw [trimChars, trimLeft, dropWhile_append_of_all h]
  rfl

variable {p : Phase} {l k u v : List Char}

theorem coresOn_eq_map (p : Phase) (l : List Char) :
    coresOn p l = ((Span.comment.pieces p l).map trimRight).map fun t => cores [t] := by
  rw [coresOn, List.map_map]
  refine List.map_congr_left fun t _ => ?_
  rw [Function.comp_apply, cores, cores, List.map_singleton, List.map_singleton,
    trimChars_trimRight]

theorem Same.coresOn_eq (h : Same p u v) : coresOn p u = coresOn p v := by
  rw [coresOn_eq_map, coresOn_eq_map, h.pieces]

/-- Blanks in front of a line change no core. -/
theorem coresOn_append_left {front : List Char} (hinert : ∀ c ∈ front, isInert c = true)
    (hblank : ∀ c ∈ front, isBlank c = true) (hp : p.settle = p) (l : List Char) :
    coresOn p (front ++ l) = coresOn p l := by
  rw [coresOn, Span.comment.pieces_append_left hinert hp, coresOn]
  cases hholds : Span.comment.holds p with
  | false => rfl
  | true =>
    cases hpieces : Span.comment.pieces p l with
    | nil => exact absurd (Span.comment.holds_of_pieces_eq_nil hpieces).1 (by simp [hholds])
    | cons t ts =>
      rw [if_pos rfl, seam_singleton, List.map_cons, List.map_cons, cores, cores,
        List.map_singleton, List.map_singleton, trimChars_append_left hblank]

/-- The white space around a line is not part of its comments. -/
theorem trimChars_alike (hp : p.settle = p) (hl : '\n' ∉ l) :
    coresOn p (trimChars l) = coresOn p l ∧ (p.run (trimChars l)).settle = (p.run l).settle := by
  obtain ⟨front, hfront, heq⟩ := exists_eq_append_dropWhile isBlank l
  have hinert := inert_of_blank hl (by rw [heq]; exact List.subset_append_left _ _) hfront
  have hrest : '\n' ∉ trimLeft l := fun hfeed => hl ((List.dropWhile_suffix _).subset hfeed)
  have hsame := same_trimRight p hrest
  have hcores := coresOn_append_left hinert hfront hp (trimLeft l)
  have hrun := settle_run_append_left hinert hp (trimLeft l)
  rw [trimLeft, ← heq] at hcores hrun
  refine ⟨?_, ?_⟩
  · rw [hcores]
    exact hsame.coresOn_eq.symm
  · rw [hrun]
    exact hsame.settle.symm

/-! ## Where lists of pieces part -/

section Parted

variable {α : Type} {us vs : List (List α)}

/-- The lists have a first piece in which they differ, and in both it is one line. -/
def Parted (us vs : List (List α)) : Prop :=
  ∃ front a b us' vs', us = front ++ [a] :: us' ∧ vs = front ++ [b] :: vs' ∧ a ≠ b

theorem Parted.append_left (h : Parted us vs) (ws : List (List α)) :
    Parted (ws ++ us) (ws ++ vs) := by
  obtain ⟨front, a, b, us, vs, rfl, rfl, hne⟩ := h
  exact ⟨ws ++ front, a, b, us, vs, by rw [List.append_assoc], by rw [List.append_assoc], hne⟩

/-- Nothing that comes behind makes parted lists equal. -/
theorem Parted.seam_ne (h : Parted us vs) (o o' : Bool) (us' vs' : List (List α)) :
    seam o us us' ≠ seam o' vs vs' := by
  obtain ⟨front, a, b, us, vs, rfl, rfl, hne⟩ := h
  rw [seam_append o _ (List.cons_ne_nil _ _), seam_append o' _ (List.cons_ne_nil _ _)]
  intro heq
  obtain ⟨rest, ws, hfirst⟩ := exists_seam_cons o a us us'
  obtain ⟨rest', ws', hfirst'⟩ := exists_seam_cons o' b vs vs'
  have hsame := List.append_cancel_left heq
  rw [hfirst, hfirst'] at hsame
  exact hne (List.cons.inj (List.cons.inj hsame).1).1

end Parted

/-! ## Lines that end in a comment -/

/-- A line that ends in a comment has its last piece from a stroke on, or it is one piece. -/
theorem pieces_of_holds {p : Phase} {cs : List Char}
    (h : Span.comment.holds (p.run cs) = true) :
    ∃ us v, Span.comment.pieces p cs = us ++ [v] ∧
      ('/' ∈ v ∨ us = [] ∧ v = cs ∧ Span.comment.holds p = true) := by
  induction cs generalizing p with
  | nil => exact ⟨[], [], Span.comment.pieces_nil_of_holds h, .inr ⟨rfl, rfl, h⟩⟩
  | cons c cs ih =>
    obtain ⟨us, v, hpieces, hv⟩ := ih (p := p.step c) h
    rw [Span.pieces_cons, hpieces]
    obtain hstroke | ⟨rfl, rfl, hstep⟩ := hv
    · obtain ⟨ws, w, hseam, hsub⟩ :=
        exists_seam_concat (Span.comment.holds (p.step c)) (Span.comment.emit p c) us v
      exact ⟨ws, w, hseam, .inl (hsub.subset hstroke)⟩
    · rw [hstep]
      cases hp : Span.comment.holds p with
      | true =>
        rw [Span.comment.emit_of_holds hp]
        exact ⟨[], c :: v, rfl, .inr ⟨rfl, rfl, rfl⟩⟩
      | false =>
        have hemit : Span.comment.emit p c = [['/', c]] := by
          rw [Span.emit, hp, hstep]
          rfl
        rw [hemit]
        exact ⟨[], '/' :: c :: v, rfl, .inl List.mem_cons_self⟩

/-- A line on which something is seen has no blank piece where it ends in a comment. -/
theorem Faithful.pieces_of_holds {cs : List Cell} (hp : p ≠ .stroke) (h : Faithful p cs)
    (hseen : ∃ y ∈ cs, isBlank y.painted = false)
    (hholds : Span.comment.holds (p.run (plain cs)) = true) :
    ∃ us v, Span.comment.pieces p (plain cs) = us ++ [v] ∧ '/' ∈ v := by
  obtain ⟨us, v, hpieces, hstroke | ⟨rfl, rfl, -⟩⟩ := Format.pieces_of_holds hholds
  · exact ⟨us, v, hpieces, hstroke⟩
  -- all of the line would be comment
  · exfalso
    have hflat := Span.flatten_pieces_comment h.oneLine hp
    rw [hpieces, List.nil_append, List.flatten_singleton] at hflat
    have hlength : ((p.cells (plain cs)).filter (·.2 = .comment)).length =
        (p.cells (plain cs)).length := by
      have := congrArg List.length hflat
      simpa [plain, Phase.cells] using this.symm
    have hall := List.length_filter_eq_length_iff.mp hlength
    obtain ⟨y, hy, hvisible⟩ := hseen
    have hfaded : y.faded ∈ (p.cells (plain cs)).map Cell.faded := by
      rw [h.marked]
      exact List.mem_map_of_mem hy
    obtain ⟨z, hz, heq⟩ := List.mem_map.mp hfaded
    have hcomment : z.2 = .comment := by simpa using hall z hz
    have hfeed : z.1 ≠ '\n' := fun hc => h.oneLine <| by
      rw [← plain_phaseCells p (plain cs)]
      exact hc ▸ List.mem_map_of_mem hz
    rw [← Cell.painted_faded, ← heq, Cell.painted_faded, ← Prod.eta z, hcomment] at hvisible
    simp [Cell.painted, hfeed, isBlank] at hvisible

theorem coresOn_append_inert {tail : List Char} (h : ∀ c ∈ tail, isInert c = true)
    (hnot : Span.comment.holds (p.run u) = false) : coresOn p (u ++ tail) = coresOn p u := by
  rw [coresOn, Span.comment.pieces_append_inert h hnot, coresOn]

/-- Behind a semicolon or a comma of code there is no comment. -/
theorem Faithful.not_holds_of_getLast? {cs : List Cell} (h : Faithful p cs) {c : Char}
    (hc : IsMark c) (hlast : cs.getLast? = some (c, .code)) :
    Span.comment.holds (p.run (plain cs)) = false := by
  obtain ⟨before, rfl⟩ := List.getLast?_eq_some_iff.mp hlast
  have hfeed : c ≠ '\n' := by rintro rfl; simp [IsMark] at hc
  obtain ⟨-, -, -, -, hrun⟩ := h.around (x := (c, .code)) hc (if_neg hfeed)
  rw [hrun]
  rfl

/-! ## Pieces that are changed -/

/-- What can be seen is not trimmed. -/
theorem mem_trimChars {cs : List Char} {c : Char} (h : c ∈ cs) (hc : isBlank c = false) :
    c ∈ trimChars cs := by
  obtain ⟨front, tail, hfront, htail, heq⟩ := exists_trim isBlank cs
  rw [heq, List.mem_append, List.mem_append] at h
  obtain (h | h) | h := h
  · rw [hfront c h] at hc
    cases hc
  · exact h
  · rw [htail c h] at hc
    cases hc

theorem trimChars_cons {c : Char} (hc : isBlank c = false) (cs : List Char) :
    trimChars (c :: cs) = c :: trimRight cs := by
  rw [trimChars, trimLeft, List.dropWhile_cons_of_neg (by simp [hc])]
  exact dropTail_cons_of_neg hc cs

theorem length_trimRight_le (cs ds : List Char) :
    (trimRight cs).length ≤ (trimRight (cs ++ ds)).length := by
  rw [trimRight, trimRight, dropTail_append]
  split
  · exact Nat.le_refl _
  · rw [List.length_append]
    exact Nat.le_add_right_of_le (List.rdropWhile_prefix isBlank cs).length_le

/-- What is added behind a piece that is not blank is seen. -/
theorem trimChars_append_ne {v tail : List Char} {c : Char} (hc : c ∈ v) (hseen : isBlank c = false)
    (hne : tail ≠ []) (htail : ∀ d ∈ tail, isBlank d = false) :
    trimChars (v ++ tail) ≠ trimChars v := by
  obtain ⟨front, back, hfront, -, heq⟩ := exists_trim isBlank v
  change v = front ++ trimChars v ++ back at heq
  have hcore : trimChars v ≠ [] := List.ne_nil_of_mem (mem_trimChars hc hseen)
  have htrimmed : IsTrimmed isBlank (trimChars v ++ back ++ tail) := by
    constructor
    · rw [List.append_assoc, List.head?_append_of_ne_nil _ hcore]
      exact (isTrimmed_trim v).first
    · rw [List.getLast?_append_of_ne_nil _ hne]
      exact fun d hd => htail d (List.mem_of_getLast? hd)
  have htrim : trimChars (v ++ tail) = trimChars v ++ back ++ tail := by
    have h := htrimmed.trim_append hfront
    rwa [← List.append_assoc, ← List.append_assoc, ← heq] at h
  rw [htrim, List.append_assoc]
  intro hsame
  exact hne (List.append_eq_nil_iff.mp (List.append_right_eq_self.mp hsame)).2

theorem cores_singleton {t : List Char} (h : trimChars t ≠ []) : cores [t] = [trimChars t] :=
  cores_core h []

/-- What is put behind a line of code, where a comment begins, parts the comment from it. -/
theorem parted_append {tail : List Char} (hinert : ∀ c ∈ tail, isInert c = true)
    (hvisible : ∀ c ∈ tail, isBlank c = false) (hne : tail ≠ [])
    (hholds : Span.comment.holds (p.run u) = true) {us : List (List Char)} {v : List Char}
    (hpieces : Span.comment.pieces p u = us ++ [v]) (hv : '/' ∈ v) :
    Parted (coresOn p (u ++ tail)) (coresOn p u) := by
  have hcore : trimChars v ≠ [] := List.ne_nil_of_mem (mem_trimChars hv rfl)
  have hcore' : trimChars (v ++ tail) ≠ [] :=
    List.ne_nil_of_mem (mem_trimChars (List.mem_append_left tail hv) rfl)
  refine ⟨us.map fun t => cores [t], _, _, [], [], ?_, ?_, trimChars_append_ne hv rfl hne hvisible⟩
  · rw [coresOn, Span.comment.pieces_append, Span.comment.pieces_inert hinert, hholds, hpieces,
      if_pos rfl, seam_true, List.map_append, List.map_singleton, cores_singleton hcore']
  · rw [coresOn, hpieces, List.map_append, List.map_singleton, cores_singleton hcore]

/-! ## A stroke before a comment -/

theorem coresOn_code_stroke (cs : List Char) :
    coresOn .code ('/' :: cs) = coresOn .stroke cs := rfl

/-- Two strokes make a comment to the end of the line. -/
theorem coresOn_stroke_stroke {cs : List Char} (h : '\n' ∉ cs) :
    coresOn .stroke ('/' :: cs) = [['/' :: '/' :: trimRight cs]] := by
  have htrim : trimChars ('/' :: '/' :: cs) = '/' :: '/' :: trimRight cs := by
    rw [trimChars_cons rfl, trimRight, dropTail_cons_of_neg rfl]
    rfl
  have hpieces : Span.comment.pieces .stroke ('/' :: cs) = ['/' :: '/' :: cs] := by
    change seam true [['/', '/']] (Span.comment.pieces .lineComment cs) = _
    rw [(pieces_lineComment .comment h).1]
    rfl
  rw [coresOn, hpieces, List.map_singleton, cores_singleton (htrim ▸ List.cons_ne_nil _ _), htrim]

/-- A stroke and a star make a comment that may go on. -/
theorem coresOn_stroke_star (cs : List Char) :
    ∃ t ts, coresOn .stroke ('*' :: cs) = [t] :: ts ∧ t[1]? = some '*' := by
  cases hpieces : Span.comment.pieces .blockComment cs with
  | nil => exact absurd (Span.comment.holds_of_pieces_eq_nil hpieces).1 (by decide)
  | cons v vs =>
    have htrim : trimChars ('/' :: '*' :: v) = '/' :: '*' :: trimRight v := by
      rw [trimChars_cons rfl, trimRight, dropTail_cons_of_neg rfl]
      rfl
    refine ⟨'/' :: '*' :: trimRight v, vs.map fun t => cores [t], ?_, rfl⟩
    rw [← htrim, ← cores_singleton (htrim ▸ List.cons_ne_nil _ _),
      ← List.map_cons (f := fun t => cores [t])]
    change List.map _ (seam true [['/', '*']] (Span.comment.pieces .blockComment cs)) = _
    rw [hpieces]
    rfl

/-- A stroke that comes before a comment lengthens it, or makes a block comment a line comment. -/
theorem parted_stroke {cs tail : List Char} (hsecond : isSecond cs.head? = true) (hcs : '\n' ∉ cs)
    (htail : '\n' ∉ tail) :
    Parted (coresOn .stroke ('/' :: cs ++ tail)) (coresOn .code ('/' :: cs)) := by
  have hline : '\n' ∉ cs ++ tail := by simp [hcs, htail]
  rw [List.cons_append, coresOn_stroke_stroke hline, coresOn_code_stroke]
  cases cs with
  | nil => cases hsecond
  | cons d cs =>
    have hd : d = '/' ∨ d = '*' := by simpa [isSecond] using hsecond
    obtain rfl | rfl := hd
    · rw [coresOn_stroke_stroke fun hfeed => hcs (List.mem_cons_of_mem _ hfeed)]
      refine ⟨[], _, _, [], [], rfl, rfl, fun heq => ?_⟩
      have hlength := congrArg List.length heq
      rw [List.cons_append, trimRight, dropTail_cons_of_neg rfl] at hlength
      have hle := length_trimRight_le cs tail
      simp only [List.length_cons, trimRight] at hlength hle
      omega
    · obtain ⟨t, ts, hold, hstar⟩ := coresOn_stroke_star cs
      rw [hold]
      refine ⟨[], _, _, [], ts, rfl, rfl, ?_⟩
      rintro rfl
      cases hstar

/-! ## What becomes of the comments of a line -/

theorem IsAdded.endsInMark {tail : List Cell} (h : IsAdded tail) (hne : tail ≠ [])
    (cs : List Cell) : endsInMark (cs ++ tail) = true := by
  obtain rfl | ⟨tail, y, rfl⟩ := List.eq_nil_or_concat tail
  · exact absurd rfl hne
  · rw [Format.endsInMark, List.concat_eq_append, ← List.append_assoc, List.getLast?_concat,
      Option.any_some, decide_eq_true_eq]
    exact h y (by simp)

/-- Where nothing was added, a line that ends in a comment has no mark of code at its end. -/
theorem Faithful.endsInMark {front code : List Cell} (hfront : IsMargin front)
    (h : Faithful p code) (hholds : Span.comment.holds (p.run (plain code)) = true) :
    endsInMark (front ++ code) = false := by
  by_contra hmark
  rw [Bool.not_eq_false, Format.endsInMark, Option.any_eq_true] at hmark
  obtain ⟨y, hy, hmark⟩ := hmark
  rw [decide_eq_true_eq] at hmark
  obtain hnil | hne := eq_or_ne code []
  · rw [hnil, List.append_nil] at hy
    have hblank := (hfront.blank y (List.mem_of_getLast? hy)).1
    obtain rfl | rfl := hmark <;> cases hblank
  · rw [List.getLast?_append_of_ne_nil _ hne] at hy
    have hnot : Span.comment.holds (p.run (plain code)) = false := by
      obtain rfl | rfl := hmark
      · exact h.not_holds_of_getLast? (.inl rfl) hy
      · exact h.not_holds_of_getLast? (.inr rfl) hy
    rw [hnot] at hholds
    cases hholds

/-- What is added to code leaves its comments as they are, unless it goes into the last of them. -/
theorem Faithful.comments_added {front code tail : List Cell} (h : Faithful p code)
    (hne : p ≠ .stroke) (hfront : IsMargin front) (htail : IsAdded tail)
    (hseen : tail ≠ [] → ∃ y ∈ code, isBlank y.painted = false) :
    (Span.comment.holds (p.run (plain code)) && Format.endsInMark (front ++ code ++ tail)) =
          false ∧
        coresOn p (plain code ++ plain tail) = coresOn p (plain code) ∨
      (Span.comment.holds (p.run (plain code)) && Format.endsInMark (front ++ code ++ tail)) =
          true ∧
        Parted (coresOn p (plain code ++ plain tail)) (coresOn p (plain code)) := by
  cases hholds : Span.comment.holds (p.run (plain code)) with
  | false => exact .inl ⟨rfl, coresOn_append_inert htail.plain_inert hholds⟩
  | true =>
    rw [Bool.true_and]
    obtain rfl | htail' := eq_or_ne tail []
    · refine .inl ⟨?_, congrArg (coresOn p) (List.append_nil _)⟩
      rw [List.append_nil, h.endsInMark hfront hholds]
    · obtain ⟨us, v, hpieces, hv⟩ := h.pieces_of_holds hne (hseen htail') hholds
      exact .inr ⟨htail.endsInMark htail' _, parted_append htail.plain_inert htail.plain_visible
        (by simpa [plain] using htail') hholds hpieces hv⟩

/-- A stroke that comes before a comment changes it. -/
theorem Faithful.parted_of_stroke {before comment : List Cell} {tail : List Char}
    (hstroke : p.run (plain before) = .stroke) (h : Faithful .code comment)
    (hblank : ∀ y ∈ comment, isBlank y.painted = true)
    (hhead : (plain comment).head? = some '/') (htail : '\n' ∉ tail) :
    Parted (coresOn p (plain before ++ (plain comment ++ tail)))
      (coresOn p (plain before) ++ coresOn .code (plain comment)) := by
  have hnot : Span.comment.holds (p.run (plain before)) = false := by rw [hstroke]; rfl
  rw [coresOn, Span.comment.pieces_append_of_not_holds hnot, hstroke, List.map_append]
  obtain ⟨cs, rfl, hsecond⟩ := h.exists_comment hblank hhead
  exact (parted_stroke hsecond (List.not_mem_of_not_mem_cons h.oneLine) htail).append_left _

/-- **The comments of a line are kept, unless it is spoiled**; then they are not. -/
theorem Edited.comments (h : Edited p l rest x) (hkept : x.kept = false) :
    spoiled (p.run l) x = false ∧ coresOn p (plain x.cells) = coresOn p l ∧
        (p.run (plain x.cells)).newline = (p.run l).newline ∨
      spoiled (p.run l) x = true ∧ Parted (coresOn p (plain x.cells)) (coresOn p l) := by
  have hne : p ≠ .stroke := by
    rintro rfl
    cases h.settled hkept
  have hnewline := h.newline_eq
  cases h with
  | kept _ _ hkept' => rw [hkept] at hkept'; cases hkept'
  | @sound front code tail hp hsettled hl _ hcells hfront htail hcode hsame _ hseen =>
    obtain ⟨htrim, hsettle⟩ := trimChars_alike hsettled hl
    have hcores : coresOn p (plain code) = coresOn p l := hsame.coresOn_eq.trans htrim
    have hrun : (p.run (plain code)).settle = (p.run l).settle := hsame.settle.trans hsettle
    have hholds : Span.comment.holds (p.run l) = Span.comment.holds (p.run (plain code)) := by
      rw [← Span.holds_settle, ← hrun, Span.holds_settle]
    have hleft : coresOn p (plain x.cells) = coresOn p (plain code ++ plain tail) := by
      rw [hcells, plain_append, plain_append, List.append_assoc,
        coresOn_append_left hfront.plain_inert hfront.plain_blank hsettled]
    have hfuses : fuses x.cells = false := by
      rw [hcells, fuses_around hfront htail, hcode.fuses_eq_false]
    rw [spoiled, hfuses, hholds, Bool.false_or, hleft, ← hcores, hnewline fun _ => hfuses, hcells]
    exact (hcode.comments_added hne hfront htail hseen).imp_left fun h => ⟨h.1, h.2, rfl⟩
  | @fused front before comment tail hp hsettled hl _ hcells hfront htail hbefore hstroke hcomment
      hblank hhead hpieces hsettle =>
    have hold : coresOn p l = coresOn p (plain before) ++ coresOn .code (plain comment) := by
      rw [← (trimChars_alike hsettled hl).1, coresOn_eq_map, hpieces, List.map_append,
        ← coresOn_eq_map, ← coresOn_eq_map]
    have hnew : coresOn p (plain x.cells) =
        coresOn p (plain before ++ (plain comment ++ plain tail)) := by
      rw [hcells, plain_append, plain_append, plain_append, List.append_assoc, List.append_assoc,
        coresOn_append_left hfront.plain_inert hfront.plain_blank hsettled]
    refine .inr ⟨?_, ?_⟩
    · rw [spoiled, hcells, fuses_around hfront htail,
        fuses_of_stroke hne hbefore hstroke hcomment hblank hhead, Bool.true_or]
    · rw [hnew, hold]
      exact hcomment.parted_of_stroke hstroke hblank hhead htail.oneLine

/-! ## What becomes of the comments of a program -/

/-- **The comments of lines are kept exactly if no line is spoiled.** -/
theorem coresOf_eq_iff {ls : List (List Char)} {xs : List Line} (h : Chained Edited p ls xs)
    (hp : p.isInside = false) (hclosed : ∀ q ∈ lineEnds p ls, q.isInside = false) :
    coresOf p (xs.map fun x => plain x.cells) = coresOf p ls ↔
      ∀ e ∈ (lineEnds p ls).zip xs, spoiled e.1 e.2 = false := by
  induction h with
  | nil p => simp [lineEnds]
  | @cons p l x ls xs h hs ih =>
    obtain ⟨hl, hls⟩ := List.forall_mem_cons.mp hclosed
    rw [List.map_cons, coresOf_cons, coresOf_cons, lineEnds, List.zip_cons_cons,
      List.forall_mem_cons]
    obtain ⟨hspoiled, hcores, hnewline⟩ | ⟨hspoiled, hparted⟩ := h.comments (h.kept_eq.trans hp)
    · have hnext : (p.run l).newline.isInside = false := by
        cases hend : p.run l with
        | literal q | escape q => rw [hend] at hl; cases hl
        | code | stroke | lineComment | blockComment | star => rfl
      rw [hcores, hnewline, seam_inj (coresOf_ne_nil · _) (coresOf_ne_nil · _), ih hnext hls,
        hspoiled]
      exact (and_iff_right rfl).symm
    · refine iff_of_false (hparted.seam_ne _ _ _ _) fun hnone => ?_
      rw [hspoiled] at hnone
      cases hnone.1

/-- Empty lines are not seen in comments. -/
theorem coresOf_filled (hp : p.newline = p) (ls : List (List Char)) :
    coresOf p (filled ls) = coresOf p ls := by
  induction ls generalizing p with
  | nil => rfl
  | cons l ls ih =>
    by_cases hl : l = []
    · subst hl
      have hempty : coresOn p [] = if Span.comment.holds p then [[]] else [] := by
        rw [coresOn, Span.pieces]
        split <;> rfl
      have hrun : (p.run []).newline = p := hp
      rw [filled_empty, coresOf_cons, hrun, hempty, ih hp]
      cases hholds : Span.comment.holds p with
      | false => rfl
      | true =>
        obtain ⟨v, vs, hvs⟩ := List.exists_cons_of_ne_nil (coresOf_ne_nil hholds ls)
        rw [hvs]
        rfl
    · rw [filled_cons hl, coresOf_cons, coresOf_cons, ih (newline_newline _)]

/-- Lines that are alike, one by one, have the comments of one another. -/
theorem coresOf_congr {ls ls' : List (List Char)}
    (h : List.Forall₂ (fun l l' => ∀ p, Same p l l') ls ls') (p : Phase) :
    coresOf p ls = coresOf p ls' := by
  induction h generalizing p with
  | nil => rfl
  | cons hl hls ih => rw [coresOf_cons, coresOf_cons, (hl p).coresOn_eq, (hl p).newline, ih]

/-- The clean-up of a text keeps its comments. -/
theorem comments_finish {ks : List (List Char)} (h : ∀ k ∈ ks, '\n' ∉ k) :
    comments (finish ks) = coresOf .code ks := by
  have htrimmed : List.Forall₂ (fun l l' => ∀ p, Same p l l') ks (ks.map trimRight) :=
    List.forall₂_map_right_iff.mpr (List.forall₂_same.mpr fun k hk q => same_trimRight q (h k hk))
  change coresOf .code (lines (finish ks)) = _
  rw [← coresOf_filled rfl, filled_lines_finish h, coresOf_filled rfl, ← coresOf_congr htrimmed]

/-! ## Line ends -/

theorem LineEnd.same {l l' : List Char} (h : LineEnd l l') (p : Phase) : Same p l l' := by
  obtain rfl | rfl := h
  · exact .refl p l
  · exact same_append (by decide) (by decide) p l'

/-- The line feeds of other systems are not seen in comments. -/
theorem comments_unifyLineEnds (cs : List Char) : comments (unifyLineEnds cs) = comments cs :=
  (coresOf_congr ((lines_unifyLineEnds cs).imp fun _ _ h => h.same) .code).symm

theorem isInside_settle (p : Phase) : p.settle.isInside = p.isInside := by cases p <;> rfl

/-- Literals that are closed before a line ends are so with unified line ends. -/
theorem ClosesLiterals.unifyLineEnds {cs : List Char} (h : ClosesLiterals cs) :
    ClosesLiterals (unifyLineEnds cs) := by
  have hends {p : Phase} {ls ls' : List (List Char)} (hls : List.Forall₂ LineEnd ls ls')
      (hclosed : ∀ q ∈ lineEnds p ls, q.isInside = false) :
      ∀ q ∈ lineEnds p ls', q.isInside = false := by
    induction hls generalizing p with
    | nil => exact List.forall_mem_nil _
    | cons hl hls ih =>
      obtain ⟨hfirst, hrest⟩ := List.forall_mem_cons.mp hclosed
      refine List.forall_mem_cons.mpr ⟨?_, ih ?_⟩
      · rw [← isInside_settle, ← (hl.same p).settle, isInside_settle, hfirst]
      · rw [← (hl.same p).newline]
        exact hrest
  exact hends (lines_unifyLineEnds cs) h

/-- **When comments survive formatting.**  Where every literal is closed on its line, a formatted
program has the comments that it had exactly if no line is spoiled: if no semicolon and no comma has
come behind the comment that a line ends in, and no stroke before a comment. -/
theorem comments_kept_iff (o : Options) {language : Option String}
    (h : Tag.of? language = some .code) {content : String}
    (hclosed : ClosesLiterals content.toList) :
    let program := unifyLineEnds content.toList
    comments (formatText o language content).toList = comments content.toList ↔
      ∀ e ∈ (lineEnds .code (lines program)).zip (formattedLines o program),
        spoiled e.1 e.2 = false := by
  intro program
  have hformatted : (formatText o language content).toList = formatCode o program := by
    rw [formatText, h]
    exact String.toList_ofList
  rw [hformatted, ← comments_unifyLineEnds content.toList, formatCode_eq_finish,
    comments_finish (oneLine_formattedLines o program)]
  exact coresOf_eq_iff (edited_formattedLines o program) rfl hclosed.unifyLineEnds

/-- A comment on a line of its own. -/
theorem comments_kept_iff_alone :
    Tag.of? (some "typescript") = some .code ∧ ClosesLiterals "let b = 'a' /* c */\n// d".toList ∧
      comments (formatText Options.default (some "typescript") "let b = 'a' /* c */\n// d").toList =
        comments "let b = 'a' /* c */\n// d".toList :=
  ⟨rfl, by decide, (comments_kept_iff Options.default rfl (by decide)).mpr (by decide)⟩

/-- A semicolon is put behind the comment of a statement. -/
theorem comments_changed_trailing :
    ClosesLiterals "const a = 1 // note".toList ∧
      comments (formatText Options.default (some "typescript") "const a = 1 // note").toList ≠
        comments "const a = 1 // note".toList := by
  decide

end Scaffold.Format
