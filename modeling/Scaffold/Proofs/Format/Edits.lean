import Scaffold.Proofs.Format.Faithful

/-!
# Proofs/Format/Edits — what becomes of a line under all passes

A line that begins outside of literals is trimmed, gets a margin, and is changed by three passes.
Whatever the options, one of two things has become of it (`Edited`).  It is **sound** if its code is
faithful and has the spans that it had, behind the margin and in front of semicolons and commas that
were added.  It is **fused** if a semicolon or a comma was taken out from between a stroke and a
comment.  Adding at the end, trimming, taking out what is seen last and exchanging quotes each lead
from edited lines to edited lines.
-/

namespace Scaffold.Format

open Text Phase

/-! ## Lines up to blanks at their end -/

/-- Scanned from the phase, both texts have the same spans, up to blanks at the ends of pieces, and
leave the scanner alike. -/
structure Same (p : Phase) (u v : List Char) : Prop where
  pieces : ∀ s : Span, (s.pieces p u).map trimRight = (s.pieces p v).map trimRight
  settle : (p.run u).settle = (p.run v).settle

namespace Same

variable {p : Phase} {u v w : List Char}

theorem refl (p : Phase) (u : List Char) : Same p u u := ⟨fun _ => rfl, rfl⟩

theorem symm (h : Same p u v) : Same p v u := ⟨fun s => (h.pieces s).symm, h.settle.symm⟩

theorem trans (h : Same p u v) (h' : Same p v w) : Same p u w :=
  ⟨fun s => (h.pieces s).trans (h'.pieces s), h.settle.trans h'.settle⟩

theorem newline (h : Same p u v) : (p.run u).newline = (p.run v).newline := by
  rw [← newline_settle, h.settle, newline_settle]

theorem holds (h : Same p u v) (s : Span) : s.holds (p.run u) = s.holds (p.run v) := by
  rw [← s.holds_settle, h.settle, s.holds_settle]

end Same

/-- Blanks behind a line leave it the same. -/
theorem same_append {tail : List Char} (h : ∀ c ∈ tail, isInert c = true)
    (hblank : ∀ c ∈ tail, isBlank c = true) (p : Phase) (u : List Char) : Same p (u ++ tail) u where
  pieces s := s.map_trimRight_pieces_append h hblank p u
  settle := by
    rw [Phase.run_append, run_inert h]
    split
    · rfl
    · exact settle_settle _

theorem same_trimRight (p : Phase) {l : List Char} (hl : '\n' ∉ l) : Same p l (trimRight l) := by
  obtain ⟨tail, htail, heq⟩ := exists_eq_dropTail_append isBlank l
  have hsub : tail ⊆ l := by rw [heq]; exact List.subset_append_right _ _
  have h := same_append (inert_of_blank hl hsub htail) htail p (trimRight l)
  rwa [trimRight, ← heq] at h

theorem newline_run_inert {tail : List Char} (h : ∀ c ∈ tail, isInert c = true) (p : Phase) :
    (p.run tail).newline = p.newline := by
  rw [run_inert h]
  split
  · rfl
  · exact newline_settle p

theorem settle_run_append_left {p : Phase} {front : List Char}
    (hinert : ∀ c ∈ front, isInert c = true) (hp : p.settle = p) (l : List Char) :
    p.run (front ++ l) = p.run l := by
  rw [Phase.run_append, run_inert hinert, hp, ite_self]

/-! ## The parts of an edited line -/

/-- The cells are a margin. -/
def IsMargin (cs : List Cell) : Prop := ∀ y ∈ cs, y = ('\t', .code) ∨ y = (' ', .code)

/-- The cells are semicolons and commas that were added. -/
def IsAdded (cs : List Cell) : Prop := ∀ y ∈ cs, y = (';', .code) ∨ y = (',', .code)

namespace IsMargin

variable {cs : List Cell} (h : IsMargin cs)
include h

theorem inert : ∀ y ∈ cs, isInert y.1 = true := by
  intro y hy
  obtain rfl | rfl := h y hy <;> rfl

theorem blank : ∀ y ∈ cs, isBlank y.1 = true ∧ isBlank y.painted = true := by
  intro y hy
  obtain rfl | rfl := h y hy <;> exact ⟨rfl, rfl⟩

theorem plain_inert : ∀ c ∈ plain cs, isInert c = true := List.forall_mem_map.mpr h.inert

theorem plain_blank : ∀ c ∈ plain cs, isBlank c = true :=
  List.forall_mem_map.mpr fun y hy => (h.blank y hy).1

theorem oneLine : '\n' ∉ plain cs := fun hfeed => by cases h.plain_inert _ hfeed

end IsMargin

namespace IsAdded

variable {cs : List Cell} (h : IsAdded cs)
include h

theorem inert : ∀ y ∈ cs, isInert y.1 = true := by
  intro y hy
  obtain rfl | rfl := h y hy <;> rfl

theorem visible : ∀ y ∈ cs, isBlank y.1 = false ∧ isBlank y.painted = false := by
  intro y hy
  obtain rfl | rfl := h y hy <;> exact ⟨rfl, rfl⟩

theorem plain_inert : ∀ c ∈ plain cs, isInert c = true := List.forall_mem_map.mpr h.inert

theorem plain_visible : ∀ c ∈ plain cs, isBlank c = false :=
  List.forall_mem_map.mpr fun y hy => (h.visible y hy).1

theorem oneLine : '\n' ∉ plain cs := fun hfeed => by cases h.plain_inert _ hfeed

theorem append {c : Char} (hc : IsMark c) : IsAdded (cs ++ [(c, .code)]) := by
  refine List.forall_mem_append.mpr ⟨h, List.forall_mem_singleton.mpr ?_⟩
  obtain rfl | rfl := hc
  · exact .inl rfl
  · exact .inr rfl

end IsAdded

theorem fuses_around {front code tail : List Cell} (hfront : IsMargin front)
    (htail : IsAdded tail) : fuses (front ++ code ++ tail) = fuses code := by
  have hstroke {c : Char} (hc : isInert c = true) : c ≠ '/' := by
    rintro rfl
    cases hc
  rw [fuses_append_right fun y hy => hstroke (htail.inert y hy),
    fuses_append_left fun y hy => hstroke (hfront.inert y hy)]

/-- What has become of a line that is scanned from the phase and followed by `rest`. -/
inductive Edited (p : Phase) (l : List Char) (rest : List (List Char)) (x : Line) : Prop
  /-- It begins in a literal and is as it was. -/
  | kept (hp : p.isInside = true) (hl : '\n' ∉ l) (hkept : x.kept = true) (hcloses : x.closes = [])
      (hcells : x.cells = p.cells l)
  /-- Its code is read as before.  Something was added only if code is seen, and in a template
  literal only at the end of the program. -/
  | sound {front code tail : List Cell} (hp : p.isInside = false) (hsettled : p.settle = p)
      (hl : '\n' ∉ l) (hkept : x.kept = false) (hcells : x.cells = front ++ code ++ tail)
      (hfront : IsMargin front) (htail : IsAdded tail) (hcode : Faithful p code)
      (hsame : Same p (plain code) (trimChars l))
      (hlast : tail ≠ [] → Span.template.holds (p.run (trimChars l)) = true → rest = [])
      (hseen : tail ≠ [] → ∃ y ∈ code, isBlank y.painted = false)
  /-- A stroke has come before a comment. -/
  | fused {front before comment tail : List Cell} (hp : p.isInside = false)
      (hsettled : p.settle = p) (hl : '\n' ∉ l) (hkept : x.kept = false)
      (hcells : x.cells = front ++ (before ++ comment) ++ tail) (hfront : IsMargin front)
      (htail : IsAdded tail) (hbefore : Faithful p before)
      (hstroke : p.run (plain before) = .stroke) (hcomment : Faithful .code comment)
      (hblank : ∀ y ∈ comment, isBlank y.painted = true)
      (hhead : (plain comment).head? = some '/')
      (hpieces : ∀ s : Span, (s.pieces p (trimChars l)).map trimRight =
        (s.pieces p (plain before)).map trimRight ++
          (s.pieces .code (plain comment)).map trimRight)
      (hsettle : (p.run (trimChars l)).settle = (Phase.code.run (plain comment)).settle)

variable {p : Phase} {l : List Char} {rest : List (List Char)} {x : Line}

theorem Edited.kept_eq (h : Edited p l rest x) : x.kept = p.isInside := by
  cases h with
  | kept hp _ hkept => rw [hp, hkept]
  | sound hp _ _ hkept => rw [hp, hkept]
  | fused hp _ _ hkept => rw [hp, hkept]

/-- An edited line is one line. -/
theorem Edited.oneLine_plain (h : Edited p l rest x) : '\n' ∉ plain x.cells := by
  cases h with
  | kept _ hl _ _ hcells => rwa [hcells, plain_phaseCells]
  | sound _ _ _ _ hcells hfront htail hcode =>
    rw [hcells, plain_append, plain_append]
    simp [hfront.oneLine, hcode.oneLine, htail.oneLine]
  | fused _ _ _ _ hcells hfront htail hbefore _ hcomment =>
    rw [hcells, plain_append, plain_append, plain_append]
    simp [hfront.oneLine, hbefore.oneLine, hcomment.oneLine, htail.oneLine]

/-! ## Layout -/

/-- Layout is an edit. -/
theorem edited_layoutLine (o : Options) (stack : List Open) (hsettled : p.settle = p)
    (hl : '\n' ∉ l) (rest : List (List Char)) :
    Edited p l rest (layoutLine o.indentUnit stack p.isInside (p.cells l)).1 := by
  cases hp : p.isInside with
  | true => exact .kept hp hl rfl rfl rfl
  | false =>
    have htrim := trimCells_phaseCells hsettled hl
    have hline : '\n' ∉ trimChars l := fun hfeed => hl <| by
      obtain ⟨front, tail, -, -, heq⟩ := exists_trim isBlank l
      rw [heq]
      exact List.mem_append_left _ (List.mem_append_right _ hfeed)
    have hcode : Faithful p (trimCells (p.cells l)) := htrim ▸ .cells hline p
    have hplain : plain (trimCells (p.cells l)) = trimChars l := by rw [htrim, plain_phaseCells]
    by_cases hempty : trimCells (p.cells l) = []
    · rw [layoutLine_blank hempty]
      rw [hempty] at hcode hplain
      exact .sound hp hsettled hl rfl rfl (List.forall_mem_nil _) (List.forall_mem_nil _) hcode
        (hplain ▸ .refl p _) (absurd rfl) (absurd rfl)
    · rw [layoutLine_code hempty]
      exact .sound hp hsettled hl rfl (List.append_nil _).symm (fun y hy => mem_indentCells hy)
        (List.forall_mem_nil _) hcode (hplain ▸ .refl p _) (absurd rfl) (absurd rfl)

/-! ## Adding at the end of a line -/

/-- So is a mark behind a line of code that nothing follows in a template. -/
theorem Edited.append {c : Char} (hc : IsMark c) (h : Edited p l rest x) (hkept : x.kept = false)
    (hlast : Span.template.holds (p.run (trimChars l)) = true → rest = [])
    (hseen : ∃ y ∈ x.cells, isBlank y.painted = false) :
    Edited p l rest { x with cells := x.cells ++ [(c, .code)] } := by
  cases h with
  | kept _ _ hkept' => rw [hkept] at hkept'; cases hkept'
  | @sound front code tail hp hsettled hl _ hcells hfront htail hcode hsame hlast' hseen' =>
    refine .sound hp hsettled hl hkept ?_ hfront (htail.append hc) hcode hsame (fun _ => hlast)
      fun _ => ?_
    · rw [hcells, List.append_assoc]
    · obtain ⟨y, hy, hvisible⟩ := hseen
      rw [hcells, List.mem_append, List.mem_append] at hy
      obtain (hy | hy) | hy := hy
      · rw [(hfront.blank y hy).2] at hvisible
        cases hvisible
      · exact ⟨y, hy, hvisible⟩
      · exact hseen' (List.ne_nil_of_mem hy)
  | @fused front before comment tail hp hsettled hl _ hcells hfront htail hbefore hstroke hcomment
      hblank hhead hpieces hsettle =>
    refine .fused hp hsettled hl hkept ?_ hfront (htail.append hc) hbefore hstroke hcomment hblank
      hhead hpieces hsettle
    rw [hcells, List.append_assoc]

/-! ## Trimming a line again -/

/-- Without the blanks at their end faithful cells are faithful and read alike. -/
theorem Faithful.dropTail {q : Phase} {cs : List Cell} (h : Faithful q cs) :
    Faithful q (dropTail (fun y => isBlank y.1) cs) ∧
      Same q (plain (Text.dropTail (fun y => isBlank y.1) cs)) (plain cs) := by
  obtain ⟨tail, htail, heq⟩ := exists_eq_dropTail_append (fun y : Cell => isBlank y.1) cs
  have hblank : ∀ c ∈ plain tail, isBlank c = true := List.forall_mem_map.mpr htail
  have hinert : ∀ c ∈ plain tail, isInert c = true := by
    refine inert_of_blank h.oneLine ?_ hblank
    rw [heq, plain_append]
    exact List.subset_append_right _ _
  rw [heq] at h
  refine ⟨(h.cut (isSecond_head?_inert hinert)).1, ?_⟩
  conv_rhs => rw [heq, plain_append]
  exact (same_append hinert hblank q _).symm

theorem IsAdded.dropTail_append {tail : List Cell} (h : IsAdded tail) (hne : tail ≠ [])
    (cs : List Cell) : dropTail (fun y => isBlank y.1) (cs ++ tail) = cs ++ tail := by
  refine dropTail_of_getLast fun y hy => (h.visible y ?_).1
  rw [List.getLast?_append_of_ne_nil _ hne] at hy
  exact List.mem_of_getLast? hy

/-- The stroke that a comment begins with is no blank. -/
theorem head?_dropTail_comment {comment : List Cell} (h : (plain comment).head? = some '/') :
    (plain (dropTail (fun y => isBlank y.1) comment)).head? = some '/' := by
  cases comment with
  | nil => cases h
  | cons y comment =>
    have hy : y.1 = '/' := Option.some.inj h
    rw [dropTail_cons_of_neg (by rw [hy]; rfl)]
    exact h

/-- So is taking blanks from the end. -/
theorem Edited.trim (h : Edited p l rest x) (hkept : x.kept = false) :
    Edited p l rest { x with cells := dropTail (fun y => isBlank y.1) x.cells } := by
  cases h with
  | kept _ _ hkept' => rw [hkept] at hkept'; cases hkept'
  | @sound front code tail hp hsettled hl _ hcells hfront htail hcode hsame hlast hseen =>
    by_cases hne : tail = []
    · subst hne
      obtain ⟨hcode', hsame'⟩ := hcode.dropTail
      rw [List.append_nil] at hcells
      by_cases hnil : dropTail (fun y => isBlank y.1) code = []
      · rw [hnil] at hcode' hsame'
        have hfront' : IsMargin (dropTail (fun y => isBlank y.1) front) := fun y hy =>
          hfront y ((List.rdropWhile_prefix _ _).subset hy)
        refine .sound hp hsettled hl hkept ?_ hfront' htail hcode' (hsame'.trans hsame)
          (absurd rfl) (absurd rfl)
        rw [hcells, dropTail_append, if_pos hnil, List.append_nil, List.append_nil]
      · refine .sound hp hsettled hl hkept ?_ hfront htail hcode' (hsame'.trans hsame)
          (absurd rfl) (absurd rfl)
        rw [hcells, dropTail_append, if_neg hnil, List.append_nil]
    · exact .sound hp hsettled hl hkept (by rw [hcells, htail.dropTail_append hne]) hfront htail hcode hsame
        hlast hseen
  | @fused front before comment tail hp hsettled hl _ hcells hfront htail hbefore hstroke hcomment
      hblank hhead hpieces hsettle =>
    by_cases hne : tail = []
    · subst hne
      rw [List.append_nil] at hcells
      obtain ⟨hcomment', hsame⟩ := hcomment.dropTail
      have hhead' := head?_dropTail_comment hhead
      have hnil : dropTail (fun y => isBlank y.1) comment ≠ [] := by
        intro hnil
        rw [hnil] at hhead'
        cases hhead'
      refine .fused hp hsettled hl hkept ?_ hfront htail hbefore hstroke hcomment'
        (fun y hy => hblank y ((List.rdropWhile_prefix _ _).subset hy)) hhead' (fun s => ?_) ?_
      · rw [hcells, ← List.append_assoc, dropTail_append, if_neg hnil, List.append_nil,
          List.append_assoc]
      · rw [hpieces, hsame.pieces]
      · rw [hsettle, hsame.settle]
    · exact .fused hp hsettled hl hkept (by rw [hcells, htail.dropTail_append hne]) hfront htail hbefore
        hstroke hcomment hblank hhead hpieces hsettle

/-! ## Taking out the last character that is seen -/

/-- What is seen last is seen last in one place. -/
theorem eq_of_seen_last {before before' after after' : List Cell} {y y' : Cell}
    (h : before ++ y :: after = before' ++ y' :: after') (hy : isBlank y.painted = false)
    (hy' : isBlank y'.painted = false) (hafter : ∀ z ∈ after, isBlank z.painted = true)
    (hafter' : ∀ z ∈ after', isBlank z.painted = true) :
    before = before' ∧ y = y' ∧ after = after' := by
  have hnot {cs : List Cell} {z : Cell} (hz : isBlank z.painted = false)
      (hcs : ∀ z ∈ cs, isBlank z.painted = true) : z ∉ cs := fun hmem => by
    rw [hcs z hmem] at hz
    cases hz
  obtain ⟨as, heq, hrest⟩ | ⟨as, heq, hrest⟩ := List.append_eq_append_iff.mp h
  · cases as with
    | nil =>
      obtain ⟨rfl, rfl⟩ := List.cons.inj hrest
      exact ⟨by rw [heq, List.append_nil], rfl, rfl⟩
    | cons a as =>
      obtain ⟨-, rfl⟩ := List.cons.inj hrest
      exact absurd (List.mem_append_right as List.mem_cons_self) (hnot hy' hafter)
  · cases as with
    | nil =>
      obtain ⟨rfl, rfl⟩ := List.cons.inj hrest
      exact ⟨by rw [heq, List.append_nil], rfl, rfl⟩
    | cons a as =>
      obtain ⟨-, rfl⟩ := List.cons.inj hrest
      exact absurd (List.mem_append_right as List.mem_cons_self) (hnot hy hafter')

/-- Behind something blank, what is seen is in the text behind it. -/
theorem exists_of_seen {front code before after : List Cell} {y : Cell}
    (h : front ++ code = before ++ y :: after) (hfront : ∀ z ∈ front, isBlank z.painted = true)
    (hy : isBlank y.painted = false) :
    ∃ as, before = front ++ as ∧ code = as ++ y :: after := by
  obtain ⟨as, rfl, hrest⟩ | ⟨as, rfl, hrest⟩ := List.append_eq_append_iff.mp h
  · exact ⟨as, rfl, hrest⟩
  · cases as with
    | nil => exact ⟨[], (List.append_nil _).symm ▸ (List.append_nil _).symm, hrest.symm⟩
    | cons a as =>
      obtain ⟨rfl, -⟩ := List.cons.inj hrest
      rw [hfront y (List.mem_append_right _ List.mem_cons_self)] at hy
      cases hy

/-- If something was added, the last of it is what is seen last. -/
theorem IsAdded.append_eq {cs tail before after : List Cell} {y z : Cell}
    (h : IsAdded (tail ++ [z])) (heq : before ++ y :: after = cs ++ (tail ++ [z]))
    (hseen : isBlank y.painted = false) (hafter : ∀ z ∈ after, isBlank z.painted = true) :
    before ++ after = cs ++ tail := by
  rw [← List.append_assoc] at heq
  obtain ⟨rfl, -, rfl⟩ := eq_of_seen_last heq hseen (h.visible z (by simp)).2 hafter
    (List.forall_mem_nil _)
  exact List.append_nil _

/-- A mark can be taken out of code behind which nothing is seen.  If a stroke stands before it and a
comment behind it, these come together. -/
theorem Edited.without_mark {c : Char} (hc : IsMark c) (hp : p.isInside = false)
    (hsettled : p.settle = p) (hl : '\n' ∉ l) (hkept : x.kept = false)
    {front before after : List Cell} {y : Cell} (hy : y.painted = c) (hfront : IsMargin front)
    (hcode : Faithful p (before ++ y :: after))
    (hsame : Same p (plain (before ++ y :: after)) (trimChars l))
    (hafter : ∀ z ∈ after, isBlank z.painted = true) :
    Edited p l rest { x with cells := front ++ (before ++ after) } := by
  obtain ⟨hrun, hbefore, hcomment, hpieces, hend⟩ := hcode.around hc hy
  by_cases hfuse : p.run (plain before) = .stroke ∧ isSecond (plain after).head? = true
  · refine .fused hp hsettled hl hkept (List.append_nil _).symm hfront (List.forall_mem_nil _)
      hbefore hfuse.1 hcomment hafter (hcomment.head?_of_blank hafter hfuse.2) (fun s => ?_) ?_
    · rw [← hsame.pieces, hpieces, List.map_append]
    · rw [← hsame.settle, hend]
  · obtain ⟨hcode', hpieces', hsettle'⟩ := hcode.without hc hy fun hstroke => by
      rw [not_and, Bool.not_eq_true] at hfuse
      exact hfuse hstroke
    have hsame' : Same p (plain (before ++ after)) (plain (before ++ y :: after)) :=
      ⟨fun s => by rw [hpieces'], hsettle'⟩
    exact .sound hp hsettled hl hkept (List.append_nil _).symm hfront (List.forall_mem_nil _)
      hcode' (hsame'.trans hsame) (absurd rfl) (absurd rfl)

/-- So is taking a mark from the end. -/
theorem Edited.withoutFinal {c : Char} (hc : IsMark c) (h : Edited p l rest x)
    (hkept : x.kept = false) {ds : List Cell} (hds : withoutFinal? c x.cells = some ds) :
    Edited p l rest { x with cells := ds } := by
  obtain ⟨before, y, after, hcells', rfl, hy, hafter⟩ := withoutFinal?_eq_some hds
  have hseen : isBlank y.painted = false := by obtain rfl | rfl := hc <;> rw [hy] <;> rfl
  cases h with
  | kept _ _ hkept' => rw [hkept] at hkept'; cases hkept'
  | @sound front code tail hp hsettled hl _ hcells hfront htail hcode hsame hlast hcodeSeen =>
    obtain rfl | ⟨tail, z, rfl⟩ := List.eq_nil_or_concat tail
    · rw [List.append_nil] at hcells
      obtain ⟨as, rfl, rfl⟩ := exists_of_seen (hcells.symm.trans hcells')
        (fun z hz => (hfront.blank z hz).2) hseen
      rw [List.append_assoc]
      exact .without_mark hc hp hsettled hl hkept hy hfront hcode hsame hafter
    · rw [List.concat_eq_append] at *
      have hne : tail ++ [z] ≠ [] := by simp
      exact .sound hp hsettled hl hkept
        (htail.append_eq (hcells'.symm.trans hcells) hseen hafter) hfront
        (fun w hw => htail w (List.mem_append_left _ hw)) hcode hsame (fun _ => hlast hne)
        fun _ => hcodeSeen hne
  | @fused front code comment tail hp hsettled hl _ hcells hfront htail hbefore hstroke hcomment
      hblank hhead hpieces hsettle =>
    obtain rfl | ⟨tail, z, rfl⟩ := List.eq_nil_or_concat tail
    · -- the last that is seen is the stroke
      have hne : p ≠ .stroke := by
        rintro rfl
        cases hsettled
      obtain ⟨ds, rfl⟩ := hbefore.exists_stroke hne hstroke
      have hstrokeCells : before ++ y :: after = (front ++ ds) ++ ('/', .code) :: comment := by
        rw [← hcells', hcells]
        simp
      obtain ⟨-, rfl, -⟩ := eq_of_seen_last hstrokeCells hseen rfl hafter hblank
      obtain rfl | rfl := hc <;> cases hy
    · rw [List.concat_eq_append] at *
      exact .fused hp hsettled hl hkept
        (htail.append_eq (hcells'.symm.trans hcells) hseen hafter) hfront
        (fun w hw => htail w (List.mem_append_left _ hw)) hbefore hstroke hcomment hblank hhead
        hpieces hsettle

/-! ## Exchanging quotes -/

theorem isBlank_painted_blurred (y : Cell) : isBlank y.blurred.painted = isBlank y.painted := by
  rw [Cell.painted_blurred]
  exact apply_blur (f := isBlank) rfl _

/-- So is exchanging quotes for another kind. -/
theorem Edited.requote {source target : Char} (hblur : blur source = blur target)
    (hquote : isQuote target = true) (hsource : source ≠ '\x60') (htarget : target ≠ '\x60')
    (h : Edited p l rest x) (hkept : x.kept = false) :
    Edited p l rest { x with cells := requoteFrom source target none x.cells } := by
  cases h with
  | kept _ _ hkept' => rw [hkept] at hkept'; cases hkept'
  | @sound front code tail hp hsettled hl _ hcells hfront htail hcode hsame hlast hseen =>
    obtain ⟨hcode', hrun, hpieces⟩ := hcode.requoteFrom hquote hsource htarget hp
    have hsame' : Same p (plain (requoteFrom source target none code)) (plain code) :=
      ⟨fun s => by rw [hpieces], by rw [hrun]⟩
    refine .sound hp hsettled hl hkept ?_ hfront htail hcode' (hsame'.trans hsame) hlast
      fun hne => ?_
    · rw [hcells, requoteFrom_between hfront.inert htail.inert]
    · obtain ⟨y, hy, hvisible⟩ := hseen hne
      have hmem : y.blurred ∈ (requoteFrom source target none code).map Cell.blurred := by
        rw [blurred_requoteFrom hblur code (by simp)]
        exact List.mem_map_of_mem hy
      obtain ⟨z, hz, heq⟩ := List.mem_map.mp hmem
      exact ⟨z, hz, by rw [← isBlank_painted_blurred, heq, isBlank_painted_blurred, hvisible]⟩
  | @fused front before comment tail hp hsettled hl _ hcells hfront htail hbefore hstroke hcomment
      hblank hhead hpieces hsettle =>
    obtain ⟨hbefore', hrun, hpieces'⟩ := hbefore.requoteFrom hquote hsource htarget hp
    have hunquoted : ∀ y ∈ comment, isQuote y.painted = false := by
      intro y hy
      by_contra hquoted
      rw [Bool.not_eq_false] at hquoted
      have hblanks := hblank y hy
      generalize y.painted = c at hquoted hblanks
      simp only [isQuote, Bool.or_eq_true, beq_iff_eq] at hquoted
      obtain (rfl | rfl) | rfl := hquoted <;> cases hblanks
    refine .fused hp hsettled hl hkept ?_ hfront htail hbefore' (hrun.trans hstroke) hcomment hblank
      hhead (fun s => ?_) hsettle
    · rw [hcells, requoteFrom_between hfront.inert htail.inert,
        requoteFrom_append_tail (by simp) hunquoted]
    · rw [hpieces, hpieces']

end Scaffold.Format
