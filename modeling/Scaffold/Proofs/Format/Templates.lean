import Scaffold.Proofs.Format.Passes

/-!
# Proofs/Format/Templates — when the template literals of a program survive formatting

No pass touches a line that begins in a template literal, and none adds to a literal that goes on.
The clean-up behind the passes makes no such exception: it takes the white space off the end of
every line and leaves one of neighbouring empty lines, inside literals as well.  So the literals of
a formatted program are those of the program, each cleaned up (`templates_formatText`), and they
survive exactly if there is nothing to clean up in them (`templates_kept_iff`).
-/

namespace Scaffold.Format

open Text Phase

/-! ## Template literals -/

/-- The template literals of a program, each as its lines, backticks included.  The last may be
unfinished. -/
def templates (cs : List Char) : List (List (List Char)) :=
  Span.template.ofLines .code (lines (unifyLineEnds cs))

/-- The program ends inside a template literal. -/
def endsInTemplate (cs : List Char) : Bool :=
  Span.template.holds (Phase.code.runLines (lines (unifyLineEnds cs)))

/-- The template literals that are finished. -/
def finishedTemplates (cs : List Char) : List (List (List Char)) :=
  if endsInTemplate cs then (templates cs).dropLast else templates cs

/-- The template literal that the program ends in. -/
def unfinishedTemplate? (cs : List Char) : Option (List (List Char)) :=
  if endsInTemplate cs then (templates cs).getLast? else none

/-- The lines of a literal, cleaned up. -/
def cleaned (t : List (List Char)) : List (List Char) := collapse (t.map trimRight)

/-- The lines of an unfinished literal, cleaned up: one line feed ends it. -/
def cleanedEnd (t : List (List Char)) : List (List Char) :=
  dropTail (· = []) (cleaned t) ++ [[]]

namespace Span

variable {p : Phase} {l : List Char}

/-! ## Pieces of template literals -/

/-- A template is entered and left at backticks only. -/
theorem eq_backtick {c : Char} (h : template.holds (p.step c) ≠ template.holds p) : c = '\x60' := by
  cases p with
  | code | stroke =>
    simp only [Phase.step, newline] at h
    split_ifs at h <;> simp_all [holds]
  | lineComment | blockComment | star =>
    simp only [Phase.step, newline] at h
    split_ifs at h <;> exact absurd rfl h
  | literal q | escape q =>
    simp only [Phase.step, newline] at h
    split_ifs at h <;> simp_all [holds]

theorem emit_template (p : Phase) (c : Char) :
    template.emit p c = if template.holds p || template.holds (p.step c) then [[c]] else [] := by
  rw [emit]
  cases template.holds p <;> rfl

/-- A piece of a line is one of the rest of the line, a backtick, or one of the rest with a
character in front. -/
theorem mem_pieces_cons {c : Char} {cs t : List Char} (h : t ∈ template.pieces p (c :: cs)) :
    cs ≠ [] ∧ t ∈ template.pieces (p.step c) cs ∨ t = [c] ∧ c = '\x60' ∨
      ∃ u ∈ template.pieces (p.step c) cs, t = c :: u := by
  rw [pieces_cons, emit_template] at h
  cases hstep : template.holds (p.step c) with
  | false =>
    rw [hstep, seam_false, List.mem_append] at h
    obtain h | h := h
    · cases hp : template.holds p with
      | false => rw [hp] at h; cases h
      | true =>
        rw [hp] at h
        exact .inr (.inl ⟨List.mem_singleton.mp h, eq_backtick (by rw [hstep, hp]; decide)⟩)
    · refine .inl ⟨?_, h⟩
      rintro rfl
      rw [template.pieces_nil_of_not_holds hstep] at h
      cases h
  | true =>
    rw [hstep, Bool.or_true, if_pos rfl] at h
    cases hpieces : template.pieces (p.step c) cs with
    | nil => exact absurd (template.holds_of_pieces_eq_nil hpieces).1 (by simp [hstep])
    | cons u us =>
      rw [hpieces, seam_singleton] at h
      obtain rfl | h := List.mem_cons.mp h
      · exact .inr (.inr ⟨u, List.mem_cons_self, rfl⟩)
      · refine .inl ⟨?_, List.mem_cons_of_mem u h⟩
        rintro rfl
        rw [template.pieces_nil_of_holds hstep] at hpieces
        obtain ⟨-, rfl⟩ := List.cons.inj hpieces
        cases h

/-- Only an empty line has an empty piece. -/
theorem eq_nil_of_mem_pieces (h : [] ∈ template.pieces p l) : l = [] := by
  induction l generalizing p with
  | nil => rfl
  | cons c cs ih =>
    obtain ⟨hne, h⟩ | ⟨h, -⟩ | ⟨u, -, h⟩ := mem_pieces_cons h
    · exact absurd (ih h) hne
    · cases h
    · cases h

/-- A piece ends in a backtick or with the line. -/
theorem getLast?_of_mem_pieces {t : List Char} (h : t ∈ template.pieces p l) {c : Char}
    (hc : t.getLast? = some c) : c = '\x60' ∨ l.getLast? = some c := by
  induction l generalizing p t with
  | nil =>
    rw [pieces] at h
    split at h
    · rw [List.mem_singleton.mp h] at hc
      cases hc
    · cases h
  | cons d ds ih =>
    have hrest {u : List Char} (hu : u ∈ template.pieces (p.step d) ds)
        (hlast : u.getLast? = some c) : c = '\x60' ∨ (d :: ds).getLast? = some c := by
      refine (ih hu hlast).imp_right fun hds => ?_
      cases ds with
      | nil => cases hds
      | cons e es => rwa [List.getLast?_cons_cons]
    obtain ⟨-, h⟩ | ⟨rfl, rfl⟩ | ⟨u, hu, rfl⟩ := mem_pieces_cons h
    · exact hrest h hc
    · exact .inl (Option.some.inj hc).symm
    · cases u with
      | nil =>
        rw [eq_nil_of_mem_pieces hu]
        exact .inr hc
      | cons e es => exact hrest hu (by rwa [List.getLast?_cons_cons] at hc)

/-- The clean-up of a line is the clean-up of its pieces. -/
theorem pieces_trimRight (hl : '\n' ∉ l) (p : Phase) :
    template.pieces p (trimRight l) = (template.pieces p l).map trimRight := by
  have htrimmed : ∀ t ∈ template.pieces p (trimRight l), trimRight t = t := by
    intro t ht
    refine dropTail_of_getLast fun c hc => ?_
    obtain rfl | hlast := getLast?_of_mem_pieces ht hc
    · rfl
    · obtain ⟨hne, rfl⟩ := List.mem_getLast?_eq_getLast hlast
      exact Bool.eq_false_iff.mpr (List.rdropWhile_last_not isBlank l hne)
  rw [(same_trimRight p hl).pieces, List.map_congr_left htrimmed, List.map_id']

end Span

/-! ## What becomes of the template literals of a line -/

variable {p : Phase} {l : List Char} {rest : List (List Char)} {x : Line}

theorem holds_template (hp : p.isInside = false) : Span.template.holds p = false := by
  cases p with
  | literal q | escape q => cases hp
  | code | stroke | lineComment | blockComment | star => rfl

theorem pieces_template_inert_append (hp : p.isInside = false) (hsettled : p.settle = p)
    {front : List Char} (hfront : ∀ c ∈ front, isInert c = true) (cs : List Char) :
    Span.template.pieces p (front ++ cs) = Span.template.pieces p cs := by
  rw [Span.template.pieces_append_left hfront hsettled, holds_template hp, seam_false,
    if_neg Bool.false_ne_true, List.nil_append]

/-- A stroke in front of a comment makes it a line comment, without a template literal. -/
theorem Faithful.pieces_template_stroke {comment : List Cell} (h : Faithful .code comment)
    (hblank : ∀ y ∈ comment, isBlank y.painted = true)
    (hhead : (plain comment).head? = some '/') {tail : List Char} (htail : '\n' ∉ tail) :
    Span.template.pieces .stroke (plain comment ++ tail) = [] := by
  obtain ⟨cs, rfl, -⟩ := h.exists_comment hblank hhead
  have hline : '\n' ∉ plain cs ++ tail := by
    rw [List.mem_append, not_or]
    exact ⟨List.not_mem_of_not_mem_cons h.oneLine, htail⟩
  exact (pieces_lineComment .template hline).1

/-- Outside of literals the white space around a line is not part of its template literals. -/
theorem pieces_trimChars (hp : p.isInside = false) (hsettled : p.settle = p) (hl : '\n' ∉ l) :
    (Span.template.pieces p (trimChars l)).map trimRight =
      (Span.template.pieces p l).map trimRight := by
  obtain ⟨front, hfront, heq⟩ := exists_eq_append_dropWhile isBlank l
  have hinert := inert_of_blank hl (by rw [heq]; exact List.subset_append_left _ _) hfront
  have hrest : '\n' ∉ trimLeft l := fun hfeed => hl ((List.dropWhile_suffix _).subset hfeed)
  have hleft := pieces_template_inert_append hp hsettled hinert (trimLeft l)
  rw [trimLeft, ← heq] at hleft
  rw [hleft]
  exact ((same_trimRight p hrest).pieces .template).symm

/-- **The template literals of a line are kept** but for white space at the ends of their lines,
unless something is added to the one that the program ends in. -/
theorem Edited.templates (h : Edited p l rest x)
    (hrest : Span.template.holds (p.run l) = true → p.isInside = true ∨ rest ≠ []) :
    Span.template.pieces p (trimRight (plain x.cells)) =
      (Span.template.pieces p l).map trimRight := by
  rw [Span.pieces_trimRight h.oneLine_plain]
  cases h with
  | kept _ _ _ _ hcells => rw [hcells, plain_phaseCells]
  | @sound front code tail hp hsettled hl _ hcells hfront htail hcode hsame hlast =>
    have hadded : Span.template.pieces p (plain code ++ plain tail) =
        Span.template.pieces p (plain code) := by
      by_cases hne : tail = []
      · rw [hne]
        exact congrArg _ (List.append_nil _)
      · refine Span.template.pieces_append_inert htail.plain_inert ?_
        by_contra hholds
        rw [Bool.not_eq_false, hsame.holds] at hholds
        have hend : Span.template.holds (p.run l) = true := by
          rw [← Span.holds_newline, ← newline_run_trimChars hsettled hl, Span.holds_newline,
            hholds]
        obtain hinside | hrest := hrest hend
        · rw [hp] at hinside
          cases hinside
        · exact hrest (hlast hne hholds)
    rw [hcells, plain_append, plain_append, List.append_assoc,
      pieces_template_inert_append hp hsettled hfront.plain_inert, hadded, hsame.pieces,
      pieces_trimChars hp hsettled hl]
  | @fused front before comment tail hp hsettled hl _ hcells hfront htail hbefore hstroke hcomment
      hblank hhead hpieces hsettle =>
    have hnot : Span.template.holds (p.run (plain before)) = false := by rw [hstroke]; rfl
    rw [← pieces_trimChars hp hsettled hl, hpieces, (hcomment.of_blank rfl hblank).2, hcells,
      plain_append, plain_append, plain_append, List.append_assoc, List.append_assoc,
      pieces_template_inert_append hp hsettled hfront.plain_inert,
      Span.template.pieces_append_of_not_holds hnot, hstroke,
      hcomment.pieces_template_stroke hblank hhead htail.oneLine, List.map_append]

/-! ## What becomes of the template literals of lines -/

theorem runLines_cons (p : Phase) (l : List Char) (ls : List (List Char)) :
    p.runLines (l :: ls) = (p.run l).newline.runLines ls := rfl

/-- No stroke has come before a block comment that goes on behind its line. -/
def KeepsOpen (ends : List Phase) (xs : List Line) : Prop :=
  ∀ e ∈ ends.zip xs, e.1.newline = .blockComment → fuses e.2.cells = false

/-- No stroke ever has, where semicolons and commas are added alone. -/
theorem keepsOpen_of_adding {o : Options} (hsemicolons : o.semicolons = true)
    (hcommas : o.trailingCommas = true) (cs : List Char) (ends : List Phase) :
    KeepsOpen ends (formattedLines o cs) := fun e he _ =>
  fuses_formattedLines hsemicolons hcommas cs e.2 (List.of_mem_zip he).2

section Formatted

variable {ls : List (List Char)} {xs : List Line} (h : Chained Edited p ls xs)
  (hopen : KeepsOpen (lineEnds p ls) xs)
include h hopen

/-- The formatted lines lead where the lines do. -/
theorem runLines_formattedLines :
    p.runLines (xs.map fun x => trimRight (plain x.cells)) = p.runLines ls := by
  induction h with
  | nil p => rfl
  | @cons p l x ls xs h hs ih =>
    obtain ⟨hfirst, hrest⟩ := List.forall_mem_cons.mp hopen
    rw [List.map_cons, runLines_cons, runLines_cons,
      ← (same_trimRight p h.oneLine_plain).newline, h.newline_eq hfirst, ih hrest]

/-- **The passes keep the template literals**, if the program does not end in one on the line on
which it begins. -/
theorem ofLines_formattedLines
    (hlast : Span.template.holds (p.runLines ls) = true → ∀ l ∈ ls.getLast?, l = []) :
    Span.template.ofLines p (xs.map fun x => trimRight (plain x.cells)) =
      (Span.template.ofLines p ls).map (·.map trimRight) := by
  induction h with
  | nil p =>
    rw [List.map_nil, Span.ofLines]
    split <;> rfl
  | @cons p l x ls xs h hs ih =>
    obtain ⟨hfirst, hrest⟩ := List.forall_mem_cons.mp hopen
    have hlines : Span.template.holds ((p.run l).newline.runLines ls) = true →
        ∀ k ∈ ls.getLast?, k = [] := by
      intro hends k hk
      refine hlast hends k ?_
      cases ls with
      | nil => cases hk
      | cons m ms => rwa [List.getLast?_cons_cons]
    have hadded : Span.template.holds (p.run l) = true → p.isInside = true ∨ ls ≠ [] := by
      intro hholds
      rw [or_iff_not_imp_right, not_ne_iff]
      rintro rfl
      have hnil : l = [] := hlast ((Span.holds_newline _).trans hholds) l rfl
      by_contra hp
      rw [Bool.not_eq_true] at hp
      have hnot : Span.template.holds (p.run []) = false := holds_template hp
      rw [hnil, hnot] at hholds
      cases hholds
    rw [List.map_cons, Span.ofLines_cons, Span.ofLines_cons, h.templates hadded,
      ← (same_trimRight p h.oneLine_plain).newline, h.newline_eq hfirst, ih hrest hlines,
      map_seam fun u v => List.map_append, List.map_map, List.map_map]
    rfl

end Formatted

/-! ## What becomes of template literals in the clean-up -/

theorem pieces_empty (p : Phase) :
    Span.template.pieces p [] = if Span.template.holds p then [[]] else [] := rfl

/-- Of two neighbouring empty lines one goes; any other line stays. -/
theorem collapse_cons (l : List Char) (ls : List (List Char)) :
    l = [] ∧ ls.head? = some [] ∧ collapse (l :: ls) = collapse ls ∨
      (l = [] → ls.head? ≠ some []) ∧ collapse (l :: ls) = l :: collapse ls := by
  cases l with
  | cons c l => exact .inr ⟨by simp, rfl⟩
  | nil =>
    cases ls with
    | nil => exact .inr ⟨by simp, rfl⟩
    | cons k ks =>
      cases k with
      | nil => exact .inl ⟨rfl, rfl, rfl⟩
      | cons c k => exact .inr ⟨by simp, rfl⟩

/-- Empty lines lead nowhere. -/
theorem runLines_collapse (hp : p.newline = p) (ls : List (List Char)) :
    p.runLines (collapse ls) = p.runLines ls := by
  induction ls generalizing p with
  | nil => rfl
  | cons l ls ih =>
    obtain ⟨rfl, -, hgone⟩ | ⟨-, hstays⟩ := collapse_cons l ls
    · have hempty : (p.run []).newline = p := hp
      rw [hgone, ih hp, runLines_cons, hempty]
    · rw [hstays, runLines_cons, runLines_cons, ih (newline_newline _)]

theorem exists_ofLines (hp : Span.template.holds p = true) (ls : List (List Char)) :
    ∃ t ts, Span.template.ofLines p ls = t :: ts := by
  refine List.exists_cons_of_ne_nil fun hnil => ?_
  rw [(Span.template.holds_of_ofLines_eq_nil hnil).1] at hp
  cases hp

/-- A literal begins with an empty line only in front of one. -/
theorem head?_of_ofLines (hp : Span.template.holds p = true) {ls : List (List Char)}
    {t : List (List Char)} {ts : List (List (List Char))}
    (h : Span.template.ofLines p ls = t :: ts) (ht : t.head? = some []) : ls.head? = some [] := by
  cases ls with
  | nil =>
    rw [Span.ofLines, if_pos hp] at h
    obtain ⟨rfl, -⟩ := List.cons.inj h
    cases ht
  | cons l ls =>
    cases hpieces : Span.template.pieces p l with
    | nil => exact absurd (Span.template.holds_of_pieces_eq_nil hpieces).1 (by simp [hp])
    | cons v vs =>
      rw [Span.ofLines_cons, hpieces, List.map_cons] at h
      obtain ⟨rest, ws, hfirst⟩ := exists_seam_cons (Span.template.holds (p.run l).newline) v
        (vs.map ([·])) (Span.template.ofLines (p.run l).newline ls)
      obtain ⟨rfl, -⟩ := List.cons.inj (hfirst.symm.trans h)
      have hempty : [] ∈ Span.template.pieces p l := by
        rw [hpieces, Option.some.inj ht]
        exact List.mem_cons_self
      rw [Span.eq_nil_of_mem_pieces hempty]
      rfl

/-- Of neighbouring empty lines in a template literal one is left. -/
theorem ofLines_collapse (hp : p.newline = p) (ls : List (List Char)) :
    Span.template.ofLines p (collapse ls) = (Span.template.ofLines p ls).map collapse := by
  induction ls generalizing p with
  | nil =>
    change Span.template.ofLines p [] = (Span.template.ofLines p []).map collapse
    rw [Span.ofLines]
    split <;> rfl
  | cons l ls ih =>
    obtain ⟨rfl, hhead, hgone⟩ | ⟨hne, hstays⟩ := collapse_cons l ls
    · have hempty : (p.run []).newline = p := hp
      obtain ⟨ms, rfl⟩ := List.head?_eq_some_iff.mp hhead
      rw [hgone, ih hp, Span.ofLines_cons _ p [] ([] :: ms), hempty, Span.ofLines_cons, hempty,
        pieces_empty]
      cases hholds : Span.template.holds p with
      | false => rfl
      | true =>
        obtain ⟨t, ts, hts⟩ := exists_ofLines hholds ms
        rw [hts]
        rfl
    · have hlone : ∀ us : List (List Char), (us.map ([·])).map collapse = us.map ([·]) := by
        intro us
        rw [List.map_map]
        refine List.map_congr_left fun v _ => ?_
        cases v <;> rfl
      rw [hstays, Span.ofLines_cons, Span.ofLines_cons, ih (newline_newline _)]
      cases hnext : Span.template.holds (p.run l).newline with
      | false => rw [seam_false, seam_false, List.map_append, hlone]
      | true =>
        obtain ⟨t, ts, hts⟩ := exists_ofLines hnext ls
        obtain hnil | ⟨us, v, hus⟩ := List.eq_nil_or_concat (Span.template.pieces p l)
        · rw [hnil]
          rfl
        · have hsplit : collapse (v :: t) = v :: collapse t := by
            obtain ⟨rfl, ht, -⟩ | ⟨-, hsplit⟩ := collapse_cons v t
            · have hmem : [] ∈ Span.template.pieces p l := by
                rw [hus]
                simp
              exact absurd (head?_of_ofLines hnext hts ht) (hne (Span.eq_nil_of_mem_pieces hmem))
            · exact hsplit
          rw [hus, hts, List.concat_eq_append, List.map_append, List.map_singleton, List.map_cons,
            seam_true, seam_true, List.map_append, hlone, List.map_cons, List.singleton_append,
            List.singleton_append, hsplit]

/-! ### At the ends of a program -/

theorem runLines_append (p : Phase) (ls ms : List (List Char)) :
    p.runLines (ls ++ ms) = (p.runLines ls).runLines ms := List.foldl_append

theorem newline_runLines (hp : p.newline = p) (ls : List (List Char)) :
    (p.runLines ls).newline = p.runLines ls := by
  induction ls generalizing p with
  | nil => exact hp
  | cons l ls ih => exact ih (newline_newline _)

/-- Empty lines lead nowhere; in a template literal they are its lines. -/
theorem ofLines_blanks (hp : p.newline = p) {blanks : List (List Char)}
    (h : ∀ l ∈ blanks, l = []) :
    p.runLines blanks = p ∧
      Span.template.ofLines p blanks = if Span.template.holds p then [blanks] else [] := by
  induction blanks with
  | nil => exact ⟨rfl, rfl⟩
  | cons l blanks ih =>
    obtain ⟨rfl, hblanks⟩ := List.forall_mem_cons.mp h
    obtain ⟨hrun, hlines⟩ := ih hblanks
    have hempty : (p.run []).newline = p := hp
    rw [runLines_cons, Span.ofLines_cons, hempty, hrun, hlines, pieces_empty]
    refine ⟨rfl, ?_⟩
    cases Span.template.holds p <;> rfl

/-- Empty lines in front of a program are in no literal. -/
theorem ofLines_dropWhile (ls : List (List Char)) :
    Phase.code.runLines (ls.dropWhile (· = [])) = Phase.code.runLines ls ∧
      Span.template.ofLines .code (ls.dropWhile (· = [])) = Span.template.ofLines .code ls := by
  induction ls with
  | nil => exact ⟨rfl, rfl⟩
  | cons l ls ih =>
    cases l with
    | nil => exact ih
    | cons c l => exact ⟨rfl, rfl⟩

/-- Lines, and the empty ones at their end. -/
theorem exists_dropTail (ls : List (List Char)) : ∃ code blanks, ls = code ++ blanks ∧
    (∀ l ∈ blanks, l = []) ∧ code.getLast? ≠ some [] := by
  obtain ⟨blanks, hblanks, heq⟩ :=
    exists_eq_dropTail_append (fun l : List Char => decide (l = [])) ls
  refine ⟨_, blanks, heq, fun l hl => of_decide_eq_true (hblanks l hl), fun hlast => ?_⟩
  obtain ⟨hne, hnil⟩ := List.mem_getLast?_eq_getLast hlast
  exact List.rdropWhile_last_not (fun l : List Char => decide (l = [])) ls hne
    (decide_eq_true hnil.symm)

theorem dropTail_blanks {code blanks : List (List Char)} (h : ∀ l ∈ blanks, l = [])
    (hlast : code.getLast? ≠ some []) : dropTail (· = []) (code ++ blanks) = code := by
  rw [dropTail_append_of_all fun l hl => decide_eq_true (h l hl)]
  refine dropTail_of_getLast fun l hl => decide_eq_false ?_
  rintro rfl
  exact hlast hl

/-- The literal that lines end in has a part of the last of them. -/
theorem getLast?_of_ofLines {ls : List (List Char)} {ts : List (List (List Char))}
    {t : List (List Char)} (h : Span.template.ofLines p ls = ts ++ [t])
    (hends : Span.template.holds (p.runLines ls) = true) (hlast : ls.getLast? ≠ some []) :
    t.getLast? ≠ some [] := by
  obtain rfl | ⟨ls, l, rfl⟩ := List.eq_nil_or_concat ls
  · change Span.template.holds p = true at hends
    rw [Span.ofLines, if_pos hends] at h
    have ht : t ∈ [[]] := by
      rw [h]
      exact List.mem_append_right ts List.mem_cons_self
    rw [List.mem_singleton.mp ht]
    exact (Option.some_ne_none []).symm
  · rw [List.concat_eq_append] at h hends hlast
    rw [runLines_append] at hends
    change Span.template.holds (((p.runLines ls).run l).newline) = true at hends
    obtain hnil | ⟨us, v, hus⟩ := List.eq_nil_or_concat (Span.template.pieces (p.runLines ls) l)
    · have hnot := (Span.template.holds_of_pieces_eq_nil hnil).2
      rw [Span.template.holds_of_newline hends] at hnot
      cases hnot
    · have hv : v ≠ [] := by
        rintro rfl
        have hmem : [] ∈ Span.template.pieces (p.runLines ls) l := by
          rw [hus]
          simp
        rw [Span.eq_nil_of_mem_pieces hmem, List.getLast?_concat] at hlast
        exact hlast rfl
      have hline : Span.template.ofLines (p.runLines ls) [l] = us.map ([·]) ++ [[v]] := by
        rw [Span.ofLines_cons, hends, Span.ofLines, if_pos hends, hus, List.concat_eq_append,
          List.map_append, List.map_singleton, seam_true]
        rfl
      rw [Span.ofLines_append, hline] at h
      obtain ⟨ws, w, hseam, x, rfl⟩ := exists_seam_concat (Span.template.holds (p.runLines ls))
        (Span.template.ofLines p ls) (us.map ([·])) [v]
      obtain ⟨-, ht⟩ := List.append_inj' (hseam.symm.trans h) rfl
      rw [← List.singleton_inj.mp ht, List.getLast?_concat]
      exact fun hsome => hv (Option.some.inj hsome)

/-- Where no literal goes on, empty lines at the end do not count; one that does ends in one of
them. -/
theorem ofLines_dropTail (hp : p.newline = p) (ls : List (List Char)) :
    Span.template.holds (p.runLines ls) = false ∧
        Span.template.ofLines p (dropTail (· = []) ls ++ [[]]) = Span.template.ofLines p ls ∨
      Span.template.holds (p.runLines ls) = true ∧ ∃ ts t, Span.template.ofLines p ls = ts ++ [t] ∧
        Span.template.ofLines p (dropTail (· = []) ls ++ [[]]) =
          ts ++ [dropTail (· = []) t ++ [[]]] := by
  obtain ⟨code, blanks, rfl, hblanks, hlast⟩ := exists_dropTail ls
  have hbehind {blanks : List (List Char)} (h : ∀ l ∈ blanks, l = []) :
      Span.template.ofLines p (code ++ blanks) =
        seam (Span.template.holds (p.runLines code)) (Span.template.ofLines p code)
          (if Span.template.holds (p.runLines code) then [blanks] else []) := by
    rw [Span.ofLines_append, (ofLines_blanks (newline_runLines hp code) h).2]
  rw [dropTail_blanks hblanks hlast, runLines_append,
    (ofLines_blanks (newline_runLines hp code) hblanks).1, hbehind hblanks,
    hbehind (List.forall_mem_singleton.mpr rfl)]
  cases hends : Span.template.holds (p.runLines code) with
  | false => exact .inl ⟨rfl, rfl⟩
  | true =>
    obtain hnil | ⟨ts, t, hts⟩ := List.eq_nil_or_concat (Span.template.ofLines p code)
    · rw [(Span.template.holds_of_ofLines_eq_nil hnil).2] at hends
      cases hends
    · rw [List.concat_eq_append] at hts
      refine .inr ⟨rfl, ts, t ++ blanks, ?_, ?_⟩
      · rw [hts, if_pos rfl, seam_true]
      · rw [hts, if_pos rfl, seam_true,
          dropTail_blanks hblanks (getLast?_of_ofLines hts hends hlast)]

/-! ### The clean-up -/

/-- The lines of a cleaned-up text, as far as template literals go. -/
theorem ofLines_finish {ks : List (List Char)} (h : ∀ k ∈ ks, '\n' ∉ k) :
    Span.template.ofLines .code (lines (finish ks)) = Span.template.ofLines .code
      (dropTail (· = []) ((collapse (ks.map trimRight)).dropWhile (· = [])) ++ [[]]) := by
  have hpieces : lines (finish ks) =
      pieces '\n' (joinWith ['\n'] (unspaced (spaced (ks.map trimRight)))) ++ [[]] := by
    rw [finish_eq, lines]
    exact pieces_append_cons _ []
  rw [trim_collapse, hpieces]
  by_cases hne : unspaced (spaced (ks.map trimRight)) = []
  · rw [hne]
    rfl
  · rw [pieces_joinWith hne (mem_of_mem_unspaced List.not_mem_nil (oneLine_of_mem_trimmed h))]

/-! ## What becomes of the template literals of a program -/

section Program

variable (o : Options) {language : Option String} (h : Tag.of? language = some .code)
  {content : String} (hopen : KeepsOpen (lineEnds .code (lines (unifyLineEnds content.toList)))
    (formattedLines o (unifyLineEnds content.toList)))
include h hopen

/-- **Formatting cleans up template literals.**  An unfinished one gets an empty line at its end;
only if it has one already, is that all. -/
theorem templates_formatText :
    if endsInTemplate content.toList then
      ∃ ts t ts' t', templates content.toList = ts ++ [t] ∧
        templates (formatText o language content).toList =
          ts' ++ [dropTail (· = []) t' ++ [[]]] ∧
        (t.getLast? = some [] → ts' = ts.map cleaned ∧ t' = cleaned t)
    else templates (formatText o language content).toList =
      (templates content.toList).map cleaned := by
  let program := unifyLineEnds content.toList
  let trimmed := (formattedLines o program).map fun x => trimRight (plain x.cells)
  have hedited := edited_formattedLines o program
  have hlines := oneLine_formattedLines o program
  have htext : (formatText o language content).toList = formatCode o program := by
    rw [formatText, h]
    exact String.toList_ofList
  have hformatted : templates (formatText o language content).toList = Span.template.ofLines .code
      (dropTail (· = []) ((collapse trimmed).dropWhile (· = [])) ++ [[]]) := by
    rw [templates, htext, formatCode_eq_finish, unifyLineEnds_finish hlines, ofLines_finish hlines,
      List.map_map]
    rfl
  have hcleaned (hlast : endsInTemplate content.toList = true →
      ∀ l ∈ (lines program).getLast?, l = []) :
      (Span.template.ofLines .code trimmed).map collapse =
        (templates content.toList).map cleaned := by
    rw [ofLines_formattedLines hedited hopen hlast, List.map_map]
    rfl
  -- the phases at the ends of the program and of the formatted one are the same
  obtain ⟨hrun, hwhole⟩ := ofLines_dropWhile (collapse trimmed)
  have htail := ofLines_dropTail (p := .code) rfl ((collapse trimmed).dropWhile (· = []))
  rw [hrun, runLines_collapse rfl, runLines_formattedLines hedited hopen, hwhole,
    ofLines_collapse rfl, ← hformatted] at htail
  change endsInTemplate content.toList = false ∧ _ ∨ endsInTemplate content.toList = true ∧ _
    at htail
  obtain ⟨hends, hkept⟩ | ⟨hends, ts', t', hts', hout⟩ := htail
  · rw [hends, hkept, hcleaned (by simp [hends])]
    rfl
  · rw [if_pos hends]
    obtain hnil | ⟨ts, t, hts⟩ := List.eq_nil_or_concat (templates content.toList)
    · have hnot : endsInTemplate content.toList = false :=
        (Span.template.holds_of_ofLines_eq_nil hnil).2
      rw [hnot] at hends
      cases hends
    · rw [List.concat_eq_append] at hts
      refine ⟨ts, t, ts', t', hts, hout, fun ht => ?_⟩
      have hlast : (lines program).getLast? = some [] := by
        by_contra hlast
        exact getLast?_of_ofLines hts hends hlast ht
      rw [hcleaned fun _ l hl => Option.some.inj (hl.symm.trans hlast), hts, List.map_append,
        List.map_singleton] at hts'
      obtain ⟨hfirst, hend⟩ := List.append_inj' hts' rfl
      exact ⟨hfirst.symm, (List.singleton_inj.mp hend).symm⟩

/-- **When template literals survive formatting.**  If no stroke has come before a block comment
that goes on, a formatted program has the template literals that it had exactly if the clean-up
would leave each of them as it is. -/
theorem templates_kept_iff :
    templates (formatText o language content).toList = templates content.toList ↔
      (∀ t ∈ finishedTemplates content.toList, cleaned t = t) ∧
        ∀ t ∈ unfinishedTemplate? content.toList, cleanedEnd t = t := by
  have hformatted := templates_formatText o h hopen
  have hmap (ts : List (List (List Char))) : ts.map cleaned = ts ↔ ∀ t ∈ ts, cleaned t = t := by
    conv_lhs => rhs; rw [← List.map_id ts]
    exact List.map_inj_left
  cases hends : endsInTemplate content.toList with
  | false =>
    rw [hends] at hformatted
    rw [finishedTemplates, unfinishedTemplate?, hends, hformatted]
    simpa using hmap _
  | true =>
    rw [hends] at hformatted
    obtain ⟨ts, t, ts', t', hts, hout, hkept⟩ := hformatted
    have hlast {u : List (List Char)} : (u ++ [[]]).getLast? = some [] := List.getLast?_concat
    rw [finishedTemplates, unfinishedTemplate?, if_pos hends, if_pos hends, hout, hts,
      List.dropLast_concat, List.getLast?_concat, ← hmap]
    simp only [Option.mem_def, Option.some.injEq, forall_eq']
    constructor
    · intro hsame
      obtain ⟨rfl, hend⟩ := List.append_inj' hsame rfl
      have ht := List.singleton_inj.mp hend
      obtain ⟨hfirst, rfl⟩ := hkept (by rw [← ht, hlast])
      exact ⟨hfirst.symm, ht⟩
    · rintro ⟨hfirst, ht⟩
      obtain ⟨rfl, rfl⟩ := hkept (by rw [← ht, cleanedEnd, hlast])
      rw [hfirst]
      exact congrArg (fun u => ts ++ [u]) ht

end Program

/-- A literal over two lines, with white space only where a line begins. -/
theorem templates_kept_iff_tidy :
    Tag.of? (some "typescript") = some .code ∧
      KeepsOpen (lineEnds .code (lines (unifyLineEnds "const a = `x\n  y`;\n".toList)))
        (formattedLines Options.default (unifyLineEnds "const a = `x\n  y`;\n".toList)) ∧
      templates (formatText Options.default (some "typescript") "const a = `x\n  y`;\n").toList =
        templates "const a = `x\n  y`;\n".toList :=
  ⟨rfl, keepsOpen_of_adding rfl rfl _ _,
    (templates_kept_iff Options.default rfl (keepsOpen_of_adding rfl rfl _ _)).mpr (by decide)⟩

/-- White space at the end of a line of a literal is taken off. -/
theorem templates_changed_blanks :
    templates (formatText Options.default (some "typescript") "const a = `x  \ny`;\n").toList ≠
      templates "const a = `x  \ny`;\n".toList := by
  decide

end Scaffold.Format
