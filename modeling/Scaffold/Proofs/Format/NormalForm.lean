import Mathlib.Data.List.Chain
import Scaffold.Proofs.Format.Characters
import Scaffold.Proofs.Format.Indentation
import Scaffold.Proofs.Format.Markdown
import Scaffold.Proofs.Format.Passes

/-!
# Proofs/Format/NormalForm — formatted texts are in normal form

In **normal form** no line ends in white space, no two empty lines follow each other, the first line
is not empty, and one line feed ends the text.  The finishing pass brings lines into normal form as
soon as anything is seen in them (`isNormal_finish`); nothing but a line feed is left of the others.
SQL and Markdown keep all that is seen.  A program can lose its semicolons: if there is nothing else
in it, one on a line (`IsHollow`), nothing is left of it (`visible_formatCode_eq_nil_iff`).
-/

namespace Scaffold.Format

open Text Sql

/-- The normal form of a text. -/
structure IsNormal (cs : List Char) : Prop where
  /-- No line ends in white space. -/
  trimmed : ∀ c, isBlank c = true → c ≠ '\n' → ¬[c, '\n'] <:+: cs
  /-- No two empty lines follow each other. -/
  single : ¬['\n', '\n', '\n'] <:+: cs
  /-- The first line is not empty. -/
  headed : ¬['\n'] <+: cs
  /-- One line feed ends the text. -/
  ended : ['\n'] <:+ cs ∧ ¬['\n', '\n'] <:+ cs

theorem not_isNormal_lineFeed : ¬IsNormal ['\n'] := fun h => h.headed (List.prefix_refl _)

/-! ## Lines in normal form -/

/-- Lines that make up a text in normal form. -/
structure AreNormal (ls : List (List Char)) : Prop where
  oneLine : ∀ l ∈ ls, '\n' ∉ l
  trimmed : ∀ l ∈ ls, ∀ c ∈ l.getLast?, isBlank c = false
  single : ls.IsChain fun l m => l ≠ [] ∨ m ≠ []
  headed : ls.head? ≠ some []
  ended : ls.getLast? ≠ some []

theorem lines_joinWith {ls : List (List Char)} (hne : ls ≠ []) (h : ∀ l ∈ ls, '\n' ∉ l) :
    lines (joinWith ['\n'] ls ++ ['\n']) = ls ++ [[]] := by
  rw [lines, pieces_append_cons, pieces_joinWith hne h]
  rfl

theorem lines_append_lineFeed (as bs : List Char) : lines (as ++ '\n' :: bs) = lines as ++ lines bs :=
  pieces_append_cons as bs

namespace AreNormal

variable {ls : List (List Char)} (h : AreNormal ls)
include h

/-- What stands in front of a line feed is the end of a line. -/
theorem isBlank_of_infix {c : Char} (hfeed : c ≠ '\n') {as bs : List Char}
    (hlines : lines (as ++ [c] ++ '\n' :: bs) = ls ++ [[]]) : isBlank c = false := by
  have hmem : leftover as ++ [c] ∈ ls ++ [[]] := by
    rw [← hlines, lines_append_lineFeed, lines_eq (as ++ [c]),
      leftover_append (by simpa using hfeed.symm)]
    simp
  obtain hmem | hmem := List.mem_append.mp hmem
  · exact h.trimmed _ hmem c (by simp)
  · simp at hmem

/-- Two line feeds more are two empty lines, and not the last ones. -/
theorem lines_ne_of_infix (as bs : List Char) :
    lines (as ++ '\n' :: '\n' :: '\n' :: bs) ≠ ls ++ [[]] := by
  intro hlines
  obtain ⟨ms, m, hms⟩ : ∃ ms m, lines bs = ms ++ [m] := ⟨_, _, lines_eq bs⟩
  have hempty : lines (as ++ '\n' :: '\n' :: '\n' :: bs) =
      lines as ++ [[], []] ++ ms ++ [m] := by
    rw [lines_append_lineFeed, List.append_assoc, List.append_assoc, ← hms]
    rfl
  have hpair : lines as ++ [[], []] ++ ms = ls :=
    List.append_inj_left' (hempty.symm.trans hlines) rfl
  have hchain := h.single
  rw [← hpair] at hchain
  simpa using hchain.left_of_append.right_of_append

/-- Lines in normal form make a text in normal form. -/
theorem isNormal (hne : ls ≠ []) : IsNormal (joinWith ['\n'] ls ++ ['\n']) := by
  have hlines := lines_joinWith hne h.oneLine
  constructor
  · rintro c hc hfeed ⟨as, bs, heq⟩
    have hsplit : lines (as ++ [c] ++ '\n' :: bs) = ls ++ [[]] := by
      rw [← hlines, ← heq]
      simp
    rw [h.isBlank_of_infix hfeed hsplit] at hc
    cases hc
  · rintro ⟨as, bs, heq⟩
    refine h.lines_ne_of_infix as bs ?_
    rw [← hlines, ← heq]
    simp
  · rintro ⟨bs, heq⟩
    have hsplit : [] :: lines bs = ls ++ [[]] := by
      rw [← hlines, ← heq]
      rfl
    refine h.headed ?_
    obtain ⟨l, ls, rfl⟩ := List.exists_cons_of_ne_nil hne
    exact congrArg some (List.cons.inj hsplit).1.symm
  · refine ⟨List.suffix_append _ _, ?_⟩
    rintro ⟨as, heq⟩
    have hsplit : lines as ++ [[]] ++ [[]] = ls ++ [[]] := by
      rw [← hlines, ← heq, lines_append_lineFeed, List.append_assoc]
      rfl
    refine h.ended ?_
    rw [← List.append_inj_left' hsplit rfl, List.getLast?_concat]

end AreNormal

/-! ## The finishing pass -/

section Unspaced

variable {ps : List (Bool × List Char)} (h : ∀ x ∈ ps, x.2 ≠ [])
include h

/-- No two empty lines follow each other. -/
theorem isChain_unspaced : (unspaced ps).IsChain fun l m => l ≠ [] ∨ m ≠ [] := by
  induction ps with
  | nil => exact .nil
  | cons x ps ih =>
    obtain ⟨gap, l⟩ := x
    obtain ⟨hl, hps⟩ := List.forall_mem_cons.mp h
    have hrest : (l :: unspaced ps).IsChain fun l m => l ≠ [] ∨ m ≠ [] :=
      (ih hps).cons fun _ _ => .inl hl
    rw [unspaced_cons]
    cases gap with
    | false => exact hrest
    | true => exact hrest.cons fun m hm => .inr (Option.some.inj hm ▸ hl)

/-- The last line is not empty. -/
theorem getLast?_unspaced : (unspaced ps).getLast? ≠ some [] := by
  obtain rfl | ⟨front, ⟨gap, l⟩, rfl⟩ := List.eq_nil_or_concat ps
  · simp [unspaced]
  · have hl : l ≠ [] := h (gap, l) (by simp)
    rw [List.concat_eq_append, unspaced, List.flatMap_append, List.flatMap_singleton]
    cases gap with
    | false => simpa using hl
    | true => simpa using hl

end Unspaced

theorem ne_nil_of_mem_spaced {ls : List (List Char)} : ∀ x ∈ spaced ls, x.2 ≠ [] := by
  intro x hx hnil
  have hmem : x.2 ∈ filled ls := map_snd_spaced ls ▸ List.mem_map_of_mem hx
  simpa [hnil] using (List.mem_filter.mp hmem).2

/-- Nor is the first. -/
theorem head?_unspaced_spaced (ls : List (List Char)) : (unspaced (spaced ls)).head? ≠ some [] := by
  induction ls with
  | nil => simp [spaced, unspaced]
  | cons l ls ih =>
    rw [spaced]
    split
    · exact ih
    · rename_i hl
      rw [unspaced_cons, if_neg Bool.false_ne_true]
      simpa using hl

section Finish

variable {ls : List (List Char)} (h : ∀ l ∈ ls, '\n' ∉ l)
include h

/-- What is finished is in normal form. -/
theorem areNormal_finish : AreNormal (unspaced (spaced (ls.map trimRight))) where
  oneLine := mem_of_mem_unspaced List.not_mem_nil (oneLine_of_mem_trimmed h)
  trimmed := by
    refine mem_of_mem_unspaced (P := fun l => ∀ c ∈ l.getLast?, isBlank c = false) nofun ?_
    refine List.forall_mem_map.mpr fun l _ c hc => ?_
    obtain ⟨hne, rfl⟩ := List.mem_getLast?_eq_getLast hc
    exact Bool.eq_false_iff.mpr (List.rdropWhile_last_not isBlank l hne)
  single := isChain_unspaced ne_nil_of_mem_spaced
  headed := head?_unspaced_spaced _
  ended := getLast?_unspaced ne_nil_of_mem_spaced

/-- Lines in which something is seen are brought into normal form. -/
theorem isNormal_finish (hseen : visible (finish ls) ≠ []) : IsNormal (finish ls) := by
  rw [finish_eq] at hseen ⊢
  refine (areNormal_finish h).isNormal fun hnil => ?_
  rw [hnil] at hseen
  exact hseen rfl

/-- Of lines in which nothing is seen one line feed is left. -/
theorem finish_eq_lineFeed (hseen : visible (finish ls) = []) : finish ls = ['\n'] := by
  have hblank : ls.map trimRight = List.replicate ls.length [] := by
    rw [visible_finish h, List.flatMap_eq_nil_iff] at hseen
    refine List.eq_replicate_iff.mpr ⟨List.length_map .., List.forall_mem_map.mpr fun l hl => ?_⟩
    rw [trimRight, dropTail, List.reverse_eq_nil_iff, List.dropWhile_eq_nil_iff]
    exact fun c hc => visible_eq_nil_iff.mp (hseen l hl) c (List.mem_reverse.mp hc)
  have hspaced : spaced (List.replicate ls.length []) = [] := by
    induction ls.length with
    | zero => rfl
    | succ n ih => exact ih
  rw [finish_eq, hblank, hspaced]
  rfl

end Finish

/-! ## SQL -/

/-- Formatting leaves something to be seen exactly if there was something. -/
theorem Sql.visible_format_eq_nil_iff (cs : List Char) : visible (Sql.format cs) = [] ↔
    visible cs = [] := by
  rw [visible_eq (Sql.format cs), visible_eq cs]
  have hcores := cased_cores_format cs
  generalize cores (lines cs) = ls at hcores
  generalize cores (lines (Sql.format cs)) = ms at hcores
  have hlength : (ls.flatMap visible).length = (ms.flatMap visible).length := by
    induction hcores with
    | nil => rfl
    | cons hlm _ ih =>
      rw [List.flatMap_cons, List.flatMap_cons, List.length_append, List.length_append, ih,
        (cased_visible hlm).length_eq]
  rw [← List.length_eq_zero_iff, ← hlength, List.length_eq_zero_iff]

/-! ## Programs -/

/-- No line holds more than a semicolon. -/
def IsHollow (cs : List Char) : Prop :=
  ∀ l ∈ lines cs, trimChars l = [] ∨ trimChars l = [';']

instance (cs : List Char) : Decidable (IsHollow cs) :=
  inferInstanceAs (Decidable (∀ l ∈ lines cs, trimChars l = [] ∨ trimChars l = [';']))

/-- A line is blank if nothing of it can be seen. -/
theorem trimChars_eq_nil_iff_visible {l : List Char} : trimChars l = [] ↔ visible l = [] := by
  rw [← visible_trimChars]
  refine ⟨fun h => by rw [h]; rfl, fun h => ?_⟩
  cases htrim : trimChars l with
  | nil => rfl
  | cons c cs =>
    have hfirst : isBlank c = false := (isTrimmed_trim (p := isBlank) l).first c (by
      change c ∈ (trimChars l).head?
      rw [htrim]
      rfl)
    rw [visible_eq_nil_iff, htrim] at h
    rw [h c List.mem_cons_self] at hfirst
    cases hfirst

/-- A line is one character if only that can be seen of it. -/
theorem trimChars_eq_singleton_iff_visible {l : List Char} {c : Char} (hc : isBlank c = false) :
    trimChars l = [c] ↔ visible l = [c] := by
  rw [← visible_trimChars]
  refine ⟨fun h => by rw [h]; simp [visible, hc], fun h => ?_⟩
  have htrimmed : IsTrimmed isBlank (trimChars l) := isTrimmed_trim l
  cases htrim : trimChars l with
  | nil =>
    rw [htrim] at h
    cases h
  | cons d ds =>
    rw [htrim] at h htrimmed
    have hd : visible (d :: ds) = d :: visible ds :=
      List.filter_cons_of_pos (by rw [htrimmed.first d rfl]; rfl)
    obtain ⟨rfl, hds⟩ := List.cons.inj (hd.symm.trans h)
    obtain rfl | ⟨front, e, rfl⟩ := List.eq_nil_or_concat ds
    · rfl
    · rw [List.concat_eq_append] at hds htrimmed
      have hlast : isBlank e = false := htrimmed.last e <| by
        rw [← List.cons_append]
        exact List.getLast?_concat
      rw [visible_eq_nil_iff.mp hds e (by simp)] at hlast
      cases hlast

theorem isHollow_iff {cs : List Char} :
    IsHollow cs ↔ ∀ l ∈ lines cs, visible l = [] ∨ visible l = [';'] :=
  forall₂_congr fun _ _ =>
    or_congr trimChars_eq_nil_iff_visible (trimChars_eq_singleton_iff_visible rfl)

/-! ### What is seen of the lines -/

/-- What is seen of a line. -/
def Line.seen (x : Line) : List Char := visible (plain x.cells)

/-- Layout changes nothing that can be seen. -/
theorem seen_layoutLine (o : Options) (stack : List Open) (continued : Bool) (cs : List Cell) :
    (layoutLine o.indentUnit stack continued cs).1.seen = visible (plain cs) := by
  have htrim : visible (plain (trimCells cs)) = visible (plain cs) := by
    rw [plain_trimCells, visible_trimChars]
  cases continued with
  | true => rfl
  | false =>
    by_cases hempty : trimCells cs = []
    · rw [layoutLine_blank hempty, ← htrim, hempty]
      rfl
    · have hmargin (code : List Char) :
          visible (plain (indentCells o.indentUnit stack code)) = [] :=
        visible_blank (IsMargin.plain_blank fun _ hy => mem_indentCells hy)
      rw [layoutLine_code hempty, Line.seen]
      rw [plain_append, visible_append, hmargin, List.nil_append, htrim]

theorem map_seen_layoutFrom (o : Options) (stack : List Open) (ls : List (Bool × List Cell)) :
    (layoutFrom o.indentUnit stack ls).map Line.seen = ls.map fun l => visible (plain l.2) := by
  induction ls generalizing stack with
  | nil => rfl
  | cons l ls ih => rw [layoutFrom, List.map_cons, List.map_cons, seen_layoutLine, ih]

theorem map_seen_layout (o : Options) (cs : List Char) :
    (layout o.indentUnit cs).map Line.seen = (lines cs).map visible := by
  have hlines := map_plain_cellLines false (cells cs)
  rw [plain_cells] at hlines
  rw [layout, map_seen_layoutFrom, ← hlines, List.map_map]
  rfl

section Passes

variable {x : Line} {after : List Line}

theorem seen_of_addSemicolon (h : (addSemicolon x after).seen = []) : x.seen = [] := by
  rw [addSemicolon] at h
  split at h
  · rw [Line.seen, plain_append, visible_append] at h
    exact (List.append_eq_nil_iff.mp h).1
  · exact h

/-- A line of which nothing is left was blank or a semicolon. -/
theorem seen_of_removeSemicolon (h : (removeSemicolon x after).seen = []) :
    x.seen = [] ∨ x.seen = [';'] := by
  rw [removeSemicolon] at h
  split at h
  · exact .inl h
  · split at h
    · rename_i ds hds
      obtain ⟨front, y, tail, hcells, rfl, hy, -⟩ := withoutFinal?_eq_some hds
      have hsemicolon : y.1 = ';' := Cell.fst_of_painted hy (by decide) (by decide)
      rw [Line.seen, plain_append, visible_append] at h
      obtain ⟨hfront, htail⟩ := List.append_eq_nil_iff.mp h
      refine .inr ?_
      rw [Line.seen, hcells, plain_append, visible_append, hfront, plain_cons, hsemicolon,
        ← List.singleton_append, visible_append, htail]
      rfl
    · exact .inl h

/-- Exchanging quotes leaves something to be seen. -/
theorem seen_of_convertQuotes {o : Options}
    (h : (convertQuotes o.quotes.1 o.quotes.2 x after).seen = []) : x.seen = [] := by
  have hblur (cs : List Char) : visible (cs.map blur) = (visible cs).map blur := by
    rw [visible, List.filter_map]
    congr 2
    funext c
    exact apply_blur (f := fun c => !isBlank c) (by decide) c
  rw [convertQuotes] at h
  split at h
  · exact h
  · have hblurred : (requoteFrom o.quotes.1 o.quotes.2 none x.cells).map Cell.blurred =
        x.cells.map Cell.blurred := blurred_requoteFrom o.blur_quotes _ (by simp)
    have hsame := congrArg (fun cs => visible (plain cs)) hblurred
    simp only [plain_map_blurred, hblur] at hsame
    rw [Line.seen] at h
    rw [h, List.map_nil] at hsame
    exact List.map_eq_nil_iff.mp hsame.symm

/-- So does adding a comma. -/
theorem seen_of_addComma (h : (addComma x after).seen = []) : x.seen = [] := by
  rw [addComma] at h
  split at h
  · exact h
  · dsimp only at h
    split at h
    · rw [Line.seen, plain_append, visible_append] at h
      cases (List.append_eq_nil_iff.mp h).2
    · exact h

end Passes

/-- What a pass leads to comes from what was there. -/
theorem forall_of_pass {P Q : Line → Prop} {change : Line → List Line → Line}
    (hchange : ∀ x after, Q (change x after) → P x) {xs : List Line}
    (h : ∀ x ∈ pass change xs, Q x) : ∀ x ∈ xs, P x := by
  induction xs with
  | nil => exact List.forall_mem_nil _
  | cons x xs ih =>
    obtain ⟨hx, hxs⟩ := List.forall_mem_cons.mp h
    exact List.forall_mem_cons.mpr ⟨hchange x xs hx, ih hxs⟩

/-! ### Commas -/

/-- A line closes no bracket if none is in it. -/
theorem closes_layoutLine (unit : List Char) (stack : List Open) (continued : Bool) {cs : List Cell}
    (h : ∀ y ∈ cs, isCloser y.1 = false) : (layoutLine unit stack continued cs).1.closes = [] := by
  have hclosers {code : List Char} (h : ∀ c ∈ code, isCloser c = false) :
      (turn stack code).2.1 = [] := by
    cases code with
    | nil => rfl
    | cons c code => simp only [turn, leadingClosers, h c List.mem_cons_self, if_false,
        Bool.false_eq_true]
  have hpainted {y : Cell} (hy : isCloser y.1 = false) : isCloser y.painted = false := by
    obtain heq | heq | heq := y.painted_eq_or <;> rw [heq]
    · exact hy
    · rfl
    · rfl
  cases continued with
  | true => rfl
  | false =>
    by_cases hempty : trimCells cs = []
    · rw [layoutLine_blank hempty]
      rfl
    · rw [layoutLine_code hempty]
      refine hclosers (List.forall_mem_map.mpr fun y hy => hpainted (h y ?_))
      exact (List.dropWhile_sublist _).subset ((List.rdropWhile_prefix _ _).subset hy)

/-- Without closers nothing is closed. -/
theorem closes_layoutFrom (unit : List Char) (stack : List Open) {ls : List (Bool × List Cell)}
    (h : ∀ l ∈ ls, ∀ y ∈ l.2, isCloser y.1 = false) :
    ∀ x ∈ layoutFrom unit stack ls, x.closes = [] := by
  induction ls generalizing stack with
  | nil => exact List.forall_mem_nil _
  | cons l ls ih =>
    obtain ⟨hl, hls⟩ := List.forall_mem_cons.mp h
    exact List.forall_mem_cons.mpr ⟨closes_layoutLine unit stack l.1 hl, ih _ hls⟩

theorem closes_layout (unit : List Char) {cs : List Char} (h : ∀ c ∈ cs, isCloser c = false) :
    ∀ x ∈ layout unit cs, x.closes = [] := by
  refine closes_layoutFrom unit [] fun l hl y hy => h _ ?_
  have hmem := List.mem_map_of_mem (f := Prod.fst) (mem_of_mem_cellLines hl hy)
  rwa [← plain_cells cs]

/-- The passes before that for commas leave the brackets that a line closes as they are. -/
theorem closes_quotes (o : Options) {xs : List Line} (h : ∀ x ∈ xs, x.closes = []) :
    ∀ x ∈ pass (convertQuotes o.quotes.1 o.quotes.2)
      (pass (if o.semicolons then addSemicolon else removeSemicolon) xs), x.closes = [] := by
  have hquotes (x : Line) (after : List Line) :
      (convertQuotes o.quotes.1 o.quotes.2 x after).closes = x.closes := by
    rw [convertQuotes]
    split <;> rfl
  have hadded (x : Line) (after : List Line) : (addSemicolon x after).closes = x.closes := by
    rw [addSemicolon]
    split <;> rfl
  have hremoved (x : Line) (after : List Line) : (removeSemicolon x after).closes = x.closes := by
    rw [removeSemicolon]
    split
    · rfl
    · split <;> rfl
  refine forall_mem_pass (P := fun x => x.closes = []) (fun x after hx => (hquotes x after).trans hx)
    (forall_mem_pass (P := fun x => x.closes = []) (fun x after hx => ?_) h)
  cases o.semicolons with
  | true => exact (hadded x after).trans hx
  | false => exact (hremoved x after).trans hx

/-- Then no comma is removed. -/
theorem pass_removeComma {xs : List Line} (h : ∀ x ∈ xs, x.closes = []) :
    pass removeComma xs = xs := by
  induction xs with
  | nil => rfl
  | cons x xs ih =>
    obtain ⟨-, hxs⟩ := List.forall_mem_cons.mp h
    have hnone : ¬(!x.kept && (nextCode? xs).any (!·.closes.isEmpty)) = true := by
      rw [Bool.and_eq_true, Option.any_eq_true, not_and]
      rintro - ⟨y, hy, hcloses⟩
      rw [hxs y (List.mem_of_find?_eq_some hy)] at hcloses
      cases hcloses
    rw [pass, ih hxs, removeComma, if_neg hnone]

/-! ### Nothing is left -/

theorem visible_eq_flatMap (cs : List Char) : visible cs = (lines cs).flatMap visible := by
  rw [visible_eq, flatMap_visible_cores]

theorem visible_formatCode (o : Options) (cs : List Char) :
    visible (formatCode o cs) = (formattedLines o cs).flatMap Line.seen := by
  rw [formatCode_eq_finish, visible_finish (oneLine_formattedLines o cs), List.flatMap_map]
  rfl

/-- If nothing is left of a program, there was no bracket in it. -/
theorem isCloser_of_visible_formatCode {o : Options} {cs : List Char}
    (h : visible (formatCode o cs) = []) : ∀ c ∈ cs, isCloser c = false := by
  have hessence : essence cs = [] := by
    rw [← essence_formatCode o cs, essence_of_blank (visible_eq_nil_iff.mp h)]
  intro c hc
  have hlayout := List.filter_eq_nil_iff.mp hessence c hc
  by_contra hcloser
  rw [Bool.not_eq_false] at hcloser
  simp only [isCloser, Bool.or_eq_true, beq_iff_eq] at hcloser
  obtain (rfl | rfl) | rfl := hcloser <;> exact hlayout (by decide)

/-- Of a program of which nothing is left, nothing was seen but semicolons that had to go. -/
theorem isHollow_of_visible_formatCode {o : Options} {cs : List Char}
    (h : visible (formatCode o cs) = []) :
    visible cs = [] ∨ o.semicolons = false ∧ IsHollow cs := by
  let laid := layout o.indentUnit cs
  let semicolons := pass (if o.semicolons then addSemicolon else removeSemicolon) laid
  let quotes := pass (convertQuotes o.quotes.1 o.quotes.2) semicolons
  have hcloses : ∀ x ∈ quotes, x.closes = [] :=
    closes_quotes o (closes_layout o.indentUnit (isCloser_of_visible_formatCode h))
  -- the passes are taken back from the last to the first
  have hseen : ∀ x ∈ formattedLines o cs, x.seen = [] :=
    List.flatMap_eq_nil_iff.mp ((visible_formatCode o cs).symm.trans h)
  have hquotes : ∀ x ∈ quotes, x.seen = [] := by
    change ∀ x ∈ pass (if o.trailingCommas then addComma else removeComma) quotes, _ at hseen
    split at hseen
    · exact forall_of_pass (fun _ _ => seen_of_addComma) hseen
    · rwa [pass_removeComma hcloses] at hseen
  have hsemicolons : ∀ x ∈ semicolons, x.seen = [] :=
    forall_of_pass (fun _ _ => seen_of_convertQuotes) hquotes
  have hlines (P : List Char → Prop) (hlaid : ∀ x ∈ laid, P x.seen) :
      ∀ l ∈ lines cs, P (visible l) := by
    rw [← List.forall_mem_map (f := Line.seen), map_seen_layout] at hlaid
    exact List.forall_mem_map.mp hlaid
  cases hoption : o.semicolons with
  | true =>
    simp only [semicolons, hoption, if_true] at hsemicolons
    refine .inl ?_
    rw [visible_eq_flatMap, List.flatMap_eq_nil_iff]
    exact hlines (· = []) (forall_of_pass (fun _ _ => seen_of_addSemicolon) hsemicolons)
  | false =>
    simp only [semicolons, hoption, Bool.false_eq_true, if_false] at hsemicolons
    exact .inr ⟨rfl, isHollow_iff.mpr
      (hlines (fun cs => cs = [] ∨ cs = [';'])
        (forall_of_pass (fun _ _ => seen_of_removeSemicolon) hsemicolons))⟩

/-- A line with nothing but a semicolon. -/
def Line.semicolon : Line := ⟨[(';', .code)], false, none, []⟩

/-- A line with a semicolon at most leaves the scanner where it was, and opens nothing. -/
theorem layoutLine_hollow (o : Options) {l : List Char} (hfeed : '\n' ∉ l)
    (hl : trimChars l = [] ∨ trimChars l = [';']) : (Phase.code.run l).newline = .code ∧
      (layoutLine o.indentUnit [] false (Phase.code.cells l) = (Line.blank, []) ∨
        layoutLine o.indentUnit [] false (Phase.code.cells l) = (Line.semicolon, [])) := by
  have htrim := trimCells_phaseCells (p := .code) rfl hfeed
  rw [← newline_run_trimChars rfl hfeed]
  obtain hl | hl := hl
  · rw [hl] at htrim ⊢
    exact ⟨rfl, .inl (layoutLine_blank htrim _ _)⟩
  · rw [hl] at htrim ⊢
    have hsome : trimCells (Phase.code.cells l) ≠ [] := by
      rw [htrim]
      exact List.cons_ne_nil _ _
    refine ⟨rfl, .inr ?_⟩
    rw [layoutLine_code hsome, htrim]
    rfl

/-- Lines that are blank or a semicolon are laid out as such. -/
theorem layoutFrom_hollow (o : Options) {ls : List (List Char)} (hfeed : ∀ l ∈ ls, '\n' ∉ l)
    (h : ∀ l ∈ ls, trimChars l = [] ∨ trimChars l = [';']) :
    ∀ x ∈ layoutFrom o.indentUnit [] (scanned .code ls), x = Line.blank ∨ x = Line.semicolon := by
  induction ls with
  | nil => exact List.forall_mem_nil _
  | cons l ls ih =>
    obtain ⟨hl, hls⟩ := List.forall_mem_cons.mp h
    obtain ⟨hfeedl, hfeedls⟩ := List.forall_mem_cons.mp hfeed
    obtain ⟨hnewline, hlayout⟩ := layoutLine_hollow o hfeedl hl
    have hinside : Phase.code.isInside = false := rfl
    rw [scanned, hnewline, layoutFrom, hinside]
    obtain heq | heq := hlayout <;> rw [heq]
    · exact List.forall_mem_cons.mpr ⟨.inl rfl, ih hfeedls hls⟩
    · exact List.forall_mem_cons.mpr ⟨.inr rfl, ih hfeedls hls⟩

theorem layout_hollow (o : Options) {cs : List Char} (h : IsHollow cs) :
    ∀ x ∈ layout o.indentUnit cs, x = Line.blank ∨ x = Line.semicolon := by
  rw [layout_eq]
  exact layoutFrom_hollow o oneLine_of_mem_lines h

/-- Without semicolons nothing is left of a hollow text. -/
theorem visible_formatCode_of_isHollow {o : Options} (ho : o.semicolons = false) {cs : List Char}
    (h : IsHollow cs) : visible (formatCode o cs) = [] := by
  have hsemicolons : ∀ x ∈ pass removeSemicolon (layout o.indentUnit cs), x = Line.blank := by
    refine forall_mem_pass (fun x after hx => ?_) (layout_hollow o h)
    obtain rfl | rfl := hx <;> rfl
  have hquotes : ∀ x ∈ pass (convertQuotes o.quotes.1 o.quotes.2)
      (pass removeSemicolon (layout o.indentUnit cs)), x = Line.blank :=
    forall_mem_pass (fun x after hx => by rw [hx]; rfl) hsemicolons
  have hcommas : ∀ x ∈ formattedLines o cs, x = Line.blank := by
    rw [formattedLines, ho, if_neg Bool.false_ne_true]
    refine forall_mem_pass (fun x after hx => ?_) hquotes
    rw [hx]
    split
    · rfl
    · rw [removeComma]
      split <;> rfl
  rw [visible_formatCode, List.flatMap_eq_nil_iff]
  intro x hx
  rw [hcommas x hx]
  rfl

/-- Of a program in which something is seen nothing is left just where the semicolons go and there
was nothing else. -/
theorem visible_formatCode_eq_nil_iff {o : Options} {cs : List Char} (h : visible cs ≠ []) :
    visible (formatCode o cs) = [] ↔ o.semicolons = false ∧ IsHollow cs :=
  ⟨fun hnone => (isHollow_of_visible_formatCode hnone).resolve_left h,
    fun hhollow => visible_formatCode_of_isHollow hhollow.1 hhollow.2⟩

/-! ## Formatted texts -/

theorem isHollow_unifyLineEnds (cs : List Char) : IsHollow (unifyLineEnds cs) ↔ IsHollow cs := by
  have hmap (cs : List Char) :
      IsHollow cs ↔ ∀ l ∈ (lines cs).map trimChars, l = [] ∨ l = [';'] := by
    rw [List.forall_mem_map]
    rfl
  rw [hmap, hmap, map_trimChars_unifyLineEnds]

theorem exists_formatChars?_eq_finish (o : Options) {tag : Tag} (h : tag ≠ .json)
    (cs : List Char) : ∃ ls, (∀ l ∈ ls, '\n' ∉ l) ∧ formatChars? o tag cs = some (finish ls) := by
  cases tag with
  | code => exact ⟨_, oneLine_formattedLines o cs, congrArg some (formatCode_eq_finish o cs)⟩
  | json => exact absurd rfl h
  | sql => exact ⟨_, lineFeed_notMem_formatFrom _ fun _ hl => notMem_of_mem_pieces hl, rfl⟩
  | markdown => exact ⟨_, Markdown.oneLine_formatFrom_lines cs, rfl⟩

/-- **A formatted text in which something is to be seen is in normal form.**  The one exception is a
program without semicolons of which there was nothing but semicolons, one on a line: it becomes one
line feed. -/
theorem isNormal_formatText (o : Options) {language : Option String} {tag : Tag}
    (htag : Tag.of? language = some tag) (hjson : tag ≠ .json) {content : String}
    (hcontent : visible content.toList ≠ []) :
    (¬(tag = .code ∧ o.semicolons = false ∧ IsHollow content.toList) →
        IsNormal (formatText o language content).toList) ∧
      (tag = .code ∧ o.semicolons = false ∧ IsHollow content.toList →
        formatText o language content = "\n") := by
  let unified := unifyLineEnds content.toList
  have hunified : visible unified ≠ [] := visible_unifyLineEnds content.toList ▸ hcontent
  obtain ⟨ls, hlines, hformat⟩ := exists_formatChars?_eq_finish o hjson unified
  have htext : formatText o language content = String.ofList (finish ls) := by
    rw [formatText, htag, Option.bind_some, hformat]
  have hseen : visible (finish ls) = [] ↔
      tag = .code ∧ o.semicolons = false ∧ IsHollow content.toList := by
    rw [← isHollow_unifyLineEnds]
    cases tag with
    | code =>
      rw [← Option.some.inj hformat, visible_formatCode_eq_nil_iff hunified]
      exact (and_iff_right rfl).symm
    | json => exact absurd rfl hjson
    | sql =>
      rw [← Option.some.inj hformat, Sql.visible_format_eq_nil_iff]
      exact iff_of_false hunified fun h => absurd h.1 (by decide)
    | markdown =>
      rw [← Option.some.inj hformat, Markdown.visible_format]
      exact iff_of_false hunified fun h => absurd h.1 (by decide)
  rw [htext, String.toList_ofList, ← hseen]
  refine ⟨isNormal_finish hlines, fun hnone => ?_⟩
  rw [finish_eq_lineFeed hlines hnone]

/-- One line holds something else than a semicolon here, and a template spans the others. -/
theorem isNormal_formatText_template :
    let content := "\n;\r\nf(`a \u000b\n\n\n\n;  `)\t"
    let o : Options := { Options.default with semicolons := false }
    visible content.toList ≠ [] ∧ ¬IsHollow content.toList ∧
      IsNormal (formatText o (some "javascript") content).toList := by
  intro content o
  have hcontent : visible content.toList ≠ [] := by
    rw [String.toList_ofList]
    decide
  have hhollow : ¬IsHollow content.toList := by
    rw [String.toList_ofList]
    decide +kernel
  have htag : Tag.of? (some "javascript") = some .code := rfl
  exact ⟨hcontent, hhollow,
    (isNormal_formatText o htag nofun hcontent).1 fun h => hhollow h.2.2⟩

/-- Something is seen in this program, but nothing once its semicolon is gone. -/
theorem not_isNormal_formatText_semicolon :
    let o : Options := { Options.default with semicolons := false }
    visible ";".toList ≠ [] ∧ formatText o (some "typescript") ";" = "\n" ∧
      ¬IsNormal (formatText o (some "typescript") ";").toList := by
  intro o
  have htext : formatText o (some "typescript") ";" = "\n" := by
    have hformat : formatCode o [';'] = ['\n'] := by decide +kernel
    exact congrArg String.ofList hformat
  refine ⟨?_, htext, ?_⟩
  · rw [String.toList_ofList]
    decide
  · rw [htext, String.toList_ofList]
    exact not_isNormal_lineFeed

end Scaffold.Format
