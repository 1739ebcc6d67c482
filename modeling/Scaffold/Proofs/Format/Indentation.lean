import Scaffold.Format.Basic
import Scaffold.Proofs.Format.Brackets
import Scaffold.Proofs.Format.Spacing

/-!
# Proofs/Format/Indentation — white space at the ends of lines is not looked at

What the layout makes of a line, and where the scanner is behind it, depends on the trimmed line only
(`layoutLine_congr`, `newline_congr`).  So two programs whose lines are the same but for white space
at their ends are formatted alike (`formatText_eq_of_trimmed`), unless a line begins inside a template
literal, where white space counts.
-/

namespace Scaffold.Format

open Text Phase

/-! ## One line -/

section Line

variable {p : Phase} (hsettled : p.settle = p) {l l' : List Char} (hl : '\n' ∉ l) (hl' : '\n' ∉ l')
  (h : trimChars l = trimChars l')
include hsettled hl hl' h

theorem newline_congr : (p.run l).newline = (p.run l').newline := by
  rw [← (alike_trimChars hsettled hl).newline, h, (alike_trimChars hsettled hl').newline]

theorem layoutLine_congr (hp : p.isInside = false) (unit : List Char) (stack : List Open) :
    layoutLine unit stack p.isInside (p.cells l) =
      layoutLine unit stack p.isInside (p.cells l') := by
  have hcells : trimCells (p.cells l) = trimCells (p.cells l') := by
    rw [trimCells_phaseCells hsettled hl, trimCells_phaseCells hsettled hl', h]
  rw [hp, layoutLine, layoutLine, if_neg Bool.false_ne_true, if_neg Bool.false_ne_true, hcells]

end Line

/-! ## All lines -/

theorem map_trimChars_eq_iff {ls ls' : List (List Char)} :
    ls.map trimChars = ls'.map trimChars ↔
      List.Forall₂ (fun l l' => trimChars l = trimChars l') ls ls' := by
  rw [← List.forall₂_eq_eq_eq, List.forall₂_map_left_iff, List.forall₂_map_right_iff]

section Lines

variable {ls ls' : List (List Char)} (h : ls.map trimChars = ls'.map trimChars)
  (hls : ∀ l ∈ ls, '\n' ∉ l) (hls' : ∀ l ∈ ls', '\n' ∉ l) {p : Phase} (hsettled : p.settle = p)
include h hls hls' hsettled

/-- The same lines begin inside a literal. -/
theorem map_fst_scanned_congr : (scanned p ls).map (·.1) = (scanned p ls').map (·.1) := by
  rw [map_trimChars_eq_iff] at h
  induction h generalizing p with
  | nil => rfl
  | cons hl _ ih =>
    obtain ⟨hfeed, hls⟩ := List.forall_mem_cons.mp hls
    obtain ⟨hfeed', hls'⟩ := List.forall_mem_cons.mp hls'
    rw [scanned, scanned, List.map_cons, List.map_cons, newline_congr hsettled hfeed hfeed' hl,
      ih hls hls' (Phase.settle_newline _)]

/-- Lines that differ only in what surrounds them are laid out alike, if none is continued. -/
theorem layoutFrom_congr (hnone : ∀ e ∈ scanned p ls, e.1 = false) (unit : List Char)
    (stack : List Open) :
    layoutFrom unit stack (scanned p ls) = layoutFrom unit stack (scanned p ls') := by
  rw [map_trimChars_eq_iff] at h
  induction h generalizing p stack with
  | nil => rfl
  | cons hl _ ih =>
    obtain ⟨hfeed, hls⟩ := List.forall_mem_cons.mp hls
    obtain ⟨hfeed', hls'⟩ := List.forall_mem_cons.mp hls'
    obtain ⟨hp, hnone⟩ := List.forall_mem_cons.mp hnone
    have hrest := ih hls hls' (Phase.settle_newline _) hnone
    rw [newline_congr hsettled hfeed hfeed' hl] at hrest
    simp only [scanned, layoutFrom, layoutLine_congr hsettled hfeed hfeed' hl hp,
      newline_congr hsettled hfeed hfeed' hl, hrest]

end Lines

/-! ## Programs -/

/-- No line of the program begins inside a template literal. -/
def NoneContinued (cs : List Char) : Prop := ∀ e ∈ cellLines false (cells cs), e.1 = false

instance (cs : List Char) : Decidable (NoneContinued cs) :=
  inferInstanceAs (Decidable (∀ e ∈ cellLines false (cells cs), e.1 = false))

theorem oneLine_of_mem_lines {cs : List Char} : ∀ l ∈ lines cs, '\n' ∉ l :=
  fun _ => notMem_of_mem_pieces

section Programs

variable {cs ds : List Char} (h : (lines cs).map trimChars = (lines ds).map trimChars)
  (hnone : NoneContinued cs)
include h hnone

theorem noneContinued_congr : NoneContinued ds := by
  have hflags := map_fst_scanned_congr h oneLine_of_mem_lines oneLine_of_mem_lines (p := .code) rfl
  rw [← cellLines_cells, ← cellLines_cells] at hflags
  intro e he
  have hmem : e.1 ∈ (cellLines false (cells cs)).map (·.1) := hflags ▸ List.mem_map_of_mem he
  obtain ⟨e', he', heq⟩ := List.mem_map.mp hmem
  exact heq ▸ hnone e' he'

theorem formatCode_congr (o : Options) : formatCode o cs = formatCode o ds := by
  have hlayout : layout o.indentUnit cs = layout o.indentUnit ds := by
    rw [NoneContinued, cellLines_cells] at hnone
    rw [layout_eq, layout_eq]
    exact layoutFrom_congr h oneLine_of_mem_lines oneLine_of_mem_lines rfl hnone _ _
  rw [formatCode, formatCode, hlayout]

end Programs

/-- A carriage return at the end of a line is white space. -/
theorem map_trimChars_unifyLineEnds (cs : List Char) :
    (lines (unifyLineEnds cs)).map trimChars = (lines cs).map trimChars := by
  refine (map_trimChars_eq_iff.mpr ((lines_unifyLineEnds cs).imp ?_)).symm
  rintro l l' (rfl | rfl)
  · rfl
  · have hfront : ∀ c ∈ ([] : List Char), isBlank c = true := List.forall_mem_nil _
    exact trim_append hfront (by decide) l'

/-- **Formatting does not look at the indentation.**  Two programs with the same lines, up to white
space at both ends of each, are formatted alike if no line begins inside a template literal. -/
theorem formatText_eq_of_trimmed (o : Options) {language : Option String}
    (h : Tag.of? language = some .code) {content content' : String}
    (hlines : (lines content.toList).map trimChars = (lines content'.toList).map trimChars)
    (hnone : NoneContinued content.toList) :
    formatText o language content = formatText o language content' := by
  have hunified := map_trimChars_unifyLineEnds content.toList
  have hformatted (content : String) : formatText o language content =
      String.ofList (formatCode o (unifyLineEnds content.toList)) := by
    rw [formatText, h]
    rfl
  rw [hformatted, hformatted]
  refine congrArg String.ofList (formatCode_congr ?_ (noneContinued_congr hunified.symm hnone) o)
  rw [hunified, hlines, map_trimChars_unifyLineEnds]

/-- The same lines, with white space in a block comment, behind a backslash and before line feeds. -/
theorem formatText_eq_of_trimmed_comment :
    let content := "f(\x7b /* a\nb */ c:\n1 \x7d)\n'd\\"
    let content' := "\tf(\x7b /* a\r\n    b */ c:  \n  1 \x7d)\n'd\\  "
    Tag.of? (some "typescript") = some .code ∧
      (lines content.toList).map trimChars = (lines content'.toList).map trimChars ∧
      NoneContinued content.toList ∧
      formatText Options.default (some "typescript") content =
        formatText Options.default (some "typescript") content' := by
  intro content content'
  have hlines : (lines content.toList).map trimChars = (lines content'.toList).map trimChars := by
    decide
  have hnone : NoneContinued content.toList := by decide
  exact ⟨rfl, hlines, hnone, formatText_eq_of_trimmed Options.default rfl hlines hnone⟩

end Scaffold.Format
