import Scaffold.Proofs.Format.Brackets
import Scaffold.Proofs.Format.Tidy

/-!
# Proofs/Format/Reformat — of two formattings the last one counts

A formatted line of a tidy program is the line with other quotes and an ending.  That is seen as
before but for the ending, so the line keeps its place among the brackets, gets the margin and the
quotes that it would have got at once, and no second ending (`written_written`).  With the empty
lines, which the first formatting has put in order, this makes the last formatting win
(`format_format`); so formatting with the same options twice is formatting once.
-/

namespace Scaffold.Format

open Text Phase

/-! ## A line with other quotes and an ending -/

theorem IsEnding.inert {e : List Char} (h : IsEnding e) : ∀ c ∈ e, isInert c = true := by
  obtain rfl | rfl | rfl := h <;> decide

section Respelled

variable {k : List Char} (hk : IsCore k) (o : Options) {e : List Char} (he : IsEnding e)
include hk

theorem scanned_exchanged : Scanned .code (exchanged o k) (Phase.code.run k) :=
  (scanned_cells rfl hk.oneLine).requoteFrom o.isQuote_target rfl

include he

theorem cells_respelled : Phase.code.cells (plain (exchanged o k) ++ e) =
    Phase.code.cells (plain (exchanged o k)) ++ e.map fun c => (c, .code) := by
  rw [Phase.cells_append_inert he.inert, (scanned_exchanged hk o).run_eq, hk.tidy.surroundings]

theorem blur_seen_respelled :
    (seen (plain (exchanged o k) ++ e)).map blur = (seen k).map blur ++ e := by
  have hending : (painted (e.map fun c => (c, Mark.code))).map blur = e := by
    obtain rfl | rfl | rfl := he <;> rfl
  rw [seen, cells_respelled hk o he, painted_append, (scanned_exchanged hk o).painted_eq,
    List.map_append, blur_painted_exchanged, hending]

theorem respelled_seen : Respelled (seen k) (seen (plain (exchanged o k) ++ e)) :=
  ⟨e, he, blur_seen_respelled hk o he⟩

/-- A line with its mark has no blanks at its ends. -/
theorem isTrimmed_respelled : IsTrimmed isBlank (plain (exchanged o k) ++ e) := by
  have hne := hk.plain_exchanged_ne_nil o
  have htrimmed := hk.isTrimmed_exchanged o
  constructor
  · rw [List.head?_append_of_ne_nil _ hne]
    exact htrimmed.first
  · obtain rfl | rfl | rfl := he
    · rw [List.append_nil]
      exact htrimmed.last
    · simp
      decide
    · simp
      decide

theorem trimChars_written (stack : List Open) :
    trimChars (indent o stack k ++ plain (exchanged o k) ++ e) = plain (exchanged o k) ++ e := by
  rw [List.append_assoc]
  exact (isTrimmed_respelled hk o he).trim_append (isBlank_indentCells o stack _)

/-- The quotes are exchanged as if they never had been. -/
theorem plain_exchanged_respelled (o' : Options) :
    plain (exchanged o' (plain (exchanged o k) ++ e)) = plain (exchanged o' k) ++ e := by
  have hpair : o'.quotes.1 = o.quotes.1 ∧ o'.quotes.2 = o.quotes.2 ∨
      o'.quotes.1 = o.quotes.2 ∧ o'.quotes.2 = o.quotes.1 := by
    rw [Options.quotes, Options.quotes]
    cases o.singleQuotes <;> cases o'.singleQuotes <;> decide
  have hne : o.quotes.1 ≠ o.quotes.2 := by
    rw [Options.quotes]
    cases o.singleQuotes <;> decide
  have htail : ∀ x ∈ e.map fun c => (c, Mark.code), isQuote (Cell.painted x) = false := fun x hx =>
    isQuote_painted_inert (isInert_map he.inert .code x hx)
  have htwice := (scanned_cells (p := .code) rfl hk.oneLine).requoteFrom_requoteFrom hne
    o.isQuote_target hpair rfl
  rw [exchanged, cells_respelled hk o he, requoteFrom_append_tail (by simp) htail, plain_append,
    plain_map_mark, plain_requoteFrom_congr (scanned_exchanged hk o).faded_eq]
  exact congrArg (plain · ++ e) htwice

/-- A formatted line is tidy. -/
theorem isTidy_written (stack : List Open) :
    IsTidy (indent o stack k ++ plain (exchanged o k) ++ e) := by
  have hmargin : ∀ c ∈ indent o stack k, isInert c = true := by
    intro c hc
    obtain ⟨x, hx, rfl⟩ := List.mem_map.mp hc
    exact isInert_indentCells x hx
  have hcode : Phase.code.run (indent o stack k) = .code := by
    rw [Phase.run_inert hmargin]
    exact ite_self _
  constructor
  · have hexchanged : ∀ x ∈ exchanged o k, x.2 ≠ .comment := by
      have hsame : (exchanged o k).map (·.2) = Phase.code.marks k := by
        rw [Phase.marks_eq_map, ← map_snd_blurred, blurred_exchanged, map_snd_blurred]
      intro x hx hcomment
      exact hk.tidy.uncommented (hsame ▸ hcomment ▸ List.mem_map_of_mem hx)
    have hcode (cs : List Char) : ∀ x ∈ cs.map fun c => (c, Mark.code), x.2 ≠ .comment := by
      simp
    rw [Phase.uncommented_iff, List.append_assoc, Phase.cells_inert_append hmargin rfl,
      cells_respelled hk o he]
    exact List.forall_mem_append.mpr ⟨hcode _, List.forall_mem_append.mpr
      ⟨(scanned_exchanged hk o).uncommented hexchanged, hcode e⟩⟩
  · rw [Phase.run_append, Phase.isInside_run_inert he.inert, Phase.run_append, hcode,
      (scanned_exchanged hk o).run_eq]
    exact hk.tidy.closed

end Respelled

/-! ## The lines of code, formatted twice -/

/-- The first lines, of the text and as it is written, differ in their spelling only. -/
theorem respelled_head? (o : Options) (stack : List Open) {ks : List (List Char)}
    (h : ∀ k ∈ ks, IsCore k) :
    Option.Rel Respelled (ks.head?.map seen)
      (((written o stack ks).map trimChars).head?.map seen) := by
  cases ks with
  | nil => exact .none
  | cons k ks =>
    have hk := h k List.mem_cons_self
    have he := isEnding_ending (turn stack (seen k)).2.2 (seen k) (ks.head?.map seen)
    rw [written, List.map_cons, trimChars_written hk o he]
    exact .some (respelled_seen hk o he)

/-- **Lines of code that are formatted twice** are as the second formatting has them. -/
theorem written_written (o o' : Options) (stack : List Open) {ks : List (List Char)}
    (h : ∀ k ∈ ks, IsCore k) :
    written o' stack ((written o stack ks).map trimChars) = written o' stack ks := by
  induction ks generalizing stack with
  | nil => rfl
  | cons k ks ih =>
    obtain ⟨hk, hks⟩ := List.forall_mem_cons.mp h
    have he := isEnding_ending (turn stack (seen k)).2.2 (seen k) (ks.head?.map seen)
    have hsame := respelled_seen hk o he
    have hindent : indent o' stack (plain (exchanged o k) ++ ending (turn stack (seen k)).2.2
        (seen k) (ks.head?.map seen)) = indent o' stack k := by
      simp only [indent, indentCells, hsame.turn, hsame.margin]
    have hending := ending_respelled (blur_seen_respelled hk o he)
      (respelled_head? o (turn stack (seen k)).2.2 hks)
    rw [written, List.map_cons, trimChars_written hk o he, written, hindent, hsame.turn,
      plain_exchanged_respelled hk o he o', hending, ih _ hks, List.append_nil, ← List.append_assoc]
    rfl

/-! ## The program, formatted twice -/

/-- A program without comments that closes every literal on the line that opens it. -/
structure IsTidyText (cs : List Char) : Prop where
  uncommented : Mark.comment ∉ marks .code cs
  closed : ∀ l ∈ lines cs, (Phase.code.run l).isInside = false

/-- The lines of a tidy text are tidy. -/
theorem IsTidyText.tidy {cs : List Char} (h : IsTidyText cs) : ∀ l ∈ lines cs, IsTidy l := by
  have hcells : ∀ l ∈ scanned .code (lines cs), ∀ x ∈ l.2, x.2 ≠ .comment := by
    have huncommented := h.uncommented
    rw [marks_eq (s := .code) trivial] at huncommented
    intro l hl x hx
    rw [← cellLines_cells] at hl
    exact Phase.uncommented_iff.mp huncommented x (cells_eq cs ▸ mem_of_mem_cellLines hl hx)
  have hclosed := h.closed
  generalize lines cs = ls at hcells hclosed
  induction ls with
  | nil => exact List.forall_mem_nil _
  | cons l ls ih =>
    obtain ⟨hfirst, hrest⟩ := List.forall_mem_cons.mp hcells
    obtain ⟨hl, hls⟩ := List.forall_mem_cons.mp hclosed
    have htidy : IsTidy l := ⟨Phase.uncommented_iff.mpr hfirst, hl⟩
    rw [htidy.newline] at hrest
    exact List.forall_mem_cons.mpr ⟨htidy, ih hrest hls⟩

/-- They stay so with unified line ends. -/
theorem tidy_unifyLineEnds {cs : List Char} (h : ∀ l ∈ lines cs, IsTidy l) :
    ∀ l ∈ lines (unifyLineEnds cs), IsTidy l := by
  have hends := lines_unifyLineEnds cs
  generalize lines cs = ls at h hends
  generalize lines (unifyLineEnds cs) = ls' at hends
  induction hends with
  | nil => exact List.forall_mem_nil _
  | @cons l l' ls ls' hl hls ih =>
    obtain ⟨htidy, hrest⟩ := List.forall_mem_cons.mp h
    refine List.forall_mem_cons.mpr ⟨?_, ih hrest⟩
    obtain rfl | rfl := hl
    · exact htidy
    · have hinert : ∀ c ∈ ['\r'], isInert c = true := by decide
      constructor
      · have huncommented := Phase.uncommented_iff.mp htidy.uncommented
        rw [Phase.cells_append_inert hinert] at huncommented
        exact Phase.uncommented_iff.mpr (List.forall_mem_append.mp huncommented).1
      · have hclosed := htidy.closed
        rwa [Phase.run_append, Phase.isInside_run_inert hinert] at hclosed

/-- A program is formatted line by line. -/
theorem formatCode_tidy {o : Options} (hsemicolons : o.semicolons = true)
    (hcommas : o.trailingCommas = true) {cs : List Char} (h : ∀ l ∈ lines cs, IsTidy l) :
    formatCode o cs =
      joinWith ['\n'] (unspaced (spaced (texts o [] (lines cs)))) ++ ['\n'] := by
  rw [formatCode_eq hsemicolons hcommas, finish_eq, List.map_map, layout_eq, scanned_tidy h]
  rfl

/-- What the lines of a formatted program are. -/
theorem exists_of_mem_written {o : Options} {stack : List Open} {ks : List (List Char)}
    (h : ∀ k ∈ ks, IsCore k) {l : List Char} (hl : l ∈ written o stack ks) :
    ∃ stack' k e, IsCore k ∧ IsEnding e ∧
      l = indent o stack' k ++ plain (exchanged o k) ++ e := by
  induction ks generalizing stack with
  | nil => exact absurd hl List.not_mem_nil
  | cons k ks ih =>
    obtain ⟨hk, hks⟩ := List.forall_mem_cons.mp h
    obtain rfl | hl := List.mem_cons.mp hl
    · exact ⟨stack, k, _, hk, isEnding_ending .., rfl⟩
    · exact ih hks hl

section Formatted

variable {o : Options} (hsemicolons : o.semicolons = true) (hcommas : o.trailingCommas = true)
  {cs : List Char} (h : ∀ l ∈ lines cs, IsTidy l)
include hsemicolons hcommas h

theorem spaced_lines_formatCode :
    spaced (lines (formatCode o cs)) = spaced (texts o [] (lines cs)) := by
  rw [formatCode_eq hsemicolons hcommas, spaced_lines_finish (oneLine_passes o cs), List.map_map,
    layout_eq, scanned_tidy h]
  rfl

theorem filled_lines_formatCode :
    filled (lines (formatCode o cs)) = written o [] (cores (lines cs)) := by
  rw [← map_snd_spaced, spaced_lines_formatCode hsemicolons hcommas h, map_snd_spaced,
    filled_texts h fun l hl => notMem_of_mem_pieces hl]

/-- A line of a formatted program is empty, or it is a line of code, formatted. -/
theorem eq_nil_or_of_mem_lines {l : List Char} (hl : l ∈ lines (formatCode o cs)) :
    l = [] ∨ ∃ stack k e, IsCore k ∧ IsEnding e ∧
      l = indent o stack k ++ plain (exchanged o k) ++ e := by
  by_cases hnil : l = []
  · exact .inl hnil
  · have hfilled : l ∈ filled (lines (formatCode o cs)) :=
      List.mem_filter.mpr ⟨hl, by simpa using hnil⟩
    rw [filled_lines_formatCode hsemicolons hcommas h] at hfilled
    exact .inr (exists_of_mem_written (isCore_of_mem_cores h fun l hl => notMem_of_mem_pieces hl)
      hfilled)

theorem tidy_formatCode : ∀ l ∈ lines (formatCode o cs), IsTidy l := by
  intro l hl
  obtain rfl | ⟨stack, k, e, hk, he, rfl⟩ := eq_nil_or_of_mem_lines hsemicolons hcommas h hl
  · exact ⟨List.not_mem_nil, rfl⟩
  · exact isTidy_written hk o he stack

theorem trimChars_eq_nil_iff {l : List Char} (hl : l ∈ lines (formatCode o cs)) :
    trimChars l = [] ↔ l = [] := by
  obtain rfl | ⟨stack, k, e, hk, he, rfl⟩ := eq_nil_or_of_mem_lines hsemicolons hcommas h hl
  · exact Iff.of_eq rfl
  · rw [trimChars_written hk o he]
    simp [hk.plain_exchanged_ne_nil o]

/-- The cores of a formatted text are its lines as they are written. -/
theorem cores_formatCode :
    cores (lines (formatCode o cs)) = (written o [] (cores (lines cs))).map trimChars := by
  have hmap {ls : List (List Char)} (hls : ∀ l ∈ ls, trimChars l = [] ↔ l = []) :
      cores ls = (filled ls).map trimChars := by
    induction ls with
    | nil => rfl
    | cons l ls ih =>
      obtain ⟨hl, hrest⟩ := List.forall_mem_cons.mp hls
      by_cases hnil : l = []
      · rw [cores_blank (hl.mpr hnil), ih hrest, hnil, filled_empty]
      · rw [cores_core (mt hl.mp hnil), ih hrest, filled_cons hnil, List.map_cons]
  rw [hmap fun l hl => trimChars_eq_nil_iff hsemicolons hcommas h hl,
    filled_lines_formatCode hsemicolons hcommas h]

/-- A formatted text has unified line ends. -/
theorem unifyLineEnds_formatCode : unifyLineEnds (formatCode o cs) = formatCode o cs := by
  refine unifyLineEnds_of_getLast? fun l hl hlast => ?_
  obtain rfl | ⟨stack, k, e, hk, he, rfl⟩ := eq_nil_or_of_mem_lines hsemicolons hcommas h hl
  · cases hlast
  · have htrimmed := isTrimmed_respelled hk o he
    rw [List.append_assoc, List.getLast?_append_of_ne_nil _ (by simp [hk.plain_exchanged_ne_nil o])]
      at hlast
    exact Bool.noConfusion (htrimmed.last _ hlast)

end Formatted

/-- **A tidy text that is formatted twice is formatted as the second time alone.** -/
theorem formatCode_formatCode {o o' : Options} (hsemicolons : o.semicolons = true)
    (hcommas : o.trailingCommas = true) (hsemicolons' : o'.semicolons = true)
    (hcommas' : o'.trailingCommas = true) {cs : List Char} (h : ∀ l ∈ lines cs, IsTidy l) :
    formatCode o' (formatCode o cs) = formatCode o' cs := by
  have hls : ∀ l ∈ lines cs, '\n' ∉ l := fun l hl => notMem_of_mem_pieces hl
  have hds : ∀ l ∈ lines (formatCode o cs), '\n' ∉ l := fun l hl => notMem_of_mem_pieces hl
  have htidy := tidy_formatCode hsemicolons hcommas h
  have htexts : (spaced (texts o' [] (lines (formatCode o cs)))).map Prod.snd =
      (spaced (texts o' [] (lines cs))).map Prod.snd := by
    rw [map_snd_spaced, map_snd_spaced, filled_texts htidy hds, filled_texts h hls,
      cores_formatCode hsemicolons hcommas h,
      written_written o o' [] (isCore_of_mem_cores h hls)]
  have hempty : (spaced ((lines (formatCode o cs)).map trimChars)).map Prod.fst =
      (spaced (lines (formatCode o cs))).map Prod.fst := by
    refine map_fst_spaced ?_
    rw [List.forall₂_map_left_iff]
    exact List.forall₂_same.mpr fun l hl => trimChars_eq_nil_iff hsemicolons hcommas h hl
  have hgaps : (spaced (texts o' [] (lines (formatCode o cs)))).map Prod.fst =
      (spaced (texts o' [] (lines cs))).map Prod.fst := by
    rw [map_fst_spaced_texts htidy hds, hempty, spaced_lines_formatCode hsemicolons hcommas h,
      map_fst_spaced_texts h hls, map_fst_spaced_texts h hls]
  have hspaced := (List.zip_of_prod hgaps htexts).trans (List.zip_of_prod rfl rfl).symm
  rw [formatCode_tidy hsemicolons' hcommas' htidy, formatCode_tidy hsemicolons' hcommas' h, hspaced]

/-- **Of two formattings the last one counts**: on a program without comments that closes its
literals on their lines, whatever indentation and quotes the two ask for. -/
theorem format_format {o o' : Options} (hsemicolons : o.semicolons = true)
    (hcommas : o.trailingCommas = true) (hsemicolons' : o'.semicolons = true)
    (hcommas' : o'.trailingCommas = true) {language : Option String}
    (hlanguage : Tag.of? language = some .code) {content : String}
    (hcontent : IsTidyText content.toList) :
    formatText o' language (formatText o language content) = formatText o' language content := by
  have hformat (o : Options) (content : String) : formatText o language content =
      String.ofList (formatCode o (unifyLineEnds content.toList)) := by
    rw [formatText, hlanguage]
    rfl
  have htidy := tidy_unifyLineEnds hcontent.tidy
  rw [hformat, hformat, hformat, String.toList_ofList,
    unifyLineEnds_formatCode hsemicolons hcommas htidy,
    formatCode_formatCode hsemicolons hcommas hsemicolons' hcommas' htidy]

/-- A list and a statement, first with tabs and double quotes. -/
theorem format_format_list :
    let tabs : Options := ⟨4, true, true, false, true⟩
    let text := "const a = [\n'b',\n`c`\n]\nreturn a"
    IsTidyText text.toList ∧
      formatText Options.default (some "typescript") (formatText tabs (some "typescript") text) =
        formatText Options.default (some "typescript") text := by
  have htext : IsTidyText "const a = [\n'b',\n`c`\n]\nreturn a".toList :=
    ⟨by decide, by decide⟩
  exact ⟨htext, format_format rfl rfl rfl rfl rfl htext⟩

end Scaffold.Format
