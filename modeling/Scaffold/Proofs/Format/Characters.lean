import Scaffold.Format.Basic
import Scaffold.Proofs.Format.Cells
import Scaffold.Proofs.Format.Spacing

/-!
# Proofs/Format/Characters — formatting a program touches layout characters only

White space, semicolons, commas and the two plain quotes are the **layout characters**; the
`essence` of a text is what is left without them.  Every step of the formatter keeps the essence of
every line: margins and trimmed ends are white space, and a pass adds, drops or exchanges one layout
character at a time.  So a formatted program has the essence that it had before (`essence_kept`),
however malformed it is.
-/

namespace Scaffold.Format

open Text

/-- A character that the formatter of programs may add, drop or exchange. -/
def isLayoutChar (c : Char) : Bool := isBlank c || [';', ',', '\'', '"'].contains c

/-- A text without its layout characters. -/
def essence (cs : List Char) : List Char := cs.filter fun c => !isLayoutChar c

theorem essence_append (cs ds : List Char) : essence (cs ++ ds) = essence cs ++ essence ds :=
  List.filter_append cs ds

theorem essence_eq_nil {cs : List Char} (h : ∀ c ∈ cs, isLayoutChar c = true) : essence cs = [] :=
  List.filter_eq_nil_iff.mpr fun c hc => by simp [h c hc]

theorem essence_of_blank {cs : List Char} (h : ∀ c ∈ cs, isBlank c = true) : essence cs = [] :=
  essence_eq_nil fun c hc => by rw [isLayoutChar, h c hc, Bool.true_or]

/-! ## Texts -/

theorem essence_trimRight (cs : List Char) : essence (trimRight cs) = essence cs := by
  obtain ⟨tail, htail, hcs⟩ := exists_eq_dropTail_append isBlank cs
  have h := congrArg essence hcs
  rw [essence_append, essence_of_blank htail, List.append_nil] at h
  exact h.symm

theorem essence_trimChars (cs : List Char) : essence (trimChars cs) = essence cs := by
  obtain ⟨front, tail, hfront, htail, hcs⟩ := exists_trim isBlank cs
  have h := congrArg essence hcs
  rw [essence_append, essence_append, essence_of_blank hfront, essence_of_blank htail,
    List.nil_append, List.append_nil] at h
  exact h.symm

theorem essence_joinWith_lineFeed (ls : List (List Char)) :
    essence (joinWith ['\n'] ls) = ls.flatMap essence :=
  filter_joinWith (by decide) ls

theorem flatMap_essence_lines (cs : List Char) : (lines cs).flatMap essence = essence cs := by
  rw [← essence_joinWith_lineFeed, lines, joinWith_pieces]

/-- Line ends are not of the essence. -/
theorem essence_unifyLineEnds (cs : List Char) : essence (unifyLineEnds cs) = essence cs := by
  have hends {l l' : List Char} (h : LineEnd l l') : essence l' = essence l := by
    obtain rfl | rfl := h
    · rfl
    · rw [essence_append]
      exact (List.append_nil _).symm
  have hlines {ls ls' : List (List Char)} (h : List.Forall₂ LineEnd ls ls') :
      ls'.flatMap essence = ls.flatMap essence := by
    induction h with
    | nil => rfl
    | cons hl _ ih => rw [List.flatMap_cons, List.flatMap_cons, hends hl, ih]
  rw [← flatMap_essence_lines, hlines (lines_unifyLineEnds cs), flatMap_essence_lines]

theorem flatMap_essence_collapse (ls : List (List Char)) :
    (collapse ls).flatMap essence = ls.flatMap essence := by
  fun_induction collapse ls with
  | case1 => rfl
  | case2 ls ih => exact ih
  | case3 l ls _ ih => rw [List.flatMap_cons, ih, List.flatMap_cons]

/-- Empty lines have no essence, wherever they are dropped. -/
theorem flatMap_essence_of_empty {ls : List (List Char)} (h : ∀ l ∈ ls, decide (l = []) = true) :
    ls.flatMap essence = [] := by
  rw [List.flatMap_eq_nil_iff]
  intro l hl
  rw [of_decide_eq_true (h l hl)]
  rfl

/-- Nor is what the normal form takes away. -/
theorem essence_finish (ls : List (List Char)) : essence (finish ls) = ls.flatMap essence := by
  have hfeed : essence ['\n'] = [] := rfl
  have htrim : (ls.map trimRight).flatMap essence = ls.flatMap essence := by
    rw [List.flatMap_map]
    exact List.flatMap_congr fun l _ => essence_trimRight l
  obtain ⟨front, tail, hfront, htail, heq⟩ :=
    exists_trim (fun l => decide (l = [])) (collapse (ls.map trimRight))
  have h := congrArg (List.flatMap essence) heq
  rw [List.flatMap_append, List.flatMap_append, flatMap_essence_of_empty hfront,
    flatMap_essence_of_empty htail, List.append_nil, List.nil_append, flatMap_essence_collapse,
    htrim] at h
  rw [finish, essence_append, essence_joinWith_lineFeed, hfeed, List.append_nil]
  exact h.symm

/-! ## Layout -/

/-- The essence of the text of a line. -/
def Line.essence (l : Line) : List Char := Format.essence (plain l.cells)

theorem essence_indentCells (o : Options) (stack : List Open) (code : List Char) :
    essence (plain (indentCells o.indentUnit stack code)) = [] := by
  refine essence_eq_nil fun c hc => ?_
  obtain ⟨x, hx, rfl⟩ := List.mem_map.mp hc
  obtain rfl | rfl := mem_indentCells hx <;> rfl

/-- Nor is indentation. -/
theorem essence_layoutLine (o : Options) (stack : List Open) (continued : Bool) (cs : List Cell) :
    (layoutLine o.indentUnit stack continued cs).1.essence = essence (plain cs) := by
  have htrim : essence (plain (trimCells cs)) = essence (plain cs) := by
    rw [plain_trimCells, essence_trimChars]
  cases continued with
  | true => rfl
  | false =>
    by_cases hempty : trimCells cs = []
    · rw [layoutLine_blank hempty, ← htrim, hempty]
      rfl
    · rw [layoutLine_code hempty, Line.essence]
      rw [plain_append, essence_append, essence_indentCells, List.nil_append, htrim]

theorem map_essence_layoutFrom (o : Options) (stack : List Open) (ls : List (Bool × List Cell)) :
    (layoutFrom o.indentUnit stack ls).map Line.essence = ls.map fun l => essence (plain l.2) := by
  induction ls generalizing stack with
  | nil => rfl
  | cons l ls ih => rw [layoutFrom, List.map_cons, List.map_cons, essence_layoutLine, ih]

theorem map_essence_layout (o : Options) (cs : List Char) :
    (layout o.indentUnit cs).map Line.essence = (lines cs).map essence := by
  have hlines := map_plain_cellLines false (cells cs)
  rw [plain_cells] at hlines
  rw [layout, map_essence_layoutFrom, ← hlines, List.map_map]
  rfl

/-! ## Passes -/

theorem essence_addSemicolon (l : Line) (after : List Line) :
    (addSemicolon l after).essence = l.essence := by
  rw [addSemicolon]
  split
  · rw [Line.essence, plain_append, essence_append]
    exact List.append_nil _
  · rfl

/-- Semicolons and commas can be taken from the end. -/
theorem essence_withoutFinal? {c : Char} (hc : c ∈ [';', ',']) {cs ds : List Cell}
    (h : withoutFinal? c cs = some ds) : essence (plain ds) = essence (plain cs) := by
  obtain ⟨front, x, tail, rfl, rfl, hx, -⟩ := withoutFinal?_eq_some h
  have hnil : essence (plain [x]) = [] := by
    have hfst : x.1 = c := Cell.fst_of_painted hx (by rintro rfl; simp at hc)
      (by rintro rfl; simp at hc)
    refine essence_eq_nil fun d hd => ?_
    rw [(List.mem_singleton.mp hd).trans hfst]
    obtain rfl | rfl : c = ';' ∨ c = ',' := by simpa using hc
    · rfl
    · rfl
  rw [← List.singleton_append, plain_append, plain_append, plain_append, essence_append,
    essence_append, essence_append, hnil, List.nil_append]

/-- A semicolon that is removed was not of the essence. -/
theorem essence_removeSemicolon (l : Line) (after : List Line) :
    (removeSemicolon l after).essence = l.essence := by
  rw [removeSemicolon]
  split
  · rfl
  · split
    · rename_i cs hcs
      exact essence_withoutFinal? List.mem_cons_self hcs
    · rfl

/-- A comma that is removed was not of the essence. -/
theorem essence_removeComma (l : Line) (after : List Line) :
    (removeComma l after).essence = l.essence := by
  rw [removeComma]
  split
  · split
    · rename_i cs hcs
      exact essence_withoutFinal? (by decide) hcs
    · rfl
  · rfl

/-- A comma that is added is not. -/
theorem essence_addComma (l : Line) (after : List Line) :
    (addComma l after).essence = l.essence := by
  rw [addComma]
  split
  · rfl
  · dsimp only
    split
    · rw [Line.essence, plain_append, essence_append, plain_dropTail, essence_trimRight]
      exact List.append_nil _
    · rfl

theorem essence_blur (cs : List Char) : essence (cs.map blur) = essence cs :=
  filter_map_blur rfl rfl cs

/-- The kind of quotes is not. -/
theorem essence_convertQuotes {source target : Char} (h : blur source = blur target) (l : Line)
    (after : List Line) : (convertQuotes source target l after).essence = l.essence := by
  rw [convertQuotes]
  split
  · rfl
  · rw [Line.essence, ← essence_blur, ← plain_map_blurred, blurred_requoteFrom h l.cells (by simp),
      plain_map_blurred, essence_blur]
    rfl

/-! ## The program -/

/-- **The essence of a text is kept**, pass by pass. -/
theorem essence_formatCode (o : Options) (cs : List Char) :
    essence (formatCode o cs) = essence cs := by
  have hsemicolons (ls : List Line) :
      (pass (if o.semicolons then addSemicolon else removeSemicolon) ls).map Line.essence =
        ls.map Line.essence := by
    split
    · exact map_pass essence_addSemicolon ls
    · exact map_pass essence_removeSemicolon ls
  have hquotes (ls : List Line) :
      (pass (if o.singleQuotes then convertQuotes '"' '\'' else convertQuotes '\'' '"') ls).map
        Line.essence = ls.map Line.essence := by
    split
    · exact map_pass (essence_convertQuotes blur_double) ls
    · exact map_pass (essence_convertQuotes blur_double.symm) ls
  have hcommas (ls : List Line) :
      (pass (if o.trailingCommas then addComma else removeComma) ls).map Line.essence =
        ls.map Line.essence := by
    split
    · exact map_pass essence_addComma ls
    · exact map_pass essence_removeComma ls
  rw [formatCode, essence_finish, List.flatMap_map]
  change List.flatMap Line.essence _ = _
  rw [List.flatMap_def, hcommas, hquotes, hsemicolons, map_essence_layout, ← List.flatMap_def,
    flatMap_essence_lines]

/-- **Formatting changes layout characters only.**  Without white space, semicolons, commas and
plain quotes, a formatted program is the program that was given, whatever the options. -/
theorem essence_kept (o : Options) {language : Option String} (h : Tag.of? language = some .code)
    (content : String) :
    essence (formatText o language content).toList = essence content.toList := by
  rw [formatText, h]
  change essence (String.ofList (formatCode o (unifyLineEnds content.toList))).toList = _
  rw [String.toList_ofList, essence_formatCode, essence_unifyLineEnds]

/-- A program that breaks off inside a literal. -/
theorem essence_kept_unfinished :
    Tag.of? (some "typescript") = some .code ∧
      essence (formatText Options.default (some "typescript") "return \"a\" // [\r\n  `b").toList =
        essence "return \"a\" // [\r\n  `b".toList :=
  ⟨rfl, essence_kept Options.default rfl "return \"a\" // [\r\n  `b"⟩

end Scaffold.Format
