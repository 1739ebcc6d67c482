import Scaffold.Format.Basic
import Scaffold.Proofs.Format.Capitals

/-!
# Proofs/Format/Markdown — formatting Markdown settles, and changes white space only

A heading is read with as many signs as leave it a text, and one blank is put behind them; read
again, it has the same signs and the same text (`formatHeading_formatHeading`).  White space at the
end of a line has no part in this, nor in what a fence is, and neither have empty lines.  So what the
finishing pass does afterwards is nothing to the next formatting (`formatText_markdown_settles`).
-/

namespace Scaffold.Text

/-- It is all one which end is trimmed first. -/
theorem dropWhile_dropTail {α : Type} (p q : α → Bool) (xs : List α) :
    (dropTail q xs).dropWhile p = dropTail q (xs.dropWhile p) := by
  induction xs with
  | nil => rfl
  | cons x xs ih =>
    cases hx : p x with
    | true =>
      rw [List.dropWhile_cons_of_pos hx, ← ih, dropTail_cons]
      split
      · rename_i hall
        rw [hall.1]
      · exact List.dropWhile_cons_of_pos hx
    | false =>
      have hstays : ¬p x = true := by rw [hx]; exact Bool.false_ne_true
      rw [List.dropWhile_cons_of_neg hstays, dropTail_cons]
      split
      · rfl
      · exact List.dropWhile_cons_of_neg hstays

/-- White space at the end of a text has no part in the word that it starts with. -/
theorem startsWith_trimRight {word : List Char} (h : ∀ c ∈ word, isBlank c = false)
    (cs : List Char) : startsWith word (trimRight cs) = startsWith word cs := by
  induction word generalizing cs with
  | nil => rfl
  | cons w word ih =>
    obtain ⟨hw, hword⟩ := List.forall_mem_cons.mp h
    cases cs with
    | nil => rfl
    | cons c cs =>
      by_cases hc : w = c
      · subst hc
        rw [trimRight, dropTail_cons_of_neg hw, startsWith, startsWith, afterWord?, if_pos rfl,
          afterWord?, if_pos rfl]
        exact ih hword cs
      · rw [trimRight, dropTail_cons]
        split
        · simp [startsWith, afterWord?, hc]
        · simp [startsWith, afterWord?, hc]

end Scaffold.Text

namespace Scaffold.Format

open Text Sql

/-! ## What is not white space -/

theorem visible_eq_nil_iff {cs : List Char} : visible cs = [] ↔ ∀ c ∈ cs, isBlank c = true := by
  rw [visible, List.filter_eq_nil_iff]
  exact forall₂_congr fun c _ => by simp

theorem visible_finish {ls : List (List Char)} (h : ∀ l ∈ ls, '\n' ∉ l) :
    visible (finish ls) = ls.flatMap visible := by
  rw [visible_eq, cores_lines_finish h, flatMap_visible_cores]

/-- No line of a text in normal form ends in white space. -/
theorem map_trimRight_lines_finish {ls : List (List Char)} (h : ∀ l ∈ ls, '\n' ∉ l) :
    (lines (finish ls)).map trimRight = lines (finish ls) := by
  obtain ⟨blanks, hblanks, hlines⟩ := lines_finish h
  have htrimmed : ∀ l ∈ lines (finish ls), trimRight l = l := by
    rw [hlines]
    refine List.forall_mem_append.mpr ⟨mem_of_mem_unspaced (P := fun l => trimRight l = l) rfl ?_,
      fun l hl => ?_⟩
    · exact List.forall_mem_map.mpr fun l _ => List.rdropWhile_idempotent isBlank l
    · rw [hblanks l hl]
      rfl
  conv_rhs => rw [← List.map_id (lines (finish ls))]
  exact List.map_congr_left htrimmed

theorem finish_lines_finish {ls : List (List Char)} (h : ∀ l ∈ ls, '\n' ∉ l) :
    finish (lines (finish ls)) = finish ls := by
  rw [finish_eq (lines (finish ls)), map_trimRight_lines_finish h, spaced_lines_finish h,
    ← finish_eq]

/-- A line end cannot be seen. -/
theorem visible_unifyLineEnds (cs : List Char) : visible (unifyLineEnds cs) = visible cs := by
  fun_induction unifyLineEnds cs with
  | case1 cs ih => exact ih
  | case2 c cs _ ih =>
    have hcons (ds : List Char) : visible (c :: ds) = visible [c] ++ visible ds :=
      visible_append [c] ds
    rw [hcons (unifyLineEnds cs), hcons cs, ih]
  | case3 => rfl

end Scaffold.Format

namespace Scaffold.Format.Markdown

open Text Sql

/-! ## Headings -/

/-- The signs that a line starts with. -/
def signsOf (l : List Char) : Nat := (l.takeWhile (· = '#')).length

/-- A text behind signs, one blank between them. -/
def headed (signs : Nat) (text : List Char) : List Char := List.replicate signs '#' ++ ' ' :: text

/-- A line begins with its signs. -/
theorem take_of_le_signsOf {k : Nat} {l : List Char} (h : k ≤ signsOf l) :
    l.take k = List.replicate k '#' := by
  have hsigns : l.takeWhile (· = '#') = List.replicate (signsOf l) '#' :=
    List.eq_replicate_iff.mpr ⟨rfl, fun c hc => by
      simpa using List.mem_takeWhile_imp (p := (· = '#')) hc⟩
  have hstart : l.take k = (l.takeWhile (· = '#')).take k := by
    conv_lhs => rw [← List.takeWhile_append_dropWhile (p := (· = '#')) (l := l)]
    exact List.take_append_of_le_length h
  rw [hstart, hsigns, List.take_replicate, Nat.min_eq_left h]

theorem eq_append_of_le_signsOf {k : Nat} {l : List Char} (h : k ≤ signsOf l) :
    l = List.replicate k '#' ++ l.drop k := by
  rw [← take_of_le_signsOf h, List.take_append_drop]

/-- White space behind a line is no sign. -/
theorem signsOf_trimRight (l : List Char) : signsOf (trimRight l) = signsOf l := by
  obtain ⟨tail, htail, hl⟩ := exists_eq_dropTail_append isBlank l
  have hnone : tail.takeWhile (· = '#') = [] := by
    refine takeWhile_of_head fun c hc => decide_eq_false ?_
    rintro rfl
    exact absurd (htail '#' (List.mem_of_mem_head? hc)) (by decide)
  have happend (xs : List Char) : ((xs ++ tail).takeWhile (· = '#')) = xs.takeWhile (· = '#') := by
    rw [List.takeWhile_append, hnone, List.append_nil]
    split
    · rename_i hall
      exact ((List.takeWhile_prefix _).eq_of_length hall).symm
    · rfl
  conv_rhs => rw [signsOf, hl, happend]
  rfl

/-- The heading that a line is read as. -/
theorem exists_of_heading? {k : Nat} {l y : List Char} (h : heading? k l = some y) :
    ∃ gap c text, (∀ x ∈ gap, isBlank x = true) ∧ isBlank c = false ∧
      l.drop k = gap ++ c :: text ∧ y = headed k (c :: text) := by
  obtain ⟨gap, hgap, heq⟩ := exists_eq_append_dropWhile (fun c => c = ' ' || c = '\t') (l.drop k)
  have hblank : ∀ x ∈ gap, isBlank x = true := by
    intro x hx
    have htwo := hgap x hx
    simp only [Bool.or_eq_true, decide_eq_true_eq] at htwo
    obtain rfl | rfl := htwo <;> decide
  simp only [heading?] at h
  split at h
  · rename_i c text hrest
    rw [hrest] at heq
    split at h
    · cases h
    · rename_i hc
      rw [hrest] at h
      exact ⟨gap, c, text, hblank, Bool.eq_false_iff.mpr hc, heq, (Option.some.inj h).symm⟩
  · cases h

/-- Signs are not trimmed. -/
theorem trimRight_signs_append (k : Nat) (text : List Char) :
    trimRight (List.replicate k '#' ++ text) = List.replicate k '#' ++ trimRight text := by
  have hsigns : dropTail isBlank (List.replicate k '#') = List.replicate k '#' := by
    refine dropTail_of_getLast fun c hc => ?_
    rw [List.eq_of_mem_replicate (List.mem_of_getLast? hc)]
    decide
  rw [trimRight, dropTail_append, hsigns]
  split
  · rename_i hnil
    rw [trimRight, hnil, List.append_nil]
  · rfl

/-- A heading is recognized with blanks behind it or without, -/
theorem heading?_trimRight {k : Nat} {l : List Char} (h : k ≤ signsOf l) :
    heading? k (trimRight l) = (heading? k l).map trimRight := by
  have hdrop : (trimRight l).drop k = trimRight (l.drop k) := by
    conv_lhs => rw [eq_append_of_le_signsOf h, trimRight_signs_append]
    exact List.drop_left' List.length_replicate
  rw [heading?, heading?, hdrop, trimRight, dropWhile_dropTail]
  cases (l.drop k).dropWhile fun c => decide (c = ' ') || decide (c = '\t') with
  | nil => rfl
  | cons c text =>
    cases hc : isBlank c with
    | true =>
      by_cases htext : dropTail isBlank text = []
      · simp [dropTail_cons, hc, htext]
      · simp [dropTail_cons, hc, htext]
    | false =>
      have htail : trimRight (' ' :: c :: text) = ' ' :: c :: dropTail isBlank text := by
        rw [trimRight, dropTail_cons, dropTail_cons_of_neg hc, if_neg (by simp)]
      rw [dropTail_cons_of_neg hc]
      simp only [hc, Bool.false_eq_true, if_false, Option.map_some, trimRight_signs_append, htail]

/-- A line is a heading, or it stays as it is. -/
theorem formatHeading_cases (l : List Char) :
    formatHeading l = l ∨ ∃ k, k < 6 ∧ k + 1 ≤ signsOf l ∧
      heading? (k + 1) l = some (formatHeading l) := by
  change Option.getD (List.findSome? _ (List.range (min 6 (signsOf l))).reverse) l = l ∨ _
  cases hfind : (List.range (min 6 (signsOf l))).reverse.findSome? fun k =>
      heading? (k + 1) l with
  | none => exact .inl rfl
  | some y =>
    obtain ⟨k, hk, hy⟩ := List.exists_of_findSome?_eq_some hfind
    rw [List.mem_reverse, List.mem_range] at hk
    have hformat : formatHeading l = y := by
      change Option.getD (List.findSome? _ (List.range (min 6 (signsOf l))).reverse) l = y
      rw [hfind]
      rfl
    exact .inr ⟨k, by omega, by omega, hformat ▸ hy⟩

theorem signsOf_headed (k : Nat) (text : List Char) : signsOf (headed k text) = k := by
  rw [signsOf, headed, List.takeWhile_append_of_pos fun c hc => by
    simp [List.eq_of_mem_replicate hc]]
  simp

/-- A heading stays as it is. -/
theorem formatHeading_headed {k : Nat} (hk : k < 6) {c : Char} (hc : isBlank c = false)
    (text : List Char) : formatHeading (headed (k + 1) (c :: text)) = headed (k + 1) (c :: text) := by
  have hne : c ≠ ' ' ∧ c ≠ '\t' := by
    constructor
    all_goals
      rintro rfl
      exact absurd hc (by decide)
  have hfirst : heading? (k + 1) (headed (k + 1) (c :: text)) = some (headed (k + 1) (c :: text)) := by
    have hdrop : (headed (k + 1) (c :: text)).drop (k + 1) = ' ' :: c :: text :=
      List.drop_left' List.length_replicate
    rw [heading?, hdrop]
    simp [hne, hc, headed]
  have hrange : (List.range (min 6 (signsOf (headed (k + 1) (c :: text))))).reverse =
      k :: (List.range k).reverse := by
    rw [signsOf_headed, Nat.min_eq_right hk, List.range_succ, List.reverse_concat]
  change Option.getD (List.findSome? _
    (List.range (min 6 (signsOf (headed (k + 1) (c :: text))))).reverse) _ = _
  rw [hrange, List.findSome?_cons, hfirst]
  rfl

theorem formatHeading_formatHeading (l : List Char) :
    formatHeading (formatHeading l) = formatHeading l := by
  obtain heq | ⟨k, hk, -, hheading⟩ := formatHeading_cases l
  · rw [heq, heq]
  · obtain ⟨-, c, text, -, hc, -, hy⟩ := exists_of_heading? hheading
    rw [hy, formatHeading_headed hk hc]

/-- and is written alike. -/
theorem formatHeading_trimRight (l : List Char) :
    formatHeading (trimRight l) = trimRight (formatHeading l) := by
  have hfind (ks : List Nat) (hks : ∀ k ∈ ks, k < min 6 (signsOf l)) :
      (ks.findSome? fun k => heading? (k + 1) (trimRight l)) =
        (ks.findSome? fun k => heading? (k + 1) l).map trimRight := by
    induction ks with
    | nil => rfl
    | cons k ks ih =>
      obtain ⟨hk, hks⟩ := List.forall_mem_cons.mp hks
      rw [List.findSome?_cons, List.findSome?_cons, heading?_trimRight (by omega)]
      cases heading? (k + 1) l with
      | none => exact ih hks
      | some y => rfl
  change Option.getD (List.findSome? _ (List.range (min 6 (signsOf (trimRight l)))).reverse) _ =
    trimRight (Option.getD (List.findSome? _ (List.range (min 6 (signsOf l))).reverse) l)
  rw [signsOf_trimRight, hfind _ fun k hk => List.mem_range.mp (List.mem_reverse.mp hk)]
  exact Option.getD_map ..

/-- Only blanks are put behind the signs. -/
theorem visible_formatHeading (l : List Char) : visible (formatHeading l) = visible l := by
  obtain heq | ⟨k, -, hsigns, hheading⟩ := formatHeading_cases l
  · rw [heq]
  · obtain ⟨gap, c, text, hgap, -, hdrop, hy⟩ := exists_of_heading? hheading
    have hspace : visible (' ' :: c :: text) = visible (c :: text) := rfl
    conv_rhs => rw [eq_append_of_le_signsOf hsigns, hdrop]
    rw [hy, headed, visible_append, visible_append, visible_append, visible_blank hgap, hspace,
      List.nil_append]

/-- A heading stays on one line. -/
theorem lineFeed_notMem_formatHeading {l : List Char} (h : '\n' ∉ l) : '\n' ∉ formatHeading l := by
  obtain heq | ⟨k, -, -, hheading⟩ := formatHeading_cases l
  · rwa [heq]
  · obtain ⟨gap, c, text, -, -, hdrop, hy⟩ := exists_of_heading? hheading
    have htext : '\n' ∉ c :: text := fun hmem =>
      h (List.mem_of_mem_drop (i := k + 1) (hdrop ▸ List.mem_append_right gap hmem))
    rw [hy, headed, List.mem_append, List.mem_cons]
    rintro (hfeed | hfeed | hfeed)
    · exact absurd (List.eq_of_mem_replicate hfeed) (by decide)
    · exact absurd hfeed (by decide)
    · exact htext hfeed

/-! ## Fences -/

theorem isFence_trimRight (l : List Char) : isFence (trimRight l) = isFence l := by
  have htrim : trimLeft (trimRight l) = trimRight (trimLeft l) :=
    dropWhile_dropTail isBlank isBlank l
  rw [isFence, htrim, startsWith_trimRight (by decide)]
  rfl

/-- A heading opens no fence. -/
theorem isFence_formatHeading (l : List Char) : isFence (formatHeading l) = isFence l := by
  obtain heq | ⟨k, -, hsigns, hheading⟩ := formatHeading_cases l
  · rw [heq]
  · obtain ⟨-, c, text, -, -, -, hy⟩ := exists_of_heading? hheading
    have hsign (rest : List Char) : isFence (List.replicate (k + 1) '#' ++ rest) = false := rfl
    rw [hy, headed, hsign, eq_append_of_le_signsOf hsigns, hsign]

/-- A line inside or outside of a fence. -/
def formatLine (inFence : Bool) (l : List Char) : List Char :=
  if isFence l || inFence then l else formatHeading l

theorem formatFrom_cons (inFence : Bool) (l : List Char) (ls : List (List Char)) :
    formatFrom inFence (l :: ls) =
      formatLine inFence l :: formatFrom (xor (isFence l) inFence) ls := by
  rw [formatFrom, formatLine]
  cases isFence l with
  | true => rw [if_pos rfl, Bool.true_or, if_pos rfl, Bool.true_xor]
  | false => rw [if_neg Bool.false_ne_true, Bool.false_or, Bool.false_xor]

section Lines

variable (inFence : Bool) (l : List Char)

theorem isFence_formatLine : isFence (formatLine inFence l) = isFence l := by
  rw [formatLine]
  split
  · rfl
  · exact isFence_formatHeading l

theorem formatLine_formatLine :
    formatLine inFence (formatLine inFence l) = formatLine inFence l := by
  rw [formatLine, isFence_formatLine, formatLine]
  split
  · rfl
  · exact formatHeading_formatHeading l

theorem formatLine_trimRight :
    formatLine inFence (trimRight l) = trimRight (formatLine inFence l) := by
  rw [formatLine, isFence_trimRight, formatLine]
  split
  · rfl
  · exact formatHeading_trimRight l

theorem visible_formatLine : visible (formatLine inFence l) = visible l := by
  rw [formatLine]
  split
  · rfl
  · exact visible_formatHeading l

end Lines

/-! ## Texts -/

section Texts

variable (inFence : Bool) (ls : List (List Char))

theorem formatFrom_formatFrom :
    formatFrom inFence (formatFrom inFence ls) = formatFrom inFence ls := by
  induction ls generalizing inFence with
  | nil => rfl
  | cons l ls ih =>
    rw [formatFrom_cons, formatFrom_cons, isFence_formatLine, formatLine_formatLine, ih]

theorem formatFrom_map_trimRight :
    formatFrom inFence (ls.map trimRight) = (formatFrom inFence ls).map trimRight := by
  induction ls generalizing inFence with
  | nil => rfl
  | cons l ls ih =>
    rw [List.map_cons, formatFrom_cons, formatFrom_cons, List.map_cons, isFence_trimRight,
      formatLine_trimRight, ih]

theorem flatMap_visible_formatFrom : (formatFrom inFence ls).flatMap visible = ls.flatMap visible := by
  induction ls generalizing inFence with
  | nil => rfl
  | cons l ls ih =>
    rw [formatFrom_cons, List.flatMap_cons, List.flatMap_cons, visible_formatLine, ih]

/-- Empty lines have no part in whether formatting changes anything. -/
theorem formatFrom_filled :
    formatFrom inFence (filled ls) = filled ls ↔ formatFrom inFence ls = ls := by
  induction ls generalizing inFence with
  | nil => exact Iff.rfl
  | cons l ls ih =>
    by_cases hl : l = []
    · subst hl
      have hempty : formatFrom inFence ([] :: ls) = [] :: formatFrom inFence ls := by
        rw [formatFrom_cons]
        cases inFence <;> rfl
      rw [filled_empty, hempty, ih, List.cons.injEq]
      exact ⟨fun h => ⟨rfl, h⟩, And.right⟩
    · rw [filled_cons hl, formatFrom_cons, formatFrom_cons, List.cons.injEq, List.cons.injEq, ih]

/-- So does every line. -/
theorem lineFeed_notMem_formatFrom {ls : List (List Char)} (h : ∀ l ∈ ls, '\n' ∉ l) :
    ∀ l ∈ formatFrom inFence ls, '\n' ∉ l := by
  induction ls generalizing inFence with
  | nil => exact List.forall_mem_nil _
  | cons l ls ih =>
    obtain ⟨hl, hls⟩ := List.forall_mem_cons.mp h
    rw [formatFrom_cons]
    refine List.forall_mem_cons.mpr ⟨?_, ih _ hls⟩
    rw [formatLine]
    split
    · exact hl
    · exact lineFeed_notMem_formatHeading hl

end Texts

theorem oneLine_formatFrom_lines (cs : List Char) : ∀ l ∈ formatFrom false (lines cs), '\n' ∉ l :=
  lineFeed_notMem_formatFrom false fun _ hl => notMem_of_mem_pieces hl

theorem visible_format (cs : List Char) : visible (format cs) = visible cs := by
  rw [format, visible_finish (oneLine_formatFrom_lines cs), flatMap_visible_formatFrom,
    ← flatMap_visible_cores, ← visible_eq]

/-- **A formatted text is settled.** -/
theorem format_formatted (cs : List Char) : format (format cs) = format cs := by
  let ls := formatFrom false (lines cs)
  have hlines : ∀ l ∈ ls, '\n' ∉ l := oneLine_formatFrom_lines cs
  have htrimmed : formatFrom false (ls.map trimRight) = ls.map trimRight := by
    rw [formatFrom_map_trimRight, formatFrom_formatFrom]
  -- the finishing pass changes nothing but ends of lines and empty lines
  have hagain : formatFrom false (lines (finish ls)) = lines (finish ls) := by
    rw [← formatFrom_filled, filled_lines_finish hlines, formatFrom_filled]
    exact htrimmed
  change finish (formatFrom false (lines (finish ls))) = finish ls
  rw [hagain, finish_lines_finish hlines]

end Scaffold.Format.Markdown

namespace Scaffold.Format

open Text Sql

theorem formatText_markdown (o : Options) (content : String) :
    formatText o (some "markdown") content =
      String.ofList (Markdown.format (unifyLineEnds content.toList)) := rfl

/-- **Formatting Markdown settles at once and changes white space only.**  A text that has been
formatted is not changed again, and without white space it is the text that was given. -/
theorem formatText_markdown_settles (o o' : Options) (content : String) :
    formatText o' (some "markdown") (formatText o (some "markdown") content) =
        formatText o (some "markdown") content ∧
      visible (formatText o (some "markdown") content).toList = visible content.toList := by
  rw [formatText_markdown, formatText_markdown, String.toList_ofList]
  constructor
  · have hunified : unifyLineEnds (Markdown.format (unifyLineEnds content.toList)) =
        Markdown.format (unifyLineEnds content.toList) :=
      unifyLineEnds_finish (Markdown.oneLine_formatFrom_lines _)
    rw [hunified, Markdown.format_formatted]
  · rw [Markdown.visible_format, visible_unifyLineEnds]

end Scaffold.Format
