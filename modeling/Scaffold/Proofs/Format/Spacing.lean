import Mathlib.Data.List.Forall2
import Scaffold.Format.Finish
import Scaffold.Proofs.Text.Lines
import Scaffold.Proofs.Text.Trim
import Scaffold.Proofs.Text.Words

/-!
# Proofs/Format/Spacing — what the finishing pass keeps of the empty lines

Of the empty lines of a text the normal form keeps one between two lines that were separated by any,
and none at the ends.  `spaced` lists the other lines with that one bit each; the normal form is put
together from this list (`finish_eq`), and has the same one itself (`spaced_lines_finish`).
-/

namespace Scaffold.Format

open Text

/-- The lines that are not empty, and whether empty ones stand before each; `gap` tells this of the
first. -/
def spacedFrom (gap : Bool) : List (List Char) → List (Bool × List Char)
  | [] => []
  | l :: ls => if l = [] then spacedFrom true ls else (gap, l) :: spacedFrom false ls

/-- The lines that are not empty, and whether empty ones stand between each and the one before. -/
def spaced : List (List Char) → List (Bool × List Char)
  | [] => []
  | l :: ls => if l = [] then spaced ls else (false, l) :: spacedFrom false ls

/-- The lines with an empty one in each gap. -/
def unspaced (ps : List (Bool × List Char)) : List (List Char) :=
  ps.flatMap fun (gap, l) => if gap then [[], l] else [l]

theorem unspaced_cons (gap : Bool) (l : List Char) (ps : List (Bool × List Char)) :
    unspaced ((gap, l) :: ps) = (if gap then [[], l] else [l]) ++ unspaced ps :=
  List.flatMap_cons

/-! ## The normal form -/

/-- Behind a line, and behind an empty one. -/
theorem dropTail_collapse (ls : List (List Char)) :
    dropTail (· = []) (collapse ls) = unspaced (spacedFrom false ls) ∧
      dropTail (· = []) (collapse ([] :: ls)) = unspaced (spacedFrom true ls) := by
  induction ls with
  | nil => exact ⟨rfl, rfl⟩
  | cons l ls ih =>
    by_cases hl : l = []
    · subst hl
      exact ⟨ih.2, ih.2⟩
    · have hcollapse : collapse (l :: ls) = l :: collapse ls := by
        cases l with
        | nil => exact absurd rfl hl
        | cons c l => rfl
      have hfirst :
          dropTail (· = []) (collapse (l :: ls)) = unspaced (spacedFrom false (l :: ls)) := by
        rw [hcollapse, dropTail_cons_of_neg (by simpa using hl), ih.1, spacedFrom, if_neg hl]
        rfl
      refine ⟨hfirst, ?_⟩
      have hempty : collapse ([] :: l :: ls) = [] :: collapse (l :: ls) := by
        cases l with
        | nil => exact absurd rfl hl
        | cons c l => rfl
      rw [hempty, dropTail_cons, hfirst, spacedFrom, spacedFrom, if_neg hl, if_neg hl,
        unspaced_cons, unspaced_cons]
      rfl

theorem dropWhile_collapse_empty (ls : List (List Char)) :
    (collapse ([] :: ls)).dropWhile (· = []) = (collapse ls).dropWhile (· = []) := by
  cases ls with
  | nil => rfl
  | cons l ls => cases l <;> rfl

/-- Dropping and collapsing empty lines is spacing the others. -/
theorem trim_collapse (ls : List (List Char)) :
    dropTail (· = []) ((collapse ls).dropWhile (· = [])) = unspaced (spaced ls) := by
  induction ls with
  | nil => rfl
  | cons l ls ih =>
    cases l with
    | nil => rw [dropWhile_collapse_empty, ih]; rfl
    | cons c l => exact (dropTail_collapse ((c :: l) :: ls)).1

theorem finish_eq (ls : List (List Char)) :
    finish ls = joinWith ['\n'] (unspaced (spaced (ls.map trimRight))) ++ ['\n'] :=
  congrArg (joinWith ['\n'] · ++ ['\n']) (trim_collapse (ls.map trimRight))

/-! ## The lines of the normal form -/

/-- Spaced lines are read off again, with blank lines behind them or not. -/
theorem spacedFrom_unspaced (ls : List (List Char)) (gap : Bool) {blanks : List (List Char)}
    (hblanks : ∀ l ∈ blanks, l = []) :
    spacedFrom false (unspaced (spacedFrom gap ls) ++ blanks) = spacedFrom gap ls := by
  induction ls generalizing gap with
  | nil =>
    have hnil (gap : Bool) : spacedFrom gap blanks = [] := by
      induction blanks generalizing gap with
      | nil => rfl
      | cons l blanks ih =>
        obtain ⟨hl, hblanks⟩ := List.forall_mem_cons.mp hblanks
        rw [spacedFrom, if_pos hl, ih hblanks]
    exact hnil false
  | cons l ls ih =>
    by_cases hl : l = []
    · simp only [spacedFrom, if_pos hl]
      exact ih true
    · simp only [spacedFrom, if_neg hl, unspaced_cons]
      cases gap <;> simp [spacedFrom, hl, ih]

/-- The same from the beginning on. -/
theorem spaced_unspaced (ls : List (List Char)) {blanks : List (List Char)}
    (hblanks : ∀ l ∈ blanks, l = []) :
    spaced (unspaced (spaced ls) ++ blanks) = spaced ls := by
  induction ls with
  | nil =>
    induction blanks with
    | nil => rfl
    | cons l blanks ih =>
      obtain ⟨hl, hblanks⟩ := List.forall_mem_cons.mp hblanks
      exact (if_pos hl).trans (ih hblanks)
  | cons l ls ih =>
    by_cases hl : l = []
    · simp only [spaced, if_pos hl]
      exact ih
    · simp only [spaced, if_neg hl, unspaced_cons]
      rw [if_neg Bool.false_ne_true, List.append_assoc, List.singleton_append, spaced, if_neg hl,
        spacedFrom_unspaced ls false hblanks]

/-- The lines that are not empty. -/
def filled (ls : List (List Char)) : List (List Char) := ls.filter (· ≠ [])

@[simp] theorem filled_nil : filled [] = [] := rfl

@[simp] theorem filled_empty (ls : List (List Char)) : filled ([] :: ls) = filled ls := rfl

theorem filled_cons {l : List Char} (h : l ≠ []) (ls : List (List Char)) :
    filled (l :: ls) = l :: filled ls :=
  List.filter_cons_of_pos (by simpa using h)

/-- Spacing keeps the lines that are not empty. -/
theorem map_snd_spaced (ls : List (List Char)) : (spaced ls).map Prod.snd = filled ls := by
  have hfrom (gap : Bool) (ls : List (List Char)) :
      (spacedFrom gap ls).map Prod.snd = filled ls := by
    induction ls generalizing gap with
    | nil => rfl
    | cons l ls ih =>
      by_cases hl : l = []
      · subst hl
        exact ih true
      · rw [spacedFrom, if_neg hl, List.map_cons, ih false, filled_cons hl]
  induction ls with
  | nil => rfl
  | cons l ls ih =>
    by_cases hl : l = []
    · subst hl
      exact ih
    · rw [spaced, if_neg hl, List.map_cons, hfrom, filled_cons hl]

/-- Where empty lines stand depends on which lines are empty. -/
theorem map_fst_spaced {xs ys : List (List Char)}
    (h : List.Forall₂ (fun x y => x = [] ↔ y = []) xs ys) :
    (spaced xs).map Prod.fst = (spaced ys).map Prod.fst := by
  have hfrom (gap : Bool) {xs ys : List (List Char)}
      (h : List.Forall₂ (fun x y => x = [] ↔ y = []) xs ys) :
      (spacedFrom gap xs).map Prod.fst = (spacedFrom gap ys).map Prod.fst := by
    induction h generalizing gap with
    | nil => rfl
    | @cons x y xs ys hxy h ih =>
      by_cases hx : x = []
      · rw [spacedFrom, spacedFrom, if_pos hx, if_pos (hxy.mp hx), ih]
      · rw [spacedFrom, spacedFrom, if_neg hx, if_neg (mt hxy.mpr hx), List.map_cons,
          List.map_cons, ih]
  induction h with
  | nil => rfl
  | @cons x y xs ys hxy h ih =>
    by_cases hx : x = []
    · rw [spaced, spaced, if_pos hx, if_pos (hxy.mp hx), ih]
    · rw [spaced, spaced, if_neg hx, if_neg (mt hxy.mpr hx), List.map_cons, List.map_cons, hfrom _ h]

/-- What holds of the lines and of the empty one holds of the spaced ones. -/
theorem mem_of_mem_unspaced {P : List Char → Prop} (hnil : P []) {ls : List (List Char)}
    (h : ∀ l ∈ ls, P l) : ∀ l ∈ unspaced (spaced ls), P l := by
  have hfrom (gap : Bool) {ls : List (List Char)} (h : ∀ l ∈ ls, P l) :
      ∀ x ∈ spacedFrom gap ls, P x.2 := by
    induction ls generalizing gap with
    | nil => exact fun x hx => absurd hx List.not_mem_nil
    | cons l ls ih =>
      obtain ⟨hl, hls⟩ := List.forall_mem_cons.mp h
      rw [spacedFrom]
      split
      · exact ih true hls
      · exact List.forall_mem_cons.mpr ⟨hl, ih false hls⟩
  have hspaced : ∀ x ∈ spaced ls, P x.2 := by
    induction ls with
    | nil => exact fun x hx => absurd hx List.not_mem_nil
    | cons l ls ih =>
      obtain ⟨hl, hls⟩ := List.forall_mem_cons.mp h
      rw [spaced]
      split
      · exact ih hls
      · exact List.forall_mem_cons.mpr ⟨hl, hfrom false hls⟩
  intro l hl
  obtain ⟨⟨gap, k⟩, hx, hl⟩ := List.mem_flatMap.mp hl
  have hk : P k := hspaced _ hx
  cases gap
  · rwa [List.mem_singleton.mp hl]
  · obtain rfl | hl := List.mem_cons.mp hl
    · exact hnil
    · rwa [List.mem_singleton.mp hl]

section Finish

variable {ls : List (List Char)} (h : ∀ l ∈ ls, '\n' ∉ l)
include h

theorem oneLine_of_mem_trimmed : ∀ l ∈ ls.map trimRight, '\n' ∉ l := by
  intro l hl
  obtain ⟨k, hk, rfl⟩ := List.mem_map.mp hl
  exact fun hfeed => h k hk ((List.rdropWhile_prefix isBlank k).subset hfeed)

/-- The lines of the normal form: behind the last line feed stands an empty one. -/
theorem lines_finish :
    ∃ blanks, (∀ l ∈ blanks, l = []) ∧
      lines (finish ls) = unspaced (spaced (ls.map trimRight)) ++ blanks := by
  have hlines : ∀ l ∈ unspaced (spaced (ls.map trimRight)), '\n' ∉ l :=
    mem_of_mem_unspaced List.not_mem_nil (oneLine_of_mem_trimmed h)
  have hpieces : lines (finish ls) =
      pieces '\n' (joinWith ['\n'] (unspaced (spaced (ls.map trimRight)))) ++ [[]] := by
    rw [finish_eq, lines]
    exact pieces_append_cons _ []
  by_cases hne : unspaced (spaced (ls.map trimRight)) = []
  · exact ⟨[[], []], by simp, by rw [hpieces, hne]; rfl⟩
  · exact ⟨[[]], by simp, by rw [hpieces, pieces_joinWith hne hlines]⟩

theorem spaced_lines_finish : spaced (lines (finish ls)) = spaced (ls.map trimRight) := by
  obtain ⟨blanks, hblanks, hlines⟩ := lines_finish h
  rw [hlines, spaced_unspaced _ hblanks]

theorem filled_lines_finish : filled (lines (finish ls)) = filled (ls.map trimRight) := by
  rw [← map_snd_spaced, spaced_lines_finish h, map_snd_spaced]

end Finish

/-! ## Lines without the white space around them -/

/-- The lines that are not blank, without white space at their ends. -/
def cores (ls : List (List Char)) : List (List Char) := filled (ls.map trimChars)

theorem cores_blank {l : List Char} (h : trimChars l = []) (ls : List (List Char)) :
    cores (l :: ls) = cores ls := by
  rw [cores, List.map_cons, h]
  rfl

theorem cores_core {l : List Char} (h : trimChars l ≠ []) (ls : List (List Char)) :
    cores (l :: ls) = trimChars l :: cores ls :=
  filled_cons h _

/-- Empty lines have no core. -/
theorem cores_filled (ls : List (List Char)) : cores (filled ls) = cores ls := by
  induction ls with
  | nil => rfl
  | cons l ls ih =>
    by_cases hl : l = []
    · subst hl
      rw [filled_empty, ih, cores_blank rfl]
    · rw [filled_cons hl]
      by_cases hcore : trimChars l = []
      · rw [cores_blank hcore, cores_blank hcore, ih]
      · rw [cores_core hcore, cores_core hcore, ih]

/-- The normal form keeps the lines that are not blank. -/
theorem cores_lines_finish {ls : List (List Char)} (h : ∀ l ∈ ls, '\n' ∉ l) :
    cores (lines (finish ls)) = cores ls := by
  have htrim (l : List Char) : trimChars (trimRight l) = trimChars l := by
    obtain ⟨tail, htail, hl⟩ := exists_eq_dropTail_append isBlank l
    have heq := trim_append (List.forall_mem_nil _) htail (trimRight l)
    rw [List.nil_append, trimRight, ← hl] at heq
    exact heq.symm
  rw [← cores_filled, filled_lines_finish h, cores_filled, cores, List.map_map, cores]
  exact congrArg filled (List.map_congr_left fun l _ => htrim l)

/-- The text is these lines, with breaks between them and white space behind the last. -/
inductive Laid : List (List Char) → List Char → Prop
  | nil {t : List Char} (h : ∀ c ∈ t, isBlank c = true) : Laid [] t
  | last {l t : List Char} (h : ∀ c ∈ t, isBlank c = true) : Laid [l] (l ++ t)
  | cons {l m g xs : List Char} {ls : List (List Char)} (hg : IsBreak g) (h : Laid (m :: ls) xs) :
    Laid (l :: m :: ls) (l ++ (g ++ xs))

/-- A text is its lines that are not blank, with white space in front of them. -/
theorem laid_cores (ls : List (List Char)) :
    ∃ front xs, (∀ c ∈ front, isBlank c = true) ∧ joinWith ['\n'] ls = front ++ xs ∧
      Laid (cores ls) xs := by
  induction ls with
  | nil => exact ⟨[], [], List.forall_mem_nil _, rfl, .nil (List.forall_mem_nil _)⟩
  | cons l ls ih =>
    obtain ⟨front, tail, hfront, htail, hl⟩ := exists_trim isBlank l
    change l = front ++ trimChars l ++ tail at hl
    cases ls with
    | nil =>
      refine ⟨front, trimChars l ++ tail, hfront, hl.trans (List.append_assoc ..), ?_⟩
      by_cases hcore : trimChars l = []
      · rw [cores_blank hcore, hcore]
        exact .nil htail
      · rw [cores_core hcore]
        exact .last htail
    | cons m ls =>
      obtain ⟨f, xs, hf, hxs, h⟩ := ih
      have hjoin : joinWith ['\n'] (l :: m :: ls) =
          front ++ (trimChars l ++ ((tail ++ '\n' :: f) ++ xs)) := by
        rw [joinWith, hxs]
        conv_lhs => rw [hl]
        simp only [List.append_assoc, List.cons_append, List.nil_append]
      have hgap : IsBreak (tail ++ '\n' :: f) := by
        refine ⟨List.forall_mem_append.mpr ⟨htail, ?_⟩, by simp⟩
        exact List.forall_mem_cons.mpr ⟨by decide, hf⟩
      by_cases hcore : trimChars l = []
      · refine ⟨front ++ (tail ++ '\n' :: f), xs, ?_, ?_, ?_⟩
        · exact List.forall_mem_append.mpr ⟨hfront, hgap.1⟩
        · rw [hjoin, hcore, List.nil_append, List.append_assoc front]
        · rwa [cores_blank hcore]
      · refine ⟨front, _, hfront, hjoin, ?_⟩
        rw [cores_core hcore]
        cases hcores : cores (m :: ls) with
        | nil =>
          rw [hcores] at h
          cases h with
          | nil hblank => exact .last (List.forall_mem_append.mpr ⟨hgap.1, hblank⟩)
        | cons k ks => exact .cons hgap (hcores ▸ h)

/-- A text is its lines that are not blank, spaced in some way. -/
theorem spacedAlike_cores (ls : List (List Char)) :
    SpacedAlike Eq (joinWith ['\n'] ls) (joinWith ['\n'] (cores ls)) := by
  have hrefl (cs : List Char) : List.Forall₂ Eq cs cs := List.forall₂_same.mpr fun _ _ => rfl
  have hlaid {ks : List (List Char)} {xs : List Char} (h : Laid ks xs) :
      Respaced Eq xs (joinWith ['\n'] ks) := by
    induction h with
    | nil h => exact .blank h (List.forall_mem_nil _)
    | @last l t h =>
      have hend := Respaced.append (hrefl l) (Respaced.blank (R := Eq) h (List.forall_mem_nil _))
      rwa [List.append_nil] at hend
    | @cons l m g xs ls hg _ ih =>
      have hfeed : IsBreak ['\n'] := ⟨by decide, List.mem_singleton_self _⟩
      rw [joinWith, List.append_assoc]
      exact .append (hrefl l) (.gap hg hfeed ih)
  obtain ⟨front, xs, hfront, hjoin, h⟩ := laid_cores ls
  exact ⟨front, [], xs, _, hfront, List.forall_mem_nil _, hjoin, rfl, hlaid h⟩

/-! ## Line ends -/

/-- A line, and the line without the carriage return that it may end in. -/
def LineEnd (l l' : List Char) : Prop := l = l' ∨ l = l' ++ ['\r']

/-- Unifying line ends drops a carriage return from the end of a line, if it is there. -/
theorem lines_unifyLineEnds (cs : List Char) :
    List.Forall₂ LineEnd (lines cs) (lines (unifyLineEnds cs)) := by
  have hcons {c : Char} (hc : c ≠ '\n') {cs l : List Char} {ls : List (List Char)}
      (h : lines cs = l :: ls) : lines (c :: cs) = (c :: l) :: ls := by
    rw [lines] at h
    rw [lines, pieces, if_neg hc, h]
  fun_induction unifyLineEnds cs with
  | case1 cs ih => exact .cons (.inr rfl) ih
  | case2 c cs _ ih =>
    by_cases hc : c = '\n'
    · subst hc
      exact .cons (.inl rfl) ih
    · cases hlines : lines cs with
      | nil => exact absurd hlines (pieces_ne_nil '\n' cs)
      | cons l ls =>
        cases hunified : lines (unifyLineEnds cs) with
        | nil => exact absurd hunified (pieces_ne_nil '\n' (unifyLineEnds cs))
        | cons l' ls' =>
          rw [hlines, hunified] at ih
          obtain ⟨hl, hls⟩ := List.forall₂_cons.mp ih
          rw [hcons hc hlines, hcons hc hunified]
          refine .cons ?_ hls
          obtain rfl | rfl := hl
          · exact .inl rfl
          · exact .inr rfl
  | case3 => exact .cons (.inl rfl) .nil

/-- Lines that end in no carriage return stay. -/
theorem unifyLineEnds_of_getLast? {cs : List Char}
    (h : ∀ l ∈ lines cs, l.getLast? ≠ some '\r') : unifyLineEnds cs = cs := by
  have hsame {ls ls' : List (List Char)} (h : ∀ l ∈ ls, l.getLast? ≠ some '\r')
      (hends : List.Forall₂ LineEnd ls ls') : ls' = ls := by
    induction hends with
    | nil => rfl
    | @cons l l' ls ls' hl hls ih =>
      obtain ⟨hlast, hrest⟩ := List.forall_mem_cons.mp h
      obtain rfl | rfl := hl
      · rw [ih hrest]
      · exact absurd List.getLast?_concat hlast
  have hjoined := congrArg (joinWith ['\n']) (hsame h (lines_unifyLineEnds cs))
  rwa [lines, lines, joinWith_pieces, joinWith_pieces] at hjoined

/-- A text in normal form has no carriage return at the end of a line. -/
theorem unifyLineEnds_finish {ls : List (List Char)} (h : ∀ l ∈ ls, '\n' ∉ l) :
    unifyLineEnds (finish ls) = finish ls := by
  obtain ⟨blanks, hblanks, hlines⟩ := lines_finish h
  refine unifyLineEnds_of_getLast? ?_
  rw [hlines]
  refine List.forall_mem_append.mpr ⟨mem_of_mem_unspaced (by simp) ?_, ?_⟩
  · intro l hl hlast
    obtain ⟨k, -, rfl⟩ := List.mem_map.mp hl
    obtain ⟨hne, hreturn⟩ := List.mem_getLast?_eq_getLast hlast
    have hblank : isBlank ((trimRight k).getLast hne) = true := by rw [← hreturn]; decide
    exact List.rdropWhile_last_not isBlank k hne hblank
  · intro l hl
    rw [hblanks l hl]
    simp

end Scaffold.Format
