import Mathlib.Algebra.GroupWithZero.Nat
import Scaffold.Text.Lines

/-!
# Proofs/Text/Lines — the lines of a text that is put together piece by piece

A text has the lines that are **completed** in it and the one that is **left over** behind the last
line feed.  What is appended goes to the line that is left over (`leftover_append`), and a line feed
completes it (`completed_append_lineFeed`).  So the lines of a paragraph are those it was made of
(`lines_paragraph`), as long as none of them holds a line feed.
-/

namespace Scaffold.Text

/-! ## Pieces of what is put together -/

section Pieces

variable {α : Type} [DecidableEq α] {sep : α}

/-- Without a separator there is one piece. -/
theorem pieces_of_notMem {xs : List α} (h : sep ∉ xs) : pieces sep xs = [xs] := by
  induction xs with
  | nil => rfl
  | cons x xs ih =>
    obtain ⟨hx, hxs⟩ := not_or.mp (mt List.mem_cons.mpr h)
    rw [pieces, if_neg (Ne.symm hx), ih hxs]

/-- A separator cuts. -/
theorem pieces_append_cons (xs ys : List α) :
    pieces sep (xs ++ sep :: ys) = pieces sep xs ++ pieces sep ys := by
  induction xs with
  | nil => simp [pieces]
  | cons x xs ih =>
    rw [List.cons_append, pieces, pieces, ih]
    by_cases hx : x = sep
    · rw [if_pos hx, if_pos hx, List.cons_append]
    · rw [if_neg hx, if_neg hx]
      cases hp : pieces sep xs with
      | nil => exact absurd hp (pieces_ne_nil sep xs)
      | cons p ps => rfl

/-- What holds no separator goes to the last piece. -/
theorem pieces_append_of_notMem (xs : List α) {ys : List α} (h : sep ∉ ys) :
    pieces sep (xs ++ ys) =
      (pieces sep xs).dropLast ++ [(pieces sep xs).getLast (pieces_ne_nil sep xs) ++ ys] := by
  induction xs with
  | nil => exact pieces_of_notMem h
  | cons x xs ih =>
    have hne : pieces sep xs ≠ [] := pieces_ne_nil sep xs
    by_cases hx : x = sep
    · simp only [List.cons_append, pieces, if_pos hx, ih, List.dropLast_cons_of_ne_nil hne,
        List.getLast_cons hne]
    · cases hp : pieces sep xs with
      | nil => exact absurd hp hne
      | cons p ps =>
        simp only [hp] at ih
        cases ps with
        | nil => simp_all [pieces]
        | cons q qs => simp_all [pieces]

/-- The pieces make up what is no separator. -/
theorem flatten_pieces (sep : α) (xs : List α) : (pieces sep xs).flatten = xs.filter (· ≠ sep) := by
  induction xs with
  | nil => rfl
  | cons x xs ih =>
    rw [pieces]
    by_cases hx : x = sep
    · rw [if_pos hx, List.flatten_cons, List.nil_append, ih,
        List.filter_cons_of_neg (by simpa using hx)]
    · rw [if_neg hx, List.filter_cons_of_pos (by simpa using hx), ← ih]
      cases hp : pieces sep xs with
      | nil => exact absurd hp (pieces_ne_nil sep xs)
      | cons p ps => rfl

theorem mem_filter_of_mem_pieces {xs p : List α} (hp : p ∈ pieces sep xs) {x : α} (hx : x ∈ p) :
    x ∈ xs.filter (· ≠ sep) :=
  flatten_pieces sep xs ▸ List.mem_flatten_of_mem hp hx

theorem mem_of_mem_pieces {xs p : List α} (hp : p ∈ pieces sep xs) {x : α} (hx : x ∈ p) :
    x ∈ xs :=
  (List.mem_filter.mp (mem_filter_of_mem_pieces hp hx)).1

theorem notMem_of_mem_pieces {xs p : List α} (hp : p ∈ pieces sep xs) : sep ∉ p := fun hsep =>
  of_decide_eq_true (List.mem_filter.mp (mem_filter_of_mem_pieces hp hsep)).2 rfl

/-- Joined pieces are cut again where they were joined. -/
theorem pieces_joinWith {ps : List (List α)} (hne : ps ≠ []) (h : ∀ p ∈ ps, sep ∉ p) :
    pieces sep (joinWith [sep] ps) = ps := by
  induction ps with
  | nil => exact absurd rfl hne
  | cons p ps ih =>
    have hp : sep ∉ p := h p List.mem_cons_self
    cases ps with
    | nil => exact pieces_of_notMem hp
    | cons q qs =>
      have hrest := ih (List.cons_ne_nil q qs) fun x hx => h x (List.mem_cons_of_mem p hx)
      rw [joinWith, List.append_assoc, List.singleton_append, pieces_append_cons, hrest,
        pieces_of_notMem hp]
      rfl

omit [DecidableEq α] in
/-- A joined part stands in a part or in the separator. -/
theorem mem_joinWith {sep : List α} {ps : List (List α)} {x : α} (h : x ∈ joinWith sep ps) :
    (∃ p ∈ ps, x ∈ p) ∨ x ∈ sep := by
  induction ps with
  | nil => exact absurd h List.not_mem_nil
  | cons p ps ih =>
    cases ps with
    | nil => exact .inl ⟨p, List.mem_cons_self, h⟩
    | cons q qs =>
      rw [joinWith, List.mem_append, List.mem_append] at h
      obtain (hp | hsep) | hrest := h
      · exact .inl ⟨p, List.mem_cons_self, hp⟩
      · exact .inr hsep
      · obtain ⟨r, hr, hx⟩ | hsep := ih hrest
        · exact .inl ⟨r, List.mem_cons_of_mem p hr, hx⟩
        · exact .inr hsep

omit [DecidableEq α] in
theorem notMem_joinWith {sep : List α} {ps : List (List α)} {x : α} (hsep : x ∉ sep)
    (h : ∀ p ∈ ps, x ∉ p) : x ∉ joinWith sep ps :=
  fun hx => (mem_joinWith hx).elim (fun ⟨p, hp, hxp⟩ => h p hp hxp) hsep

omit [DecidableEq α] in
theorem joinWith_cons (sep p : List α) (ps : List (List α)) :
    joinWith sep (p :: ps) = p ++ ps.flatMap (sep ++ ·) := by
  induction ps generalizing p with
  | nil => exact (List.append_nil p).symm
  | cons q qs ih => rw [joinWith, ih, List.append_assoc, List.flatMap_cons, List.append_assoc]

omit [DecidableEq α] in
theorem map_joinWith {β : Type} (f : α → β) (sep : List α) (ps : List (List α)) :
    (joinWith sep ps).map f = joinWith (sep.map f) (ps.map (·.map f)) := by
  fun_induction joinWith sep ps with
  | case1 => rfl
  | case2 p => rfl
  | case3 p q ps ih =>
    rw [List.map_append, List.map_append, ih]
    rfl

omit [DecidableEq α] in
/-- What is left of joined pieces when the separators go. -/
theorem filter_joinWith {f : α → Bool} {sep : List α} (hsep : sep.filter f = [])
    (ps : List (List α)) : (joinWith sep ps).filter f = ps.flatMap (·.filter f) := by
  fun_induction joinWith sep ps with
  | case1 => rfl
  | case2 p => rw [List.flatMap_singleton]
  | case3 p q ps ih =>
    rw [List.filter_append, List.filter_append, hsep, List.append_nil, ih]
    rfl

omit [DecidableEq α] in
/-- A text is known from what stands on either side of its first separator. -/
theorem append_cons_inj {xs ys us vs : List α} (hxs : sep ∉ xs) (hys : sep ∉ ys)
    (h : xs ++ sep :: us = ys ++ sep :: vs) : xs = ys ∧ us = vs := by
  induction xs generalizing ys with
  | nil =>
    cases ys with
    | nil => exact ⟨rfl, List.tail_eq_of_cons_eq h⟩
    | cons y ys => exact absurd (List.head_eq_of_cons_eq h ▸ List.mem_cons_self) hys
  | cons x xs ih =>
    cases ys with
    | nil => exact absurd (List.head_eq_of_cons_eq h ▸ List.mem_cons_self) hxs
    | cons y ys =>
      obtain ⟨hxy, htail⟩ := List.cons.inj h
      obtain ⟨hxs', huv⟩ :=
        ih (mt (List.mem_cons_of_mem x) hxs) (mt (List.mem_cons_of_mem y) hys) htail
      exact ⟨by rw [hxy, hxs'], huv⟩

end Pieces

/-! ## Searching -/

/-- A word is found in front of a letter it has not. -/
theorem afterWord?_append {word : List Char} {c : Char} (h : c ∉ word) (cs ds : List Char) :
    afterWord? word (cs ++ c :: ds) = (afterWord? word cs).map (· ++ c :: ds) := by
  induction word generalizing cs with
  | nil => rfl
  | cons w ws ih =>
    obtain ⟨hw, hws⟩ := not_or.mp (mt List.mem_cons.mpr h)
    cases cs with
    | nil => simp only [List.nil_append, afterWord?, if_neg (Ne.symm hw), Option.map_none]
    | cons d cs =>
      rw [List.cons_append, afterWord?, afterWord?]
      split
      · exact ih hws cs
      · rfl

theorem afterWord?_self_append (word rest : List Char) :
    afterWord? word (word ++ rest) = some rest := by
  induction word with
  | nil => rfl
  | cons w ws ih => rw [List.cons_append, afterWord?, if_pos rfl, ih]

/-- A text is cut at the first such letter. -/
theorem cutAt?_singleton {c : Char} {cs : List Char} (h : c ∉ cs) (ds : List Char) :
    cutAt? [c] (cs ++ c :: ds) = some (cs, ds) := by
  induction cs with
  | nil => simp [cutAt?, afterWord?]
  | cons d cs ih =>
    obtain ⟨hd, hcs⟩ := not_or.mp (mt List.mem_cons.mpr h)
    simp [cutAt?, afterWord?, hd, ih hcs]

theorem cutAt?_eq_none {c : Char} {cs : List Char} (h : c ∉ cs) : cutAt? [c] cs = none := by
  induction cs with
  | nil => rfl
  | cons d cs ih =>
    obtain ⟨hd, hcs⟩ := not_or.mp (mt List.mem_cons.mpr h)
    simp [cutAt?, afterWord?, hd, ih hcs]

/-- A word that is long enough to miss is missed whatever follows. -/
theorem afterWord?_append_eq_none {word cs : List Char} (h : afterWord? word cs = none)
    (hlength : word.length ≤ cs.length) (ds : List Char) : afterWord? word (cs ++ ds) = none := by
  induction word generalizing cs with
  | nil => cases h
  | cons w ws ih =>
    cases cs with
    | nil => exact absurd hlength (Nat.not_succ_le_zero _)
    | cons c cs =>
      rw [afterWord?] at h
      rw [List.cons_append, afterWord?]
      split at h
      · rename_i hw
        rw [if_pos hw]
        exact ih h (Nat.le_of_succ_le_succ hlength)
      · rename_i hw
        rw [if_neg hw]

/-- The first occurrence of a word stays the first one whatever follows. -/
theorem cutAt?_append {word cs before rest : List Char} (h : cutAt? word cs = some (before, rest))
    (ds : List Char) : cutAt? word (cs ++ ds) = some (before, rest ++ ds) := by
  induction cs generalizing before with
  | nil =>
    rw [cutAt?, Option.ite_none_right_eq_some, List.isEmpty_iff] at h
    obtain ⟨rfl, ⟨⟩⟩ := h
    cases ds <;> rfl
  | cons c cs ih =>
    rw [cutAt?] at h
    rw [List.cons_append, cutAt?]
    cases hafter : afterWord? word (c :: cs) with
    | some after =>
      rw [hafter] at h
      cases h
      rw [← List.cons_append, eq_append_of_afterWord? hafter, List.append_assoc,
        afterWord?_self_append]
    | none =>
      rw [hafter] at h
      obtain ⟨⟨before', rest'⟩, hcut, heq⟩ := Option.map_eq_some_iff.mp h
      cases heq
      have hlength : word.length ≤ (c :: cs).length := by
        rw [eq_append_of_cutAt? hcut]
        simp only [List.length_cons, List.length_append]
        omega
      rw [← List.cons_append, afterWord?_append_eq_none hafter hlength, ih hcut]
      rfl

/-- What lacks the first character of a word is passed on the way to it. -/
theorem cutAt?_append_of_notMem {c : Char} {word cs : List Char} (h : c ∉ cs) (ds : List Char) :
    cutAt? (c :: word) (cs ++ ds) = (cutAt? (c :: word) ds).map fun (a, b) => (cs ++ a, b) := by
  induction cs with
  | nil => simp
  | cons d cs ih =>
    obtain ⟨hd, hcs⟩ := not_or.mp (mt List.mem_cons.mpr h)
    rw [List.cons_append, cutAt?, afterWord?, if_neg hd, ih hcs, Option.map_map]
    rfl

/-! ## Completed lines and the line that is left over -/

/-- The lines of a text that a line feed ends. -/
def completed (cs : List Char) : List (List Char) := (lines cs).dropLast

/-- What follows the last line feed of a text. -/
def leftover (cs : List Char) : List Char := (lines cs).getLast (pieces_ne_nil '\n' cs)

theorem lines_eq (cs : List Char) : lines cs = completed cs ++ [leftover cs] :=
  (List.dropLast_concat_getLast (pieces_ne_nil '\n' cs)).symm

theorem completed_append {cs ds : List Char} (h : '\n' ∉ ds) :
    completed (cs ++ ds) = completed cs := by
  rw [completed, lines, pieces_append_of_notMem cs h, List.dropLast_concat]
  rfl

theorem leftover_append {cs ds : List Char} (h : '\n' ∉ ds) :
    leftover (cs ++ ds) = leftover cs ++ ds := by
  simp only [leftover, lines, pieces_append_of_notMem cs h, List.getLast_concat]

theorem completed_append_lineFeed (cs : List Char) :
    completed (cs ++ ['\n']) = completed cs ++ [leftover cs] := by
  rw [← lines_eq, completed, lines, pieces_append_cons]
  exact List.dropLast_concat

theorem leftover_append_lineFeed (cs : List Char) : leftover (cs ++ ['\n']) = [] := by
  simp only [leftover, lines, pieces_append_cons, pieces, List.getLast_concat]

/-! ## Paragraphs -/

/-- The text stays on one line. -/
def OneLine (s : String) : Prop := '\n' ∉ s.toList

instance (s : String) : Decidable (OneLine s) := inferInstanceAs (Decidable ('\n' ∉ s.toList))

theorem OneLine.append {s t : String} (hs : OneLine s) (ht : OneLine t) : OneLine (s ++ t) := by
  rw [OneLine, String.toList_append, List.mem_append]
  exact not_or.mpr ⟨hs, ht⟩

theorem oneLine_ofList {cs : List Char} (h : '\n' ∉ cs) : OneLine (String.ofList cs) := by
  rwa [OneLine, String.toList_ofList]

theorem toList_paragraph (ls : List String) :
    (paragraph ls).toList = ls.flatMap fun l => l.toList ++ ['\n'] := by
  rw [paragraph, String.toList_join, List.flatMap_map]
  exact congrArg (fun f => ls.flatMap f) (funext fun l => String.toList_append)

theorem toList_paragraph_cons (l : String) (ls : List String) :
    (paragraph (l :: ls)).toList = l.toList ++ '\n' :: (paragraph ls).toList := by
  rw [toList_paragraph, toList_paragraph, List.flatMap_cons, List.append_assoc,
    List.singleton_append]

theorem paragraph_append (ls ms : List String) :
    paragraph (ls ++ ms) = paragraph ls ++ paragraph ms := by
  rw [← String.toList_inj, String.toList_append]
  simp only [toList_paragraph, List.flatMap_append]

theorem length_paragraph (ls : List String) :
    (paragraph ls).length = (ls.map fun l => l.length + 1).sum := by
  rw [← String.length_toList, toList_paragraph, List.length_flatMap]
  refine congrArg List.sum (List.map_congr_left fun l _ => ?_)
  rw [List.length_append, String.length_toList, List.length_singleton]

/-- Joined lines are joined letters. -/
theorem toList_intercalate (sep : String) (ls : List String) :
    (sep.intercalate ls).toList = joinWith sep.toList (ls.map String.toList) := by
  rw [String.toList_intercalate]
  induction ls with
  | nil => rfl
  | cons l ls ih =>
    cases ls with
    | nil => exact List.intercalate_singleton
    | cons m ms =>
      rw [List.map_cons, List.map_cons, List.intercalate_cons_cons, joinWith, ← List.map_cons, ih]

theorem toList_unlines (ls : List String) :
    (unlines ls).toList = joinWith ['\n'] (ls.map String.toList) :=
  toList_intercalate "\n" ls

/-- **The lines of a paragraph are those that it was made of**, and an empty one. -/
theorem lines_paragraph {ls : List String} (h : ∀ l ∈ ls, OneLine l) :
    lines (paragraph ls).toList = ls.map String.toList ++ [[]] := by
  rw [toList_paragraph]
  induction ls with
  | nil => rfl
  | cons l ls ih =>
    have hl : '\n' ∉ l.toList := h l List.mem_cons_self
    rw [List.flatMap_cons, List.append_assoc, List.singleton_append, lines, pieces_append_cons,
      pieces_of_notMem hl]
    exact congrArg (l.toList :: ·) (ih fun x hx => h x (List.mem_cons_of_mem l hx))

/-! ## Line ends -/

theorem unifyLineEnds_cons {c : Char} (hc : c ≠ '\r') (cs : List Char) :
    unifyLineEnds (c :: cs) = c :: unifyLineEnds cs := by
  rw [unifyLineEnds]
  rintro r rfl
  exact absurd rfl hc

/-- The first character of a text stays, unless it is part of a line end. -/
theorem unifyLineEnds_cases (cs : List Char) :
    cs = [] ∨ (∃ rest, cs = '\r' :: '\n' :: rest ∧ unifyLineEnds cs = '\n' :: unifyLineEnds rest) ∨
      ∃ c rest, cs = c :: rest ∧ unifyLineEnds cs = c :: unifyLineEnds rest := by
  fun_cases unifyLineEnds cs with
  | case1 rest => exact .inr (.inl ⟨rest, rfl, rfl⟩)
  | case2 c rest hends => exact .inr (.inr ⟨c, rest, rfl, rfl⟩)
  | case3 => exact .inl rfl

/-- The first letter stays, or it was a carriage return. -/
theorem exists_unifyLineEnds_cons (c : Char) (cs : List Char) :
    ∃ c' cs', unifyLineEnds (c :: cs) = c' :: cs' ∧ (c' = c ∨ c = '\r' ∧ c' = '\n') := by
  obtain h | ⟨rest, h, hunified⟩ | ⟨c', rest, h, hunified⟩ := unifyLineEnds_cases (c :: cs)
  · cases h
  · cases h
    exact ⟨_, _, hunified, .inr ⟨rfl, rfl⟩⟩
  · cases h
    exact ⟨_, _, hunified, .inl rfl⟩

section While

variable {p : Char → Bool}

/-- Before the first line end nothing is changed. -/
theorem takeWhile_unifyLineEnds (hreturn : p '\r' = false) (hfeed : p '\n' = false)
    (cs : List Char) : (unifyLineEnds cs).takeWhile p = cs.takeWhile p := by
  fun_induction unifyLineEnds cs with
  | case1 cs ih => simp [hreturn, hfeed]
  | case2 c cs hends ih => rw [List.takeWhile_cons, List.takeWhile_cons, ih]
  | case3 => rfl

/-- The two characters of a line end are both dropped or both kept. -/
theorem dropWhile_unifyLineEnds (hends : p '\r' = p '\n') (cs : List Char) :
    (unifyLineEnds cs).dropWhile p = unifyLineEnds (cs.dropWhile p) := by
  fun_induction unifyLineEnds cs with
  | case1 cs ih =>
    rw [List.dropWhile_cons, List.dropWhile_cons, List.dropWhile_cons, hends, ih]
    split
    · rfl
    · rfl
  | case2 c cs hnone ih =>
    rw [List.dropWhile_cons, List.dropWhile_cons, ih]
    split
    · rfl
    · rw [unifyLineEnds]
      exact hnone
  | case3 => rfl

end While

/-- What follows a word on one line is changed alone. -/
theorem afterWord?_unifyLineEnds {word : List Char} (h : ∀ c ∈ word, c ≠ '\r' ∧ c ≠ '\n')
    (cs : List Char) :
    afterWord? word (unifyLineEnds cs) = (afterWord? word cs).map unifyLineEnds := by
  induction word generalizing cs with
  | nil => rfl
  | cons w word ih =>
    obtain ⟨⟨hreturn, hfeed⟩, hword⟩ := List.forall_mem_cons.mp h
    obtain rfl | ⟨rest, rfl, hunified⟩ | ⟨c, rest, rfl, hunified⟩ := unifyLineEnds_cases cs
    · rfl
    · rw [hunified, afterWord?, afterWord?, if_neg hreturn, if_neg hfeed]
      rfl
    · rw [hunified, afterWord?, afterWord?, ih hword]
      split <;> rfl

theorem head?_unifyLineEnds {p : Char → Prop} (hfeed : p '\n') {cs : List Char}
    (h : ∀ c ∈ cs.head?, p c) : ∀ c ∈ (unifyLineEnds cs).head?, p c := by
  rcases cs with _ | ⟨c, cs⟩
  · exact h
  · obtain ⟨c', cs', hunified, hsame⟩ := exists_unifyLineEnds_cons c cs
    rw [hunified]
    rintro _ ⟨⟩
    obtain rfl | ⟨-, rfl⟩ := hsame
    · exact h _ rfl
    · exact hfeed

/-- No text gets longer. -/
theorem length_unifyLineEnds (cs : List Char) : (unifyLineEnds cs).length ≤ cs.length := by
  fun_induction unifyLineEnds cs with
  | case1 cs ih =>
    simp only [List.length_cons]
    omega
  | case2 c cs _ ih => exact Nat.succ_le_succ ih
  | case3 => exact Nat.le_refl _

/-- A text stays as it is exactly if it has no line end of two letters. -/
theorem unifyLineEnds_eq_self_iff {cs : List Char} :
    unifyLineEnds cs = cs ↔ ¬['\r', '\n'] <:+: cs := by
  fun_induction unifyLineEnds cs with
  | case1 cs ih =>
    refine iff_of_false (fun heq => ?_) fun hnone => hnone ⟨[], cs, rfl⟩
    cases (List.cons.inj heq).1
  | case2 c cs hends ih =>
    rw [List.cons_inj_right, ih, List.infix_cons_iff, not_or]
    refine (and_iff_right ?_).symm
    rintro ⟨r, hr⟩
    obtain ⟨rfl, htail⟩ := List.cons.inj hr
    exact hends r rfl htail.symm
  | case3 => exact iff_of_true rfl (by decide)

end Scaffold.Text
