import Scaffold.Artifact.Schema
import Scaffold.Proofs.Format.Capitals

/-!
# Proofs/Format/StringData — what formatting does to the literals of SQL

`literals` reads the complete literals of a whole text, outside comments and bodies.  The formatter
goes line by line and takes the quotes of every line for themselves, so it leaves a character as it
is behind an odd number of quotes with another one to follow on the line (`Kept`).  Literals stay
one for one, with other breaks and capitals at most; those of a text are unchanged if each is on one
line and the quotes in the last line of every body are even in number (`literals_format`).  A
literal over several lines is changed like code (`literals_changed`).
-/

namespace Scaffold.Format.Sql

open Text

/-! ## The literals of a text -/

/-- A complete literal with its quotes, or what stands between two `$$` signs. -/
inductive Span where
  | literal (cs : List Char)
  | body (cs : List Char)
deriving DecidableEq, Repr

/-- The literals and bodies of a text.  One that is not finished takes up the rest of the text. -/
def spans (cs : List Char) : List Span :=
  match cs with
  | [] => []
  | '\'' :: cs =>
    match h : closeLiteral? cs with
    | some (rest, after) =>
      have := length_of_closeLiteral? h
      .literal ('\'' :: rest) :: spans after
    | none => []
  | '-' :: '-' :: cs =>
    have := (List.dropWhile_sublist (· ≠ '\n') (l := cs)).length_le
    spans (cs.dropWhile (· ≠ '\n'))
  | '$' :: '$' :: cs =>
    match h : cutAt? ['$', '$'] cs with
    | some (body, after) =>
      have := congrArg List.length (eq_append_of_cutAt? h)
      .body body :: spans after
    | none => []
  | _ :: cs => spans cs
termination_by cs.length
decreasing_by all_goals simp_all; try omega

def literals (cs : List Char) : List (List Char) :=
  (spans cs).filterMap fun
    | .literal l => some l
    | .body _ => none

def bodies (cs : List Char) : List (List Char) :=
  (spans cs).filterMap fun
    | .literal _ => none
    | .body b => some b

example : spans "select 'a''b' -- it's\n$$c$$".toList =
    [.literal "'a''b'".toList, .body ['c']] := by
  cbv

/-- A quote begins a literal if it is closed, and otherwise there is nothing more. -/
theorem spans_quote (cs : List Char) : spans ('\'' :: cs) =
    (closeLiteral? cs).elim [] fun x => .literal ('\'' :: x.1) :: spans x.2 := by
  rw [spans]
  split
  · rename_i hclose
    simp only [hclose, Option.elim_some]
  · rename_i hclose
    rw [hclose, Option.elim_none]

/-- Two signs begin a body if it is closed. -/
theorem spans_signs (cs : List Char) : spans ('$' :: '$' :: cs) =
    (cutAt? ['$', '$'] cs).elim [] fun x => .body x.1 :: spans x.2 := by
  rw [spans]
  split
  · rename_i hcut
    simp only [hcut, Option.elim_some]
  · rename_i hcut
    rw [hcut, Option.elim_none]

theorem spans_comment (cs : List Char) :
    spans ('-' :: '-' :: cs) = spans (cs.dropWhile (· ≠ '\n')) := by
  rw [spans]

theorem spans_literal {cs rest after : List Char} (h : closeLiteral? cs = some (rest, after)) :
    spans ('\'' :: cs) = .literal ('\'' :: rest) :: spans after := by
  rw [spans_quote, h, Option.elim_some]

theorem spans_unfinished {cs : List Char} (h : closeLiteral? cs = none) :
    spans ('\'' :: cs) = [] := by
  rw [spans_quote, h, Option.elim_none]

theorem spans_body {cs body after : List Char} (h : cutAt? ['$', '$'] cs = some (body, after)) :
    spans ('$' :: '$' :: cs) = .body body :: spans after := by
  rw [spans_signs, h, Option.elim_some]

theorem spans_open {cs : List Char} (h : cutAt? ['$', '$'] cs = none) :
    spans ('$' :: '$' :: cs) = [] := by
  rw [spans_signs, h, Option.elim_none]

/-- A character that begins nothing. -/
theorem spans_cons {c : Char} {cs : List Char} (hquote : c ≠ '\'')
    (hdash : ¬(c = '-' ∧ cs.head? = some '-')) (hdollar : ¬(c = '$' ∧ cs.head? = some '$')) :
    spans (c :: cs) = spans cs := by
  refine spans.eq_5 c cs hquote ?_ ?_
  · rintro us rfl rfl
    exact hdash ⟨rfl, rfl⟩
  · rintro us rfl rfl
    exact hdollar ⟨rfl, rfl⟩

/-- Blanks are in no span. -/
theorem spans_blank_append {r : List Char} (h : ∀ c ∈ r, isBlank c = true) (xs : List Char) :
    spans (r ++ xs) = spans xs := by
  induction r with
  | nil => rfl
  | cons c r ih =>
    obtain ⟨hc, hr⟩ := List.forall_mem_cons.mp h
    have hsign := not_sign_of_blank hc
    simp only [List.mem_cons, List.not_mem_nil, or_false, not_or] at hsign
    rw [List.cons_append, spans_cons hsign.2.2.1 (mt And.left hsign.1) (mt And.left hsign.2.1),
      ih hr]

theorem spans_blank {xs : List Char} (h : ∀ c ∈ xs, isBlank c = true) : spans xs = [] := by
  have hspans := spans_blank_append h []
  rwa [List.append_nil, spans.eq_1] at hspans

/-! ## The quotes of a line -/

/-- Whether the last line of a text has an odd number of quotes up to its end; `odd` tells it of
what stands in front. -/
def oddAfter (odd : Bool) (cs : List Char) : Bool :=
  cs.foldl (fun odd c => if c = '\n' then false else if c = '\'' then !odd else odd) odd

theorem oddAfter_append (odd : Bool) (cs ds : List Char) :
    oddAfter odd (cs ++ ds) = oddAfter (oddAfter odd cs) ds :=
  List.foldl_append

theorem oddAfter_cons {c : Char} (h : c ∉ ['\'', '\n']) (odd : Bool) (cs : List Char) :
    oddAfter odd (c :: cs) = oddAfter odd cs := by
  simp only [List.mem_cons, List.not_mem_nil, or_false, not_or] at h
  rw [oddAfter, List.foldl_cons, if_neg h.2, if_neg h.1]
  rfl

theorem quote_notMem_of_blank {cs : List Char} (h : ∀ c ∈ cs, isBlank c = true) : '\'' ∉ cs :=
  fun hmem => absurd (h _ hmem) (by decide)

/-- Without quotes only a line feed matters. -/
theorem oddAfter_of_notMem {cs : List Char} (h : '\'' ∉ cs) (odd : Bool) :
    oddAfter odd cs = if '\n' ∈ cs then false else odd := by
  induction cs generalizing odd with
  | nil => rfl
  | cons c cs ih =>
    obtain ⟨hc, hcs⟩ := not_or.mp (mt List.mem_cons.mpr h)
    by_cases hfeed : c = '\n'
    · subst hfeed
      rw [if_pos List.mem_cons_self]
      exact (ih hcs false).trans (ite_self false)
    · rw [oddAfter_cons (by simp [hfeed, Ne.symm hc]), ih hcs]
      simp [Ne.symm hfeed]

/-- Behind a break a new line begins. -/
theorem oddAfter_break {r : List Char} (hr : IsBreak r) (odd : Bool) : oddAfter odd r = false := by
  rw [oddAfter_of_notMem (quote_notMem_of_blank hr.1), if_pos hr.2]

/-- A text is left outside of a literal exactly if its last line has an even number of quotes. -/
theorem oddAfter_eq_false_iff (cs : List Char) :
    oddAfter false cs = false ↔ Even ((leftover cs).count '\'') := by
  induction cs using List.reverseRecOn with
  | nil => simp [oddAfter, leftover, lines, pieces]
  | append_singleton cs c ih =>
    rw [oddAfter_append]
    by_cases hfeed : c = '\n'
    · subst hfeed
      rw [leftover_append_lineFeed]
      exact iff_of_true rfl ⟨0, rfl⟩
    · rw [leftover_append (by simpa using Ne.symm hfeed), List.count_append]
      by_cases hquote : c = '\''
      · subst hquote
        rw [List.count_singleton_self, Nat.even_add_one, ← ih]
        cases oddAfter false cs <;> decide
      · have hcount : [c].count '\'' = 0 := List.count_eq_zero.mpr (by simpa using Ne.symm hquote)
        rw [hcount, Nat.add_zero, ← ih, oddAfter_cons (by simp [hfeed, hquote])]
        rfl

/-! ## What formatting keeps -/

/-- The second text is the first one with letters of keywords in capitals and with other breaks
between the lines; but behind an odd number of quotes a character stays, unless no quote follows on
its line. -/
inductive Kept : Bool → List Char → List Char → Prop
  | blank {odd : Bool} {xs ys : List Char} (hxs : ∀ c ∈ xs, isBlank c = true)
    (hys : ∀ c ∈ ys, isBlank c = true) : Kept odd xs ys
  | gap {odd : Bool} {r r' xs ys : List Char} (hr : IsBreak r) (hr' : IsBreak r')
    (h : Kept false xs ys) : Kept odd (r ++ xs) (r' ++ ys)
  | quote {odd : Bool} {xs ys : List Char} (h : Kept (!odd) xs ys) :
    Kept odd ('\'' :: xs) ('\'' :: ys)
  | char {odd : Bool} {c d : Char} {xs ys : List Char} (hc : c ∉ ['\'', '\n']) (hcd : Cased c d)
    (hkeep : odd = true → d = c ∨ '\'' ∉ xs.takeWhile (· ≠ '\n')) (h : Kept odd xs ys) :
    Kept odd (c :: xs) (d :: ys)

/-- A literal is closed behind what holds no quote. -/
theorem closeLiteral?_append {r : List Char} (h : '\'' ∉ r) (xs : List Char) :
    closeLiteral? (r ++ xs) = (closeLiteral? xs).map fun (rest, after) => (r ++ rest, after) := by
  induction r with
  | nil => simp
  | cons c r ih =>
    obtain ⟨hc, hr⟩ := not_or.mp (mt List.mem_cons.mpr h)
    rw [List.cons_append, closeLiteral?_cons (Ne.symm hc), ih hr, Option.map_map]
    rfl

/-- A literal is not closed exactly if no quote follows. -/
theorem closeLiteral?_eq_none_iff {cs : List Char} : closeLiteral? cs = none ↔ '\'' ∉ cs := by
  refine ⟨fun h => ?_, fun h => ?_⟩
  · fun_induction closeLiteral? cs with
    | case1 => exact List.not_mem_nil
    | case2 => cases h
    | case3 => cases h
    | case4 => cases h
    | case5 c cs _ hquote ih =>
      have hcs := ih (Option.map_eq_none_iff.mp h)
      exact fun hmem => (List.mem_cons.mp hmem).elim (Ne.symm hquote) hcs
  · have hclose := closeLiteral?_append h []
    rwa [List.append_nil] at hclose

theorem Closing.quote_mem {body : List Char} (h : Closing body) : '\'' ∈ body := by
  cases h with
  | quote => exact List.mem_cons_self
  | quotes => exact List.mem_cons_self
  | char _ h => exact List.mem_cons_of_mem _ h.quote_mem

/-- A literal on one line leaves the quotes even if they were odd in it. -/
theorem Closing.oddAfter_eq {body : List Char} (h : Closing body) (hline : '\n' ∉ body) :
    oddAfter true body = false := by
  induction h with
  | quote => rfl
  | quotes _ ih =>
    exact ih fun hmem => hline (List.mem_cons_of_mem _ (List.mem_cons_of_mem _ hmem))
  | char hquote _ ih =>
    obtain ⟨hfeed, hbody⟩ := not_or.mp (mt List.mem_cons.mpr hline)
    rw [oddAfter_cons (by simp [hquote, Ne.symm hfeed]), ih hbody]

namespace Kept

variable {odd : Bool} {xs ys : List Char}

theorem respaced (h : Kept odd xs ys) : Respaced Cased xs ys := by
  induction h with
  | blank hxs hys => exact .blank hxs hys
  | gap hr hr' _ ih => exact .gap hr hr' ih
  | quote _ ih => exact .char (.inl rfl) ih
  | char _ hcd _ _ ih => exact .char hcd ih

theorem head?_iff (h : Kept odd xs ys) {x : Char} (hx : x ∈ ['-', '$', '\'', ';']) :
    xs.head? = some x ↔ ys.head? = some x :=
  Sql.head?_iff faithful_cased h.respaced hx

/-- A sign of two characters is in both texts. -/
theorem twice_iff (h : Kept odd xs ys) {c d : Char} (hcd : Cased c d) {x : Char}
    (hx : x ∈ ['-', '$', '\'', ';']) :
    (c = x ∧ xs.head? = some x) ↔ (d = x ∧ ys.head? = some x) :=
  and_congr (hcd.eq_iff (List.mem_append_left ['\n'] hx)) (h.head?_iff hx)

/-- Behind a character that is no white space. -/
theorem tail {c d : Char} (hc : isBlank c = false) (h : Kept odd (c :: xs) (d :: ys)) :
    Kept (oddAfter odd [c]) xs ys := by
  generalize hus : c :: xs = us at h
  generalize hvs : d :: ys = vs at h
  have hnot {us : List Char} (h : ∀ e ∈ us.head?, isBlank e = true) : ¬c :: xs = us := by
    rintro rfl
    exact Bool.noConfusion (hc.symm.trans (h c rfl))
  cases h with
  | blank hblank _ => exact absurd hus (hnot fun e he => hblank e (List.mem_of_mem_head? he))
  | gap hr _ _ => exact absurd hus (hnot (hr.isBlank_of_head? _))
  | quote h =>
    cases hus
    cases hvs
    exact h
  | char hcs _ _ h =>
    cases hus
    cases hvs
    rwa [oddAfter_cons hcs]

end Kept

/-- Literals that are closed in both texts, and what follows them: on one line nothing changes. -/
structure Closes (odd : Bool) (x y : List Char × List Char) : Prop where
  respaced : Respaced Cased x.1 y.1
  kept : Kept (oddAfter odd x.1) x.2 y.2
  same : odd = true → '\n' ∉ x.1 → y.1 = x.1

namespace Closes

variable {odd : Bool} {x y : List Char × List Char}

theorem gap {r r' : List Char} (hr : IsBreak r) (hr' : IsBreak r') (h : Closes false x y) :
    Closes odd (r ++ x.1, x.2) (r' ++ y.1, y.2) where
  respaced := .gap hr hr' h.respaced
  kept := by
    rw [oddAfter_append, oddAfter_break hr]
    exact h.kept
  same _ hline := absurd (List.mem_append_left _ hr.2) hline

/-- The quote that ends a literal. -/
theorem quote {xs ys : List Char} (h : Kept (!odd) xs ys) :
    Closes odd (['\''], xs) (['\''], ys) where
  respaced := .of_forall₂ (cased_refl _)
  kept := h
  same _ _ := rfl

/-- Two quotes stay in a literal. -/
theorem quotes (h : Closes odd x y) :
    Closes odd ('\'' :: '\'' :: x.1, x.2) ('\'' :: '\'' :: y.1, y.2) where
  respaced := .char (.inl rfl) (.char (.inl rfl) h.respaced)
  kept := by
    have hodd : oddAfter odd ('\'' :: '\'' :: x.1) = oddAfter odd x.1 :=
      congrArg (oddAfter · x.1) (Bool.not_not odd)
    rw [hodd]
    exact h.kept
  same hodd hline := by
    rw [h.same hodd fun hmem => hline (List.mem_cons_of_mem _ (List.mem_cons_of_mem _ hmem))]

/-- So does any character that is kept, or recast outside of a literal. -/
theorem char {c d : Char} (hc : c ∉ ['\'', '\n']) (hcd : Cased c d)
    (hkeep : odd = true → '\n' ∉ x.1 → d = c) (h : Closes odd x y) :
    Closes odd (c :: x.1, x.2) (d :: y.1, y.2) where
  respaced := .char hcd h.respaced
  kept := by
    rw [oddAfter_cons hc]
    exact h.kept
  same hodd hline := by
    have hrest : '\n' ∉ x.1 := fun hmem => hline (List.mem_cons_of_mem _ hmem)
    rw [h.same hodd hrest, hkeep hodd hrest]

end Closes

theorem ne_lineFeed_of_notMem {cs : List Char} (h : '\n' ∉ cs) :
    ∀ c ∈ cs, decide (c ≠ '\n') = true :=
  fun _ hc => decide_eq_true fun heq => h (heq ▸ hc)

/-- A literal that ends on its line is followed by a quote there. -/
theorem quote_mem_takeWhile {cs rest after : List Char}
    (h : closeLiteral? cs = some (rest, after)) (hline : '\n' ∉ rest) :
    '\'' ∈ cs.takeWhile (· ≠ '\n') := by
  obtain ⟨rfl, hrest⟩ := closing_of_closeLiteral? h
  rw [List.takeWhile_append_of_pos (ne_lineFeed_of_notMem hline)]
  exact List.mem_append_left _ hrest.quote_mem

/-- The sign of a body is looked for at every character. -/
theorem cutAt?_signs (c : Char) (cs : List Char) : cutAt? ['$', '$'] (c :: cs) =
    if c = '$' ∧ cs.head? = some '$' then some ([], cs.tail)
    else (cutAt? ['$', '$'] cs).map fun (body, after) => (c :: body, after) := by
  have hafter : afterWord? ['$', '$'] (c :: cs) =
      if c = '$' ∧ cs.head? = some '$' then some cs.tail else none := by
    cases cs with
    | nil => simp [afterWord?]
    | cons d cs => simp [afterWord?, ite_and, eq_comm]
  rw [cutAt?, hafter]
  split <;> simp_all

namespace Kept

variable {odd : Bool} {xs ys : List Char}

/-- **A literal that is closed in one text is closed in the other.** -/
theorem rel_closeLiteral? {n : Nat} (hn : xs.length < n) (h : Kept odd xs ys) :
    Option.Rel (Closes odd) (closeLiteral? xs) (closeLiteral? ys) := by
  induction n generalizing odd xs ys with
  | zero => exact absurd hn (Nat.not_lt_zero _)
  | succ n ih =>
    cases h with
    | blank hxs hys =>
      rw [closeLiteral?_eq_none_iff.mpr (quote_notMem_of_blank hxs),
        closeLiteral?_eq_none_iff.mpr (quote_notMem_of_blank hys)]
      exact .none
    | @gap _ r r' xs ys hr hr' h =>
      have hshort : xs.length < n := by
        have hpos := List.length_pos_of_mem hr.2
        rw [List.length_append] at hn
        omega
      rw [closeLiteral?_append (quote_notMem_of_blank hr.1),
        closeLiteral?_append (quote_notMem_of_blank hr'.1)]
      exact (ih hshort h).map fun _ _ _ _ hrel => hrel.gap hr hr'
    | @quote _ xs ys h =>
      by_cases hpair : xs.head? = some '\''
      · obtain ⟨us, rfl⟩ := List.head?_eq_some_iff.mp hpair
        obtain ⟨vs, rfl⟩ := List.head?_eq_some_iff.mp ((h.head?_iff (by decide)).mp hpair)
        have htail : Kept odd us vs := by
          have htail := h.tail (by decide)
          rwa [show oddAfter (!odd) ['\''] = odd from Bool.not_not odd] at htail
        have hrel := ih (Nat.lt_of_succ_lt (Nat.lt_of_succ_lt_succ hn)) htail
        rw [closeLiteral?, closeLiteral?]
        generalize closeLiteral? us = o at hrel
        generalize closeLiteral? vs = o' at hrel
        cases hrel with
        | none => exact .some (.quote h)
        | some hrel => exact .some hrel.quotes
      · rw [closeLiteral?_quote hpair,
          closeLiteral?_quote (mt (h.head?_iff (by decide)).mpr hpair)]
        exact .some (.quote h)
    | @char _ c d xs ys hc hcd hkeep h =>
      have hquote : c ≠ '\'' := fun heq => hc (heq ▸ List.mem_cons_self)
      have hquote' : d ≠ '\'' := mt (hcd.eq_iff (by decide)).mpr hquote
      rw [closeLiteral?_cons hquote, closeLiteral?_cons hquote']
      refine (ih (Nat.lt_of_succ_lt_succ hn) h).map fun _ hclose _ _ hrel =>
        hrel.char hc hcd fun hodd hline => (hkeep hodd).resolve_right ?_
      exact not_not_intro (quote_mem_takeWhile hclose hline)

/-- **A body ends in one text where it ends in the other.** -/
theorem rel_cutAt? (h : Kept odd xs ys) :
    Option.Rel (fun x y => Kept (oddAfter odd x.1) x.2 y.2) (cutAt? ['$', '$'] xs)
      (cutAt? ['$', '$'] ys) := by
  have hsign {r : List Char} (h : ∀ c ∈ r, isBlank c = true) : '$' ∉ r :=
    fun hmem => absurd (h _ hmem) (by decide)
  have hnone {r : List Char} (h : ∀ c ∈ r, isBlank c = true) : cutAt? ['$', '$'] r = none := by
    have hcut : cutAt? ['$', '$'] (r ++ []) = none := cutAt?_append_of_notMem (hsign h) []
    rwa [List.append_nil] at hcut
  induction h with
  | blank hxs hys =>
    rw [hnone hxs, hnone hys]
    exact .none
  | @gap odd r r' xs ys hr hr' h ih =>
    rw [cutAt?_append_of_notMem (hsign hr.1), cutAt?_append_of_notMem (hsign hr'.1)]
    refine ih.map fun _ _ _ _ hrel => ?_
    rwa [oddAfter_append, oddAfter_break hr]
  | @quote odd xs ys h ih =>
    have hquote (cs : List Char) : cutAt? ['$', '$'] ('\'' :: cs) =
        (cutAt? ['$', '$'] cs).map fun (body, after) => ('\'' :: body, after) := by
      rw [cutAt?_signs, if_neg (fun hand => absurd hand.1 (by decide))]
    rw [hquote, hquote]
    exact ih.map fun _ _ _ _ hrel => hrel
  | @char odd c d xs ys hc hcd hkeep h ih =>
    have hpair := h.twice_iff (x := '$') hcd (by decide)
    rw [cutAt?_signs, cutAt?_signs]
    simp only [← hpair]
    split
    · rename_i hsigns
      obtain ⟨us, rfl⟩ := List.head?_eq_some_iff.mp hsigns.2
      obtain ⟨vs, rfl⟩ := List.head?_eq_some_iff.mp ((h.head?_iff (by decide)).mp hsigns.2)
      exact .some (h.tail (by decide))
    · refine ih.map fun _ _ _ _ hrel => ?_
      rwa [oddAfter_cons hc]

/-- A comment ends with its line. -/
theorem comment (h : Kept odd xs ys) :
    Kept false (xs.dropWhile (· ≠ '\n')) (ys.dropWhile (· ≠ '\n')) := by
  have hbreak {r : List Char} (hr : IsBreak r) (us : List Char) :
      ∃ q, IsBreak q ∧ (r ++ us).dropWhile (· ≠ '\n') = q ++ us := by
    obtain ⟨a, b, rfl, ha⟩ := List.eq_append_cons_of_mem hr.2
    refine ⟨'\n' :: b, ⟨fun c hc => hr.1 c (List.mem_append_right a hc), List.mem_cons_self⟩, ?_⟩
    rw [List.append_assoc, dropWhile_append_of_all (ne_lineFeed_of_notMem ha)]
    exact List.dropWhile_cons_of_neg (by decide)
  induction h with
  | blank hxs hys =>
    exact .blank (fun c hc => hxs c ((List.dropWhile_sublist _).subset hc))
      fun c hc => hys c ((List.dropWhile_sublist _).subset hc)
  | @gap odd r r' xs ys hr hr' h ih =>
    obtain ⟨q, hq, heq⟩ := hbreak hr xs
    obtain ⟨q', hq', heq'⟩ := hbreak hr' ys
    rw [heq, heq']
    exact .gap hq hq' h
  | quote h ih =>
    rwa [List.dropWhile_cons_of_pos (by decide), List.dropWhile_cons_of_pos (by decide)]
  | @char odd c d xs ys hc hcd hkeep h ih =>
    have hfeed : c ≠ '\n' := fun heq => hc (heq ▸ List.mem_cons_of_mem _ List.mem_cons_self)
    have hfeed' : d ≠ '\n' := mt (hcd.eq_iff (by decide)).mpr hfeed
    rwa [List.dropWhile_cons_of_pos (by simpa using hfeed),
      List.dropWhile_cons_of_pos (by simpa using hfeed')]

end Kept

/-- What is read next of both texts. -/
inductive Next (odd : Bool) (xs ys : List Char) : Prop
  | done (hxs : spans xs = []) (hys : spans ys = [])
  | skip {odd' : Bool} {us vs : List Char} (hlt : us.length < xs.length)
    (hxs : spans xs = spans us) (hys : spans ys = spans vs) (hodd : odd = false → odd' = false)
    (h : Kept odd' us vs)
  | literal {l m us vs : List Char} (hlt : us.length < xs.length)
    (hxs : spans xs = .literal l :: spans us) (hys : spans ys = .literal m :: spans vs)
    (hlm : Respaced Cased l m) (h : Kept (oddAfter odd l) us vs)
    (hsame : odd = false → '\n' ∉ l → m = l ∧ oddAfter odd l = false)
  | body {b b' us vs : List Char} (hlt : us.length < xs.length)
    (hxs : spans xs = .body b :: spans us) (hys : spans ys = .body b' :: spans vs)
    (h : Kept (oddAfter odd b) us vs)

section Next

variable {odd : Bool} {xs ys : List Char}

/-- A quote changes sides. -/
theorem Kept.next_quote (h : Kept (!odd) xs ys) : Next odd ('\'' :: xs) ('\'' :: ys) := by
  have hrel := h.rel_closeLiteral? (Nat.lt_succ_self _)
  generalize hclose : closeLiteral? xs = o at hrel
  generalize hclose' : closeLiteral? ys = o' at hrel
  cases hrel with
  | none => exact .done (spans_unfinished hclose) (spans_unfinished hclose')
  | @some x y hrel =>
    refine .literal (Nat.lt_succ_of_lt (length_of_closeLiteral? hclose))
      (spans_literal hclose) (spans_literal hclose') (.char (.inl rfl) hrel.respaced)
      hrel.kept fun hodd hline => ?_
    subst hodd
    have hline' : '\n' ∉ x.1 := fun hmem => hline (List.mem_cons_of_mem _ hmem)
    have hliteral := (closing_of_closeLiteral? hclose).2
    exact ⟨congrArg _ (hrel.same rfl hline'), hliteral.oddAfter_eq hline'⟩

/-- Behind the sign of a body. -/
theorem Kept.next_signs (h : Kept odd xs ys) : Next odd ('$' :: '$' :: xs) ('$' :: '$' :: ys) := by
  have hrel := h.rel_cutAt?
  generalize hcut : cutAt? ['$', '$'] xs = o at hrel
  generalize hcut' : cutAt? ['$', '$'] ys = o' at hrel
  cases hrel with
  | none => exact .done (spans_open hcut) (spans_open hcut')
  | some hrel =>
    refine .body ?_ (spans_body hcut) (spans_body hcut') hrel
    have hlength := congrArg List.length (eq_append_of_cutAt? hcut)
    simp only [List.length_append, List.length_cons, List.length_nil] at hlength ⊢
    omega

/-- Any other character stays on its side. -/
theorem Kept.next_char {c d : Char} (hquote : c ≠ '\'') (hcd : Cased c d) (h : Kept odd xs ys) :
    Next odd (c :: xs) (d :: ys) := by
  have hquote' : d ≠ '\'' := mt (hcd.eq_iff (by decide)).mpr hquote
  have hdash := h.twice_iff (x := '-') hcd (by decide)
  have hdollar := h.twice_iff (x := '$') hcd (by decide)
  by_cases hcomment : c = '-' ∧ xs.head? = some '-'
  · obtain ⟨rfl, hys⟩ := hdash.mp hcomment
    obtain ⟨rfl, hxs⟩ := hcomment
    obtain ⟨us, rfl⟩ := List.head?_eq_some_iff.mp hxs
    obtain ⟨vs, rfl⟩ := List.head?_eq_some_iff.mp hys
    refine .skip ?_ (spans_comment us) (spans_comment vs) (fun _ => rfl) (h.tail (by decide)).comment
    exact Nat.lt_succ_of_le (Nat.le_succ_of_le (List.dropWhile_sublist _).length_le)
  by_cases hsigns : c = '$' ∧ xs.head? = some '$'
  · obtain ⟨rfl, hys⟩ := hdollar.mp hsigns
    obtain ⟨rfl, hxs⟩ := hsigns
    obtain ⟨us, rfl⟩ := List.head?_eq_some_iff.mp hxs
    obtain ⟨vs, rfl⟩ := List.head?_eq_some_iff.mp hys
    exact (h.tail (by decide)).next_signs
  · exact .skip (Nat.lt_succ_self _) (spans_cons hquote hcomment hsigns)
      (spans_cons hquote' (mt hdash.mpr hcomment) (mt hdollar.mpr hsigns)) id h

/-- Every character is one or the other. -/
theorem Kept.next (h : Kept odd xs ys) : Next odd xs ys := by
  cases h with
  | blank hxs hys => exact .done (spans_blank hxs) (spans_blank hys)
  | @gap _ r r' xs ys hr hr' h =>
    refine .skip ?_ (spans_blank_append hr.1 xs) (spans_blank_append hr'.1 ys) (fun _ => rfl) h
    rw [List.length_append]
    exact Nat.lt_add_of_pos_left (List.length_pos_of_mem hr.2)
  | quote h => exact h.next_quote
  | char hc hcd _ h => exact h.next_char (fun heq => hc (heq ▸ List.mem_cons_self)) hcd

end Next

theorem literals_literal {cs l us : List Char} (h : spans cs = .literal l :: spans us) :
    literals cs = l :: literals us := by
  rw [literals, h]
  rfl

theorem literals_body {cs b us : List Char} (h : spans cs = .body b :: spans us) :
    literals cs = literals us := by
  rw [literals, h]
  rfl

theorem bodies_literal {cs l us : List Char} (h : spans cs = .literal l :: spans us) :
    bodies cs = bodies us := by
  rw [bodies, h]
  rfl

theorem bodies_body {cs b us : List Char} (h : spans cs = .body b :: spans us) :
    bodies cs = b :: bodies us := by
  rw [bodies, h]
  rfl

/-- **The literals stay one for one.** -/
theorem Kept.forall₂_literals {n : Nat} {odd : Bool} {xs ys : List Char} (hn : xs.length < n)
    (h : Kept odd xs ys) : List.Forall₂ (Respaced Cased) (literals xs) (literals ys) := by
  induction n generalizing odd xs ys with
  | zero => exact absurd hn (Nat.not_lt_zero _)
  | succ n ih =>
    cases h.next with
    | done hxs hys =>
      rw [literals, literals, hxs, hys]
      exact .nil
    | skip hlt hxs hys _ h =>
      rw [literals, literals, hxs, hys]
      exact ih (by omega) h
    | literal hlt hxs hys hlm h _ =>
      rw [literals_literal hxs, literals_literal hys]
      exact .cons hlm (ih (by omega) h)
    | body hlt hxs hys h =>
      rw [literals_body hxs, literals_body hys]
      exact ih (by omega) h

/-- **Literals on one line stay as they are** if no body leaves the quotes of its last line odd. -/
theorem Kept.literals_eq {n : Nat} {xs ys : List Char} (hn : xs.length < n) (h : Kept false xs ys)
    (hline : ∀ l ∈ literals xs, '\n' ∉ l)
    (hbodies : ∀ b ∈ bodies xs, oddAfter false b = false) : literals ys = literals xs := by
  induction n generalizing xs ys with
  | zero => exact absurd hn (Nat.not_lt_zero _)
  | succ n ih =>
    cases h.next with
    | done hxs hys => rw [literals, literals, hxs, hys]
    | @skip odd' us vs hlt hxs hys hodd h =>
      have hliterals : literals xs = literals us := by rw [literals, literals, hxs]
      have hbodies' : bodies xs = bodies us := by rw [bodies, bodies, hxs]
      rw [hliterals] at hline ⊢
      rw [hbodies'] at hbodies
      rw [literals, hys]
      exact ih (by omega) (hodd rfl ▸ h) hline hbodies
    | literal hlt hxs hys _ h hsame =>
      rw [literals_literal hxs] at hline
      rw [bodies_literal hxs] at hbodies
      obtain ⟨hl, hrest⟩ := List.forall_mem_cons.mp hline
      obtain ⟨heq, hodd⟩ := hsame rfl hl
      rw [literals_literal hxs, literals_literal hys, heq, ih (by omega) (hodd ▸ h) hrest hbodies]
    | body hlt hxs hys h =>
      rw [literals_body hxs] at hline
      rw [bodies_body hxs] at hbodies
      obtain ⟨hb, hrest⟩ := List.forall_mem_cons.mp hbodies
      rw [literals_body hxs, literals_body hys, ih (by omega) (hb ▸ h) hline hrest]

/-! ## Lines in capitals -/

/-- A line is kept as it is. -/
theorem kept_refl (odd : Bool) {l : List Char} (h : '\n' ∉ l) : Kept odd l l := by
  induction l generalizing odd with
  | nil => exact .blank (List.forall_mem_nil _) (List.forall_mem_nil _)
  | cons c l ih =>
    obtain ⟨hc, hl⟩ := not_or.mp (mt List.mem_cons.mpr h)
    by_cases hquote : c = '\''
    · subst hquote
      exact .quote (ih _ hl)
    · exact .char (by simp [hquote, Ne.symm hc]) (.inl rfl) (fun _ => .inl rfl) (ih odd hl)

/-- Behind a quote that none follows on the line, anything may become a capital. -/
theorem kept_unclosed {cs ds : List Char} (odd : Bool) (hquote : '\'' ∉ cs) (hfeed : '\n' ∉ cs)
    (h : List.Forall₂ Cased cs ds) : Kept odd cs ds := by
  induction h with
  | nil => exact .blank (List.forall_mem_nil _) (List.forall_mem_nil _)
  | @cons c d cs ds hcd _ ih =>
    obtain ⟨hc, hcs⟩ := not_or.mp (mt List.mem_cons.mpr hquote)
    obtain ⟨hc', hcs'⟩ := not_or.mp (mt List.mem_cons.mpr hfeed)
    refine .char (by simp [Ne.symm hc, Ne.symm hc']) hcd (fun _ => .inr ?_) (ih hcs hcs')
    exact fun hmem => hcs ((List.takeWhile_sublist _).subset hmem)

/-- A literal on one line is kept. -/
theorem kept_literal {body cs ds : List Char} (h : Closing body) (hfeed : '\n' ∉ body)
    (hkept : Kept false cs ds) : Kept true (body ++ cs) (body ++ ds) := by
  induction h with
  | quote => exact .quote hkept
  | quotes _ ih =>
    refine .quote (.quote (ih fun hmem => hfeed ?_))
    exact List.mem_cons_of_mem _ (List.mem_cons_of_mem _ hmem)
  | char hquote _ ih =>
    obtain ⟨hc, hbody⟩ := not_or.mp (mt List.mem_cons.mpr hfeed)
    exact .char (by simp [hquote, Ne.symm hc]) (.inl rfl) (fun _ => .inl rfl) (ih hbody)

/-- A recast line keeps its literals. -/
theorem RecasedLine.kept {cs : List Char} {ps : List Part} (h : RecasedLine cs ps)
    (hfeed : '\n' ∉ cs) : Kept false cs (ps.flatMap Part.chars) := by
  induction h with
  | nil => exact .blank (List.forall_mem_nil _) (List.forall_mem_nil _)
  | @literal body rest ps hclose _ ih =>
    have hbody := (closing_of_closeLiteral? hclose).2
    have hcs : '\n' ∉ body ++ rest := mt (List.mem_cons_of_mem _) hfeed
    exact .quote (kept_literal hbody (mt (List.mem_append_left _) hcs)
      (ih (mt (List.mem_append_right _) hcs)))
  | unclosed hclose h _ =>
    rw [chars_addCode]
    refine .quote (kept_unclosed _ ?_ (mt (List.mem_cons_of_mem _) hfeed) h.cased)
    exact closeLiteral?_eq_none_iff.mp hclose
  | code hc hcd _ ih =>
    obtain ⟨hc', hcs⟩ := not_or.mp (mt List.mem_cons.mpr hfeed)
    rw [chars_addCode]
    exact .char (by simp [hc, Ne.symm hc']) hcd (fun hodd => Bool.noConfusion hodd) (ih hcs)

/-- A line in capitals keeps what stands between its quotes. -/
theorem kept_upperKeywords {l : List Char} (h : '\n' ∉ l) : Kept false l (upperKeywords l) := by
  rw [upperKeywords_eq]
  exact (RecasedLine.of_parts (recased_capitalParts _)).kept h

/-- So does a formatted line. -/
theorem kept_formatLine (s : State) {raw : List Char} (h : '\n' ∉ raw) :
    Kept false (trimChars raw) (trimChars (formatLine s raw).1) := by
  have hfeed : '\n' ∉ trimChars raw := fun hmem => h ((trimChars_sublist raw).subset hmem)
  have htrim : trimChars (trimChars raw) = trimChars raw := trim_trim raw
  by_cases hne : trimChars raw = []
  · rw [formatLine_blank s hne, hne]
    exact kept_refl false List.not_mem_nil
  cases hcomment : startsWith ['-', '-'] (trimChars raw) with
  | true =>
    rw [formatLine_comment s hne hcomment, trimChars_unit_append, htrim]
    exact kept_refl false hfeed
  | false =>
    rw [formatLine_code s hne hcomment, trimChars_unit_append,
      trimChars_of_cased (cased_upperKeywords _) htrim]
    exact kept_upperKeywords hfeed

/-- So do all lines. -/
theorem kept_cores (s : State) {ls : List (List Char)} (h : ∀ l ∈ ls, '\n' ∉ l) :
    List.Forall₂ (fun l m => Kept false l m ∧ '\n' ∉ l) (cores ls) (cores (formatFrom s ls)) := by
  have hlines : List.Forall₂ (fun l m => (Kept false l m ∧ '\n' ∉ l) ∧ (l = [] ↔ m = []))
      (ls.map trimChars) ((formatFrom s ls).map trimChars) := by
    induction ls generalizing s with
    | nil => exact .nil
    | cons l ls ih =>
      obtain ⟨hl, hls⟩ := List.forall_mem_cons.mp h
      have hempty : trimChars l = [] ↔ trimChars (formatLine s l).1 = [] := by
        rw [← List.length_eq_zero_iff, (cased_formatLine s l).length_eq, List.length_eq_zero_iff]
      have hfeed : '\n' ∉ trimChars l := fun hmem => hl ((trimChars_sublist l).subset hmem)
      exact .cons ⟨⟨kept_formatLine s hl, hfeed⟩, hempty⟩ (ih _ hls)
  have hcores := List.rel_filter (p := (· ≠ [])) (q := (· ≠ [])) (fun l m hlm => by
    simpa using not_congr hlm.2) hlines
  exact hcores.imp fun _ _ hlm => hlm.1

/-! ## Whole texts -/

/-- A line, and what may follow it. -/
theorem Kept.append {odd : Bool} {l m t t' : List Char} (h : Kept odd l m) (hl : '\n' ∉ l)
    (hquote : '\'' ∉ t.takeWhile (· ≠ '\n'))
    (ht : ∀ (odd : Bool) (u v : List Char), (∀ c ∈ u, isBlank c = true) →
      (∀ c ∈ v, isBlank c = true) → Kept odd (u ++ t) (v ++ t')) : Kept odd (l ++ t) (m ++ t') := by
  induction h with
  | blank hxs hys => exact ht _ _ _ hxs hys
  | gap hr => exact absurd (List.mem_append_left _ hr.2) hl
  | quote _ ih => exact .quote (ih (mt (List.mem_cons_of_mem _) hl))
  | @char odd c d xs ys hc hcd hkeep _ ih =>
    have hxs : '\n' ∉ xs := mt (List.mem_cons_of_mem _) hl
    have hline := ne_lineFeed_of_notMem hxs
    refine .char hc hcd (fun hodd => (hkeep hodd).imp_right fun hfree => ?_) (ih hxs)
    rw [List.takeWhile_eq_self_iff.mpr hline] at hfree
    change '\'' ∉ (xs ++ t).takeWhile (· ≠ '\n')
    rw [List.takeWhile_append_of_pos hline]
    exact fun hmem => (List.mem_append.mp hmem).elim hfree hquote

/-- Texts of related lines are related, however the lines are laid out. -/
theorem kept_of_laid {ls ms : List (List Char)} {xs ys : List Char}
    (h : List.Forall₂ (fun l m => Kept false l m ∧ '\n' ∉ l) ls ms) (hxs : Laid ls xs)
    (hys : Laid ms ys) : Kept false xs ys := by
  have hblank {u t : List Char} (hu : ∀ c ∈ u, isBlank c = true) (ht : ∀ c ∈ t, isBlank c = true) :
      ∀ c ∈ u ++ t, isBlank c = true := List.forall_mem_append.mpr ⟨hu, ht⟩
  have hbreak {u g : List Char} (hu : ∀ c ∈ u, isBlank c = true) (hg : IsBreak g) :
      IsBreak (u ++ g) := ⟨hblank hu hg.1, List.mem_append_right _ hg.2⟩
  induction hxs generalizing ms ys with
  | nil hxs =>
    cases h
    cases hys with
    | nil hys => exact .blank hxs hys
  | @last l t ht =>
    obtain ⟨m, _, ⟨hlm, hl⟩, hnil, rfl⟩ := List.forall₂_cons_left_iff.mp h
    cases hnil
    cases hys with
    | last ht' =>
      refine hlm.append hl ?_ fun odd u v hu hv => .blank (hblank hu ht) (hblank hv ht')
      exact fun hmem => quote_notMem_of_blank ht ((List.takeWhile_sublist _).subset hmem)
  | @cons l l' g xs ls hg _ ih =>
    obtain ⟨m, _, ⟨hlm, hl⟩, hrest, rfl⟩ := List.forall₂_cons_left_iff.mp h
    obtain ⟨m', ms, -, -, rfl⟩ := List.forall₂_cons_left_iff.mp hrest
    cases hys with
    | @cons _ _ g' ys _ hg' hys =>
      refine hlm.append hl ?_ fun odd u v hu hv => ?_
      · obtain ⟨a, b, rfl, ha⟩ := List.eq_append_cons_of_mem hg.2
        rw [List.append_assoc, List.takeWhile_append_of_pos (ne_lineFeed_of_notMem ha)]
        refine fun hmem => quote_notMem_of_blank hg.1 (List.mem_append_left _ ?_)
        simpa using hmem
      · rw [← List.append_assoc, ← List.append_assoc]
        exact .gap (hbreak hu hg) (hbreak hv hg') (ih hrest hys)

theorem spans_of_joined {cs front xs : List Char} (hfront : ∀ c ∈ front, isBlank c = true)
    (h : joinWith ['\n'] (lines cs) = front ++ xs) : spans cs = spans xs := by
  have hjoin : joinWith ['\n'] (lines cs) = cs := joinWith_pieces '\n' cs
  rw [← hjoin, h, spans_blank_append hfront]

/-- The spans of a text and of what it is formatted to are those of two texts that keep each other's
literals. -/
theorem exists_kept_format (cs : List Char) :
    ∃ us vs, spans cs = spans us ∧ spans (format cs) = spans vs ∧ Kept false us vs := by
  have hlines : ∀ l ∈ lines cs, '\n' ∉ l := fun _ hl => notMem_of_mem_pieces hl
  obtain ⟨front, us, hfront, hus, hlaid⟩ := laid_cores (lines cs)
  obtain ⟨front', vs, hfront', hvs, hlaid'⟩ := laid_cores (lines (format cs))
  refine ⟨us, vs, spans_of_joined hfront hus, spans_of_joined hfront' hvs, ?_⟩
  rw [format, cores_lines_finish (lineFeed_notMem_formatFrom _ hlines)] at hlaid'
  exact kept_of_laid (kept_cores .start hlines) hlaid hlaid'

/-- **Formatting keeps the literals of SQL one for one**, changing letters of keywords to capitals
and breaks between lines at most.  They are the same if each is on one line and every body has an
even number of quotes in its last line. -/
theorem literals_format (cs : List Char) :
    List.Forall₂ (Respaced Cased) (literals cs) (literals (format cs)) ∧
      ((∀ l ∈ literals cs, '\n' ∉ l) → (∀ b ∈ bodies cs, Even ((leftover b).count '\'')) →
        literals (format cs) = literals cs) := by
  obtain ⟨us, vs, hus, hvs, h⟩ := exists_kept_format cs
  rw [literals, literals, bodies, hus, hvs]
  refine ⟨h.forall₂_literals (Nat.lt_succ_self _), fun hline hbodies => ?_⟩
  exact h.literals_eq (Nat.lt_succ_self _) hline fun b hb =>
    (oddAfter_eq_false_iff b).mpr (hbodies b hb)

/-- A statement with a literal of all kinds of signs, a comment and a body. -/
def insertion : List Char :=
  "insert into a values ('it''s -- $$; set', -- don't\n$$ in\n'b' $$, 'or');".toList

/-- A statement with quotes, signs and a keyword in its literals. -/
theorem literals_format_insertion :
    literals insertion = ["'it''s -- $$; set'".toList, "'or'".toList] ∧
      (∀ l ∈ literals insertion, '\n' ∉ l) ∧
      (∀ b ∈ bodies insertion, Even ((leftover b).count '\'')) ∧
      literals (format insertion) = literals insertion := by
  have hspans : spans insertion = [.literal "'it''s -- $$; set'".toList,
      .body " in\n'b' ".toList, .literal "'or'".toList] := by decide +kernel
  have hliterals : literals insertion = ["'it''s -- $$; set'".toList, "'or'".toList] := by
    rw [literals, hspans]
    rfl
  have hline : ∀ l ∈ literals insertion, '\n' ∉ l := by
    rw [hliterals]
    decide
  have hbodies : ∀ b ∈ bodies insertion, Even ((leftover b).count '\'') := by
    rw [bodies, hspans]
    decide
  exact ⟨hliterals, hline, hbodies, (literals_format insertion).2 hline hbodies⟩

/-- A text is one literal, whatever is in it. -/
theorem literals_sqlText (s : String) :
    literals (Artifact.sqlText s).toList = [(Artifact.sqlText s).toList] := by
  have hclose (cs : List Char) :
      closeLiteral? ((cs.flatMap fun c => if c = '\'' then [c, c] else [c]) ++ ['\'']) =
        some ((cs.flatMap fun c => if c = '\'' then [c, c] else [c]) ++ ['\''], []) := by
    induction cs with
    | nil => rfl
    | cons c cs ih =>
      rw [List.flatMap_cons, List.append_assoc]
      by_cases hc : c = '\''
      · rw [if_pos hc, hc, List.cons_append, List.singleton_append, closeLiteral?, ih]
      · rw [if_neg hc, List.singleton_append, closeLiteral?_cons hc, ih]
        rfl
  have hspans := spans_literal (hclose s.toList)
  rw [Artifact.sqlText, String.toList_ofList, List.cons_append, literals_literal hspans, literals,
    spans.eq_1, List.filterMap_nil]

/-- A literal over two lines loses its text: the second line begins with a word that is put in
capitals. -/
theorem literals_changed :
    literals "select 'first\nselect second';".toList = ["'first\nselect second'".toList] ∧
      literals (format "select 'first\nselect second';".toList) =
        ["'first\nSELECT second'".toList] := by
  decide +kernel

end Scaffold.Format.Sql
