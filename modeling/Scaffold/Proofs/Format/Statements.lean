import Scaffold.Format.Sql
import Scaffold.Proofs.Text.Numerals
import Scaffold.Proofs.Text.Words

/-!
# Proofs/Format/Statements — the statements of SQL texts

The splitter goes by five signs, and white space matters to it only where a comment ends: texts that
are respaced are split alike (`forall₂_splitFrom`), and their statements have related words
(`forall₂_words_statements`).  A text that is put together of closed parts has the statements that
its parts announce (`Announces`), and there is no error if each begins with a word that starts a
statement (`errors_eq_nil`).
-/

namespace Scaffold.Format.Sql

open Text

/-! ## Splitting respaced texts -/

/-- The characters by which the splitter goes. -/
def signs : List Char := ['-', '$', '\'', ';', '\n']

/-- Related characters are white space alike, and the same sign if one of them is a sign. -/
structure Faithful (R : Char → Char → Prop) : Prop where
  blank : ∀ c d, R c d → isBlank c = isBlank d
  sign : ∀ c d, R c d → ∀ x ∈ signs, c = x ↔ d = x

theorem faithful_eq : Faithful Eq where
  blank := by rintro c _ rfl; rfl
  sign := by rintro c _ rfl x _; exact Iff.rfl

/-- Characters in front of the first piece. -/
def prepend (cs : List Char) (ls : List (List Char)) : List (List Char) :=
  cs.foldr splitFrom.addChar ls

/-- The place behind a character that is not the first of two signs. -/
def Place.past (p : Place) (c : Char) : Place :=
  if c = '\'' && !p.inBody then { p with inQuote := !p.inQuote } else p

/-- What one character does to the pieces, by where it stands. -/
theorem splitFrom_eq (p : Place) (c : Char) (cs : List Char) :
    splitFrom p false (c :: cs) =
      if c = '-' && cs.head? = some '-' && !p.inQuote && !p.inBody then splitFrom p true cs
      else if c = '$' && cs.head? = some '$' && !p.inQuote then
        splitFrom.addChar c
          (splitFrom.addChar '$' (splitFrom { p with inBody := !p.inBody } false cs.tail))
      else if c = ';' && !(p.past c).inQuote && !(p.past c).inBody then
        [] :: splitFrom (p.past c) false cs
      else splitFrom.addChar c (splitFrom (p.past c) false cs) := by
  rw [splitFrom.eq_def]
  cases cs with
  | nil => simp [Place.past]
  | cons d cs =>
    by_cases hd : d = '$'
    · subst hd
      rfl
    · simp [hd, Place.past]

/-- A character that is no sign goes to the piece that it stands in. -/
theorem splitFrom_cons {c : Char} (hc : c ∉ ['-', '$', '\'', ';']) (p : Place) (cs : List Char) :
    splitFrom p false (c :: cs) = splitFrom.addChar c (splitFrom p false cs) := by
  simp only [List.mem_cons, List.not_mem_nil, or_false, not_or] at hc
  rw [splitFrom_eq]
  simp [hc, Place.past]

theorem splitFrom_skipping {c : Char} (hc : c ≠ '\n') (p : Place) (cs : List Char) :
    splitFrom p true (c :: cs) = splitFrom p true cs := by
  rw [splitFrom.eq_def]
  exact if_neg hc

theorem splitFrom_skipping_feed (p : Place) (cs : List Char) :
    splitFrom p true ('\n' :: cs) = splitFrom.addChar '\n' (splitFrom p false cs) := by
  rw [splitFrom.eq_def]
  exact if_pos rfl

theorem not_sign_of_blank {c : Char} (hc : isBlank c = true) : c ∉ ['-', '$', '\'', ';'] := by
  intro hmem
  simp only [List.mem_cons, List.not_mem_nil, or_false] at hmem
  obtain rfl | rfl | rfl | rfl := hmem <;> exact absurd hc (by decide)

/-- Blanks are put in front of the first piece. -/
theorem splitFrom_append_blank {r : List Char} (hr : ∀ c ∈ r, isBlank c = true) (p : Place)
    (xs : List Char) : splitFrom p false (r ++ xs) = prepend r (splitFrom p false xs) := by
  induction r with
  | nil => rfl
  | cons c r ih =>
    obtain ⟨hc, hr⟩ := List.forall_mem_cons.mp hr
    rw [List.cons_append, splitFrom_cons (not_sign_of_blank hc), ih hr]
    rfl

/-- White space with a line feed ends a comment, and what is left of it still has the line feed. -/
theorem exists_splitFrom_break {r : List Char} (hr : IsBreak r) (p : Place) (skipping : Bool) :
    ∃ q, IsBreak q ∧
      ∀ xs, splitFrom p skipping (r ++ xs) = prepend q (splitFrom p false xs) := by
  cases skipping with
  | false => exact ⟨r, hr, splitFrom_append_blank hr.1 p⟩
  | true =>
    obtain ⟨hblank, hfeed⟩ := hr
    induction r with
    | nil => exact absurd hfeed List.not_mem_nil
    | cons c r ih =>
      obtain ⟨hc, hr⟩ := List.forall_mem_cons.mp hblank
      by_cases hfirst : c = '\n'
      · subst hfirst
        refine ⟨'\n' :: r, ⟨hblank, hfeed⟩, fun xs => ?_⟩
        rw [List.cons_append, splitFrom_skipping_feed, splitFrom_append_blank hr]
        rfl
      · obtain ⟨q, hq, hsplit⟩ := ih hr ((List.mem_cons.mp hfeed).resolve_left (Ne.symm hfirst))
        refine ⟨q, hq, fun xs => ?_⟩
        rw [List.cons_append, splitFrom_skipping hfirst, hsplit]

/-- A blank text is one blank piece. -/
theorem exists_splitFrom_blank {xs : List Char} (h : ∀ c ∈ xs, isBlank c = true) (p : Place)
    (skipping : Bool) : ∃ b, splitFrom p skipping xs = [b] ∧ ∀ c ∈ b, isBlank c = true := by
  induction xs generalizing skipping with
  | nil => exact ⟨[], by rw [splitFrom], List.forall_mem_nil _⟩
  | cons c xs ih =>
    obtain ⟨hc, hxs⟩ := List.forall_mem_cons.mp h
    obtain ⟨b, hb, hblank⟩ := ih hxs false
    obtain ⟨b', hb', hblank'⟩ := ih hxs true
    cases skipping with
    | false =>
      refine ⟨c :: b, ?_, List.forall_mem_cons.mpr ⟨hc, hblank⟩⟩
      rw [splitFrom_cons (not_sign_of_blank hc), hb]
      rfl
    | true =>
      by_cases hfeed : c = '\n'
      · subst hfeed
        refine ⟨'\n' :: b, ?_, List.forall_mem_cons.mpr ⟨hc, hblank⟩⟩
        rw [splitFrom_skipping_feed, hb]
        rfl
      · exact ⟨b', by rw [splitFrom_skipping hfeed, hb'], hblank'⟩

/-- The words of the statements are those of the pieces, without the pieces that have none. -/
theorem map_words_statements (cs : List Char) :
    (statements cs).map words =
      ((splitFrom ⟨false, false⟩ false cs).map words).filter (· ≠ []) := by
  have hpiece (l : List Char) : trimChars l = [] ↔ words l = [] := by
    constructor
    · intro h
      rw [← words_trimChars, h]
      rfl
    · intro h
      rw [trimChars, trimLeft, List.dropWhile_eq_nil_iff.mpr (words_eq_nil_iff.mp h)]
      rfl
  rw [statements]
  induction splitFrom ⟨false, false⟩ false cs with
  | nil => rfl
  | cons l ls ih =>
    rw [List.map_cons, List.map_cons]
    by_cases hl : trimChars l = []
    · rw [List.filter_cons_of_neg (by simpa using hl),
        List.filter_cons_of_neg (by simpa using (hpiece l).mp hl), ih]
    · rw [List.filter_cons_of_pos (by simpa using hl),
        List.filter_cons_of_pos (by simpa using mt (hpiece l).mpr hl), List.map_cons, ih,
        words_trimChars]

section Respaced

variable {R : Char → Char → Prop}

theorem forall₂_addChar {c d : Char} (hcd : R c d) {ls ms : List (List Char)}
    (h : List.Forall₂ (Respaced R) ls ms) :
    List.Forall₂ (Respaced R) (splitFrom.addChar c ls) (splitFrom.addChar d ms) := by
  cases h with
  | nil => exact .cons (.of_forall₂ (.cons hcd .nil)) .nil
  | cons hl hls => exact .cons (.char hcd hl) hls

theorem prepend_cons (r l : List Char) (ls : List (List Char)) :
    prepend r (l :: ls) = (r ++ l) :: ls := by
  induction r with
  | nil => rfl
  | cons c r ih => rw [prepend, List.foldr_cons, ← prepend, ih]; rfl

theorem prepend_nil {r : List Char} (h : r ≠ []) : prepend r [] = [r] := by
  obtain ⟨front, c, rfl⟩ := List.eq_nil_or_concat r |>.resolve_left h
  rw [prepend, List.concat_eq_append, List.foldr_append]
  exact prepend_cons front [c] []

/-- Breaks in front of the first pieces do not matter. -/
theorem forall₂_prepend {r r' : List Char} (hr : IsBreak r) (hr' : IsBreak r')
    {ls ms : List (List Char)} (h : List.Forall₂ (Respaced R) ls ms) :
    List.Forall₂ (Respaced R) (prepend r ls) (prepend r' ms) := by
  cases h with
  | nil =>
    rw [prepend_nil (List.ne_nil_of_mem hr.2), prepend_nil (List.ne_nil_of_mem hr'.2)]
    exact .cons (.blank hr.1 hr'.1) .nil
  | cons hl hls =>
    rw [prepend_cons, prepend_cons]
    exact .cons (.gap hr hr' hl) hls

/-- A sign stands at the head of both texts or of neither, unless it is white space. -/
theorem head?_iff (hR : Faithful R) {xs ys : List Char} (h : Respaced R xs ys) {x : Char}
    (hx : x ∈ ['-', '$', '\'', ';']) : xs.head? = some x ↔ ys.head? = some x := by
  have hsign : x ∈ signs := List.mem_append_left ['\n'] hx
  have hnot {us : List Char} (hus : ∀ c ∈ us.head?, isBlank c = true) : ¬us.head? = some x :=
    fun hhead => not_sign_of_blank (hus x hhead) hx
  cases h with
  | blank hxs hys =>
    exact iff_of_false (hnot fun c hc => hxs c (List.mem_of_mem_head? hc))
      (hnot fun c hc => hys c (List.mem_of_mem_head? hc))
  | char hcd h =>
    rw [List.head?_cons, List.head?_cons, Option.some.injEq, Option.some.injEq]
    exact hR.sign _ _ hcd x hsign
  | gap hr hr' h =>
    exact iff_of_false (hnot (hr.isBlank_of_head? _)) (hnot (hr'.isBlank_of_head? _))

/-- Behind related characters outside of comments, texts are split alike if all shorter ones are. -/
theorem forall₂_splitFrom_cons (hR : Faithful R) {c d : Char} (hcd : R c d) {xs ys : List Char}
    (h : Respaced R xs ys) (p : Place)
    (ih : ∀ {us vs : List Char}, us.length ≤ xs.length → Respaced R us vs → ∀ p skipping,
      List.Forall₂ (Respaced R) (splitFrom p skipping us) (splitFrom p skipping vs)) :
    List.Forall₂ (Respaced R) (splitFrom p false (c :: xs)) (splitFrom p false (d :: ys)) := by
  have hsame (x : Char) (hx : x ∈ signs) : (c = x) = (d = x) := propext (hR.sign c d hcd x hx)
  have hdash : (xs.head? = some '-') = (ys.head? = some '-') :=
    propext (head?_iff hR h (by decide))
  have hdollar : (xs.head? = some '$') = (ys.head? = some '$') :=
    propext (head?_iff hR h (by decide))
  have hpast : p.past c = p.past d := by
    simp only [Place.past, hsame '\'' (by decide)]
  rw [splitFrom_eq, splitFrom_eq, hpast]
  simp only [hsame '-' (by decide), hsame '$' (by decide), hsame ';' (by decide), hdash, hdollar]
  split
  · exact ih le_rfl h p true
  split
  · rename_i hpair
    have hhead : ys.head? = some '$' := by
      simp only [Bool.and_eq_true, decide_eq_true_eq] at hpair
      exact hpair.1.2
    obtain ⟨us, rfl⟩ := List.head?_eq_some_iff.mp (hdollar.mpr hhead)
    obtain ⟨vs, rfl⟩ := List.head?_eq_some_iff.mp hhead
    obtain ⟨hsecond, htail⟩ := h.of_char (by decide)
    have hrest := ih (Nat.le_succ _) htail { p with inBody := !p.inBody } false
    exact forall₂_addChar hcd (forall₂_addChar hsecond hrest)
  split
  · exact .cons (.blank (List.forall_mem_nil _) (List.forall_mem_nil _)) (ih le_rfl h _ false)
  · exact forall₂_addChar hcd (ih le_rfl h _ false)

/-- **Respaced texts are split alike.** -/
theorem forall₂_splitFrom (hR : Faithful R) {n : Nat} {xs ys : List Char} (hn : xs.length < n)
    (h : Respaced R xs ys) (p : Place) (skipping : Bool) :
    List.Forall₂ (Respaced R) (splitFrom p skipping xs) (splitFrom p skipping ys) := by
  induction n generalizing xs ys p skipping with
  | zero => exact absurd hn (Nat.not_lt_zero _)
  | succ n ih =>
    cases h with
    | blank hxs hys =>
      obtain ⟨b, hb, hblank⟩ := exists_splitFrom_blank hxs p skipping
      obtain ⟨b', hb', hblank'⟩ := exists_splitFrom_blank hys p skipping
      rw [hb, hb']
      exact .cons (.blank hblank hblank') .nil
    | @gap r r' xs ys hr hr' h =>
      obtain ⟨q, hq, hsplit⟩ := exists_splitFrom_break hr p skipping
      obtain ⟨q', hq', hsplit'⟩ := exists_splitFrom_break hr' p skipping
      have hshort : xs.length < n := by
        have hpos := List.length_pos_of_mem hr.2
        rw [List.length_append] at hn
        omega
      rw [hsplit, hsplit']
      exact forall₂_prepend hq hq' (ih hshort h p false)
    | @char c d xs ys hcd h =>
      have hshort : xs.length < n := Nat.lt_of_succ_lt_succ hn
      cases skipping with
      | true =>
        have hfeed : (c = '\n') = (d = '\n') := propext (hR.sign c d hcd '\n' (by decide))
        rw [splitFrom.eq_def p true (c :: xs), splitFrom.eq_def p true (d :: ys)]
        simp only [hfeed, if_true]
        split
        · exact forall₂_addChar hcd (ih hshort h p false)
        · exact ih hshort h p true
      | false =>
        exact forall₂_splitFrom_cons hR hcd h p fun hle => ih (Nat.lt_of_le_of_lt hle hshort)

/-- White space in front of a text has no words. -/
theorem words_prepend {front : List Char} (h : ∀ c ∈ front, isBlank c = true)
    (ls : List (List Char)) :
    ((prepend front ls).map words).filter (· ≠ []) = (ls.map words).filter (· ≠ []) := by
  cases ls with
  | nil =>
    cases front with
    | nil => rfl
    | cons c front =>
      rw [prepend_nil (List.cons_ne_nil c front), List.map_singleton, words_blank h]
      rfl
  | cons l ls => rw [prepend_cons, List.map_cons, words_blank_append h, List.map_cons]

/-- **The statements of texts that are spaced alike have related words.** -/
theorem forall₂_words_statements (hR : Faithful R) {xs ys : List Char} (h : SpacedAlike R xs ys) :
    List.Forall₂ (List.Forall₂ (List.Forall₂ R)) ((statements xs).map words)
      ((statements ys).map words) := by
  obtain ⟨front, front', us, vs, hfront, hfront', rfl, rfl, h⟩ := h
  have hpieces := forall₂_splitFrom hR (Nat.lt_succ_self _) h ⟨false, false⟩ false
  have hwords : List.Forall₂ (List.Forall₂ (List.Forall₂ R))
      ((splitFrom ⟨false, false⟩ false us).map words)
      ((splitFrom ⟨false, false⟩ false vs).map words) :=
    List.forall₂_map_left_iff.mpr (List.forall₂_map_right_iff.mpr
      (hpieces.imp fun _ _ hlm => hlm.words hR.blank))
  rw [map_words_statements, map_words_statements, splitFrom_append_blank hfront,
    splitFrom_append_blank hfront', words_prepend hfront, words_prepend hfront']
  refine List.rel_filter (fun l m hlm => ?_) hwords
  cases hlm with
  | nil => rfl
  | cons => rfl

end Respaced

/-! ## Texts that are put together -/

/-- Outside literals and bodies. -/
abbrev code : Place := ⟨false, false⟩

/-- A text that stays in a comment is passed over. -/
theorem splitFrom_skipping_append {cs : List Char} (h : '\n' ∉ cs) (p : Place) (zs : List Char) :
    splitFrom p true (cs ++ zs) = splitFrom p true zs := by
  induction cs with
  | nil => rfl
  | cons c cs ih =>
    obtain ⟨hc, hcs⟩ := not_or.mp (mt List.mem_cons.mpr h)
    rw [List.cons_append, splitFrom_skipping (Ne.symm hc), ih hcs]

theorem splitFrom_openComment (zs : List Char) :
    splitFrom code false ('-' :: '-' :: zs) = splitFrom code true zs :=
  (splitFrom_eq _ _ _).trans (splitFrom_skipping (by decide) _ _)

theorem splitFrom_openQuote (zs : List Char) : splitFrom code false ('\'' :: zs) =
    splitFrom.addChar '\'' (splitFrom ⟨true, false⟩ false zs) :=
  splitFrom_eq _ _ _

theorem splitFrom_closeQuote (zs : List Char) : splitFrom ⟨true, false⟩ false ('\'' :: zs) =
    splitFrom.addChar '\'' (splitFrom code false zs) :=
  splitFrom_eq _ _ _

theorem splitFrom_inQuote {c : Char} (hc : c ≠ '\'') (zs : List Char) :
    splitFrom ⟨true, false⟩ false (c :: zs) =
      splitFrom.addChar c (splitFrom ⟨true, false⟩ false zs) := by
  rw [splitFrom_eq]
  simp [Place.past, hc]

theorem splitFrom_openBody (zs : List Char) : splitFrom code false ('$' :: '$' :: zs) =
    splitFrom.addChar '$' (splitFrom.addChar '$' (splitFrom ⟨false, true⟩ false zs)) :=
  splitFrom_eq _ _ _

theorem splitFrom_closeBody (zs : List Char) : splitFrom ⟨false, true⟩ false ('$' :: '$' :: zs) =
    splitFrom.addChar '$' (splitFrom.addChar '$' (splitFrom code false zs)) :=
  splitFrom_eq _ _ _

theorem splitFrom_inBody {c : Char} {zs : List Char} (h : ¬(c = '$' ∧ zs.head? = some '$')) :
    splitFrom ⟨false, true⟩ false (c :: zs) =
      splitFrom.addChar c (splitFrom ⟨false, true⟩ false zs) := by
  rw [splitFrom_eq]
  simp [Place.past, h]

/-- What the text opens it closes, and no statement ends in it. -/
def IsClosed (cs : List Char) : Prop :=
  ∀ ys, splitFrom code false (cs ++ ys) = prepend cs (splitFrom code false ys)

theorem prepend_append (cs ds : List Char) (ls : List (List Char)) :
    prepend (cs ++ ds) ls = prepend cs (prepend ds ls) :=
  List.foldr_append

theorem isClosed_nil : IsClosed [] := fun _ => rfl

theorem IsClosed.append {cs ds : List Char} (hcs : IsClosed cs) (hds : IsClosed ds) :
    IsClosed (cs ++ ds) := by
  intro ys
  rw [List.append_assoc, hcs, hds, prepend_append]

/-- A text without signs is closed. -/
theorem isClosed_of_quiet {cs : List Char} (h : ∀ c ∈ cs, c ∉ ['-', '$', '\'', ';']) :
    IsClosed cs := by
  intro ys
  induction cs with
  | nil => rfl
  | cons c cs ih =>
    obtain ⟨hc, hcs⟩ := List.forall_mem_cons.mp h
    rw [List.cons_append, splitFrom_cons hc, ih hcs]
    rfl

theorem isClosed_ofList {cs : List Char} (h : ∀ c ∈ cs, c ∉ ['-', '$', '\'', ';']) :
    IsClosed (String.ofList cs).toList := by
  rw [String.toList_ofList]
  exact isClosed_of_quiet h

theorem isClosed_toList_append {s t : String} (hs : IsClosed s.toList) (ht : IsClosed t.toList) :
    IsClosed (s ++ t).toList := by
  rw [String.toList_append]
  exact hs.append ht

/-- Closed texts with a closed one between them are closed. -/
theorem isClosed_joinWith {sep : List Char} (hsep : IsClosed sep) {ps : List (List Char)}
    (h : ∀ p ∈ ps, IsClosed p) : IsClosed (joinWith sep ps) := by
  induction ps with
  | nil => exact isClosed_nil
  | cons p ps ih =>
    obtain ⟨hp, hps⟩ := List.forall_mem_cons.mp h
    cases ps with
    | nil => exact hp
    | cons q qs => exact (hp.append hsep).append (ih hps)

/-- A numeral opens no comment, since no minus sign stands beside another in it. -/
theorem isClosed_of_isNumeral {cs : List Char} (h : Number.IsNumeral cs) : IsClosed cs := by
  have hquiet {c : Char} (hc : isPlainAlnum c = true ∨ c ∈ ['.', '+']) :
      c ∉ ['-', '$', '\'', ';'] := by
    intro hmem
    have hsigns : ∀ x ∈ ['-', '$', '\'', ';'], isPlainAlnum x = false ∧ x ∉ ['.', '+'] := by decide
    obtain ⟨halnum, hnot⟩ := hsigns c hmem
    exact hc.elim (fun h => Bool.noConfusion (h.symm.trans halnum)) hnot
  intro ys
  induction h with
  | nil => rfl
  | cons hc _ ih =>
    rw [List.cons_append, splitFrom_cons (hquiet hc), ih]
    rfl
  | @minus c cs hc _ ih =>
    have hminus : c ≠ '-' := by
      rintro rfl
      exact absurd hc (by decide)
    have hfirst (zs : List Char) : splitFrom code false ('-' :: c :: zs) =
        splitFrom.addChar '-' (splitFrom code false (c :: zs)) := by
      rw [splitFrom_eq]
      simp [hminus, Place.past]
    rw [List.cons_append, List.cons_append, hfirst, splitFrom_cons (hquiet (.inl hc)), ih]
    rfl

/-- A body between its signs may hold anything but the sign of a body. -/
theorem isClosed_body {cs : List Char} (h : '$' ∉ cs) : IsClosed ('$' :: '$' :: (cs ++ ['$', '$'])) := by
  have hinside (ys : List Char) :
      splitFrom ⟨false, true⟩ false (cs ++ ys) = prepend cs (splitFrom ⟨false, true⟩ false ys) := by
    induction cs with
    | nil => rfl
    | cons c cs ih =>
      obtain ⟨hc, hcs⟩ := not_or.mp (mt List.mem_cons.mpr h)
      rw [List.cons_append, splitFrom_inBody fun h => hc h.1.symm, ih hcs]
      rfl
  intro ys
  have hcons : '$' :: '$' :: (cs ++ ['$', '$']) ++ ys = '$' :: '$' :: (cs ++ '$' :: '$' :: ys) := by
    simp
  rw [hcons, splitFrom_openBody, hinside, splitFrom_closeBody, ← List.cons_append,
    ← List.cons_append, prepend_append]
  rfl

/-- A literal in which every quote is doubled may hold anything. -/
theorem isClosed_quoted (cs : List Char) :
    IsClosed ('\'' :: (cs.flatMap fun c => if c = '\'' then [c, c] else [c]) ++ ['\'']) := by
  have hinside (ys : List Char) : splitFrom ⟨true, false⟩ false
      ((cs.flatMap fun c => if c = '\'' then [c, c] else [c]) ++ ys) =
        prepend (cs.flatMap fun c => if c = '\'' then [c, c] else [c])
          (splitFrom ⟨true, false⟩ false ys) := by
    induction cs with
    | nil => rfl
    | cons c cs ih =>
      rw [List.flatMap_cons, List.append_assoc, prepend_append, ← ih]
      by_cases hc : c = '\''
      · subst hc
        rw [if_pos rfl, List.cons_append, List.singleton_append, splitFrom_closeQuote,
          splitFrom_openQuote]
        rfl
      · rw [if_neg hc, List.singleton_append, splitFrom_inQuote hc]
        rfl
  intro ys
  rw [List.cons_append, List.cons_append, List.append_assoc, splitFrom_openQuote,
    List.singleton_append, hinside, splitFrom_closeQuote, ← List.cons_append, prepend_append]
  rfl

/-- Written in front of others in code, the text adds statements that begin with these words. -/
def Announces (cs : List Char) (heads : List (List String)) : Prop :=
  ∃ added : List (List (List Char)),
    List.Forall₂ (fun head ws => head.map String.toList <+: ws) heads added ∧
      ∀ ys, (statements (cs ++ ys)).map words = added ++ (statements ys).map words

theorem announces_nil : Announces [] [] := ⟨[], .nil, fun _ => rfl⟩

theorem Announces.append {cs ds : List Char} {hs ks : List (List String)} (hcs : Announces cs hs)
    (hds : Announces ds ks) : Announces (cs ++ ds) (hs ++ ks) := by
  obtain ⟨ss, hhead, hss⟩ := hcs
  obtain ⟨ts, hhead', hts⟩ := hds
  refine ⟨ss ++ ts, List.rel_append hhead hhead', fun ys => ?_⟩
  rw [List.append_assoc, hss, hts, List.append_assoc]

theorem announces_flatMap {α : Type} {f : α → List Char} {g : α → List (List String)} {xs : List α}
    (h : ∀ x ∈ xs, Announces (f x) (g x)) : Announces (xs.flatMap f) (xs.flatMap g) := by
  induction xs with
  | nil => exact announces_nil
  | cons x xs ih =>
    obtain ⟨hx, hxs⟩ := List.forall_mem_cons.mp h
    exact hx.append (ih hxs)

theorem announces_blank {cs : List Char} (h : ∀ c ∈ cs, isBlank c = true) : Announces cs [] := by
  refine ⟨[], .nil, fun ys => ?_⟩
  rw [map_words_statements, map_words_statements, splitFrom_append_blank h, words_prepend h]
  rfl

/-- A comment on a line of its own adds nothing. -/
theorem announces_comment {cs : List Char} (h : '\n' ∉ cs) :
    Announces ('-' :: '-' :: (cs ++ ['\n'])) [] := by
  refine ⟨[], .nil, fun ys => ?_⟩
  have hcons : '-' :: '-' :: (cs ++ ['\n']) ++ ys = '-' :: '-' :: (cs ++ '\n' :: ys) := by simp
  have hfeed : splitFrom code true ('\n' :: ys) = prepend ['\n'] (splitFrom code false ys) :=
    splitFrom_skipping_feed code ys
  rw [map_words_statements, map_words_statements, hcons, splitFrom_openComment,
    splitFrom_skipping_append h, hfeed, words_prepend (by decide)]
  rfl

/-- A word without a sign of the splitter. -/
def IsQuietWord (w : String) : Prop :=
  w.toList ≠ [] ∧ ∀ c ∈ w.toList, isBlank c = false ∧ c ∉ ['-', '$', '\'', ';']

theorem isQuietWord_ofList {cs : List Char}
    (h : cs ≠ [] ∧ ∀ c ∈ cs, isBlank c = false ∧ c ∉ ['-', '$', '\'', ';']) :
    IsQuietWord (String.ofList cs) := by
  rw [IsQuietWord, String.toList_ofList]
  exact h

/-- The words of a heading are the first ones of its statement. -/
theorem prefix_words {head : List String} (h : ∀ w ∈ head, IsQuietWord w) {c : Char}
    (hc : isBlank c = true) (rest : List Char) :
    head.map String.toList <+: words (joinWith [' '] (head.map String.toList) ++ c :: rest) := by
  induction head with
  | nil => exact List.nil_prefix
  | cons w head ih =>
    obtain ⟨⟨hne, hw⟩, hhead⟩ := List.forall_mem_cons.mp h
    have hword : ∀ x ∈ w.toList, isBlank x = false := fun x hx => (hw x hx).1
    cases head with
    | nil =>
      rw [List.map_singleton, joinWith, words_append_of_word hne hword hc]
      exact List.cons_prefix_cons.mpr ⟨rfl, List.nil_prefix⟩
    | cons v head =>
      rw [List.map_cons, List.map_cons, joinWith, ← List.map_cons, List.append_assoc,
        List.append_assoc, List.singleton_append, words_append_of_word hne hword (by decide)]
      exact List.cons_prefix_cons.mpr ⟨rfl, ih hhead⟩

/-- Words, then a closed text, and a semicolon behind it: this is a statement. -/
theorem announces_statement {head : List String} (hne : head ≠ [])
    (hwords : ∀ w ∈ head, IsQuietWord w) {c : Char} (hc : isBlank c = true) {rest : List Char}
    (hrest : IsClosed rest) :
    Announces (joinWith [' '] (head.map String.toList) ++ c :: rest ++ [';']) [head] := by
  let cs := joinWith [' '] (head.map String.toList) ++ c :: rest
  have hclosed : IsClosed cs := by
    refine (isClosed_joinWith (isClosed_of_quiet (by decide)) (List.forall_mem_map.mpr ?_)).append ?_
    · exact fun w hw => isClosed_of_quiet fun x hx => ((hwords w hw).2 x hx).2
    · exact (isClosed_of_quiet (List.forall_mem_singleton.mpr (not_sign_of_blank hc))).append hrest
  have hprefix : head.map String.toList <+: words cs := prefix_words hwords hc rest
  have hsome : words cs ≠ [] := fun hnil => by
    rw [hnil, List.prefix_nil, List.map_eq_nil_iff] at hprefix
    exact hne hprefix
  refine ⟨[words cs], .cons hprefix .nil, fun ys => ?_⟩
  have hcut : splitFrom code false (';' :: ys) = [] :: splitFrom code false ys := splitFrom_eq _ _ _
  rw [map_words_statements, map_words_statements, List.append_assoc, hclosed, List.singleton_append,
    hcut, prepend_cons, List.append_nil, List.map_cons,
    List.filter_cons_of_pos (by simpa using hsome)]
  rfl

/-- A whole text has the statements that it announces. -/
theorem Announces.forall₂_statements {cs : List Char} {heads : List (List String)}
    (h : Announces cs heads) :
    List.Forall₂ (fun head ws => head.map String.toList <+: ws) heads
      ((statements cs).map words) := by
  obtain ⟨added, hheads, hadded⟩ := h
  have hall := hadded []
  rw [List.append_nil] at hall
  rw [hall]
  exact (List.append_nil added).symm ▸ hheads

/-! ## The word that a statement begins with -/

/-- White space has no capitals. -/
theorem upperChar_of_blank {c : Char} (h : isBlank c = true) : upperChar c = [c] := by
  have hall : ∀ x ∈ blanks, upperChar x = [x] := by decide +kernel
  exact hall c (mem_blanks h)

/-- White space in front leaves no word there, in capitals either. -/
theorem takeWhile_isWord_of_blank {rest : List Char} (h : ∀ d ∈ rest.head?, isBlank d = true) :
    (rest.flatMap upperChar).takeWhile isWord = [] := by
  cases rest with
  | nil => rfl
  | cons d rest =>
    have hnot : ¬isWord d = true := by
      rw [isWord_of_blank (h d rfl)]
      exact Bool.false_ne_true
    rw [List.flatMap_cons, upperChar_of_blank (h d rfl), List.singleton_append,
      List.takeWhile_cons_of_neg hnot]

theorem isPlainAlnum_of_isUpperLetter_plainUpper {c : Char}
    (h : isUpperLetter (plainUpper c) = true) : isPlainAlnum c = true := by
  rw [plainUpper] at h
  split at h
  · rename_i hlower
    rw [isPlainAlnum, isPlainLetter, hlower, Bool.or_true, Bool.true_or]
  · rw [isPlainAlnum, isPlainLetter, h, Bool.true_or, Bool.true_or]

theorem isUpperLetter_of_mem_statementWords {k : String} (hk : k ∈ statementWords) :
    ∀ c ∈ k.toList, isUpperLetter c = true := by
  have hall : ∀ k ∈ statementWords, k.toList.all isUpperLetter = true := by decide
  exact List.all_eq_true.mp (hall k hk)

/-- A statement whose first word is one that starts a statement, in any case, is accepted. -/
theorem startsWithOneOf_of_words {s w : List Char} {ws : List (List Char)} (hs : trimChars s = s)
    (hw : words s = w :: ws) {k : String} (hk : k ∈ statementWords)
    (hcase : w.map plainUpper = k.toList) :
    startsWithOneOf statementWords (s.flatMap upperChar) = true := by
  obtain ⟨c, cs, rfl⟩ : ∃ c cs, s = c :: cs := by
    cases s with
    | nil => cases hw
    | cons c cs => exact ⟨c, cs, rfl⟩
  have hc : isBlank c = false := by
    have htrimmed := (isTrimmed_trim (p := isBlank) (c :: cs)).first
    change ∀ x ∈ (trimChars (c :: cs)).head?, isBlank x = false at htrimmed
    rw [hs] at htrimmed
    exact htrimmed c rfl
  obtain ⟨v, rest, hsplit, hrest, hwords⟩ := exists_words_of_head hc cs
  obtain ⟨rfl, -⟩ := List.cons.inj (hwords.symm.trans hw)
  have hletters : ∀ x ∈ k.toList, isUpperLetter x = true := isUpperLetter_of_mem_statementWords hk
  have hupper : (c :: v).flatMap upperChar = k.toList := by
    rw [← hcase, ← List.flatMap_singleton' ((c :: v).map plainUpper), List.flatMap_map]
    refine List.flatMap_congr fun x hx => upperChar_of_isPlainAlnum ?_
    refine isPlainAlnum_of_isUpperLetter_plainUpper (hletters _ ?_)
    rw [← hcase]
    exact List.mem_map_of_mem hx
  have hword : ∀ x ∈ k.toList, isWord x = true := by
    intro x hx
    have hplain : isPlainAlnum x = true := by
      rw [isPlainAlnum, isPlainLetter, hletters x hx, Bool.true_or, Bool.true_or]
    rw [isWord, if_pos (toNat_lt_of_isPlainAlnum hplain), hplain, Bool.true_or]
  have hspan : (spanWord ((c :: cs).flatMap upperChar)).1 = k.toList := by
    rw [hsplit, List.flatMap_append, hupper, spanWord, List.takeWhile_append_of_pos hword,
      takeWhile_isWord_of_blank hrest, List.append_nil]
  change statementWords.contains (String.ofList (spanWord _).1) = true
  rw [hspan, String.ofList_toList]
  exact List.contains_iff_mem.mpr hk

/-- Without a statement that begins with another word there is no error. -/
theorem errors_eq_nil {cs : List Char} (h : ∀ ws ∈ (statements cs).map words,
    ∃ w rest k, ws = w :: rest ∧ k ∈ statementWords ∧ w.map plainUpper = k.toList) :
    errors cs = [] := by
  rw [errors, List.map_eq_nil_iff, List.filter_eq_nil_iff]
  intro s hs
  obtain ⟨w, rest, k, hw, hk, hcase⟩ := h _ (List.mem_map_of_mem hs)
  obtain ⟨l, -, rfl⟩ := List.mem_map.mp (List.mem_filter.mp hs).1
  have htrim : trimChars (trimChars l) = trimChars l := trim_trim l
  rw [startsWithOneOf_of_words htrim hw hk hcase]
  exact Bool.false_ne_true

end Scaffold.Format.Sql
