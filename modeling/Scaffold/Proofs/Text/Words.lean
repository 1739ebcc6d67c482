import Mathlib.Data.List.Forall2
import Scaffold.Proofs.Text.Lines
import Scaffold.Proofs.Text.Trim

/-!
# Proofs/Text/Words — the words of a text, and texts that differ in their white space

The **words** of a text are what stands between its white space, so neither trimming nor another gap
between two words changes them.  Two texts are `Respaced` if their characters are related one by one
and every gap with a line feed in one is a gap with a line feed in the other, however wide; their
words are then related one by one (`Respaced.words`).
-/

namespace Scaffold.Text

/-! ## Words -/

/-- A text with plain spaces for its white space. -/
def plainSpaced (cs : List Char) : List Char := cs.map fun c => if isBlank c then ' ' else c

/-- What stands between the white space of a text. -/
def words (cs : List Char) : List (List Char) := (pieces ' ' (plainSpaced cs)).filter (· ≠ [])

theorem not_isBlank_space {c : Char} (hc : isBlank c = false) : c ≠ ' ' := by
  rintro rfl
  exact absurd hc (by decide)

theorem pieces_plainSpaced_blank {c : Char} (hc : isBlank c = true) (xs : List Char) :
    pieces ' ' (plainSpaced (c :: xs)) = [] :: pieces ' ' (plainSpaced xs) := by
  rw [plainSpaced, List.map_cons, if_pos hc, pieces, if_pos rfl]
  rfl

theorem pieces_plainSpaced_char {c : Char} (hc : isBlank c = false) {xs p : List Char}
    {ps : List (List Char)} (h : pieces ' ' (plainSpaced xs) = p :: ps) :
    pieces ' ' (plainSpaced (c :: xs)) = (c :: p) :: ps := by
  rw [plainSpaced] at h ⊢
  rw [List.map_cons, if_neg (by simp [hc]), pieces, if_neg (not_isBlank_space hc), h]

theorem words_nil : words [] = [] := rfl

/-- White space parts the words. -/
theorem words_append_cons {c : Char} (hc : isBlank c = true) (xs ys : List Char) :
    words (xs ++ c :: ys) = words xs ++ words ys := by
  rw [words, plainSpaced, List.map_append, List.map_cons, if_pos hc, pieces_append_cons,
    List.filter_append]
  rfl

theorem words_cons_blank {c : Char} (hc : isBlank c = true) (xs : List Char) :
    words (c :: xs) = words xs :=
  words_append_cons hc [] xs

/-- Blanks in front do not matter to the words. -/
theorem words_blank_append {front : List Char} (h : ∀ c ∈ front, isBlank c = true)
    (xs : List Char) : words (front ++ xs) = words xs := by
  induction front with
  | nil => rfl
  | cons c front ih =>
    obtain ⟨hc, hfront⟩ := List.forall_mem_cons.mp h
    rw [List.cons_append, words_cons_blank hc, ih hfront]

theorem words_blank {xs : List Char} (h : ∀ c ∈ xs, isBlank c = true) : words xs = [] := by
  have hwords := words_blank_append h []
  rwa [List.append_nil] at hwords

/-- Nor do blanks behind. -/
theorem words_append_blank (xs : List Char) {tail : List Char} (h : ∀ c ∈ tail, isBlank c = true) :
    words (xs ++ tail) = words xs := by
  cases tail with
  | nil => rw [List.append_nil]
  | cons c tail =>
    obtain ⟨hc, htail⟩ := List.forall_mem_cons.mp h
    rw [words_append_cons hc, words_blank htail, List.append_nil]

theorem plainSpaced_of_word {w : List Char} (h : ∀ c ∈ w, isBlank c = false) :
    plainSpaced w = w := by
  rw [plainSpaced]
  conv_rhs => rw [← List.map_id w]
  exact List.map_congr_left fun c hc => if_neg (by rw [h c hc]; exact Bool.false_ne_true)

theorem words_of_word {w : List Char} (hne : w ≠ []) (h : ∀ c ∈ w, isBlank c = false) :
    words w = [w] := by
  have hspace : ' ' ∉ w := fun hmem => not_isBlank_space (h ' ' hmem) rfl
  rw [words, plainSpaced_of_word h, pieces_of_notMem hspace]
  exact List.filter_cons_of_pos (by simpa using hne)

/-- A word, and the words behind the white space that follows it. -/
theorem words_append_of_word {w : List Char} (hne : w ≠ []) (h : ∀ c ∈ w, isBlank c = false)
    {c : Char} (hc : isBlank c = true) (xs : List Char) : words (w ++ c :: xs) = w :: words xs := by
  rw [words_append_cons hc, words_of_word hne h]
  rfl

theorem words_trimChars (xs : List Char) : words (trimChars xs) = words xs := by
  obtain ⟨front, tail, hfront, htail, hxs⟩ := exists_trim isBlank xs
  have hwords := congrArg words hxs
  rw [words_append_blank _ htail, words_blank_append hfront] at hwords
  exact hwords.symm

/-- A text that begins with a word, and what follows the word. -/
theorem exists_words_of_head {c : Char} (hc : isBlank c = false) (xs : List Char) :
    ∃ w rest, c :: xs = (c :: w) ++ rest ∧ (∀ d ∈ rest.head?, isBlank d = true) ∧
      words (c :: xs) = (c :: w) :: words rest := by
  obtain ⟨w, rest, hw, hxs, hrest⟩ : ∃ w rest, (∀ d ∈ w, isBlank d = false) ∧ xs = w ++ rest ∧
      ∀ d ∈ rest.head?, isBlank d = true := by
    refine ⟨xs.takeWhile (!isBlank ·), xs.dropWhile (!isBlank ·), fun d hd => ?_,
      List.takeWhile_append_dropWhile.symm, fun d hd => ?_⟩
    · simpa using List.mem_takeWhile_imp hd
    · have hhead := List.head?_dropWhile_not (!isBlank ·) xs
      rw [Option.mem_def.mp hd] at hhead
      simpa using hhead
  have hword : ∀ d ∈ c :: w, isBlank d = false := List.forall_mem_cons.mpr ⟨hc, hw⟩
  refine ⟨w, rest, congrArg (c :: ·) hxs, hrest, ?_⟩
  subst hxs
  cases rest with
  | nil => rw [List.append_nil, words_of_word (List.cons_ne_nil c w) hword, words_nil]
  | cons d rest =>
    rw [words_cons_blank (hrest d rfl)]
    exact words_append_of_word (List.cons_ne_nil c w) hword (hrest d rfl) rest

/-- A text without words is blank. -/
theorem words_eq_nil_iff {xs : List Char} : words xs = [] ↔ ∀ c ∈ xs, isBlank c = true := by
  refine ⟨fun h => ?_, words_blank⟩
  induction xs with
  | nil => exact List.forall_mem_nil _
  | cons c xs ih =>
    cases hc : isBlank c with
    | true =>
      rw [words_cons_blank hc] at h
      exact List.forall_mem_cons.mpr ⟨hc, ih h⟩
    | false =>
      obtain ⟨w, rest, -, -, hwords⟩ := exists_words_of_head hc xs
      cases hwords.symm.trans h

/-! ## Another white space -/

/-- White space with a line feed in it. -/
def IsBreak (cs : List Char) : Prop := (∀ c ∈ cs, isBlank c = true) ∧ '\n' ∈ cs

theorem IsBreak.isBlank_of_head? {r : List Char} (hr : IsBreak r) (xs : List Char) :
    ∀ c ∈ (r ++ xs).head?, isBlank c = true := by
  intro c hc
  cases r with
  | nil => exact absurd hr.2 List.not_mem_nil
  | cons d r =>
    cases hc
    exact hr.1 c List.mem_cons_self

/-- The characters of the texts are related one by one, and where a gap of one has a line feed the
other has such a gap. -/
inductive Respaced (R : Char → Char → Prop) : List Char → List Char → Prop where
  | blank {xs ys : List Char} : (∀ c ∈ xs, isBlank c = true) → (∀ c ∈ ys, isBlank c = true) →
    Respaced R xs ys
  | char {c d : Char} {xs ys : List Char} : R c d → Respaced R xs ys →
    Respaced R (c :: xs) (d :: ys)
  | gap {r r' xs ys : List Char} : IsBreak r → IsBreak r' → Respaced R xs ys →
    Respaced R (r ++ xs) (r' ++ ys)

namespace Respaced

variable {R : Char → Char → Prop}

theorem of_forall₂ {xs ys : List Char} (h : List.Forall₂ R xs ys) : Respaced R xs ys := by
  induction h with
  | nil => exact .blank (List.forall_mem_nil _) (List.forall_mem_nil _)
  | cons hcd _ ih => exact .char hcd ih

/-- The same text, with white space of any width behind it. -/
theorem append {xs ys : List Char} (hxs : List.Forall₂ R xs ys) {us vs : List Char}
    (h : Respaced R us vs) : Respaced R (xs ++ us) (ys ++ vs) := by
  induction hxs with
  | nil => exact h
  | cons hcd _ ih => exact .char hcd ih

/-- A character that is no white space stands before respaced texts. -/
theorem of_char {c d : Char} {xs ys : List Char} (hc : isBlank c = false)
    (h : Respaced R (c :: xs) (d :: ys)) : R c d ∧ Respaced R xs ys := by
  have hnot {us : List Char} (hus : ∀ e ∈ us.head?, isBlank e = true) : ¬us = c :: xs := by
    rintro rfl
    exact Bool.noConfusion (hc.symm.trans (hus c rfl))
  generalize hus : c :: xs = us at h
  generalize hvs : d :: ys = vs at h
  cases h with
  | blank hblank _ => exact absurd hus.symm (hnot fun e he => hblank e (List.mem_of_mem_head? he))
  | char hcd h =>
    cases hus
    cases hvs
    exact ⟨hcd, h⟩
  | gap hr _ _ => exact absurd hus.symm (hnot (hr.isBlank_of_head? _))

/-- White space in front of a text opens a new first piece. -/
theorem exists_pieces_break {r : List Char} (hr : IsBreak r) (us : List Char) : ∃ ps,
    pieces ' ' (plainSpaced (r ++ us)) = [] :: ps ∧ ps.filter (· ≠ []) = words us := by
  obtain ⟨hblank, hfeed⟩ := hr
  cases r with
  | nil => exact absurd hfeed List.not_mem_nil
  | cons c r =>
    obtain ⟨hc, hrest⟩ := List.forall_mem_cons.mp hblank
    exact ⟨_, pieces_plainSpaced_blank hc _, words_blank_append hrest us⟩

/-- Blanks are cut into empty pieces. -/
theorem exists_pieces_blank {us : List Char} (h : ∀ c ∈ us, isBlank c = true) : ∃ ps,
    pieces ' ' (plainSpaced us) = [] :: ps ∧ ps.filter (· ≠ []) = [] := by
  cases us with
  | nil => exact ⟨[], rfl, rfl⟩
  | cons c us =>
    obtain ⟨hc, hrest⟩ := List.forall_mem_cons.mp h
    exact ⟨_, pieces_plainSpaced_blank hc _, words_blank hrest⟩

/-- The pieces between plain spaces, a first one apart, once the empty ones are gone. -/
theorem exists_pieces (hR : ∀ c d, R c d → isBlank c = isBlank d) {xs ys : List Char}
    (h : Respaced R xs ys) : ∃ p ps q qs, pieces ' ' (plainSpaced xs) = p :: ps ∧
      pieces ' ' (plainSpaced ys) = q :: qs ∧ List.Forall₂ R p q ∧
      List.Forall₂ (List.Forall₂ R) (ps.filter (· ≠ [])) (qs.filter (· ≠ [])) := by
  have hfilter {p q : List Char} (hpq : List.Forall₂ R p q) {ps qs : List (List Char)}
      (h : List.Forall₂ (List.Forall₂ R) (ps.filter (· ≠ [])) (qs.filter (· ≠ []))) :
      List.Forall₂ (List.Forall₂ R) ((p :: ps).filter (· ≠ [])) ((q :: qs).filter (· ≠ [])) := by
    cases hpq with
    | nil => exact h
    | cons hcd hpq => exact .cons (.cons hcd hpq) h
  induction h with
  | blank hxs hys =>
    obtain ⟨ps, hps, hpsNil⟩ := exists_pieces_blank hxs
    obtain ⟨qs, hqs, hqsNil⟩ := exists_pieces_blank hys
    exact ⟨[], ps, [], qs, hps, hqs, .nil, by rw [hpsNil, hqsNil]; exact .nil⟩
  | @char c d xs ys hcd h ih =>
    obtain ⟨p, ps, q, qs, hp, hq, hpq, hrest⟩ := ih
    have hblank := hR c d hcd
    cases hc : isBlank c with
    | true =>
      have hd : isBlank d = true := hblank.symm.trans hc
      refine ⟨[], _, [], _, pieces_plainSpaced_blank hc xs, pieces_plainSpaced_blank hd ys, .nil, ?_⟩
      rw [hp, hq]
      exact hfilter hpq hrest
    | false =>
      have hd : isBlank d = false := hblank.symm.trans hc
      exact ⟨c :: p, ps, d :: q, qs, pieces_plainSpaced_char hc hp, pieces_plainSpaced_char hd hq,
        .cons hcd hpq, hrest⟩
  | @gap r r' xs ys hr hr' h ih =>
    obtain ⟨p, ps, q, qs, hp, hq, hpq, hrest⟩ := ih
    obtain ⟨as, has, hasWords⟩ := exists_pieces_break hr xs
    obtain ⟨bs, hbs, hbsWords⟩ := exists_pieces_break hr' ys
    refine ⟨[], as, [], bs, has, hbs, .nil, ?_⟩
    rw [hasWords, hbsWords, Text.words, Text.words, hp, hq]
    exact hfilter hpq hrest

/-- **Respaced texts have related words.** -/
theorem words (hR : ∀ c d, R c d → isBlank c = isBlank d) {xs ys : List Char}
    (h : Respaced R xs ys) :
    List.Forall₂ (List.Forall₂ R) (Text.words xs) (Text.words ys) := by
  obtain ⟨p, ps, q, qs, hp, hq, hpq, hrest⟩ := h.exists_pieces hR
  rw [Text.words, Text.words, hp, hq]
  cases hpq with
  | nil => exact hrest
  | cons hcd hpq => exact .cons (.cons hcd hpq) hrest

end Respaced

/-- Texts that are blank at the same places are trimmed alike. -/
theorem forall₂_dropWhile {R : Char → Char → Prop} (hR : ∀ c d, R c d → isBlank c = isBlank d)
    {xs ys : List Char} (h : List.Forall₂ R xs ys) :
    List.Forall₂ R (xs.dropWhile isBlank) (ys.dropWhile isBlank) := by
  induction h with
  | nil => exact .nil
  | @cons c d xs ys hcd h ih =>
    rw [List.dropWhile_cons, List.dropWhile_cons, hR c d hcd]
    split
    · exact ih
    · exact .cons hcd h

theorem forall₂_trimChars {R : Char → Char → Prop} (hR : ∀ c d, R c d → isBlank c = isBlank d)
    {xs ys : List Char} (h : List.Forall₂ R xs ys) :
    List.Forall₂ R (trimChars xs) (trimChars ys) := by
  have hleft := forall₂_dropWhile hR h
  exact List.rel_reverse (forall₂_dropWhile hR (List.rel_reverse hleft))

/-! ## The lines of a text -/

/-- Respaced texts, with white space of any width in front of them. -/
def SpacedAlike (R : Char → Char → Prop) (xs ys : List Char) : Prop :=
  ∃ front front' us vs, (∀ c ∈ front, isBlank c = true) ∧ (∀ c ∈ front', isBlank c = true) ∧
    xs = front ++ us ∧ ys = front' ++ vs ∧ Respaced R us vs

theorem SpacedAlike.of_forall₂ {R : Char → Char → Prop} {xs ys : List Char}
    (h : List.Forall₂ R xs ys) : SpacedAlike R xs ys :=
  ⟨[], [], xs, ys, List.forall_mem_nil _, List.forall_mem_nil _, rfl, rfl, .of_forall₂ h⟩

end Scaffold.Text
