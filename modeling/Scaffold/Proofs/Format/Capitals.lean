import Scaffold.Proofs.Format.Keywords

/-!
# Proofs/Format/Capitals — a formatted SQL text stays as it is

A letter and its capital are the same to all that the formatter of SQL goes by: they are parts of
words alike, stand for one letter of a keyword and have one capital.  So a line with its keywords in
capitals has the parts that it had (`RecasedLine.parts_eq`), and no keyword is left to be changed
(`upperKeywords_upperKeywords`).  A formatted text then keeps its lines and their margins
(`format_settles`), and what the check says of it goes by words that differ from the former ones in
letter case only.
-/

namespace Scaffold.Format.Sql

open Text

/-! ## Letters and their capitals -/

/-- A letter of keywords and its capital, seen by the formatter. -/
theorem alike_of_capital {c d : Char} (h : isUpperLetter (foldLetter c) = true)
    (hd : upperChar c = [d]) :
    upperChar d = upperChar c ∧ isWord d = isWord c ∧ foldLetter d = foldLetter c := by
  obtain hletter | hmem := mem_of_isUpperLetter_foldLetter h
  · have hplain : isPlainAlnum c = true := by rw [isPlainAlnum, hletter, Bool.true_or]
    have hall : ∀ n < 128, isPlainLetter (Char.ofNat n) = true → ∀ d ∈ upperChar (Char.ofNat n),
        upperChar d = upperChar (Char.ofNat n) ∧ isWord d = isWord (Char.ofNat n) ∧
          foldLetter d = foldLetter (Char.ofNat n) := by
      decide +kernel
    have hc := hall c.toNat (toNat_lt_of_isPlainAlnum hplain)
    rw [Char.ofNat_toNat] at hc
    exact hc hletter d (hd ▸ List.mem_singleton_self d)
  · have hspecial : ∀ x ∈ ['ſ', 'ı', 'İ', '\u212a'], ∀ d ∈ upperChar x,
        upperChar d = upperChar x ∧ isWord d = isWord x ∧ foldLetter d = foldLetter x := by
      decide +kernel
    exact hspecial c hmem d (hd ▸ List.mem_singleton_self d)

namespace Cased

variable {c d : Char} (h : Cased c d)
include h

theorem alike : upperChar d = upperChar c ∧ isWord d = isWord c ∧ foldLetter d = foldLetter c := by
  obtain rfl | ⟨hfold, hupper⟩ := h
  · exact ⟨rfl, rfl, rfl⟩
  · exact alike_of_capital hfold hupper

theorem upperChar_eq : upperChar d = upperChar c := h.alike.1

theorem isWord_eq : isWord d = isWord c := h.alike.2.1

theorem foldLetter_eq : foldLetter d = foldLetter c := h.alike.2.2

theorem eq_iff {x : Char} (hx : x ∈ signs) : c = x ↔ d = x := faithful_cased.sign c d h x hx

/-- The sign of a comment stays. -/
theorem dashes_iff : ∀ x ∈ ['-', '-'], c = x ↔ d = x :=
  List.forall_mem_cons.mpr ⟨h.eq_iff (by decide),
    List.forall_mem_singleton.mpr (h.eq_iff (by decide))⟩

end Cased

theorem ne_nil_of_cased {cs ds : List Char} (h : List.Forall₂ Cased cs ds) (hne : cs ≠ []) :
    ds ≠ [] := by
  rintro rfl
  exact hne (List.forall₂_nil_right_iff.mp h)

theorem flatMap_upperChar_of_cased {cs ds : List Char} (h : List.Forall₂ Cased cs ds) :
    ds.flatMap upperChar = cs.flatMap upperChar := by
  induction h with
  | nil => rfl
  | cons hcd _ ih => rw [List.flatMap_cons, List.flatMap_cons, ih, hcd.upperChar_eq]

theorem map_foldLetter_of_cased {cs ds : List Char} (h : List.Forall₂ Cased cs ds) :
    ds.map foldLetter = cs.map foldLetter := by
  induction h with
  | nil => rfl
  | cons hcd _ ih => rw [List.map_cons, List.map_cons, ih, hcd.foldLetter_eq]

/-! ## Words -/

theorem spanWord_append {w rest : List Char} (hw : ∀ c ∈ w, isWord c = true)
    (hrest : ∀ c ∈ rest.head?, isWord c = false) : spanWord (w ++ rest) = (w, rest) := by
  rw [spanWord, List.takeWhile_append_of_pos hw, dropWhile_append_of_all hw, takeWhile_of_head hrest,
    List.append_nil, dropWhile_of_head hrest]

/-- A text is a word and what follows it. -/
theorem exists_spanWord (cs : List Char) : ∃ w rest, cs = w ++ rest ∧
    (∀ c ∈ w, isWord c = true) ∧ ∀ c ∈ rest.head?, isWord c = false := by
  refine ⟨cs.takeWhile isWord, cs.dropWhile isWord, List.takeWhile_append_dropWhile.symm,
    fun _ hc => List.mem_takeWhile_imp hc, fun c hc => ?_⟩
  have hhead := List.head?_dropWhile_not isWord cs
  rw [Option.mem_def.mp hc] at hhead
  simpa using hhead

theorem isWord_of_cased {cs ds : List Char} (h : List.Forall₂ Cased cs ds)
    (hcs : ∀ c ∈ cs, isWord c = true) : ∀ d ∈ ds, isWord d = true := by
  intro d hd
  obtain ⟨c, hc, hcd⟩ := h.exists_of_mem_right hd
  rw [hcd.isWord_eq, hcs c hc]

/-- Letter case does not tell whether a word begins. -/
theorem isWord_head?_of_cased {cs ds : List Char} (h : List.Forall₂ Cased cs ds)
    (hcs : ∀ c ∈ cs.head?, isWord c = false) : ∀ d ∈ ds.head?, isWord d = false := by
  cases h with
  | nil => exact hcs
  | cons hcd _ =>
    intro x hx
    rw [← Option.some.inj hx, hcd.isWord_eq]
    exact hcs _ rfl

/-- A word as it is written: in capitals if it is a keyword. -/
def capitalWord (w : List Char) : List Char :=
  if keywords.contains (String.ofList (w.map foldLetter)) then w.flatMap upperChar else w

theorem capitalize_nil (n : Nat) : capitalize n [] = [] := by cases n <;> rfl

/-- The word in front is written as it should be. -/
theorem capitalize_append (n : Nat) {w rest : List Char} (hne : w ≠ [])
    (hw : ∀ c ∈ w, isWord c = true) (hrest : ∀ c ∈ rest.head?, isWord c = false) :
    capitalize (n + 1) (w ++ rest) = capitalWord w ++ capitalize n rest := by
  obtain ⟨c, w, rfl⟩ := List.exists_cons_of_ne_nil hne
  rw [capitalize, spanWord_append hw hrest]
  rfl

theorem capitalize_cons (n : Nat) {c : Char} (hc : isWord c = false) (rest : List Char) :
    capitalize (n + 1) (c :: rest) = c :: capitalize n rest := by
  have hspan : spanWord (c :: rest) = ([], c :: rest) :=
    spanWord_append (w := []) (List.forall_mem_nil _) fun x hx => by
      rwa [← Option.some.inj hx]
  rw [capitalize, hspan]

/-- A word in capitals is the word in another case. -/
theorem cased_capitalWord (w : List Char) : List.Forall₂ Cased w (capitalWord w) := by
  unfold capitalWord
  split
  · rename_i hkeyword
    refine cased_upperChar fun c hc => ?_
    refine isUpperLetter_of_mem_keywords (List.contains_iff_mem.mp hkeyword) _ ?_
    rw [String.toList_ofList]
    exact List.mem_map_of_mem hc
  · exact cased_refl w

theorem capitalWord_capitalWord (w : List Char) : capitalWord (capitalWord w) = capitalWord w := by
  have hcased := cased_capitalWord w
  rw [capitalWord, map_foldLetter_of_cased hcased, flatMap_upperChar_of_cased hcased]
  unfold capitalWord
  split <;> rfl

/-- Code with its keywords in capitals has none to be changed. -/
theorem capitalize_capitalize (n : Nat) (cs : List Char) :
    capitalize n (capitalize n cs) = capitalize n cs := by
  induction n generalizing cs with
  | zero => rfl
  | succ n ih =>
    obtain ⟨w, rest, rfl, hw, hrest⟩ := exists_spanWord cs
    by_cases hne : w = []
    · subst hne
      cases rest with
      | nil => rw [List.append_nil, capitalize_nil, capitalize_nil]
      | cons c rest =>
        have hc : isWord c = false := hrest c rfl
        rw [List.nil_append, capitalize_cons n hc, capitalize_cons n hc, ih]
    · have hword := cased_capitalWord w
      rw [capitalize_append n hne hw hrest,
        capitalize_append n (ne_nil_of_cased hword hne) (isWord_of_cased hword hw)
          (isWord_head?_of_cased (cased_capitalize n rest) hrest),
        capitalWord_capitalWord, ih]

/-! ## The parts of a line with other letters -/

section Related

variable {R : Char → Char → Prop}

/-- A quote has a quote for its partner if the quotes stand where they stood. -/
theorem exists_quote_of_forall₂ (hR : ∀ c d, R c d → (c = '\'' ↔ d = '\'')) {cs ds : List Char}
    (h : List.Forall₂ R ('\'' :: cs) ds) :
    ∃ es, ds = '\'' :: es ∧ R '\'' '\'' ∧ List.Forall₂ R cs es := by
  obtain ⟨d, es, hd, htail, rfl⟩ := List.forall₂_cons_left_iff.mp h
  obtain rfl := (hR _ _ hd).mp rfl
  exact ⟨es, rfl, hd, htail⟩

/-- A literal ends where it ended if the quotes stand where they stood. -/
theorem rel_closeLiteral? (hR : ∀ c d, R c d → (c = '\'' ↔ d = '\'')) {cs ds : List Char}
    (h : List.Forall₂ R cs ds) :
    Option.Rel (fun x y => List.Forall₂ R x.1 y.1 ∧ List.Forall₂ R x.2 y.2) (closeLiteral? cs)
      (closeLiteral? ds) := by
  fun_induction closeLiteral? cs generalizing ds with
  | case1 =>
    cases h
    exact .none
  | case2 cs body rest hclose ih =>
    obtain ⟨_, rfl, hfirst, htail⟩ := exists_quote_of_forall₂ hR h
    obtain ⟨ds, rfl, hsecond, hrest⟩ := exists_quote_of_forall₂ hR htail
    have hrel := ih hrest
    rw [hclose] at hrel
    rw [closeLiteral?]
    generalize closeLiteral? ds = o at hrel
    cases hrel with
    | some hrel => exact .some ⟨.cons hfirst (.cons hsecond hrel.1), hrel.2⟩
  | case3 cs hclose ih =>
    obtain ⟨_, rfl, hfirst, htail⟩ := exists_quote_of_forall₂ hR h
    obtain ⟨ds, rfl, -, hrest⟩ := exists_quote_of_forall₂ hR htail
    have hrel := ih hrest
    rw [hclose] at hrel
    rw [closeLiteral?]
    generalize closeLiteral? ds = o at hrel
    cases hrel with
    | none => exact .some ⟨.cons hfirst .nil, htail⟩
  | case4 cs hsingle =>
    obtain ⟨ds, rfl, hfirst, htail⟩ := exists_quote_of_forall₂ hR h
    have hsingle' : ds.head? ≠ some '\'' := by
      intro hhead
      obtain ⟨es, rfl⟩ := List.head?_eq_some_iff.mp hhead
      obtain ⟨us, rfl, -, -⟩ := exists_quote_of_forall₂ (R := flip R)
        (fun c d hcd => (hR d c hcd).symm) htail.flip
      exact hsingle us rfl
    rw [closeLiteral?_quote hsingle']
    exact .some ⟨.cons hfirst .nil, htail⟩
  | case5 c cs hpair hsingle ih =>
    obtain ⟨d, ds, hd, htail, rfl⟩ := List.forall₂_cons_left_iff.mp h
    rw [closeLiteral?_cons (mt (hR _ _ hd).mpr hsingle)]
    exact (ih htail).map fun _ _ _ _ hrel => ⟨.cons hd hrel.1, hrel.2⟩

/-- A word is found in both of two related texts, or in neither. -/
theorem rel_afterWord? {word : List Char} (hR : ∀ c d, R c d → ∀ x ∈ word, c = x ↔ d = x)
    {cs ds : List Char} (h : List.Forall₂ R cs ds) :
    Option.Rel (List.Forall₂ R) (afterWord? word cs) (afterWord? word ds) := by
  induction word generalizing cs ds with
  | nil => exact .some h
  | cons w word ih =>
    cases h with
    | nil => exact .none
    | @cons c d cs ds hcd h =>
      have hfirst : (w = c) = (w = d) := propext <| by
        rw [eq_comm, eq_comm (b := d)]
        exact hR c d hcd w List.mem_cons_self
      rw [afterWord?, afterWord?]
      simp only [hfirst]
      split
      · exact ih (fun c d hcd x hx => hR c d hcd x (List.mem_cons_of_mem w hx)) h
      · exact .none

/-- A word is found where it was found if its letters stand where they stood. -/
theorem rel_cutAt? {word : List Char} (hR : ∀ c d, R c d → ∀ x ∈ word, c = x ↔ d = x)
    {cs ds : List Char} (h : List.Forall₂ R cs ds) :
    Option.Rel (fun x y => List.Forall₂ R x.1 y.1 ∧ List.Forall₂ R x.2 y.2) (cutAt? word cs)
      (cutAt? word ds) := by
  induction h with
  | nil =>
    rw [cutAt?]
    split
    · exact .some ⟨.nil, .nil⟩
    · exact .none
  | @cons c d cs ds hcd h ih =>
    have hafter := rel_afterWord? hR (.cons hcd h)
    rw [cutAt?, cutAt?]
    generalize afterWord? word (c :: cs) = o at hafter
    generalize afterWord? word (d :: ds) = o' at hafter
    cases hafter with
    | some hrest => exact .some ⟨.nil, hrest⟩
    | none => exact ih.map fun _ _ _ _ hcut => ⟨.cons hcd hcut.1, hcut.2⟩

end Related

/-- A literal is a part by itself. -/
theorem parts_literal {cs body rest : List Char} (h : closeLiteral? cs = some (body, rest)) :
    parts ('\'' :: cs) = .literal ('\'' :: body) :: parts rest := by
  rw [parts, if_pos rfl]
  split
  · rename_i body' rest' hclose
    rw [h] at hclose
    obtain ⟨rfl, rfl⟩ := Prod.mk.inj (Option.some.inj hclose)
    rfl
  · rename_i hclose
    rw [h] at hclose
    cases hclose

/-- A quote without an end is code. -/
theorem parts_unclosed {cs : List Char} (h : closeLiteral? cs = none) :
    parts ('\'' :: cs) = Part.addCode '\'' (parts cs) := by
  rw [parts, if_pos rfl]
  split
  · rename_i hclose
    rw [h] at hclose
    cases hclose
  · rfl

theorem parts_cons {c : Char} (h : c ≠ '\'') (cs : List Char) :
    parts (c :: cs) = Part.addCode c (parts cs) := by
  rw [parts, if_neg h]

namespace Part

/-- The same literal, or code in which letters may have become capitals. -/
inductive Recased : Part → Part → Prop
  | code {cs ds : List Char} (h : List.Forall₂ Cased cs ds) : Recased (code cs) (code ds)
  | literal (cs : List Char) : Recased (literal cs) (literal cs)

/-- What is recast behind a character is recast with it. -/
theorem exists_addCode {c : Char} {ps qs : List Part}
    (h : List.Forall₂ Recased (addCode c ps) qs) :
    ∃ d qs', Cased c d ∧ List.Forall₂ Recased ps qs' ∧ qs = addCode d qs' := by
  unfold addCode at h
  split at h
  · rename_i cs ps
    obtain ⟨q, qs, hq, hqs, rfl⟩ := List.forall₂_cons_left_iff.mp h
    cases hq with
    | code hcs =>
      obtain ⟨d, ds, hd, hds, rfl⟩ := List.forall₂_cons_left_iff.mp hcs
      exact ⟨d, code ds :: qs, hd, .cons (.code hds) hqs, rfl⟩
  · rename_i hcode
    obtain ⟨q, qs, hq, hqs, rfl⟩ := List.forall₂_cons_left_iff.mp h
    cases hq with
    | code hcs =>
      obtain ⟨d, ds, hd, hds, rfl⟩ := List.forall₂_cons_left_iff.mp hcs
      cases hds
      refine ⟨d, qs, hd, hqs, ?_⟩
      cases hqs with
      | nil => rfl
      | cons hp _ =>
        cases hp with
        | code => exact (hcode _ _ rfl).elim
        | literal => rfl

end Part

/-- A line and its parts with other letters in the code, part by part. -/
inductive RecasedLine : List Char → List Part → Prop
  | nil : RecasedLine [] []
  | literal {body rest : List Char} {ps : List Part}
    (hclose : closeLiteral? (body ++ rest) = some (body, rest)) (h : RecasedLine rest ps) :
    RecasedLine ('\'' :: (body ++ rest)) (.literal ('\'' :: body) :: ps)
  | unclosed {cs : List Char} {ps : List Part} (hclose : closeLiteral? cs = none)
    (h : RecasedLine cs ps) : RecasedLine ('\'' :: cs) (Part.addCode '\'' ps)
  | code {c d : Char} {cs : List Char} {ps : List Part} (hc : c ≠ '\'') (hcd : Cased c d)
    (h : RecasedLine cs ps) : RecasedLine (c :: cs) (Part.addCode d ps)

namespace RecasedLine

variable {cs : List Char} {ps : List Part}

/-- Recast parts make a recast line. -/
theorem of_parts (h : List.Forall₂ Part.Recased (parts cs) ps) : RecasedLine cs ps := by
  induction cs using parts.induct generalizing ps with
  | case1 =>
    rw [parts] at h
    cases h
    exact .nil
  | case2 cs body rest hclose _ ih =>
    rw [parts_literal hclose] at h
    obtain ⟨p, ps, hp, hps, rfl⟩ := List.forall₂_cons_left_iff.mp h
    cases hp
    obtain rfl := eq_append_of_closeLiteral? hclose
    exact .literal hclose (ih hps)
  | case3 cs hclose ih =>
    rw [parts_unclosed hclose] at h
    obtain ⟨d, ps, hd, hps, rfl⟩ := Part.exists_addCode h
    obtain rfl := (hd.eq_iff (by decide)).mp rfl
    exact .unclosed hclose (ih hps)
  | case4 c cs hc ih =>
    rw [parts_cons hc] at h
    obtain ⟨d, ps, hd, hps, rfl⟩ := Part.exists_addCode h
    exact .code hc hd (ih hps)

/-- A recast line differs in letter case only. -/
theorem cased (h : RecasedLine cs ps) : List.Forall₂ Cased cs (ps.flatMap Part.chars) := by
  induction h with
  | nil => exact .nil
  | literal _ _ ih => exact .cons (.inl rfl) (List.rel_append (cased_refl _) ih)
  | unclosed _ _ ih =>
    rw [chars_addCode]
    exact .cons (.inl rfl) ih
  | code _ hcd _ ih =>
    rw [chars_addCode]
    exact .cons hcd ih

/-- **A line with other letters in its code has the parts that it had.** -/
theorem parts_eq (h : RecasedLine cs ps) : parts (ps.flatMap Part.chars) = ps := by
  have hquote : ∀ c d, Cased c d → (c = '\'' ↔ d = '\'') := fun c d hcd => hcd.eq_iff (by decide)
  induction h with
  | nil => exact parts.eq_1
  | @literal body rest ps hclose h ih =>
    have hrel := rel_closeLiteral? hquote (List.rel_append (cased_refl body) h.cased)
    rw [hclose] at hrel
    generalize hclose' : closeLiteral? (body ++ ps.flatMap Part.chars) = o at hrel
    cases hrel with
    | @some _ y hrel =>
      obtain ⟨hbody, hrest⟩ :=
        List.append_inj (eq_append_of_closeLiteral? hclose') hrel.1.length_eq
      have hliteral : parts ('\'' :: (body ++ ps.flatMap Part.chars)) =
          .literal ('\'' :: y.1) :: parts y.2 := parts_literal hclose'
      rw [List.flatMap_cons, Part.chars, List.cons_append, hliteral, ← hbody, ← hrest, ih]
  | @unclosed cs ps hclose h ih =>
    have hrel := rel_closeLiteral? hquote h.cased
    rw [hclose] at hrel
    rw [chars_addCode, parts_unclosed, ih]
    generalize closeLiteral? (ps.flatMap Part.chars) = o at hrel
    cases hrel
    rfl
  | code hc hcd _ ih => rw [chars_addCode, parts_cons (mt (hquote _ _ hcd).mpr hc), ih]

end RecasedLine

/-! ## Lines with their keywords in capitals -/

/-- The parts of a line with its keywords in capitals. -/
def capitalParts : List Part → List Part
  | [] => []
  | .literal l :: ps => .literal l :: capitalParts ps
  | .code l :: ps =>
    match cutAt? ['-', '-'] l with
    | none => .code (capitalize (l.length + 1) l) :: capitalParts ps
    | some (code, comment) =>
      .code (capitalize (code.length + 1) code ++ '-' :: '-' :: comment) :: ps

theorem capitalParts_code {l : List Char} (h : cutAt? ['-', '-'] l = none) (ps : List Part) :
    capitalParts (.code l :: ps) = .code (capitalize (l.length + 1) l) :: capitalParts ps := by
  rw [capitalParts, h]

theorem capitalParts_comment {l code comment : List Char}
    (h : cutAt? ['-', '-'] l = some (code, comment)) (ps : List Part) :
    capitalParts (.code l :: ps) =
      .code (capitalize (code.length + 1) code ++ '-' :: '-' :: comment) :: ps := by
  rw [capitalParts, h]

theorem recased_refl (ps : List Part) : List.Forall₂ Part.Recased ps ps :=
  List.forall₂_same.mpr fun p _ => by
    cases p with
    | code cs => exact .code (cased_refl cs)
    | literal cs => exact .literal cs

theorem eq_append_of_comment {l code comment : List Char}
    (h : cutAt? ['-', '-'] l = some (code, comment)) : l = code ++ '-' :: '-' :: comment := by
  rw [eq_append_of_cutAt? h, List.append_assoc]
  rfl

/-- Keywords in capitals are recast parts. -/
theorem recased_capitalParts (ps : List Part) :
    List.Forall₂ Part.Recased ps (capitalParts ps) := by
  induction ps with
  | nil => exact .nil
  | cons p ps ih =>
    cases p with
    | literal l => exact .cons (.literal l) ih
    | code l =>
      cases hcut : cutAt? ['-', '-'] l with
      | none =>
        rw [capitalParts_code hcut]
        exact .cons (.code (cased_capitalize _ l)) ih
      | some x =>
        rw [capitalParts_comment hcut]
        refine .cons (.code ?_) (recased_refl ps)
        conv_lhs => rw [eq_append_of_comment hcut]
        exact List.rel_append (cased_capitalize _ x.1) (cased_refl _)

/-- Keywords are put in capitals part by part. -/
theorem upperKeywords_eq (cs : List Char) :
    upperKeywords cs = (capitalParts (parts cs)).flatMap Part.chars := by
  have hgo (ps : List Part) : upperKeywords.go ps = (capitalParts ps).flatMap Part.chars := by
    induction ps with
    | nil => rfl
    | cons p ps ih =>
      cases p with
      | literal l => rw [upperKeywords.go, ih]; rfl
      | code l =>
        rw [upperKeywords.go]
        cases hcut : cutAt? ['-', '-'] l with
        | none => rw [capitalParts_code hcut, ih]; rfl
        | some x =>
          rw [capitalParts_comment hcut, chars_restOf]
          rfl
  exact hgo (parts cs)

theorem parts_upperKeywords (cs : List Char) :
    parts (upperKeywords cs) = capitalParts (parts cs) := by
  rw [upperKeywords_eq, (RecasedLine.of_parts (recased_capitalParts _)).parts_eq]

theorem cutAt?_none_of_cased {cs ds : List Char} (h : List.Forall₂ Cased cs ds)
    (hcut : cutAt? ['-', '-'] cs = none) : cutAt? ['-', '-'] ds = none := by
  have hrel := rel_cutAt? (fun _ _ => Cased.dashes_iff) h
  rw [hcut] at hrel
  generalize cutAt? ['-', '-'] ds = o at hrel
  cases hrel
  rfl

/-- A comment begins behind other letters where it began. -/
theorem cutAt?_comment_of_cased {l code comment code' : List Char}
    (hcut : cutAt? ['-', '-'] l = some (code, comment)) (h : List.Forall₂ Cased code code') :
    cutAt? ['-', '-'] (code' ++ '-' :: '-' :: comment) = some (code', comment) := by
  have hall : List.Forall₂ Cased (code ++ '-' :: '-' :: comment) (code' ++ '-' :: '-' :: comment) :=
    List.rel_append h (cased_refl _)
  rw [← eq_append_of_comment hcut] at hall
  have hrel := rel_cutAt? (fun _ _ => Cased.dashes_iff) hall
  rw [hcut] at hrel
  cases hcut' : cutAt? ['-', '-'] (code' ++ '-' :: '-' :: comment) with
  | none =>
    rw [hcut'] at hrel
    cases hrel
  | some y =>
    rw [hcut'] at hrel
    cases hrel with
    | some hrel =>
      obtain ⟨hcode, hrest⟩ := List.append_inj (eq_append_of_comment hcut')
        (h.length_eq.symm.trans hrel.1.length_eq)
      rw [hcode, (List.cons.inj (List.cons.inj hrest).2).2]

/-- Capitals stay. -/
theorem capitalParts_capitalParts (ps : List Part) :
    capitalParts (capitalParts ps) = capitalParts ps := by
  induction ps with
  | nil => rfl
  | cons p ps ih =>
    cases p with
    | literal l => rw [capitalParts, capitalParts, ih]
    | code l =>
      cases hcut : cutAt? ['-', '-'] l with
      | none =>
        have hcased := cased_capitalize (l.length + 1) l
        rw [capitalParts_code hcut, capitalParts_code (cutAt?_none_of_cased hcased hcut),
          ← hcased.length_eq, capitalize_capitalize, ih]
      | some x =>
        have hcased := cased_capitalize (x.1.length + 1) x.1
        rw [capitalParts_comment hcut, capitalParts_comment (cutAt?_comment_of_cased hcut hcased),
          ← hcased.length_eq, capitalize_capitalize]

/-- **A line with its keywords in capitals has none to be changed.** -/
theorem upperKeywords_upperKeywords (cs : List Char) :
    upperKeywords (upperKeywords cs) = upperKeywords cs := by
  rw [upperKeywords_eq (upperKeywords cs), parts_upperKeywords, capitalParts_capitalParts,
    ← upperKeywords_eq]

/-! ## Formatting again -/

theorem trimChars_unit_append (n : Nat) (text : List Char) :
    trimChars (unit n ++ text) = trimChars text := by
  have hblank : ∀ c ∈ unit n, isBlank c = true := fun c hc => by
    rw [(List.mem_replicate.mp hc).2]
    decide
  have htrim := trim_append hblank (List.forall_mem_nil _) text
  rwa [List.append_nil] at htrim

theorem trimChars_sublist (cs : List Char) : (trimChars cs).Sublist cs :=
  (List.rdropWhile_prefix isBlank _).sublist.trans (List.dropWhile_sublist _)

theorem trimChars_of_cased {cs ds : List Char} (h : List.Forall₂ Cased cs ds)
    (hcs : trimChars cs = cs) : trimChars ds = ds := by
  have htrimmed := forall₂_trimChars faithful_cased.blank h
  rw [hcs] at htrimmed
  exact (trimChars_sublist ds).eq_of_length (htrimmed.length_eq.symm.trans h.length_eq)

theorem formatLine_blank (s : State) {raw : List Char} (h : trimChars raw = []) :
    formatLine s raw = ([], s) := by
  rw [formatLine, h]
  rfl

theorem formatLine_comment (s : State) {raw : List Char} (hne : trimChars raw ≠ [])
    (h : startsWith ['-', '-'] (trimChars raw) = true) :
    formatLine s raw = (unit s.depth ++ trimChars raw, s) := by
  rw [formatLine, if_neg (by simpa using hne), if_pos h]

theorem formatLine_code (s : State) {raw : List Char} (hne : trimChars raw ≠ [])
    (h : startsWith ['-', '-'] (trimChars raw) = false) :
    formatLine s raw = (unit (s.indent (upperKeywords (trimChars raw))) ++
      upperKeywords (trimChars raw), s.after (upperKeywords (trimChars raw))) := by
  rw [formatLine, if_neg (by simpa using hne), if_neg (by rw [h]; exact Bool.false_ne_true)]

theorem startsWith_of_cased {cs ds : List Char} (h : List.Forall₂ Cased cs ds) :
    startsWith ['-', '-'] ds = startsWith ['-', '-'] cs := by
  have hrel := rel_afterWord? (fun _ _ => Cased.dashes_iff) h
  rw [startsWith, startsWith]
  generalize afterWord? ['-', '-'] cs = o at hrel
  generalize afterWord? ['-', '-'] ds = o' at hrel
  cases hrel <;> rfl

/-- A formatted line is formatted to itself, and leads to the state that the line led to. -/
theorem formatLine_formatLine (s : State) (raw : List Char) :
    formatLine s (formatLine s raw).1 = formatLine s raw := by
  have htrim : trimChars (trimChars raw) = trimChars raw := trim_trim raw
  by_cases hne : trimChars raw = []
  · rw [formatLine_blank s hne]
    exact formatLine_blank s rfl
  cases hcomment : startsWith ['-', '-'] (trimChars raw) with
  | true =>
    have hcore : trimChars (unit s.depth ++ trimChars raw) = trimChars raw := by
      rw [trimChars_unit_append, htrim]
    rw [formatLine_comment s hne hcomment,
      formatLine_comment s (hcore.symm ▸ hne) (hcore.symm ▸ hcomment), hcore]
  | false =>
    have hcased := cased_upperKeywords (trimChars raw)
    have hne' := ne_nil_of_cased hcased hne
    have hcore (n : Nat) : trimChars (unit n ++ upperKeywords (trimChars raw)) =
        upperKeywords (trimChars raw) := by
      rw [trimChars_unit_append, trimChars_of_cased hcased htrim]
    rw [formatLine_code s hne hcomment, formatLine_code s, hcore, upperKeywords_upperKeywords]
    · rwa [hcore]
    · rw [hcore, startsWith_of_cased hcased, hcomment]

theorem formatFrom_formatFrom (s : State) (ls : List (List Char)) :
    formatFrom s (formatFrom s ls) = formatFrom s ls := by
  induction ls generalizing s with
  | nil => rfl
  | cons l ls ih =>
    rw [formatFrom, formatFrom, formatLine_formatLine]
    exact congrArg _ (ih _)

/-- A line with nothing at its end but text, and nothing in it if that is blank. -/
def IsSettled (l : List Char) : Prop := trimRight l = l ∧ (trimChars l = [] → l = [])

/-- A formatted line is settled. -/
theorem isSettled_formatLine (s : State) (raw : List Char) : IsSettled (formatLine s raw).1 := by
  have hsettled (n : Nat) {text : List Char} (hne : text ≠ []) (htrim : trimChars text = text) :
      IsSettled (unit n ++ text) := by
    have htrimmed : IsTrimmed isBlank text := by
      rw [← htrim]
      exact isTrimmed_trim text
    refine ⟨htrimmed.dropTail_append (unit n) hne, fun hnil => ?_⟩
    rw [trimChars_unit_append, htrim] at hnil
    exact absurd hnil hne
  have htrim : trimChars (trimChars raw) = trimChars raw := trim_trim raw
  by_cases hne : trimChars raw = []
  · rw [formatLine_blank s hne]
    exact ⟨rfl, fun _ => rfl⟩
  cases hcomment : startsWith ['-', '-'] (trimChars raw) with
  | true =>
    rw [formatLine_comment s hne hcomment]
    exact hsettled _ hne htrim
  | false =>
    have hcased := cased_upperKeywords (trimChars raw)
    rw [formatLine_code s hne hcomment]
    exact hsettled _ (ne_nil_of_cased hcased hne) (trimChars_of_cased hcased htrim)

theorem isSettled_formatFrom (s : State) (ls : List (List Char)) :
    ∀ l ∈ formatFrom s ls, IsSettled l := by
  induction ls generalizing s with
  | nil => exact List.forall_mem_nil _
  | cons l ls ih => exact List.forall_mem_cons.mpr ⟨isSettled_formatLine s l, ih _⟩

theorem formatLine_eq_nil_iff (s : State) (raw : List Char) :
    (formatLine s raw).1 = [] ↔ trimChars raw = [] := by
  refine ⟨fun hnil => ?_, fun hblank => by rw [formatLine_blank s hblank]⟩
  have hcased := cased_formatLine s raw
  rw [hnil] at hcased
  exact List.forall₂_nil_right_iff.mp hcased

section Settled

variable (s : State) {ls : List (List Char)} (h : ∀ l ∈ ls, IsSettled l)
include h

/-- Empty lines stay empty, and others do not become so. -/
theorem filled_formatFrom : filled (formatFrom s ls) = formatFrom s (filled ls) := by
  induction ls generalizing s with
  | nil => rfl
  | cons l ls ih =>
    obtain ⟨hl, hls⟩ := List.forall_mem_cons.mp h
    by_cases hnil : l = []
    · subst hnil
      rw [formatFrom, formatLine_blank s rfl, filled_empty, filled_empty, ih s hls]
    · have hfull : (formatLine s l).1 ≠ [] :=
        mt (formatLine_eq_nil_iff s l).mp (mt hl.2 hnil)
      rw [formatFrom, filled_cons hfull, filled_cons hnil, formatFrom, ih _ hls]

/-- Formatting does not change where empty lines stand. -/
theorem map_fst_spaced_formatFrom :
    (spaced (formatFrom s ls)).map Prod.fst = (spaced ls).map Prod.fst := by
  refine map_fst_spaced ?_
  induction ls generalizing s with
  | nil => exact .nil
  | cons l ls ih =>
    obtain ⟨hl, hls⟩ := List.forall_mem_cons.mp h
    refine .cons ((formatLine_eq_nil_iff s l).trans ⟨hl.2, ?_⟩) (ih _ hls)
    rintro rfl
    rfl

end Settled

/-- Formatting goes by the lines and by where empty ones stand between them. -/
theorem spaced_formatFrom (s : State) {ls ms : List (List Char)} (hls : ∀ l ∈ ls, IsSettled l)
    (hms : ∀ m ∈ ms, IsSettled m) (h : spaced ls = spaced ms) :
    spaced (formatFrom s ls) = spaced (formatFrom s ms) := by
  have hgaps : (spaced (formatFrom s ls)).map Prod.fst =
      (spaced (formatFrom s ms)).map Prod.fst := by
    rw [map_fst_spaced_formatFrom s hls, map_fst_spaced_formatFrom s hms, h]
  have htexts : (spaced (formatFrom s ls)).map Prod.snd =
      (spaced (formatFrom s ms)).map Prod.snd := by
    rw [map_snd_spaced, map_snd_spaced, filled_formatFrom s hls, filled_formatFrom s hms,
      ← map_snd_spaced ls, h, map_snd_spaced]
  exact (List.zip_of_prod hgaps htexts).trans (List.zip_of_prod rfl rfl).symm

theorem map_trimRight {ls : List (List Char)} (h : ∀ l ∈ ls, IsSettled l) :
    ls.map trimRight = ls := by
  conv_rhs => rw [← List.map_id ls]
  exact List.map_congr_left fun l hl => (h l hl).1

theorem finish_of_settled {ls : List (List Char)} (h : ∀ l ∈ ls, IsSettled l) :
    finish ls = joinWith ['\n'] (unspaced (spaced ls)) ++ ['\n'] := by
  rw [finish_eq, map_trimRight h]

/-- **A formatted text is settled.** -/
theorem format_twice (cs : List Char) : format (format cs) = format cs := by
  let ls := formatFrom .start (lines cs)
  have hlines : ∀ l ∈ ls, '\n' ∉ l :=
    lineFeed_notMem_formatFrom _ fun _ hl => notMem_of_mem_pieces hl
  have hsettled : ∀ l ∈ ls, IsSettled l := isSettled_formatFrom _ _
  have hspaced : spaced (lines (finish ls)) = spaced ls := by
    rw [spaced_lines_finish hlines, map_trimRight hsettled]
  have hagain : ∀ l ∈ lines (finish ls), IsSettled l := by
    obtain ⟨blanks, hblanks, heq⟩ := lines_finish hlines
    rw [heq, map_trimRight hsettled]
    refine List.forall_mem_append.mpr ⟨mem_of_mem_unspaced ⟨rfl, fun _ => rfl⟩ hsettled, ?_⟩
    intro l hl
    rw [hblanks l hl]
    exact ⟨rfl, fun _ => rfl⟩
  have hformat : spaced (formatFrom .start (lines (finish ls))) = spaced ls := by
    rw [spaced_formatFrom .start hagain hsettled hspaced, formatFrom_formatFrom]
  change finish (formatFrom .start (lines (finish ls))) = finish ls
  rw [finish_of_settled (isSettled_formatFrom _ (lines (finish ls))), hformat]
  exact (finish_of_settled hsettled).symm

/-! ## Letters -/

/-- A text without its white space. -/
def visible (cs : List Char) : List Char := cs.filter fun c => !isBlank c

theorem visible_append (cs ds : List Char) : visible (cs ++ ds) = visible cs ++ visible ds :=
  List.filter_append ..

theorem visible_blank {cs : List Char} (h : ∀ c ∈ cs, isBlank c = true) : visible cs = [] :=
  List.filter_eq_nil_iff.mpr fun c hc => by simp [h c hc]

theorem visible_trimChars (cs : List Char) : visible (trimChars cs) = visible cs := by
  obtain ⟨front, tail, hfront, htail, hcs⟩ := exists_trim isBlank cs
  have hvisible := congrArg visible hcs
  rw [visible_append, visible_append, visible_blank hfront, visible_blank htail, List.nil_append,
    List.append_nil] at hvisible
  exact hvisible.symm

/-- The cores have all that is visible. -/
theorem flatMap_visible_cores (ls : List (List Char)) :
    (cores ls).flatMap visible = ls.flatMap visible := by
  induction ls with
  | nil => rfl
  | cons l ls ih =>
    rw [List.flatMap_cons, ← visible_trimChars l]
    by_cases hcore : trimChars l = []
    · rw [cores_blank hcore, ih, hcore]
      rfl
    · rw [cores_core hcore, List.flatMap_cons, ih]

theorem visible_joinWith (ls : List (List Char)) :
    visible (joinWith ['\n'] ls) = ls.flatMap visible :=
  filter_joinWith (by decide) ls

/-- A text shows what its lines show. -/
theorem visible_eq (cs : List Char) : visible cs = (cores (lines cs)).flatMap visible := by
  have hjoin : joinWith ['\n'] (lines cs) = cs := joinWith_pieces '\n' cs
  rw [flatMap_visible_cores, ← visible_joinWith, hjoin]

theorem cased_visible {cs ds : List Char} (h : List.Forall₂ Cased cs ds) :
    List.Forall₂ Cased (visible cs) (visible ds) :=
  List.rel_filter (fun c d hcd => by simp only [faithful_cased.blank c d hcd]) h

/-- Formatting changes white space and the case of letters, and nothing else. -/
theorem upper_visible_format (cs : List Char) :
    (visible (format cs)).flatMap upperChar = (visible cs).flatMap upperChar := by
  rw [visible_eq (format cs), visible_eq cs]
  have hcores := cased_cores_format cs
  generalize cores (lines cs) = ls at hcores
  generalize cores (lines (format cs)) = ms at hcores
  induction hcores with
  | nil => rfl
  | cons hlm _ ih =>
    rw [List.flatMap_cons, List.flatMap_cons, List.flatMap_append, List.flatMap_append, ih,
      flatMap_upperChar_of_cased (cased_visible hlm)]

/-! ## Errors -/

/-- The words of the statement begin with one that starts a statement. -/
def startsStatement (ws : List (List Char)) : Bool :=
  startsWithOneOf statementWords ((ws.head?.getD []).flatMap upperChar)

/-- Which word a statement begins with is told by the first of its words. -/
theorem startsWithOneOf_eq {s : List Char} (hne : s ≠ []) (hs : trimChars s = s) :
    startsWithOneOf statementWords (s.flatMap upperChar) = startsStatement (words s) := by
  obtain ⟨c, cs, rfl⟩ := List.exists_cons_of_ne_nil hne
  have hc : isBlank c = false := by
    have htrimmed := (isTrimmed_trim (p := isBlank) (c :: cs)).first
    change ∀ x ∈ (trimChars (c :: cs)).head?, isBlank x = false at htrimmed
    rw [hs] at htrimmed
    exact htrimmed c rfl
  obtain ⟨w, rest, hsplit, hrest, hwords⟩ := exists_words_of_head hc cs
  have hspan : (spanWord ((c :: cs).flatMap upperChar)).1 =
      (spanWord ((c :: w).flatMap upperChar)).1 := by
    rw [hsplit, List.flatMap_append, spanWord, spanWord, List.takeWhile_append,
      takeWhile_isWord_of_blank hrest, List.append_nil]
    split
    · rename_i hall
      exact ((List.takeWhile_prefix isWord).eq_of_length hall).symm
    · rfl
  rw [startsStatement, hwords]
  exact congrArg (fun x => statementWords.contains (String.ofList x)) hspan

/-- The errors are counted by statements. -/
theorem length_errors (cs : List Char) :
    (errors cs).length = ((statements cs).map words).countP fun ws => !startsStatement ws := by
  rw [errors, List.length_map, ← List.countP_eq_length_filter, List.countP_map]
  refine List.countP_congr fun s hs => ?_
  obtain ⟨hmem, hne⟩ := List.mem_filter.mp hs
  obtain ⟨l, -, rfl⟩ := List.mem_map.mp hmem
  have htrim : trimChars (trimChars l) = trimChars l := trim_trim l
  rw [Function.comp_apply, startsWithOneOf_eq (by simpa using hne) htrim]

theorem startsStatement_of_cased {ws vs : List (List Char)}
    (h : List.Forall₂ (List.Forall₂ Cased) ws vs) : startsStatement vs = startsStatement ws := by
  cases h with
  | nil => rfl
  | cons hwv _ =>
    rw [startsStatement, startsStatement, List.head?_cons, List.head?_cons, Option.getD_some,
      Option.getD_some, flatMap_upperChar_of_cased hwv]

/-- Formatting changes no number of errors. -/
theorem length_errors_format (cs : List Char) :
    (errors (format cs)).length = (errors cs).length := by
  rw [length_errors, length_errors]
  have hwords := cased_words_format cs
  generalize (statements cs).map words = wss at hwords
  generalize (statements (format cs)).map words = vss at hwords
  induction hwords with
  | nil => rfl
  | cons hwv _ ih => rw [List.countP_cons, List.countP_cons, ih, startsStatement_of_cased hwv]

/-- **A formatted SQL text is settled**: formatting it again changes nothing.  It differs from the
text in white space and the case of letters only, and the check finds as many errors in it. -/
theorem format_settles (cs : List Char) :
    format (format cs) = format cs ∧
      upper (String.ofList (visible (format cs))) = upper (String.ofList (visible cs)) ∧
      (errors (format cs)).length = (errors cs).length := by
  refine ⟨format_twice cs, ?_, length_errors_format cs⟩
  rw [upper, upper, String.toList_ofList, String.toList_ofList, upper_visible_format]

end Scaffold.Format.Sql
