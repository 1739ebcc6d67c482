import Scaffold.Proofs.Format.Spacing
import Scaffold.Proofs.Format.Statements
import Scaffold.Proofs.Outcome

/-!
# Proofs/Format/Keywords — formatting SQL keeps its statements

The formatter of SQL writes keywords in capitals and gives every line another margin.  Character by
character a line stays the same or becomes the capital of a letter (`Cased`), and such a change is
nothing to the splitter (`faithful_cased`).  So a formatted text has the statements of the text,
word by word but for their case (`cased_words_format`), and is accepted if the text is
(`Announces.isAccepted`).
-/

namespace Scaffold.Format.Sql

open Text

/-! ## The case of keywords -/

/-- The second character is the first one, or the capital of a letter that keywords are made of. -/
def Cased (c d : Char) : Prop := d = c ∨ isUpperLetter (foldLetter c) = true ∧ upperChar c = [d]

theorem cased_refl (cs : List Char) : List.Forall₂ Cased cs cs :=
  List.forall₂_same.mpr fun _ _ => .inl rfl

/-- The letters that have an ASCII capital for this purpose. -/
theorem mem_of_isUpperLetter_foldLetter {c : Char} (h : isUpperLetter (foldLetter c) = true) :
    isPlainLetter c = true ∨ c ∈ ['ſ', 'ı', 'İ', '\u212a'] := by
  unfold foldLetter at h
  split at h
  · subst_vars; exact .inr (by decide)
  · split at h
    · rename_i hi
      simp only [Bool.or_eq_true, decide_eq_true_eq] at hi
      obtain rfl | rfl := hi <;> exact .inr (by decide)
    · split at h
      · subst_vars; exact .inr (by decide)
      · left
        unfold plainUpper at h
        split at h
        · rename_i hlower
          rw [isPlainLetter, hlower, Bool.or_true]
        · rw [isPlainLetter, h, Bool.true_or]

/-- The letters of keywords are neither white space nor signs, in either case. -/
def IsInert (c : Char) : Prop := isBlank c = false ∧ c ∉ signs

theorem isInert_of_isPlainAlnum {c : Char} (h : isPlainAlnum c = true) : IsInert c := by
  refine ⟨isBlank_eq_false h, fun hmem => ?_⟩
  have hsigns : ∀ x ∈ signs, isPlainAlnum x = false := by decide
  exact Bool.noConfusion (h.symm.trans (hsigns c hmem))

/-- Letters in another case are inert in both. -/
theorem Cased.cases {c d : Char} (h : Cased c d) : d = c ∨ IsInert c ∧ IsInert d := by
  obtain h | ⟨hfold, hupper⟩ := h
  · exact .inl h
  · refine .inr ?_
    obtain hletter | hmem := mem_of_isUpperLetter_foldLetter hfold
    · have hplain : isPlainAlnum c = true := by rw [isPlainAlnum, hletter, Bool.true_or]
      rw [upperChar_of_isPlainAlnum hplain] at hupper
      cases hupper
      exact ⟨isInert_of_isPlainAlnum hplain,
        isInert_of_isPlainAlnum (isPlainAlnum_plainUpper hplain)⟩
    · have hspecial : ∀ x ∈ ['ſ', 'ı', 'İ', '\u212a'],
          (isBlank x = false ∧ x ∉ signs) ∧ ∀ y ∈ upperChar x, isBlank y = false ∧ y ∉ signs := by
        decide
      obtain ⟨hc, hd⟩ := hspecial c hmem
      exact ⟨hc, hd d (by rw [hupper]; exact List.mem_singleton_self d)⟩

/-- Letter case does not matter to the scanner. -/
theorem faithful_cased : Faithful Cased where
  blank c d h := by
    obtain rfl | ⟨hc, hd⟩ := h.cases
    · rfl
    · rw [hc.1, hd.1]
  sign c d h x hx := by
    obtain rfl | ⟨hc, hd⟩ := h.cases
    · exact Iff.rfl
    · exact iff_of_false (fun heq => hc.2 (heq ▸ hx)) fun heq => hd.2 (heq ▸ hx)

/-- A word whose letters are those of keywords has one capital for each. -/
theorem cased_upperChar {w : List Char} (h : ∀ c ∈ w, isUpperLetter (foldLetter c) = true) :
    List.Forall₂ Cased w (w.flatMap upperChar) := by
  induction w with
  | nil => exact .nil
  | cons c w ih =>
    obtain ⟨hc, hw⟩ := List.forall_mem_cons.mp h
    obtain ⟨d, hd⟩ : ∃ d, upperChar c = [d] := by
      obtain hletter | hmem := mem_of_isUpperLetter_foldLetter hc
      · exact ⟨_, upperChar_of_isPlainAlnum (by rw [isPlainAlnum, hletter, Bool.true_or])⟩
      · have hspecial : ∀ x ∈ ['ſ', 'ı', 'İ', '\u212a'], (upperChar x).length = 1 := by decide
        exact List.length_eq_one_iff.mp (hspecial c hmem)
    rw [List.flatMap_cons, hd]
    exact .cons (.inr ⟨hc, hd⟩) (ih hw)

/-! ## The parts of a line -/

def Part.chars : Part → List Char
  | code cs => cs
  | literal cs => cs

theorem closeLiteral?_cons {c : Char} (h : c ≠ '\'') (cs : List Char) :
    closeLiteral? (c :: cs) = (closeLiteral? cs).map fun (body, rest) => (c :: body, rest) :=
  closeLiteral?.eq_4 c cs (fun _ hc _ => h hc) h

/-- A quote closes a literal unless another one follows it. -/
theorem closeLiteral?_quote {cs : List Char} (h : cs.head? ≠ some '\'') :
    closeLiteral? ('\'' :: cs) = some (['\''], cs) := by
  refine closeLiteral?.eq_3 cs ?_
  rintro ds rfl
  exact h rfl

/-- A literal behind its first quote, to the quote that closes it: in it quotes stand two by two. -/
inductive Closing : List Char → Prop
  | quote : Closing ['\'']
  | quotes {body : List Char} : Closing body → Closing ('\'' :: '\'' :: body)
  | char {c : Char} {body : List Char} : c ≠ '\'' → Closing body → Closing (c :: body)

/-- A literal is closed by its last quote. -/
theorem closing_of_closeLiteral? {cs body rest : List Char}
    (h : closeLiteral? cs = some (body, rest)) : cs = body ++ rest ∧ Closing body := by
  fun_induction closeLiteral? cs generalizing body rest with
  | case1 => cases h
  | case2 cs b r hr ih =>
    cases h
    obtain ⟨rfl, hb⟩ := ih hr
    exact ⟨rfl, .quotes hb⟩
  | case3 cs hr ih =>
    cases h
    exact ⟨rfl, .quote⟩
  | case4 cs hcs =>
    cases h
    exact ⟨rfl, .quote⟩
  | case5 c cs _ hc ih =>
    obtain ⟨⟨b, r⟩, hr, heq⟩ := Option.map_eq_some_iff.mp h
    cases heq
    obtain ⟨rfl, hb⟩ := ih hr
    exact ⟨rfl, .char hc hb⟩

theorem eq_append_of_closeLiteral? {cs body rest : List Char}
    (h : closeLiteral? cs = some (body, rest)) : cs = body ++ rest :=
  (closing_of_closeLiteral? h).1

theorem chars_addCode (c : Char) (ps : List Part) :
    (Part.addCode c ps).flatMap Part.chars = c :: ps.flatMap Part.chars := by
  unfold Part.addCode
  split <;> rfl

/-- The parts of a line are the line. -/
theorem chars_parts (cs : List Char) : (parts cs).flatMap Part.chars = cs := by
  fun_induction parts cs with
  | case1 => rfl
  | case2 cs body rest h _ ih =>
    rw [List.flatMap_cons, ih, eq_append_of_closeLiteral? h]
    rfl
  | case3 cs h ih => rw [chars_addCode, ih]
  | case4 c cs h ih => rw [chars_addCode, ih]

/-! ## The formatter -/

theorem isUpperLetter_of_mem_keywords {k : String} (hk : k ∈ keywords) :
    ∀ c ∈ k.toList, isUpperLetter c = true := by
  have hall : ∀ k ∈ keywords, k.toList.all isUpperLetter = true := by decide +kernel
  exact List.all_eq_true.mp (hall k hk)

/-- Capitals for the first characters are another case. -/
theorem cased_capitalize (n : Nat) (cs : List Char) : List.Forall₂ Cased cs (capitalize n cs) := by
  induction n generalizing cs with
  | zero => exact cased_refl cs
  | succ n ih =>
    have hspan : (spanWord cs).1 ++ (spanWord cs).2 = cs := List.takeWhile_append_dropWhile
    rw [capitalize]
    split
    · rename_i heq
      rw [heq] at hspan
      rw [← hspan]
      exact .nil
    · rename_i c rest heq
      rw [heq] at hspan
      rw [← hspan]
      exact .cons (.inl rfl) (ih rest)
    · rename_i w rest _ _ heq
      rw [heq] at hspan
      rw [← hspan]
      refine List.rel_append ?_ (ih rest)
      dsimp only
      split
      · rename_i hkeyword
        refine cased_upperChar fun c hc => ?_
        refine isUpperLetter_of_mem_keywords (List.contains_iff_mem.mp hkeyword) _ ?_
        rw [String.toList_ofList]
        exact List.mem_map_of_mem hc
      · exact cased_refl w

theorem chars_restOf (ps : List Part) : upperKeywords.restOf ps = ps.flatMap Part.chars := by
  induction ps with
  | nil => rfl
  | cons p ps ih => cases p <;> rw [upperKeywords.restOf, ih] <;> rfl

/-- Keywords in capitals are another case. -/
theorem cased_upperKeywords (cs : List Char) : List.Forall₂ Cased cs (upperKeywords cs) := by
  have hgo (ps : List Part) : List.Forall₂ Cased (ps.flatMap Part.chars) (upperKeywords.go ps) := by
    induction ps with
    | nil => exact .nil
    | cons p ps ih =>
      rw [List.flatMap_cons]
      cases p with
      | literal l =>
        rw [upperKeywords.go]
        exact List.rel_append (cased_refl l) ih
      | code l =>
        rw [upperKeywords.go]
        split
        · exact List.rel_append (cased_capitalize _ l) ih
        · rename_i code comment hcut
          have hl : l = code ++ '-' :: '-' :: comment := by
            rw [eq_append_of_cutAt? hcut]
            simp
          rw [chars_restOf, List.append_assoc]
          change List.Forall₂ Cased (l ++ _) _
          rw [hl, List.append_assoc]
          exact List.rel_append (cased_capitalize _ code) (cased_refl _)
  have hparts := hgo (parts cs)
  rwa [chars_parts] at hparts

/-- A formatted line is the line in another margin, with keywords in capitals. -/
theorem cased_formatLine (s : State) (raw : List Char) :
    List.Forall₂ Cased (trimChars raw) (trimChars (formatLine s raw).1) := by
  have hmargin (n : Nat) (text : List Char) : trimChars (unit n ++ text) = trimChars text := by
    have hblank : ∀ c ∈ unit n, isBlank c = true := fun c hc => by
      rw [(List.mem_replicate.mp hc).2]
      decide
    have htrim := trim_append hblank (List.forall_mem_nil _) text
    rwa [List.append_nil] at htrim
  have htrim : trimChars (trimChars raw) = trimChars raw := trim_trim raw
  have hupper := forall₂_trimChars faithful_cased.blank (cased_upperKeywords (trimChars raw))
  rw [htrim] at hupper
  rw [formatLine]
  split
  · rename_i hempty
    rw [List.isEmpty_iff.mp hempty]
    exact .nil
  · split
    · rw [hmargin, htrim]
      exact cased_refl _
    · rw [hmargin]
      exact hupper

/-- A formatted line is one line. -/
theorem lineFeed_notMem_formatLine (s : State) {raw : List Char} (h : '\n' ∉ raw) :
    '\n' ∉ (formatLine s raw).1 := by
  intro hmem
  have hunit (n : Nat) : '\n' ∉ unit n := fun hn => absurd (List.mem_replicate.mp hn).2 (by decide)
  have htrim : '\n' ∉ trimChars raw := fun hn =>
    h ((List.dropWhile_sublist _).subset ((List.rdropWhile_prefix isBlank _).subset hn))
  rw [formatLine] at hmem
  split at hmem
  · exact List.not_mem_nil hmem
  · split at hmem
    · exact (List.mem_append.mp hmem).elim (hunit _) htrim
    · obtain hn | hn := List.mem_append.mp hmem
      · exact hunit _ hn
      · obtain ⟨c, hc, hcased⟩ := (cased_upperKeywords (trimChars raw)).exists_of_mem_right hn
        rw [(faithful_cased.sign c '\n' hcased '\n' (by decide)).mpr rfl] at hc
        exact htrim hc

/-- The cores of formatted lines differ in letter case only. -/
theorem cased_formatFrom (s : State) (ls : List (List Char)) :
    List.Forall₂ (List.Forall₂ Cased) (cores ls) (cores (formatFrom s ls)) := by
  have hlines : List.Forall₂ (List.Forall₂ Cased) (ls.map trimChars)
      ((formatFrom s ls).map trimChars) := by
    induction ls generalizing s with
    | nil => exact .nil
    | cons l ls ih => exact .cons (cased_formatLine s l) (ih _)
  refine List.rel_filter (fun l m hlm => ?_) hlines
  cases hlm with
  | nil => rfl
  | cons => rfl

theorem lineFeed_notMem_formatFrom (s : State) {ls : List (List Char)} (h : ∀ l ∈ ls, '\n' ∉ l) :
    ∀ l ∈ formatFrom s ls, '\n' ∉ l := by
  induction ls generalizing s with
  | nil => exact List.forall_mem_nil _
  | cons l ls ih =>
    obtain ⟨hl, hls⟩ := List.forall_mem_cons.mp h
    exact List.forall_mem_cons.mpr ⟨lineFeed_notMem_formatLine s hl, ih _ hls⟩

/-- The lines of a text that are not blank are formatted one by one. -/
theorem cased_cores_format (cs : List Char) :
    List.Forall₂ (List.Forall₂ Cased) (cores (lines cs)) (cores (lines (format cs))) := by
  have hlines : ∀ l ∈ lines cs, '\n' ∉ l := fun _ hl => notMem_of_mem_pieces hl
  rw [format, cores_lines_finish (lineFeed_notMem_formatFrom _ hlines)]
  exact cased_formatFrom _ _

/-- Texts that differ in letter case line by line do so as a whole. -/
theorem cased_joinWith {ls ms : List (List Char)} (h : List.Forall₂ (List.Forall₂ Cased) ls ms) :
    List.Forall₂ Cased (joinWith ['\n'] ls) (joinWith ['\n'] ms) := by
  induction h with
  | nil => exact .nil
  | cons hl hls ih =>
    cases hls with
    | nil => exact hl
    | cons => exact List.rel_append (List.rel_append hl (cased_refl _)) ih

theorem words_statements_cores (cs : List Char) :
    (statements cs).map words = (statements (joinWith ['\n'] (cores (lines cs)))).map words := by
  have hspaced := spacedAlike_cores (lines cs)
  have hjoin : joinWith ['\n'] (lines cs) = cs := joinWith_pieces '\n' cs
  rw [hjoin] at hspaced
  have hwords := forall₂_words_statements faithful_eq hspaced
  simpa only [List.forall₂_eq_eq_eq] using hwords

/-- **Formatting keeps every statement, word by word**, but for the case of keywords. -/
theorem cased_words_format (cs : List Char) :
    List.Forall₂ (List.Forall₂ (List.Forall₂ Cased)) ((statements cs).map words)
      ((statements (format cs)).map words) := by
  rw [words_statements_cores cs, words_statements_cores (format cs)]
  exact forall₂_words_statements faithful_cased
    (.of_forall₂ (cased_joinWith (cased_cores_format cs)))

/-! ## The words that statements begin with -/

/-- The statement begins with these words, whatever the case of ASCII letters. -/
def IsHeaded (head : List String) (statement : List Char) : Prop :=
  head.map (fun w => w.toList.map plainUpper) <+: (words statement).map (·.map plainUpper)

/-- The statements of the text begin with these words one by one, and none is an error. -/
structure IsAccepted (heads : List (List String)) (cs : List Char) : Prop where
  headed : List.Forall₂ IsHeaded heads (statements cs)
  noError : errors cs = []

/-- A text is accepted if each of its statements has a heading that begins with a statement word. -/
theorem isAccepted_of_headed {heads : List (List String)} {cs : List Char}
    (hstart : ∀ head ∈ heads, ∃ k ∈ statementWords, k ∈ head.head?)
    (h : List.Forall₂ IsHeaded heads (statements cs)) : IsAccepted heads cs := by
  refine ⟨h, errors_eq_nil ?_⟩
  refine List.forall_mem_map.mpr fun s hs => ?_
  obtain ⟨head, hhead, t, ht⟩ := h.exists_of_mem_right hs
  obtain ⟨k, hk, hfirst⟩ := hstart head hhead
  obtain ⟨ks, rfl⟩ := List.head?_eq_some_iff.mp hfirst
  obtain ⟨w, ws, hwords⟩ : ∃ w ws, words s = w :: ws := by
    refine List.exists_cons_of_ne_nil fun hnil => ?_
    rw [hnil] at ht
    cases ht
  rw [hwords] at ht
  have hcapital : ∀ k ∈ statementWords, k.toList.map plainUpper = k.toList := by decide
  exact ⟨w, ws, k, hwords, hk, (List.cons.inj ht).1.symm.trans (hcapital k hk)⟩

/-- In ASCII, texts in different cases have one upper case. -/
theorem plainUpper_of_cased {c d : Char} (h : Cased c d) (hc : c.toNat < 128) :
    plainUpper d = plainUpper c := by
  obtain rfl | ⟨-, hupper⟩ := h
  · rfl
  · have hd : d = plainUpper c := by
      rw [upperChar, if_pos hc] at hupper
      exact (List.singleton_inj.mp hupper).symm
    have hall : ∀ n < 128, plainUpper (plainUpper (Char.ofNat n)) = plainUpper (Char.ofNat n) := by
      decide
    rw [hd, ← Char.ofNat_toNat c]
    exact hall c.toNat hc

theorem map_plainUpper_of_cased {w v : List Char} (h : List.Forall₂ Cased w v)
    (hw : ∀ c ∈ w, c.toNat < 128) : v.map plainUpper = w.map plainUpper := by
  induction h with
  | nil => rfl
  | cons hcd _ ih =>
    obtain ⟨hc, hw⟩ := List.forall_mem_cons.mp hw
    rw [List.map_cons, List.map_cons, ih hw, plainUpper_of_cased hcd hc]

/-- Words of ASCII characters in front stay in front, whatever becomes of their case. -/
theorem prefix_of_cased {head : List String} {ws vs : List (List Char)}
    (hascii : ∀ w ∈ head, ∀ c ∈ w.toList, c.toNat < 128) (hhead : head.map String.toList <+: ws)
    (h : List.Forall₂ (List.Forall₂ Cased) ws vs) :
    head.map (fun w => w.toList.map plainUpper) <+: vs.map (·.map plainUpper) := by
  induction head generalizing ws vs with
  | nil => exact List.nil_prefix
  | cons w head ih =>
    obtain ⟨hw, hascii⟩ := List.forall_mem_cons.mp hascii
    obtain ⟨rest, rfl⟩ := hhead
    cases h with
    | cons hwv h =>
      rw [List.map_cons, List.map_cons, map_plainUpper_of_cased hwv hw]
      exact List.cons_prefix_cons.mpr ⟨rfl, ih hascii (List.prefix_append _ _) h⟩

/-- Headings are recognized in any letter case. -/
theorem forall₂_isHeaded {heads : List (List String)} {wss : List (List (List Char))}
    {ts : List (List Char)} (hascii : ∀ head ∈ heads, ∀ w ∈ head, ∀ c ∈ w.toList, c.toNat < 128)
    (hheads : List.Forall₂ (fun head ws => head.map String.toList <+: ws) heads wss)
    (hcased : List.Forall₂ (List.Forall₂ (List.Forall₂ Cased)) wss (ts.map words)) :
    List.Forall₂ IsHeaded heads ts := by
  induction hheads generalizing ts with
  | nil =>
    rw [List.forall₂_nil_left_iff, List.map_eq_nil_iff] at hcased
    exact hcased ▸ .nil
  | cons hhead _ ih =>
    obtain ⟨hfirst, hrest⟩ := List.forall_mem_cons.mp hascii
    cases ts with
    | nil => cases hcased
    | cons t ts =>
      obtain ⟨ht, hcased⟩ := List.forall₂_cons.mp hcased
      exact .cons (prefix_of_cased hfirst hhead ht) (ih hrest hcased)

/-- **What a text announces it has, before formatting and after it**, if the words are of ASCII
characters and the first starts a statement. -/
theorem Announces.isAccepted {cs : List Char} {heads : List (List String)} (h : Announces cs heads)
    (hstart : ∀ head ∈ heads, ∃ k ∈ statementWords, k ∈ head.head?)
    (hascii : ∀ head ∈ heads, ∀ w ∈ head, ∀ c ∈ w.toList, c.toNat < 128) :
    IsAccepted heads cs ∧ IsAccepted heads (format cs) := by
  have hsame : List.Forall₂ (List.Forall₂ (List.Forall₂ Cased)) ((statements cs).map words)
      ((statements cs).map words) :=
    List.forall₂_same.mpr fun _ _ => List.forall₂_same.mpr fun w _ => cased_refl w
  have hheads := h.forall₂_statements
  exact ⟨isAccepted_of_headed hstart (forall₂_isHeaded hascii hheads hsame),
    isAccepted_of_headed hstart (forall₂_isHeaded hascii hheads (cased_words_format cs))⟩

end Scaffold.Format.Sql
