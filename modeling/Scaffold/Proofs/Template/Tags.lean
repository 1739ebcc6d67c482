import Scaffold.Proofs.Text.Names
import Scaffold.Proofs.Text.Trim
import Scaffold.Template.Node

/-!
# Proofs/Template/Tags — how a tag is written, and that it is read exactly so

A tag is written in more than one way, since blanks may stand beside what is between its braces.
`Spells` tells the texts of a tag, and the reader finds a tag at the start of a text exactly if the
text begins with one of them (`readTag_eq_some_iff`).  What follows a tag has no part in this, so a
text that is put together of tags, and of characters other than an opening brace, has the tokens
that it was made of (`tokensFrom_tag`, `tokensFrom_text`).
-/

namespace Scaffold.Template

open Text

/-! ## Paths -/

/-- A character of which paths are made. -/
def inPath (c : Char) : Bool := inName c || c == '.'

theorem inPath_of_blank {c : Char} (h : isBlank c = true) : inPath c = false := by
  rw [inPath, inName, isWord_of_blank h, Bool.false_or, Bool.or_eq_false_iff, beq_eq_false_iff_ne,
    beq_eq_false_iff_ne]
  constructor
  all_goals
    rintro rfl
    exact absurd h (by decide)

theorem inPath_of_startsName {c : Char} (h : startsName c = true) : inPath c = true := by
  rw [startsName, Bool.or_eq_true, Bool.or_eq_true, beq_iff_eq, beq_iff_eq] at h
  obtain (hletter | rfl) | rfl := h
  · have hplain : isPlainAlnum c = true := by rw [isPlainAlnum, hletter, Bool.true_or]
    rw [inPath, inName, isWord, if_pos (toNat_lt_of_isPlainAlnum hplain), hplain, Bool.true_or,
      Bool.true_or, Bool.true_or]
  · decide
  · decide

/-- The names of a path with points between them. -/
def pathText (path : List String) : List Char := joinWith ['.'] (path.map String.toList)

/-- The names make a path: none is empty, and the first begins as a name does. -/
structure IsPath (path : List String) : Prop where
  names : ∀ s ∈ path, s ≠ "" ∧ ∀ c ∈ s.toList, inName c = true
  starts : ∃ c cs, pathText path = c :: cs ∧ startsName c = true

instance (path : List String) : Decidable (IsPath path) :=
  decidable_of_iff ((∀ s ∈ path, s ≠ "" ∧ ∀ c ∈ s.toList, inName c = true) ∧
      (pathText path).head?.any startsName = true)
    ⟨fun ⟨hnames, hstarts⟩ => ⟨hnames, by
        cases hpath : pathText path with
        | nil => rw [hpath] at hstarts; cases hstarts
        | cons c cs => rw [hpath] at hstarts; exact ⟨c, cs, rfl, hstarts⟩⟩,
      fun ⟨hnames, c, cs, hpath, hstarts⟩ => ⟨hnames, by rw [hpath]; exact hstarts⟩⟩

section Path

variable {path : List String}

theorem IsPath.inPath_of_mem (h : IsPath path) : ∀ c ∈ pathText path, inPath c = true := by
  intro c hc
  obtain ⟨p, hp, hc⟩ | hc := mem_joinWith hc
  · obtain ⟨s, hs, rfl⟩ := List.mem_map.mp hp
    rw [inPath, (h.names s hs).2 c hc, Bool.true_or]
  · rw [List.mem_singleton.mp hc]
    rfl

/-- A path is what its text is cut into. -/
theorem IsPath.pieces_eq (h : IsPath path) : pieces '.' (pathText path) = path.map String.toList := by
  refine pieces_joinWith ?_ (List.forall_mem_map.mpr fun s hs hmem => ?_)
  · intro hnil
    obtain ⟨c, cs, hcons, -⟩ := h.starts
    rw [pathText, hnil] at hcons
    cases hcons
  · exact absurd ((h.names s hs).2 '.' hmem) (by decide)

/-- A path is read as far as its characters go. -/
theorem IsPath.readPath_append (h : IsPath path) {rest : List Char}
    (hrest : ∀ c ∈ rest.head?, inPath c = false) :
    readPath (pathText path ++ rest) = some (path, rest) := by
  have htake : (pathText path ++ rest).takeWhile inPath = pathText path := by
    rw [List.takeWhile_append_of_pos h.inPath_of_mem, takeWhile_of_head hrest, List.append_nil]
  have hdrop : (pathText path ++ rest).dropWhile inPath = rest := by
    rw [dropWhile_append_of_all h.inPath_of_mem, dropWhile_of_head hrest]
  have hhead : (pathText path ++ rest).head?.any startsName = true := by
    obtain ⟨c, cs, hcons, hstarts⟩ := h.starts
    rw [hcons]
    exact hstarts
  have hne : (path.map String.toList).all (· ≠ []) = true := by
    refine List.all_eq_true.mpr (List.forall_mem_map.mpr fun s hs => decide_eq_true fun hnil => ?_)
    exact (h.names s hs).1 (String.toList_inj.mp hnil)
  have hpath : (path.map String.toList).map String.ofList = path := by
    rw [List.map_map]
    exact List.map_id'' (fun s => String.ofList_toList) path
  change (if ((pathText path ++ rest).head?.any startsName &&
      (pieces '.' ((pathText path ++ rest).takeWhile inPath)).all (· ≠ [])) = true then
    some ((pieces '.' ((pathText path ++ rest).takeWhile inPath)).map String.ofList,
      (pathText path ++ rest).dropWhile inPath) else none) = _
  rw [htake, hdrop, h.pieces_eq, hhead, hne, hpath]
  rfl

/-- A path that was read stands at the front. -/
theorem of_readPath {cs rest : List Char} (h : readPath cs = some (path, rest)) :
    IsPath path ∧ cs = pathText path ++ rest := by
  change (if (cs.head?.any startsName &&
      (pieces '.' (cs.takeWhile inPath)).all (· ≠ [])) = true then
    some ((pieces '.' (cs.takeWhile inPath)).map String.ofList, cs.dropWhile inPath)
      else none) = _ at h
  split at h
  · rename_i hcondition
    obtain ⟨hstarts, hne⟩ := Bool.and_eq_true_iff.mp hcondition
    cases h
    have htext : pathText ((pieces '.' (cs.takeWhile inPath)).map String.ofList) =
        cs.takeWhile inPath := by
      have hid : String.toList ∘ String.ofList = id := funext fun _ => String.toList_ofList
      rw [pathText, List.map_map, hid, List.map_id, joinWith_pieces]
    refine ⟨⟨List.forall_mem_map.mpr fun p hp => ⟨fun hempty => ?_, fun c hc => ?_⟩, ?_⟩, ?_⟩
    · have hnil : p = [] := by rwa [← String.toList_inj, String.toList_ofList] at hempty
      exact of_decide_eq_true (List.all_eq_true.mp hne p hp) hnil
    · rw [String.toList_ofList] at hc
      have hin : inPath c = true := List.mem_takeWhile_imp (mem_of_mem_pieces hp hc)
      rw [inPath, Bool.or_eq_true, beq_iff_eq] at hin
      exact hin.resolve_right fun heq => notMem_of_mem_pieces hp (heq ▸ hc)
    · cases cs with
      | nil => cases hstarts
      | cons c cs =>
        have hc : startsName c = true := hstarts
        exact ⟨c, cs.takeWhile inPath,
          by rw [htext, List.takeWhile_cons_of_pos (inPath_of_startsName hc)], hc⟩
    · rw [htext, List.takeWhile_append_dropWhile]
  · cases h

end Path

/-! ## Blocks -/

theorem readBlock_append (b : Block) (rest : List Char) :
    readBlock (b.word.toList ++ rest) = some (b, rest) := by
  cases b <;> simp [Block.word, readBlock, afterWord?]

theorem eq_append_of_readBlock {cs rest : List Char} {b : Block}
    (h : readBlock cs = some (b, rest)) : cs = b.word.toList ++ rest := by
  rw [readBlock] at h
  split at h
  · rename_i hword
    cases h
    exact eq_append_of_afterWord? hword
  · obtain ⟨after, hword, heq⟩ := Option.map_eq_some_iff.mp h
    cases heq
    exact eq_append_of_afterWord? hword

/-! ## What stands between the braces -/

/-- The texts of a tag without its braces and the blanks beside them. -/
inductive SpellsInside : Tag → List Char → Prop
  | opening (b : Block) {path : List String} {gap : List Char} : IsPath path → gap ≠ [] →
    (∀ c ∈ gap, isBlank c = true) →
    SpellsInside (.opening b path) ('#' :: (b.word.toList ++ (gap ++ pathText path)))
  | closing (b : Block) : SpellsInside (.closing b) ('/' :: b.word.toList)
  | reference {path : List String} : IsPath path → SpellsInside (.reference path) (pathText path)

theorem isBlank_of_inPath {c : Char} (h : inPath c = true) : isBlank c = false := by
  cases hblank : isBlank c with
  | false => rfl
  | true => rw [inPath_of_blank hblank] at h; cases h

/-- What stands between the braces begins with no blank. -/
theorem SpellsInside.exists_cons {t : Tag} {cs : List Char} (h : SpellsInside t cs) :
    ∃ c ds, cs = c :: ds ∧ isBlank c = false := by
  cases h with
  | opening b => exact ⟨_, _, rfl, by decide⟩
  | closing b => exact ⟨_, _, rfl, by decide⟩
  | reference hpath =>
    obtain ⟨c, ds, hcons, hstarts⟩ := hpath.starts
    exact ⟨c, ds, hcons, isBlank_of_inPath (inPath_of_startsName hstarts)⟩

theorem trimLeft_append {front cs : List Char} (hfront : ∀ c ∈ front, isBlank c = true)
    (hcs : ∀ c ∈ cs.head?, isBlank c = false) : trimLeft (front ++ cs) = cs := by
  rw [trimLeft, dropWhile_append_of_all hfront, dropWhile_of_head hcs]

/-- The inside of a tag is read where it is spelled. -/
theorem SpellsInside.readInside_append {t : Tag} {cs : List Char} (h : SpellsInside t cs)
    {rest : List Char} (hrest : ∀ c ∈ rest.head?, inPath c = false) :
    readInside (cs ++ rest) = some (t, rest) := by
  cases h with
  | opening b hpath hne hgap =>
    rename_i path gap
    obtain ⟨c, ds, hcons, hstarts⟩ := hpath.starts
    have hblank : (gap ++ pathText path ++ rest).head?.any isBlank = true := by
      obtain ⟨x, xs, rfl⟩ := List.exists_cons_of_ne_nil hne
      exact hgap x List.mem_cons_self
    have htrim : trimLeft (gap ++ pathText path ++ rest) = pathText path ++ rest := by
      rw [List.append_assoc]
      refine trimLeft_append hgap fun x hx => ?_
      rw [hcons] at hx
      cases hx
      exact isBlank_of_inPath (inPath_of_startsName hstarts)
    rw [List.cons_append, List.append_assoc, readInside, readBlock_append]
    simp only [Option.bind_eq_bind, Option.bind_some, hblank, htrim, hpath.readPath_append hrest]
    rfl
  | closing b =>
    rw [List.cons_append, readInside, readBlock_append]
    rfl
  | reference hpath =>
    obtain ⟨c, ds, hcons, hstarts⟩ := hpath.starts
    have hread := hpath.readPath_append hrest
    have hhash : c ≠ '#' := by rintro rfl; exact absurd hstarts (by decide)
    have hslash : c ≠ '/' := by rintro rfl; exact absurd hstarts (by decide)
    rw [hcons, List.cons_append] at hread ⊢
    unfold readInside
    split
    · rename_i heq
      exact absurd (List.head_eq_of_cons_eq heq) hhash
    · rename_i heq
      exact absurd (List.head_eq_of_cons_eq heq) hslash
    · rw [hread]
      rfl

/-- An inside that was read is spelled at the front. -/
theorem of_readInside {cs rest : List Char} {t : Tag} (h : readInside cs = some (t, rest)) :
    ∃ inside, SpellsInside t inside ∧ cs = inside ++ rest := by
  unfold readInside at h
  split at h
  · obtain ⟨⟨b, afterBlock⟩, hblock, h⟩ := Option.bind_eq_some_iff.mp h
    obtain ⟨_, hguard, h⟩ := Option.bind_eq_some_iff.mp h
    obtain ⟨⟨path, afterPath⟩, hread, h⟩ := Option.bind_eq_some_iff.mp h
    cases h
    obtain ⟨hpath, hafter⟩ := of_readPath hread
    obtain ⟨gap, hblank, hsplit⟩ := exists_eq_append_dropWhile isBlank afterBlock
    change afterBlock = gap ++ trimLeft afterBlock at hsplit
    have hne : gap ≠ [] := by
      rintro rfl
      rw [List.nil_append, hafter] at hsplit
      obtain ⟨c, ds, hcons, hstarts⟩ := hpath.starts
      have hc := isBlank_of_inPath (inPath_of_startsName hstarts)
      simp [hsplit, hcons, hc] at hguard
    refine ⟨_, .opening b hpath hne hblank, ?_⟩
    rw [eq_append_of_readBlock hblock, hsplit, hafter]
    simp only [List.cons_append, List.append_assoc]
  · obtain ⟨⟨b, afterBlock⟩, hblock, h⟩ := Option.map_eq_some_iff.mp h
    cases h
    exact ⟨_, .closing b, by rw [eq_append_of_readBlock hblock, List.cons_append]⟩
  · obtain ⟨⟨path, afterPath⟩, hread, h⟩ := Option.map_eq_some_iff.mp h
    cases h
    obtain ⟨hpath, hcs⟩ := of_readPath hread
    exact ⟨_, .reference hpath, hcs⟩

/-! ## Tags -/

/-- The texts of a tag. -/
def Spells (t : Tag) (raw : List Char) : Prop :=
  ∃ before inside after, (∀ c ∈ before, isBlank c = true) ∧ SpellsInside t inside ∧
    (∀ c ∈ after, isBlank c = true) ∧
    raw = '{' :: '{' :: (before ++ (inside ++ (after ++ ['}', '}'])))

/-- A tag is read from one of its texts. -/
theorem exists_spells_of_readTag {cs rest : List Char} {t : Tag}
    (h : readTag cs = some (t, rest)) : ∃ raw, Spells t raw ∧ cs = raw ++ rest := by
  unfold readTag at h
  split at h
  · rename_i ds
    split at h
    · rename_i t' afterInside hread
      obtain ⟨final, hfinal, h⟩ := Option.map_eq_some_iff.mp h
      cases h
      obtain ⟨before, hbefore, hds⟩ := exists_eq_append_dropWhile isBlank ds
      obtain ⟨inside, hinside, htrim⟩ := of_readInside hread
      obtain ⟨after, hafter, hrest⟩ := exists_eq_append_dropWhile isBlank afterInside
      refine ⟨_, ⟨before, inside, after, hbefore, hinside, hafter, rfl⟩, ?_⟩
      change ds = before ++ trimLeft ds at hds
      change afterInside = after ++ trimLeft afterInside at hrest
      rw [hds, htrim, hrest, eq_append_of_afterWord? hfinal]
      simp only [List.cons_append, List.append_assoc]
    · cases h
  · cases h

/-- A tag is read where it is spelled. -/
theorem Spells.readTag_append {t : Tag} {raw : List Char} (h : Spells t raw) (rest : List Char) :
    readTag (raw ++ rest) = some (t, rest) := by
  obtain ⟨before, inside, after, hbefore, hinside, hafter, rfl⟩ := h
  have hclose : ∀ c ∈ (after ++ '}' :: '}' :: rest).head?, inPath c = false := by
    intro c hc
    cases after with
    | nil => cases hc; decide
    | cons x xs =>
      cases hc
      exact inPath_of_blank (hafter _ List.mem_cons_self)
  have htrim : trimLeft (before ++ (inside ++ (after ++ '}' :: '}' :: rest))) =
      inside ++ (after ++ '}' :: '}' :: rest) := by
    refine trimLeft_append hbefore fun c hc => ?_
    obtain ⟨x, xs, hcons, hx⟩ := hinside.exists_cons
    rw [hcons] at hc
    cases hc
    exact hx
  have hend : trimLeft (after ++ '}' :: '}' :: rest) = '}' :: '}' :: rest :=
    trimLeft_append hafter fun c hc => by cases hc; decide
  simp only [List.cons_append, List.append_assoc, List.nil_append, readTag, htrim,
    hinside.readInside_append hclose, hend, afterWord?]
  rfl

/-- **A tag is read from each of its texts, whatever follows, and from no other text.** -/
theorem readTag_eq_some_iff {cs rest : List Char} {t : Tag} :
    readTag cs = some (t, rest) ↔ ∃ raw, Spells t raw ∧ cs = raw ++ rest := by
  refine ⟨exists_spells_of_readTag, ?_⟩
  rintro ⟨raw, h, rfl⟩
  exact h.readTag_append rest

theorem Spells.exists_cons {t : Tag} {raw : List Char} (h : Spells t raw) :
    ∃ cs, raw = '{' :: cs := by
  obtain ⟨before, inside, after, -, -, -, rfl⟩ := h
  exact ⟨_, rfl⟩

/-! ## Tokens -/

/-- So it is a token there. -/
theorem tokensFrom_tag {t : Tag} {raw : List Char} (h : Spells t raw) (offset : Nat)
    (rest : List Char) : tokensFrom offset (raw ++ rest) =
      .tag t raw offset :: tokensFrom (offset + raw.length) rest := by
  have hread : readTag (raw ++ rest) = some (t, rest) := readTag_eq_some_iff.mpr ⟨raw, h, rfl⟩
  obtain ⟨cs, rfl⟩ := h.exists_cons
  rw [List.cons_append] at hread ⊢
  rw [tokensFrom, hread]
  simp [Nat.add_assoc]

/-- Other letters are added to the text that follows. -/
theorem tokensFrom_char {c : Char} (h : c ≠ '{') (offset : Nat) (cs : List Char) :
    tokensFrom offset (c :: cs) = Token.addChar c (tokensFrom (offset + 1) cs) := by
  have hread : readTag (c :: cs) = none := by
    unfold readTag
    split
    · rename_i heq
      exact absurd (List.head_eq_of_cons_eq heq) h
    · rfl
  rw [tokensFrom, hread]

/-- Characters that begin no tag go to the text that they stand in. -/
theorem tokensFrom_text {cs : List Char} (h : '{' ∉ cs) (offset : Nat) (rest : List Char) :
    tokensFrom offset (cs ++ rest) =
      cs.foldr Token.addChar (tokensFrom (offset + cs.length) rest) := by
  induction cs generalizing offset with
  | nil => rfl
  | cons c cs ih =>
    rw [List.mem_cons, not_or] at h
    obtain ⟨hc, hcs⟩ := h
    rw [List.cons_append, tokensFrom_char (Ne.symm hc), ih hcs, List.foldr_cons, List.length_cons,
      Nat.add_right_comm, Nat.add_assoc]

/-- In front of a tag they are a text by themselves. -/
theorem foldr_addChar {cs : List Char} (hne : cs ≠ []) {ts : List Token}
    (hts : ∀ ds rest, ts ≠ .text ds :: rest) : cs.foldr Token.addChar ts = .text cs :: ts := by
  induction cs with
  | nil => exact absurd rfl hne
  | cons c cs ih =>
    rw [List.foldr_cons]
    cases cs with
    | nil => exact Token.addChar.eq_2 c ts hts
    | cons d cs => rw [ih (List.cons_ne_nil d cs)]; rfl

/-- Every tag among the tokens of a text has one of its texts there. -/
theorem spells_of_mem_tokensFrom {offset : Nat} {cs : List Char} {t : Tag} {raw : List Char}
    {place : Nat} (h : Token.tag t raw place ∈ tokensFrom offset cs) : Spells t raw := by
  fun_induction tokensFrom offset cs with
  | case1 => cases h
  | case2 offset c cs t' rest hread n ih =>
    obtain heq | h := List.mem_cons.mp h
    · cases heq
      obtain ⟨raw, hraw, hcs⟩ := readTag_eq_some_iff.mp hread
      obtain ⟨ds, rfl⟩ := hraw.exists_cons
      obtain ⟨rfl, rfl⟩ := List.cons.inj hcs
      have hlength : n = ds.length := by simp [n]
      rwa [hlength, List.append_eq, List.take_left]
    · exact ih h
  | case3 offset c cs hread ih =>
    unfold Token.addChar at h
    split at h
    · rename_i heq
      obtain heq' | h := List.mem_cons.mp h
      · cases heq'
      · exact ih (heq ▸ List.mem_cons_of_mem _ h)
    · obtain heq | h := List.mem_cons.mp h
      · cases heq
      · exact ih h

end Scaffold.Template
