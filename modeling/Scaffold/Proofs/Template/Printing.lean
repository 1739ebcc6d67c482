import Scaffold.Proofs.Template.Nesting
import Scaffold.Proofs.Template.Tags

/-!
# Proofs/Template/Printing — parsing undoes printing

A tree is printed from its names, its paths and its texts alone, with every tag in its shortest
spelling (`Node.printAll`).  A tree that could have come from such a text is read back from it
(`parse_printAll`): its printed tags are found where they were put, whatever abuts them, and every
node is put back into the block that it was printed in.
-/

namespace Scaffold.Template

open Text

/-! ## Printing -/

/-- A tag in its shortest spelling. -/
def Tag.print : Tag → String
  | opening b path => r"{{#" ++ b.word ++ " " ++ String.ofList (pathText path) ++ r"}}"
  | closing b => r"{{/" ++ b.word ++ r"}}"
  | reference path => r"{{" ++ String.ofList (pathText path) ++ r"}}"

theorem Tag.spells_print {t : Tag} {inside : List Char} (h : SpellsInside t inside)
    (hprint : t.print.toList = '{' :: '{' :: (inside ++ ['}', '}'])) : Spells t t.print.toList :=
  ⟨[], inside, [], List.forall_mem_nil _, h, List.forall_mem_nil _, hprint⟩

theorem spells_print_opening (b : Block) {path : List String} (h : IsPath path) :
    Spells (.opening b path) (Tag.opening b path).print.toList :=
  Tag.spells_print (.opening b h (List.cons_ne_nil ' ' []) (by decide)) (by simp [Tag.print])

theorem spells_print_closing (b : Block) : Spells (.closing b) (Tag.closing b).print.toList :=
  Tag.spells_print (.closing b) (by simp [Tag.print])

theorem spells_print_reference {path : List String} (h : IsPath path) :
    Spells (.reference path) (Tag.reference path).print.toList :=
  Tag.spells_print (.reference h) (by simp [Tag.print])

theorem tokens_print_reference {path : List String} (h : IsPath path) :
    tokens (Tag.reference path).print.toList =
      [.tag (.reference path) (Tag.reference path).print.toList 0] := by
  have htokens := tokensFrom_tag (spells_print_reference h) 0 []
  rwa [List.append_nil, tokensFrom] at htokens

/-- A printed reference alone is a template. -/
theorem parse_print_reference {path : List String} (h : IsPath path) :
    Node.parse (Tag.reference path).print =
      .ok [Node.reference path (Tag.reference path).print] := by
  rw [Node.parse, tokens_print_reference h, Node.ofTokens, Node.ofTokens, String.ofList_toList]
  rfl

namespace Node

mutual

/-- The text of a node, with each tag in its shortest spelling. -/
def print : Node → String
  | text s => s
  | name n _ => (Tag.reference [n]).print
  | path parts _ => (Tag.reference parts).print
  | ifBlock parts _ body _ =>
    (Tag.opening .ifBlock parts).print ++ printAll body ++ (Tag.closing .ifBlock).print
  | eachBlock parts _ body _ =>
    (Tag.opening .eachBlock parts).print ++ printAll body ++ (Tag.closing .eachBlock).print

def printAll : List Node → String
  | [] => ""
  | n :: ns => print n ++ printAll ns

end

/-- The characters of a block are those of its tags in their shortest spelling. -/
structure IsPrinted (b : Block) (parts : List String) (opener closer : String) : Prop where
  path : IsPath parts
  opener_eq : opener = (Tag.opening b parts).print
  closer_eq : closer = (Tag.closing b).print

mutual

/-- The node could have been read from a text whose tags are in their shortest spelling. -/
def IsCanonical : Node → Prop
  | text s => '{' ∉ s.toList
  | name n raw => IsPath [n] ∧ raw = (Tag.reference [n]).print
  | path parts raw => IsPath parts ∧ 2 ≤ parts.length ∧ raw = (Tag.reference parts).print
  | ifBlock parts opener body closer => IsPrinted .ifBlock parts opener closer ∧ AreCanonical body
  | eachBlock parts opener body closer =>
    IsPrinted .eachBlock parts opener closer ∧ AreCanonical body

def AreCanonical : List Node → Prop
  | [] => True
  | n :: ns => IsCanonical n ∧ AreCanonical ns

end

mutual

/-- A canonical node is printed as its source. -/
theorem print_eq_source : ∀ {n : Node}, n.IsCanonical → n.print = n.source
  | .text _, _ => by rw [print, source]
  | .name _ _, h => by rw [IsCanonical] at h; rw [print, source, h.2]
  | .path _ _, h => by rw [IsCanonical] at h; rw [print, source, h.2.2]
  | .ifBlock _ _ _ _, h => by
    rw [IsCanonical] at h
    rw [print, source, printAll_eq_sources h.2, h.1.opener_eq, h.1.closer_eq]
  | .eachBlock _ _ _ _, h => by
    rw [IsCanonical] at h
    rw [print, source, printAll_eq_sources h.2, h.1.opener_eq, h.1.closer_eq]

/-- Such a tree is printed as the text that it keeps. -/
theorem printAll_eq_sources : ∀ {ns : List Node}, AreCanonical ns → printAll ns = sources ns
  | [], _ => rfl
  | _ :: _, h => by
    rw [AreCanonical] at h
    rw [printAll, sources, print_eq_source h.1, printAll_eq_sources h.2]

end

end Node

/-! ## Finding the pieces again -/

/-- The characters of a piece are a spelling of its tag, or no tag begins among them. -/
def Piece.Written : Piece → Prop
  | (some t, cs) => Spells t cs
  | (none, cs) => '{' ∉ cs

/-- **The tokens of a text that was put together of written pieces are these pieces.** -/
theorem piece_tokensFrom {ps : List Piece} (hwritten : ∀ p ∈ ps, p.Written)
    (hseparated : Node.Separated ps) (offset : Nat) :
    (tokensFrom offset (ps.flatMap (·.2))).map Token.piece = ps := by
  induction ps generalizing offset with
  | nil => rw [List.flatMap_nil, tokensFrom, List.map_nil]
  | cons p ps ih =>
    obtain ⟨hp, hps⟩ := List.forall_mem_cons.mp hwritten
    have ih := fun offset => ih hps (hseparated.of_infix (List.suffix_cons p ps).isInfix) offset
    rw [List.flatMap_cons]
    obtain ⟨_ | t, cs⟩ := p
    · have hne : cs ≠ [] := hseparated.nonempty _ List.mem_cons_self rfl
      have hnext : ∀ ds rest, tokensFrom (offset + cs.length) (ps.flatMap (·.2)) ≠
          .text ds :: rest := by
        -- the next piece is a tag, and it is the next token
        intro ds rest heq
        have hmap := ih (offset + cs.length)
        rw [heq] at hmap
        rw [← hmap] at hseparated
        simpa [Token.piece] using (List.isChain_cons_cons.mp hseparated.apart).1
      rw [tokensFrom_text hp, foldr_addChar hne hnext, List.map_cons, ih]
      rfl
    · rw [tokensFrom_tag hp, List.map_cons, ih]
      rfl

namespace Node

/-! ## The pieces of a tree -/

theorem IsPrinted.written_around {b : Block} {parts : List String} {opener closer : String}
    (h : IsPrinted b parts opener closer) {body : List Piece} (hbody : ∀ p ∈ body, p.Written) :
    ∀ p ∈ (some (.opening b parts), opener.toList) ::
      (body ++ [(some (.closing b), closer.toList)]), Piece.Written p := by
  obtain ⟨hpath, rfl, rfl⟩ := h
  refine List.forall_mem_cons.mpr ⟨spells_print_opening b hpath,
    List.forall_mem_append.mpr ⟨hbody, List.forall_mem_singleton.mpr (spells_print_closing b)⟩⟩

mutual

/-- Its pieces are spelled as they are written. -/
theorem written_pieces : ∀ {n : Node}, n.IsCanonical → ∀ p ∈ n.pieces, p.Written
  | .text _, h => by
    rw [IsCanonical] at h
    rw [pieces]
    exact List.forall_mem_singleton.mpr h
  | .name _ _, h => by
    rw [IsCanonical] at h
    rw [pieces, h.2]
    exact List.forall_mem_singleton.mpr (spells_print_reference h.1)
  | .path _ _, h => by
    rw [IsCanonical] at h
    rw [pieces, h.2.2]
    exact List.forall_mem_singleton.mpr (spells_print_reference h.1)
  | .ifBlock _ _ _ _, h => by
    rw [IsCanonical] at h
    rw [pieces]
    exact h.1.written_around (written_allPieces h.2)
  | .eachBlock _ _ _ _, h => by
    rw [IsCanonical] at h
    rw [pieces]
    exact h.1.written_around (written_allPieces h.2)

/-- So are those of many nodes. -/
theorem written_allPieces : ∀ {ns : List Node}, AreCanonical ns → ∀ p ∈ allPieces ns, p.Written
  | [], _ => List.forall_mem_nil _
  | _ :: _, h => by
    rw [AreCanonical] at h
    rw [allPieces]
    exact List.forall_mem_append.mpr ⟨written_pieces h.1, written_allPieces h.2⟩

end

theorem Separated.append {ps qs : List Piece} (hp : Separated ps) (hq : Separated qs)
    (h : ∀ p ∈ ps.getLast?, ∀ q ∈ qs.head?, p.1.isSome ∨ q.1.isSome) : Separated (ps ++ qs) where
  nonempty := List.forall_mem_append.mpr ⟨hp.nonempty, hq.nonempty⟩
  apart := List.isChain_append.mpr ⟨hp.apart, hq.apart, h⟩

theorem separated_tag (t : Tag) (raw : List Char) : Separated [(some t, raw)] :=
  Separated.tag_cons ⟨by simp, by simp⟩

theorem separated_around {b : Block} {parts : List String} {opener closer : List Char}
    {body : List Piece} (h : Separated body) :
    Separated ((some (.opening b parts), opener) :: (body ++ [(some (.closing b), closer)])) :=
  (h.append (separated_tag _ _) fun _ _ _ hq => by cases hq; exact .inr rfl).tag_cons

/-- The pieces of what is no text begin and end with a tag. -/
theorem isSome_of_not_isText {n : Node} (h : ¬n.isText) :
    (∀ p ∈ n.pieces.head?, p.1.isSome) ∧ ∀ p ∈ n.pieces.getLast?, p.1.isSome := by
  cases n with
  | text s => exact absurd rfl h
  | name | path => rw [pieces]; simp
  | ifBlock | eachBlock => rw [pieces, List.getLast?_cons]; simp

theorem pieces_ne_nil (n : Node) : n.pieces ≠ [] := by
  cases n <;> rw [pieces] <;> exact List.cons_ne_nil _ _

theorem head?_allPieces_cons (n : Node) (ns : List Node) :
    (allPieces (n :: ns)).head? = n.pieces.head? := by
  obtain ⟨p, ps, hps⟩ := List.exists_cons_of_ne_nil n.pieces_ne_nil
  rw [allPieces, hps]
  rfl

mutual

/-- A tidy node has no two texts side by side. -/
theorem separated_pieces : ∀ {n : Node}, n.IsTidy → Separated n.pieces
  | .text s, h => by
    rw [IsTidy] at h
    rw [pieces]
    exact ⟨List.forall_mem_singleton.mpr fun _ hnil => h (String.toList_inj.mp hnil),
      List.isChain_singleton _⟩
  | .name _ _, _ => by rw [pieces]; exact separated_tag _ _
  | .path _ _, _ => by rw [pieces]; exact separated_tag _ _
  | .ifBlock _ _ _ _, h => by
    rw [IsTidy] at h
    rw [pieces]
    exact separated_around (separated_allPieces h)
  | .eachBlock _ _ _ _, h => by
    rw [IsTidy] at h
    rw [pieces]
    exact separated_around (separated_allPieces h)

/-- In a tidy tree no stretch of text is empty or next to another. -/
theorem separated_allPieces : ∀ {ns : List Node}, AreTidy ns → Separated (allPieces ns)
  | [], _ => ⟨List.forall_mem_nil _, List.isChain_nil⟩
  | n :: ns, h => by
    rw [AreTidy] at h
    rw [allPieces]
    refine (separated_pieces h.1).append (separated_allPieces h.2.2) fun p hp q hq => ?_
    by_cases hn : n.isText
    · -- the node that follows a text is none
      cases ns with
      | nil => cases hq
      | cons m ms =>
        rw [head?_allPieces_cons] at hq
        exact .inr ((isSome_of_not_isText (h.2.1 hn m rfl)).1 q hq)
    · exact .inl ((isSome_of_not_isText hn).2 p hp)

end

/-! ## Building the tree again -/

theorem reference_of_two_le {parts : List String} (h : 2 ≤ parts.length) (raw : String) :
    reference parts raw = .path parts raw := by
  unfold reference
  split
  · exact absurd h (Nat.not_succ_le_self 1)
  · rfl

theorem exists_of_piece_tag {t : Token} {tag : Tag} {raw : String}
    (h : t.piece = (some tag, raw.toList)) : ∃ offset, t = .tag tag raw.toList offset := by
  cases t with
  | text cs => cases h
  | tag t raw offset => cases h; exact ⟨offset, rfl⟩

/-- A block is built from its tags and what is built between them. -/
theorem ofTokens_block {b : Block} {parts : List String} {opener closer : String}
    {body : List Node} {ts : List Token}
    (hts : ts.map Token.piece = (some (.opening b parts), opener.toList) ::
      (allPieces body ++ [(some (.closing b), closer.toList)]))
    (hbody : ∀ {stack before ts rest}, ts.map Token.piece = allPieces body →
      ofTokens stack before (ts ++ rest) = ofTokens stack (body.reverse ++ before) rest)
    (stack : List Frame) (before : List Node) (rest : List Token) :
    ofTokens stack before (ts ++ rest) =
      ofTokens stack (block b parts opener body closer :: before) rest := by
  obtain ⟨t, ts, rfl, ht, hts⟩ := List.map_eq_cons_iff.mp hts
  obtain ⟨us, vs, rfl, hus, hvs⟩ := List.map_eq_append_iff.mp hts
  obtain ⟨u, rfl, hu⟩ := List.map_eq_singleton_iff.mp hvs
  obtain ⟨i, rfl⟩ := exists_of_piece_tag ht
  obtain ⟨j, rfl⟩ := exists_of_piece_tag hu
  rw [List.cons_append, List.append_assoc, List.singleton_append, ofTokens, hbody hus, ofTokens,
    if_pos rfl, List.append_nil, List.reverse_reverse, String.ofList_toList, String.ofList_toList]

mutual

/-- The pieces of a canonical node are parsed as the node. -/
theorem ofTokens_pieces : ∀ {n : Node}, n.IsCanonical → ∀ {stack before ts rest},
    ts.map Token.piece = n.pieces → ofTokens stack before (ts ++ rest) =
      ofTokens stack (n :: before) rest
  | .text s, _, stack, before, ts, rest, hts => by
    rw [pieces] at hts
    obtain ⟨t, rfl, ht⟩ := List.map_eq_singleton_iff.mp hts
    cases t with
    | text cs =>
      cases ht
      rw [List.singleton_append, ofTokens, String.ofList_toList]
    | tag => cases ht
  | .name n raw, _, stack, before, ts, rest, hts => by
    rw [pieces] at hts
    obtain ⟨t, rfl, ht⟩ := List.map_eq_singleton_iff.mp hts
    obtain ⟨i, rfl⟩ := exists_of_piece_tag ht
    rw [List.singleton_append, ofTokens, String.ofList_toList, reference]
  | .path parts raw, h, stack, before, ts, rest, hts => by
    rw [IsCanonical] at h
    rw [pieces] at hts
    obtain ⟨t, rfl, ht⟩ := List.map_eq_singleton_iff.mp hts
    obtain ⟨i, rfl⟩ := exists_of_piece_tag ht
    rw [List.singleton_append, ofTokens, String.ofList_toList, reference_of_two_le h.2.1]
  | .ifBlock _ _ _ _, h, _, _, _, _, hts => by
    rw [IsCanonical] at h
    rw [pieces] at hts
    exact ofTokens_block hts (ofTokens_allPieces h.2) _ _ _
  | .eachBlock _ _ _ _, h, _, _, _, _, hts => by
    rw [IsCanonical] at h
    rw [pieces] at hts
    exact ofTokens_block hts (ofTokens_allPieces h.2) _ _ _

/-- Tokens with the pieces of some nodes put these nodes behind those before them. -/
theorem ofTokens_allPieces : ∀ {ns : List Node}, AreCanonical ns → ∀ {stack before ts rest},
    ts.map Token.piece = allPieces ns → ofTokens stack before (ts ++ rest) =
      ofTokens stack (ns.reverse ++ before) rest
  | [], _, _, _, _, _, hts => by
    rw [List.map_eq_nil_iff.mp hts]
    rfl
  | _ :: _, h, _, _, _, _, hts => by
    rw [AreCanonical] at h
    obtain ⟨us, vs, rfl, hus, hvs⟩ := List.map_eq_append_iff.mp hts
    rw [List.append_assoc, ofTokens_pieces h.1 hus, ofTokens_allPieces h.2 hvs, List.reverse_cons,
      List.append_assoc, List.singleton_append]

end

/-- **Parsing undoes printing:** a tree whose texts hold no opening brace, are not empty and do not
stand side by side, and whose names, paths and tags are those of the language, is read back from the
text that is printed from it. -/
theorem parse_printAll {ns : List Node} (htidy : AreTidy ns) (hcanonical : AreCanonical ns) :
    parse (printAll ns) = .ok ns := by
  have hpieces : (tokens (printAll ns).toList).map Token.piece = allPieces ns := by
    rw [printAll_eq_sources hcanonical, toList_sources]
    exact piece_tokensFrom (written_allPieces hcanonical) (separated_allPieces htidy) 0
  have hread : ofTokens [] [] (tokens (printAll ns).toList ++ []) =
      ofTokens [] (ns.reverse ++ []) [] := ofTokens_allPieces hcanonical hpieces
  rw [List.append_nil, List.append_nil] at hread
  rw [parse, hread, ofTokens, List.reverse_reverse]

/-- A block inside a block, with closing braces beside its tags. -/
theorem parse_printAll_nested :
    let ns : List Node := [.text r"}", .eachBlock ["as", "b"] r"{{#each as.b}}"
      [.name "x" r"{{x}}", .ifBlock ["_"] r"{{#if _}}" [.text r"}}"] r"{{/if}}",
        .path ["this", "é"] r"{{this.é}}"] r"{{/each}}"]
    AreTidy ns ∧ AreCanonical ns ∧
      printAll ns = r"}{{#each as.b}}{{x}}{{#if _}}}}{{/if}}{{this.é}}{{/each}}" ∧
      parse (printAll ns) = .ok ns := by
  intro ns
  have htidy : AreTidy ns := by simp [ns, AreTidy, IsTidy, isText]
  have hcanonical : AreCanonical ns := by
    simp only [ns, AreCanonical, IsCanonical]
    exact ⟨by decide, ⟨⟨by decide, by decide, by decide⟩, ⟨by decide, by decide⟩,
      ⟨⟨by decide, by decide, by decide⟩, by decide, trivial⟩,
      ⟨by decide +kernel, by decide, by decide⟩, trivial⟩, trivial⟩
  exact ⟨htidy, hcanonical, by decide, parse_printAll htidy hcanonical⟩

end Node

end Scaffold.Template
