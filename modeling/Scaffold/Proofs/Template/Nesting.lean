import Mathlib.Data.List.Chain
import Mathlib.Data.Option.Basic
import Scaffold.Proofs.Template.Lines

/-!
# Proofs/Template/Nesting — which texts are templates, and that a tree keeps all of its text

The block tags of a text are **well nested** (`WellNested`) if they are read off by a grammar of
matching pairs.  A text is a template exactly then, and its tree is its tokens again: walked in
order, the tree gives every tag and every stretch of text back (`pieces_parse`).  Whatever is true
of the tokens along the text is so true of the node lists: no text node is empty, and no two of them
stand side by side (`areTidy_of_separated`).
-/

namespace Scaffold.Template

/-! ## Well nested block tags -/

/-- A tag that opens or closes a block. -/
inductive BlockTag where
  | opens (block : Block)
  | closes (block : Block)
deriving DecidableEq, Repr

def Tag.blockTag? : Tag → Option BlockTag
  | opening b _ => some (.opens b)
  | closing b => some (.closes b)
  | reference _ => none

def Token.blockTag? : Token → Option BlockTag
  | text _ => none
  | tag t _ _ => t.blockTag?

/-- The block tags of a text in the order in which its tags are found. -/
def blockTags (s : String) : List BlockTag := (tokens s.toList).filterMap Token.blockTag?

/-- Every block that is opened is closed by a tag of its kind, after the blocks inside it. -/
inductive WellNested : List BlockTag → Prop where
  | nil : WellNested []
  | block (b : Block) {inside after : List BlockTag} : WellNested inside → WellNested after →
    WellNested (.opens b :: (inside ++ .closes b :: after))

theorem WellNested.append {xs ys : List BlockTag} (hx : WellNested xs) (hy : WellNested ys) :
    WellNested (xs ++ ys) := by
  induction hx with
  | nil => exact hy
  | block b hinside _ _ ih =>
    rw [List.cons_append, List.append_assoc, List.cons_append]
    exact .block b hinside ih

/-- The tags close the open blocks, innermost first, and all that they open themselves. -/
def settles : List Block → List BlockTag → Bool
  | [], [] => true
  | _ :: _, [] => false
  | stack, .opens b :: ts => settles (b :: stack) ts
  | [], .closes _ :: _ => false
  | b :: stack, .closes b' :: ts => b == b' && settles stack ts

/-- What is well nested leaves the stack as it was. -/
theorem WellNested.settles_append {xs : List BlockTag} (h : WellNested xs) (stack : List Block)
    (ys : List BlockTag) : settles stack (xs ++ ys) = settles stack ys := by
  induction h generalizing stack ys with
  | nil => rfl
  | block b _ _ ihInside ihAfter =>
    rw [List.cons_append, List.append_assoc, List.cons_append, settles, ihInside, settles,
      beq_self_eq_true, Bool.true_and, ihAfter]

theorem WellNested.settles {xs : List BlockTag} (h : WellNested xs) : settles [] xs = true := by
  have hnil := h.settles_append [] []
  rwa [List.append_nil] at hnil

/-- Tags that settle the open blocks build a tree. -/
theorem Node.exists_ofTokens {stack : List Node.Frame} {before : List Node} {ts : List Token}
    (h : settles (stack.map (·.block)) (ts.filterMap Token.blockTag?) = true) :
    ∃ ns, Node.ofTokens stack before ts = .ok ns := by
  fun_induction Node.ofTokens stack before ts with
  | case1 before => exact ⟨_, rfl⟩
  | case2 => cases h
  | case3 stack before cs ts ih => exact ih h
  | case4 stack before parts raw offset ts ih => exact ih h
  | case5 stack before b parts raw offset ts ih =>
    refine ih ?_
    cases stack <;> exact h
  | case6 => cases h
  | case7 before raw offset ts f rest ih =>
    exact ih (Bool.and_eq_true_iff.mp h).2
  | case8 before b raw offset ts f rest hne =>
    exact absurd (beq_iff_eq.mp (Bool.and_eq_true_iff.mp h).1) hne

/-! ## The pieces of a tree -/

/-- A tag, or none for plain text, with the characters that it was read from. -/
abbrev Piece := Option Tag × List Char

def Token.piece : Token → Piece
  | text cs => (none, cs)
  | tag t raw _ => (some t, raw)

def Piece.blockTag? (p : Piece) : Option BlockTag := p.1.bind Tag.blockTag?

namespace Node

mutual

/-- The pieces of a node in the order of the text: a block stands between the spellings of its
tags. -/
def pieces : Node → List Piece
  | text s => [(none, s.toList)]
  | name n raw => [(some (.reference [n]), raw.toList)]
  | path parts raw => [(some (.reference parts), raw.toList)]
  | ifBlock parts opener body closer =>
    (some (.opening .ifBlock parts), opener.toList) ::
      (allPieces body ++ [(some (.closing .ifBlock), closer.toList)])
  | eachBlock parts opener body closer =>
    (some (.opening .eachBlock parts), opener.toList) ::
      (allPieces body ++ [(some (.closing .eachBlock), closer.toList)])

def allPieces : List Node → List Piece
  | [] => []
  | n :: ns => pieces n ++ allPieces ns

end

theorem allPieces_append (ns ms : List Node) :
    allPieces (ns ++ ms) = allPieces ns ++ allPieces ms := by
  induction ns with
  | nil => rfl
  | cons n ns ih => rw [List.cons_append, allPieces, allPieces, ih, List.append_assoc]

theorem allPieces_reverse_cons (n : Node) (ns : List Node) :
    allPieces (n :: ns).reverse = allPieces ns.reverse ++ n.pieces := by
  rw [List.reverse_cons, allPieces_append, allPieces, allPieces, List.append_nil]

theorem pieces_reference (parts : List String) (raw : String) :
    (reference parts raw).pieces = [(some (.reference parts), raw.toList)] := by
  unfold reference
  split <;> rw [pieces]

theorem pieces_block (b : Block) (parts : List String) (opener : String) (body : List Node)
    (closer : String) :
    (block b parts opener body closer).pieces =
      (some (.opening b parts), opener.toList) ::
        (allPieces body ++ [(some (.closing b), closer.toList)]) := by
  cases b <;> rw [block, pieces]

/-- The pieces before the place that has been reached, over the blocks that are open. -/
def stackPieces : List Frame → List Piece
  | [] => []
  | f :: fs =>
    stackPieces fs ++ allPieces f.before.reverse ++
      [(some (.opening f.block f.path), f.opener.toList)]

/-- Nodes have the pieces of their tokens. -/
theorem allPieces_ofTokens {stack : List Frame} {before ns : List Node} {ts : List Token}
    (h : ofTokens stack before ts = .ok ns) :
    allPieces ns = stackPieces stack ++ allPieces before.reverse ++ ts.map Token.piece := by
  fun_induction ofTokens stack before ts with
  | case1 before =>
    cases h
    simp [stackPieces]
  | case2 => cases h
  | case3 stack before cs ts ih =>
    rw [ih h, allPieces_reverse_cons, List.map_cons, pieces, String.toList_ofList, Token.piece]
    simp only [List.append_assoc, List.singleton_append]
  | case4 stack before parts raw offset ts ih =>
    rw [ih h, allPieces_reverse_cons, List.map_cons, pieces_reference, String.toList_ofList,
      Token.piece]
    simp only [List.append_assoc, List.singleton_append]
  | case5 stack before b parts raw offset ts ih =>
    rw [ih h, List.map_cons, stackPieces, String.toList_ofList, Token.piece]
    simp only [List.reverse_nil, allPieces, List.append_nil, List.append_assoc,
      List.singleton_append]
  | case6 => cases h
  | case7 before raw offset ts f rest ih =>
    rw [ih h, allPieces_reverse_cons, List.map_cons, pieces_block, stackPieces,
      String.toList_ofList, Token.piece]
    simp only [List.append_assoc, List.cons_append, List.nil_append]
  | case8 => cases h

/-- **A tree is its tokens again.** -/
theorem pieces_parse {s : String} {ns : List Node} (h : parse s = .ok ns) :
    allPieces ns = (tokens s.toList).map Token.piece := by
  rw [allPieces_ofTokens h]
  rfl

/-! ## What the pieces tell of a tree -/

mutual

/-- The source of a node is that of its pieces. -/
theorem toList_source : ∀ n : Node, n.source.toList = n.pieces.flatMap (·.2)
  | .text s => by rw [source, pieces, List.flatMap_singleton]
  | .name _ raw => by rw [source, pieces, List.flatMap_singleton]
  | .path _ raw => by rw [source, pieces, List.flatMap_singleton]
  | .ifBlock _ opener body closer => by
    rw [source, pieces, String.toList_append, String.toList_append, toList_sources body,
      List.flatMap_cons, List.flatMap_append, List.flatMap_singleton, List.append_assoc]
  | .eachBlock _ opener body closer => by
    rw [source, pieces, String.toList_append, String.toList_append, toList_sources body,
      List.flatMap_cons, List.flatMap_append, List.flatMap_singleton, List.append_assoc]

/-- The source of a tree is the text of its pieces. -/
theorem toList_sources : ∀ ns : List Node, (sources ns).toList = (allPieces ns).flatMap (·.2)
  | [] => rfl
  | n :: ns => by
    rw [sources, allPieces, String.toList_append, toList_source n, toList_sources ns,
      List.flatMap_append]

end

/-- Parsed nodes have the text as their source. -/
theorem sources_parse {s : String} {ns : List Node} (h : parse s = .ok ns) : sources ns = s := by
  have hpieces : (fun t : Token => t.piece.2) = Token.source := by
    funext t
    cases t <;> rfl
  rw [← String.toList_inj, toList_sources, pieces_parse h, List.flatMap_map, hpieces]
  exact source_tokensFrom 0 s.toList

/-- The block tags around a body are well nested if those of the body are. -/
theorem wellNested_around {b : Block} {parts : List String} {opener closer : List Char}
    {body : List Piece} (h : WellNested (body.filterMap Piece.blockTag?)) :
    WellNested (((some (.opening b parts), opener) ::
      (body ++ [(some (.closing b), closer)])).filterMap Piece.blockTag?) := by
  simpa [List.filterMap_append, Piece.blockTag?, Tag.blockTag?] using WellNested.block b h .nil

mutual

/-- The blocks of a node are well nested. -/
theorem wellNested_pieces : ∀ n : Node, WellNested (n.pieces.filterMap Piece.blockTag?)
  | .text _ => .nil
  | .name _ _ => .nil
  | .path _ _ => .nil
  | .ifBlock _ _ body _ => wellNested_around (wellNested_allPieces body)
  | .eachBlock _ _ body _ => wellNested_around (wellNested_allPieces body)

/-- The block tags of every tree are well nested. -/
theorem wellNested_allPieces : ∀ ns : List Node,
    WellNested ((allPieces ns).filterMap Piece.blockTag?)
  | [] => .nil
  | n :: ns => by
    rw [allPieces, List.filterMap_append]
    exact (wellNested_pieces n).append (wellNested_allPieces ns)

end

/-- So are those of a text that is parsed. -/
theorem wellNested_of_parse {s : String} {ns : List Node} (h : parse s = .ok ns) :
    WellNested (blockTags s) := by
  have hpieces : Piece.blockTag? ∘ Token.piece = Token.blockTag? := by
    funext t
    cases t <;> rfl
  have htags := wellNested_allPieces ns
  rwa [pieces_parse h, List.filterMap_map, hpieces] at htags

/-! ## Stretches of text -/

def isText : Node → Bool
  | text _ => true
  | _ => false

mutual

/-- The node is no empty text, and the node lists inside it are tidy. -/
def IsTidy : Node → Prop
  | text s => s ≠ ""
  | ifBlock _ _ body _ | eachBlock _ _ body _ => AreTidy body
  | name .. | path .. => True

/-- No text of the list is empty and no two stand side by side, and so in all lists inside it. -/
def AreTidy : List Node → Prop
  | [] => True
  | n :: ns => IsTidy n ∧ (n.isText → ∀ m ∈ ns.head?, ¬m.isText) ∧ AreTidy ns

end

/-- No stretch of text is empty, and a tag stands between any two. -/
structure Separated (ps : List Piece) : Prop where
  nonempty : ∀ p ∈ ps, p.1 = none → p.2 ≠ []
  apart : ps.IsChain fun p q => p.1.isSome ∨ q.1.isSome

theorem Separated.of_infix {ps qs : List Piece} (h : Separated ps) (hq : qs <:+: ps) :
    Separated qs where
  nonempty p hp := h.nonempty p (hq.subset hp)
  apart := List.IsChain.infix h.apart hq

theorem Separated.tag_cons {t : Tag} {raw : List Char} {ps : List Piece} (h : Separated ps) :
    Separated ((some t, raw) :: ps) where
  nonempty := by
    intro p hp hnone
    obtain rfl | hp := List.mem_cons.mp hp
    · cases hnone
    · exact h.nonempty p hp hnone
  apart := List.isChain_cons.mpr ⟨fun _ _ => .inl rfl, h.apart⟩

theorem separated_addChar {c : Char} {ts : List Token} (h : Separated (ts.map Token.piece)) :
    Separated ((Token.addChar c ts).map Token.piece) := by
  unfold Token.addChar
  split
  · rename_i cs ts
    refine ⟨fun p hp hnone => ?_, ?_⟩
    · obtain rfl | hp := List.mem_cons.mp hp
      · exact List.cons_ne_nil c cs
      · exact h.nonempty p (List.mem_cons_of_mem _ hp) hnone
    · have hchain := h.apart
      rw [List.map_cons, List.isChain_cons] at hchain ⊢
      exact ⟨hchain.1, hchain.2⟩
  · rename_i hnotext
    refine ⟨fun p hp hnone => ?_, List.isChain_cons.mpr ⟨fun q hq => ?_, h.apart⟩⟩
    · obtain rfl | hp := List.mem_cons.mp hp
      · exact List.cons_ne_nil c []
      · exact h.nonempty p hp hnone
    · match ts, hq with
      | .text cs :: ts, _ => exact absurd rfl (hnotext cs ts)
      | .tag t raw offset :: ts, hq =>
        cases hq
        exact .inr rfl

/-- No two texts of a tokenized text are side by side. -/
theorem separated_tokensFrom (offset : Nat) (cs : List Char) :
    Separated ((tokensFrom offset cs).map Token.piece) := by
  fun_induction tokensFrom offset cs with
  | case1 => exact ⟨by simp, by simp⟩
  | case2 offset c cs t rest h n ih => exact ih.tag_cons
  | case3 offset c cs h ih => exact separated_addChar ih

/-- The first piece of a text node is not a tag. -/
theorem pieces_of_isText {n : Node} (h : n.isText = true) : ∃ cs, n.pieces = [(none, cs)] := by
  cases n with
  | text s => exact ⟨s.toList, by rw [pieces]⟩
  | _ => cases h

theorem infix_around (p q : Piece) (ps : List Piece) : ps <:+: p :: (ps ++ [q]) :=
  ⟨[p], [q], rfl⟩

mutual

/-- So a node has none side by side. -/
theorem isTidy_of_separated : ∀ n : Node, Separated n.pieces → n.IsTidy
  | .text s, h => by
    rw [pieces] at h
    rw [IsTidy]
    rintro rfl
    exact h.nonempty _ (List.mem_singleton_self _) rfl rfl
  | .name _ _, _ => by rw [IsTidy]; trivial
  | .path _ _, _ => by rw [IsTidy]; trivial
  | .ifBlock _ _ body _, h => by
    rw [pieces] at h
    rw [IsTidy]
    exact areTidy_of_separated body (h.of_infix (infix_around ..))
  | .eachBlock _ _ body _, h => by
    rw [pieces] at h
    rw [IsTidy]
    exact areTidy_of_separated body (h.of_infix (infix_around ..))

/-- So are many nodes. -/
theorem areTidy_of_separated : ∀ ns : List Node, Separated (allPieces ns) → AreTidy ns
  | [], _ => by rw [AreTidy]; trivial
  | n :: ns, h => by
    rw [allPieces] at h
    rw [AreTidy]
    refine ⟨isTidy_of_separated n (h.of_infix (List.infix_append_left ..)), ?_,
      areTidy_of_separated ns (h.of_infix (List.infix_append_right ..))⟩
    intro hn m hm hmtext
    obtain ⟨cs, hcs⟩ := pieces_of_isText hn
    obtain ⟨ds, hds⟩ := pieces_of_isText hmtext
    obtain ⟨ms, rfl⟩ : ∃ ms, ns = m :: ms := by
      cases ns with
      | nil => cases hm
      | cons m' ms => exact ⟨ms, by rw [Option.some.inj hm]⟩
    have hchain := h.apart
    rw [hcs, allPieces, hds] at hchain
    exact absurd (List.isChain_cons_cons.mp hchain).1 (by simp)

end

/-! ## Parsing -/

/-- **A text is a template exactly if its block tags are well nested, and then nothing is lost.**
The tree gives the text back, its pieces are the tokens of the text in order, and in no list of
nodes is a text empty or next to another. -/
theorem parse_iff_wellNested (s : String) :
    ((∃ ns, parse s = .ok ns) ↔ WellNested (blockTags s)) ∧
      ∀ ns, parse s = .ok ns →
        sources ns = s ∧ allPieces ns = (tokens s.toList).map Token.piece ∧ AreTidy ns := by
  refine ⟨⟨fun ⟨ns, h⟩ => wellNested_of_parse h, fun h => exists_ofTokens h.settles⟩, ?_⟩
  intro ns h
  have hseparated : Separated (allPieces ns) := by
    rw [pieces_parse h]
    exact separated_tokensFrom 0 s.toList
  exact ⟨sources_parse h, pieces_parse h, areTidy_of_separated ns hseparated⟩

/-- A tag that abuts a brace, and a pair of braces that is no tag. -/
theorem parse_iff_wellNested_braces :
    parse r"{{#if a}}{b{{/if}}}{{ 1 }}" =
        .ok [.ifBlock ["a"] r"{{#if a}}" [.text r"{b"] r"{{/if}}", .text r"}{{ 1 }}"] ∧
      WellNested (blockTags r"{{#if a}}{b{{/if}}}{{ 1 }}") ∧
      AreTidy [.ifBlock ["a"] r"{{#if a}}" [.text r"{b"] r"{{/if}}", .text r"}{{ 1 }}"] := by
  have hparse : parse r"{{#if a}}{b{{/if}}}{{ 1 }}" =
      .ok [.ifBlock ["a"] r"{{#if a}}" [.text r"{b"] r"{{/if}}", .text r"}{{ 1 }}"] := by
    cbv
  obtain ⟨hiff, hkept⟩ := parse_iff_wellNested r"{{#if a}}{b{{/if}}}{{ 1 }}"
  exact ⟨hparse, hiff.mp ⟨_, hparse⟩, (hkept _ hparse).2.2⟩

end Node

end Scaffold.Template
