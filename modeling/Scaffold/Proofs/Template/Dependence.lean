import Scaffold.Proofs.Template.Nesting
import Scaffold.Template.Render

/-!
# Proofs/Template/Dependence — a rendered text depends on the names that its template mentions

The **roots** of a template text are the first parts of the paths in its tags.  Two mappings that
agree on them give one rendered text, or fail in one way (`renderText_congr`).  Inside an each-block
the scope is built anew for every item, and the scopes of one item over two contexts agree wherever
the contexts do (`agree_itemScope`), so the induction over the nodes is for any two contexts.
-/

namespace Scaffold.Template

open Document Text

/-! ## The roots of a text -/

/-- The path that a tag follows. -/
def Tag.path? : Tag → Option (List String)
  | opening _ path | reference path => some path
  | closing _ => none

def Token.root? : Token → Option String
  | text _ => none
  | tag t _ _ => t.path?.bind List.head?

/-- The names that a template text mentions: of every path in it, at any depth, the first part. -/
def roots (s : String) : List String := (tokens s.toList).filterMap Token.root?

/-- No path is empty. -/
theorem ne_nil_of_readPath {cs rest : List Char} {path : List String}
    (h : readPath cs = some (path, rest)) : path ≠ [] := by
  rw [readPath] at h
  split at h
  · cases h
    exact List.map_eq_nil_iff.not.mpr (pieces_ne_nil _ _)
  · cases h

theorem ne_nil_of_readInside {cs rest : List Char} {t : Tag} {path : List String}
    (h : readInside cs = some (t, rest)) (hpath : t.path? = some path) : path ≠ [] := by
  unfold readInside at h
  split at h
  · obtain ⟨⟨block, afterBlock⟩, -, h⟩ := Option.bind_eq_some_iff.mp h
    obtain ⟨-, -, h⟩ := Option.bind_eq_some_iff.mp h
    obtain ⟨⟨path', afterPath⟩, hread, h⟩ := Option.bind_eq_some_iff.mp h
    cases h
    cases hpath
    exact ne_nil_of_readPath hread
  · obtain ⟨⟨block, afterBlock⟩, -, h⟩ := Option.map_eq_some_iff.mp h
    cases h
    cases hpath
  · obtain ⟨⟨path', afterPath⟩, hread, h⟩ := Option.map_eq_some_iff.mp h
    cases h
    cases hpath
    exact ne_nil_of_readPath hread

/-- So a tag always names something. -/
theorem ne_nil_of_readTag {cs rest : List Char} {t : Tag} {path : List String}
    (h : readTag cs = some (t, rest)) (hpath : t.path? = some path) : path ≠ [] := by
  unfold readTag at h
  split at h
  · split at h
    · rename_i hread
      obtain ⟨afterTag, -, h⟩ := Option.map_eq_some_iff.mp h
      cases h
      exact ne_nil_of_readInside hread hpath
    · cases h
  · cases h

/-- The path of every tag in the list has a root. -/
def Rooted (ts : List Token) : Prop :=
  ∀ t raw offset path, Token.tag t raw offset ∈ ts → t.path? = some path → path ≠ []

theorem rooted_addChar {c : Char} {ts : List Token} (h : Rooted ts) :
    Rooted (Token.addChar c ts) := by
  intro t raw offset path hmem
  unfold Token.addChar at hmem
  split at hmem
  · refine h t raw offset path (List.mem_cons_of_mem _ ?_)
    exact (List.mem_cons.mp hmem).resolve_left Token.noConfusion
  · exact h t raw offset path ((List.mem_cons.mp hmem).resolve_left Token.noConfusion)

/-- All tokens of a text are rooted. -/
theorem rooted_tokensFrom (offset : Nat) (cs : List Char) : Rooted (tokensFrom offset cs) := by
  fun_induction tokensFrom offset cs with
  | case1 => exact fun _ _ _ _ hmem => absurd hmem List.not_mem_nil
  | case2 offset c cs t rest h n ih =>
    intro t' raw offset' path hmem
    obtain heq | hmem := List.mem_cons.mp hmem
    · cases heq
      exact ne_nil_of_readTag h
    · exact ih t' raw offset' path hmem
  | case3 offset c cs h ih => exact rooted_addChar ih

/-! ## Contexts that agree -/

/-- The item is a mapping, as the context of a template is. -/
inductive Item.IsMapping : Item → Prop where
  | record (members : List (String × Item)) : IsMapping (.record members)
  | table (entries : List (Value × Value)) : IsMapping (.value (.table entries))

/-- The items have the same member under each of the names, or both have none. -/
def AgreeOn (names : List String) (c d : Item) : Prop :=
  ∀ n ∈ names, c.members.lookup n = d.members.lookup n

theorem part_of_isMapping {c : Item} (h : c.IsMapping) (n : String) :
    c.part n = .ok (c.members.lookup n) := by
  cases h <;> rfl

section Agreement

variable {names : List String} {c d : Item}

/-- **The scopes of one item agree where the contexts around them do**: what stands in front of the
outer names is the same. -/
theorem agree_itemScope (h : AgreeOn names c d) (item : Item) :
    AgreeOn names (itemScope c item) (itemScope d item) := by
  intro n hn
  change List.lookup n ((("this", item) :: item.members) ++ c.members) =
    List.lookup n ((("this", item) :: item.members) ++ d.members)
  rw [List.lookup_append, List.lookup_append, h n hn]

theorem follow_congr (hc : c.IsMapping) (hd : d.IsMapping) (h : AgreeOn names c d) {n : String}
    (hn : n ∈ names) (rest : List String) : c.follow (n :: rest) = d.follow (n :: rest) := by
  rw [Item.follow, Item.follow, part_of_isMapping hc, part_of_isMapping hd, h n hn]

end Agreement

/-! ## Rendering in contexts that agree -/

/-- The path of the piece, if it is a tag with one, begins with one of the names. -/
def Piece.RootedIn (names : List String) (p : Piece) : Prop :=
  ∀ t path, p.1 = some t → t.path? = some path → ∃ n ∈ names, ∃ rest, path = n :: rest

/-- They are rooted in the roots of the text. -/
theorem rootedIn_roots {s : String} {t : Token} (ht : t ∈ tokens s.toList) :
    t.piece.RootedIn (roots s) := by
  intro tag path htag hpath
  have hrooted : Rooted (tokens s.toList) := rooted_tokensFrom 0 s.toList
  cases t with
  | text cs => cases htag
  | tag t raw offset =>
    cases htag
    obtain ⟨n, rest, rfl⟩ := List.exists_cons_of_ne_nil (hrooted tag raw offset path ht hpath)
    have hroot : (Token.tag tag raw offset).root? = some n := by
      rw [Token.root?, hpath]
      rfl
    exact ⟨n, List.mem_filterMap.mpr ⟨_, ht, hroot⟩, rest, rfl⟩

section Rendering

variable {names : List String}

/-- A rooted path is followed alike in contexts that agree on the roots. -/
theorem follow_congr_of_rootedIn {c d : Item} (hc : c.IsMapping) (hd : d.IsMapping)
    (h : AgreeOn names c d) {t : Tag} {path : List String} {raw : List Char}
    (hp : Piece.RootedIn names (some t, raw)) (hpath : t.path? = some path) :
    c.follow path = d.follow path := by
  obtain ⟨n, hn, rest, rfl⟩ := hp t path rfl hpath
  exact follow_congr hc hd h hn rest

mutual

/-- So a node is rendered alike. -/
theorem renderNode_congr : ∀ (n : Node) {c d : Item}, c.IsMapping → d.IsMapping →
    AgreeOn names c d → (∀ p ∈ n.pieces, p.RootedIn names) → renderNode c n = renderNode d n
  | .text _, _, _, _, _, _, _ => by rw [renderNode, renderNode]
  | .name n raw, c, d, hc, hd, h, hroots => by
    rw [Node.pieces, List.forall_mem_singleton] at hroots
    have hfollow := follow_congr_of_rootedIn hc hd h hroots rfl
    rw [renderNode, renderNode, renderReference, renderReference, hfollow]
  | .path parts raw, c, d, hc, hd, h, hroots => by
    rw [Node.pieces, List.forall_mem_singleton] at hroots
    have hfollow := follow_congr_of_rootedIn hc hd h hroots rfl
    rw [renderNode, renderNode, renderReference, renderReference, hfollow]
  | .ifBlock path _ body _, c, d, hc, hd, h, hroots => by
    rw [Node.pieces, List.forall_mem_cons] at hroots
    have hfollow := follow_congr_of_rootedIn hc hd h hroots.1 rfl
    have hbody := renderNodes_congr body hc hd h
      fun p hp => hroots.2 p (List.mem_append_left _ hp)
    rw [renderNode, renderNode, hfollow, hbody]
  | .eachBlock path _ body _, c, d, hc, hd, h, hroots => by
    rw [Node.pieces, List.forall_mem_cons] at hroots
    have hfollow := follow_congr_of_rootedIn hc hd h hroots.1 rfl
    have hbody : ∀ item, renderNodes (itemScope c item) body = renderNodes (itemScope d item) body :=
      fun item => renderNodes_congr body (.record _) (.record _) (agree_itemScope h item)
        fun p hp => hroots.2 p (List.mem_append_left _ hp)
    rw [renderNode, renderNode, hfollow]
    simp only [hbody]

/-- Nodes whose paths begin with names on which the contexts agree give one text. -/
theorem renderNodes_congr : ∀ (ns : List Node) {c d : Item}, c.IsMapping → d.IsMapping →
    AgreeOn names c d → (∀ p ∈ Node.allPieces ns, p.RootedIn names) →
    renderNodes c ns = renderNodes d ns
  | [], _, _, _, _, _, _ => by rw [renderNodes, renderNodes]
  | n :: ns, c, d, hc, hd, h, hroots => by
    rw [Node.allPieces, List.forall_mem_append] at hroots
    rw [renderNodes, renderNodes, renderNode_congr n hc hd h hroots.1,
      renderNodes_congr ns hc hd h hroots.2]

end

end Rendering

/-- **Rendering depends only on the names that a template mentions.**  Two mappings that agree on
the roots of a text give the same text or the same failure. -/
theorem renderText_congr (source : String) {c d : Item} (hc : c.IsMapping) (hd : d.IsMapping)
    (h : AgreeOn (roots source) c d) : renderText source c = renderText source d := by
  rw [renderText, renderText]
  cases hparse : Node.parse source with
  | error m => rfl
  | ok ns =>
    have hroots : ∀ p ∈ Node.allPieces ns, p.RootedIn (roots source) := by
      rw [Node.pieces_parse hparse, List.forall_mem_map]
      exact fun t ht => rootedIn_roots ht
    exact congrArg (Except.mapError Failure.render) (renderNodes_congr ns hc hd h hroots)

/-- The item's own `size` shadows the outer one, on which the contexts need to agree as well; of
`colour` they may differ. -/
theorem renderText_congr_shadowed :
    let source := r"{{#each rows}}{{size}}{{#if this.size}}-{{unit}}{{/if}} {{/each}}"
    let rows : String × Item := ("rows", .list [.record [("size", .value (.text "3"))], .value .null])
    let c : Item := .record [rows, ("size", .value (.text "7")), ("colour", .value (.text "red"))]
    let d : Item := .record [("colour", .value .null), ("size", .value (.text "7")), rows]
    AgreeOn (roots source) c d ∧ renderText source c = renderText source d := by
  intro source rows c d
  have hroots : roots source = ["rows", "size", "this", "unit"] := by decide +kernel
  have hagree : AgreeOn (roots source) c d := by
    rw [hroots]
    intro n hn
    simp only [List.mem_cons, List.not_mem_nil, or_false] at hn
    obtain rfl | rfl | rfl | rfl := hn <;> rfl
  exact ⟨hagree, renderText_congr source (.record _) (.record _) hagree⟩

end Scaffold.Template
