import Scaffold.Proofs.Outcome
import Scaffold.Proofs.Template.Documents

/-!
# Proofs/Template/Stages — a template that is rendered in stages

What one context leaves open can be filled in from another: the text that rendering gives is a
template again, and its tags are exactly those that led nowhere.  For texts without blocks, and
values that bring no opening brace with them, rendering twice gives the text in which each tag is
replaced by its first value (`renderText_twice`).  Both texts are put together of the same pieces,
where a tag that has a value gives way to a stretch of text (`Piece.after`).
-/

namespace Scaffold.Template

open Document Number Text

/-! ## What a reference shows -/

/-- The text of what a path leads to. -/
def shown? (c : Item) (path : List String) : Option String :=
  match c.follow path with
  | .ok (some x) => x.text.toOption
  | _ => none

/-- The path can be followed, and what it leads to has a text, if it leads anywhere. -/
def Shows (c : Item) (path : List String) : Prop :=
  ∃ found, c.follow path = .ok found ∧ ∀ x ∈ found, ∃ t, x.text = .ok t

/-- A reference is rendered if it is shown or left as it is. -/
theorem renderReference_eq_ok_iff {c : Item} {path : List String} {raw t : String} :
    renderReference c path raw = .ok t ↔ Shows c path ∧ t = (shown? c path).getD raw := by
  rw [Shows, renderReference, shown?]
  cases c.follow path with
  | error e => exact iff_of_false (by rintro ⟨⟩) (by rintro ⟨⟨_, ⟨⟩, _⟩, _⟩)
  | ok found =>
    cases found with
    | none =>
      constructor
      · rintro ⟨⟩
        exact ⟨⟨none, rfl, by rintro _ ⟨⟩⟩, rfl⟩
      · rintro ⟨-, rfl⟩
        rfl
    | some x =>
      change x.text = .ok t ↔ _
      constructor
      · intro hx
        refine ⟨⟨some x, rfl, ?_⟩, ?_⟩
        · rintro _ ⟨⟩
          exact ⟨t, hx⟩
        · simp [hx, Except.toOption]
      · rintro ⟨⟨_, ⟨⟩, htext⟩, rfl⟩
        obtain ⟨t, ht⟩ := htext x rfl
        simp [ht, Except.toOption]

/-- Where every part that is made of digits is a number, a path can be followed. -/
theorem exists_follow {path : List String} (h : ∀ part ∈ path, misplaced? part = none)
    (c : Item) : ∃ found, c.follow path = .ok found := by
  induction path generalizing c with
  | nil => exact ⟨_, rfl⟩
  | cons part rest ih =>
    obtain ⟨hpart, hrest⟩ := List.forall_mem_cons.mp h
    have hstep : ∃ found, c.part part = .ok found := by
      cases c with
      | list xs =>
        change ∃ found, (if isIndex part then (Item.indexOf part).map fun i => xs[i]?
          else .ok none) = .ok found
        split
        · rename_i hindex
          rw [indexOf_eq hindex, hpart]
          exact ⟨_, rfl⟩
        · exact ⟨_, rfl⟩
      | _ => exact ⟨_, rfl⟩
    obtain ⟨found, hfound⟩ := hstep
    rw [Item.follow, hfound]
    cases found with
    | none => exact ⟨_, rfl⟩
    | some next =>
      change ∃ found, (if next.isNull then .ok none else next.follow rest) = .ok found
      split
      · exact ⟨_, rfl⟩
      · exact ih hrest next

/-! ## Flat texts -/

/-- The text has no block tags, and no opening brace outside of its tags. -/
def IsFlat (s : String) : Prop := ∀ t ∈ tokens s.toList, match t with
  | .text cs => '{' ∉ cs
  | .tag t _ _ => ∃ path, t = .reference path

/-- The path of a reference. -/
def Token.reference? : Token → Option (List String)
  | .tag (.reference path) _ _ => some path
  | _ => none

/-- The paths of the references of a text. -/
def references (s : String) : List (List String) := (tokens s.toList).filterMap Token.reference?

/-- A stretch of text without an opening brace, or a reference in one of its spellings. -/
inductive Piece.IsFlat : Piece → Prop
  | text {cs : List Char} : '{' ∉ cs → IsFlat (none, cs)
  | reference {path : List String} {raw : List Char} : Spells (.reference path) raw →
    IsFlat (some (.reference path), raw)

/-- The text that is put together of pieces. -/
def textOf (ps : List Piece) : String := String.ofList (ps.flatMap (·.2))

theorem textOf_tokens (s : String) : textOf ((tokens s.toList).map Token.piece) = s := by
  have hpieces : (fun t : Token => t.piece.2) = Token.source := by
    funext t
    cases t <;> rfl
  rw [textOf, List.flatMap_map, hpieces, tokens, source_tokensFrom, String.ofList_toList]

/-- The node of a piece that is flat. -/
def Piece.node : Piece → Node
  | (some (.reference path), raw) => .reference path (String.ofList raw)
  | (_, cs) => .text (String.ofList cs)

/-- The tokens of a flat text are flat. -/
theorem isFlat_piece {s : String} (h : IsFlat s) {t : Token} (ht : t ∈ tokens s.toList) :
    t.piece.IsFlat := by
  have hflat := h t ht
  cases t with
  | text cs => exact .text hflat
  | tag t raw offset =>
    obtain ⟨path, rfl⟩ := hflat
    exact .reference (spells_of_mem_tokensFrom ht)

/-- Flat tokens are parsed one by one. -/
theorem ofTokens_flat {ts : List Token} (h : ∀ t ∈ ts, t.piece.IsFlat) (before : List Node) :
    Node.ofTokens [] before ts = .ok (before.reverse ++ ts.map fun t => t.piece.node) := by
  induction ts generalizing before with
  | nil => rw [Node.ofTokens, List.map_nil, List.append_nil]
  | cons t ts ih =>
    obtain ⟨ht, hts⟩ := List.forall_mem_cons.mp h
    match t, ht with
    | .text cs, _ =>
      rw [Node.ofTokens, ih hts, List.reverse_cons, List.append_assoc]
      rfl
    | .tag _ raw offset, .reference _ =>
      rw [Node.ofTokens, ih hts, List.reverse_cons, List.append_assoc]
      rfl

/-! ## The tokens of flat pieces -/

theorem isFlat_addChar {c : Char} (hc : '{' ≠ c) {ts : List Token}
    (h : ∀ t ∈ ts, t.piece.IsFlat) : ∀ t ∈ Token.addChar c ts, t.piece.IsFlat := by
  unfold Token.addChar
  split
  · rename_i cs ts
    obtain ⟨hcs, hts⟩ := List.forall_mem_cons.mp h
    refine List.forall_mem_cons.mpr ⟨.text ?_, hts⟩
    cases hcs with
    | text hcs => exact List.not_mem_cons_of_ne_of_not_mem hc hcs
  · exact List.forall_mem_cons.mpr ⟨.text (List.not_mem_cons_of_ne_of_not_mem hc List.not_mem_nil), h⟩

theorem isFlat_foldr_addChar {cs : List Char} (hcs : '{' ∉ cs) {ts : List Token}
    (h : ∀ t ∈ ts, t.piece.IsFlat) : ∀ t ∈ cs.foldr Token.addChar ts, t.piece.IsFlat := by
  induction cs with
  | nil => exact h
  | cons c cs ih =>
    exact isFlat_addChar (List.ne_of_not_mem_cons hcs) (ih (List.not_mem_of_not_mem_cons hcs))

/-- Flat pieces are read as flat tokens. -/
theorem isFlat_tokensFrom {ps : List Piece} (h : ∀ p ∈ ps, p.IsFlat) (offset : Nat) :
    ∀ t ∈ tokensFrom offset (ps.flatMap (·.2)), t.piece.IsFlat := by
  induction ps generalizing offset with
  | nil =>
    rw [List.flatMap_nil, tokensFrom]
    exact List.forall_mem_nil _
  | cons p ps ih =>
    obtain ⟨hp, hps⟩ := List.forall_mem_cons.mp h
    rw [List.flatMap_cons]
    cases hp with
    | text hcs =>
      rw [tokensFrom_text hcs]
      exact isFlat_foldr_addChar hcs (ih hps _)
    | reference hraw =>
      rw [tokensFrom_tag hraw]
      exact List.forall_mem_cons.mpr ⟨.reference hraw, ih hps _⟩

section Rendering

variable (c : Item)

theorem renderNodes_text (s : String) (ns : List Node) :
    renderNodes c (.text s :: ns) = (renderNodes c ns).map (s ++ ·) := by
  rw [renderNodes, renderNode]
  cases renderNodes c ns <;> rfl

theorem map_append_append (r : Except RenderError String) (x : Char) (cs : List Char) :
    (r.map (String.ofList cs ++ ·)).map (String.ofList [x] ++ ·) =
      r.map (String.ofList (x :: cs) ++ ·) := by
  have hcons : String.ofList (x :: cs) = String.ofList [x] ++ String.ofList cs := by simp
  rw [hcons]
  cases r with
  | error e => rfl
  | ok t => exact congrArg Except.ok String.append_assoc.symm

/-- A letter in front is rendered in front. -/
theorem renderNodes_addChar (x : Char) (ts : List Token) :
    renderNodes c ((Token.addChar x ts).map fun t => t.piece.node) =
      (renderNodes c (ts.map fun t => t.piece.node)).map (String.ofList [x] ++ ·) := by
  unfold Token.addChar
  split
  · rename_i cs ts
    change renderNodes c (.text (String.ofList (x :: cs)) :: ts.map fun t => t.piece.node) =
      (renderNodes c (.text (String.ofList cs) :: ts.map fun t => t.piece.node)).map
        (String.ofList [x] ++ ·)
    rw [renderNodes_text, renderNodes_text, map_append_append]
  · exact renderNodes_text c _ _

/-- Characters in front of the tokens stand in front of the rendered text. -/
theorem renderNodes_foldr_addChar (cs : List Char) (ts : List Token) :
    renderNodes c ((cs.foldr Token.addChar ts).map fun t => t.piece.node) =
      (renderNodes c (ts.map fun t => t.piece.node)).map (String.ofList cs ++ ·) := by
  induction cs with
  | nil =>
    rw [List.foldr_nil]
    cases renderNodes c (ts.map fun t => t.piece.node) with
    | error e => rfl
    | ok t => exact congrArg Except.ok String.empty_append.symm
  | cons x cs ih => rw [List.foldr_cons, renderNodes_addChar, ih, map_append_append]

/-- Texts that stand side by side are one token, which makes no difference to what is rendered. -/
theorem renderNodes_tokensFrom {ps : List Piece} (h : ∀ p ∈ ps, p.IsFlat) (offset : Nat) :
    renderNodes c ((tokensFrom offset (ps.flatMap (·.2))).map fun t => t.piece.node) =
      renderNodes c (ps.map Piece.node) := by
  induction ps generalizing offset with
  | nil => rw [List.flatMap_nil, tokensFrom, List.map_nil, List.map_nil]
  | cons p ps ih =>
    obtain ⟨hp, hps⟩ := List.forall_mem_cons.mp h
    rw [List.flatMap_cons, List.map_cons]
    cases hp with
    | text hcs =>
      rw [tokensFrom_text hcs, renderNodes_foldr_addChar, ih hps, Piece.node, renderNodes_text]
      intros; contradiction
    | reference hraw =>
      rw [tokensFrom_tag hraw, List.map_cons, renderNodes, renderNodes, ih hps]
      rfl

/-- **A text that is put together of flat pieces is rendered piece by piece.** -/
theorem renderText_textOf {ps : List Piece} (h : ∀ p ∈ ps, p.IsFlat) :
    renderText (textOf ps) c = (renderNodes c (ps.map Piece.node)).mapError .render := by
  rw [renderText, Node.parse, textOf, String.toList_ofList, tokens, ofTokens_flat (isFlat_tokensFrom h 0),
    List.reverse_nil, List.nil_append]
  exact congrArg (Except.mapError Failure.render) (renderNodes_tokensFrom c h 0)

end Rendering

/-! ## One stage -/

/-- What a context makes of a piece: a reference that leads somewhere gives way to a text. -/
def Piece.after (c : Item) : Piece → Piece
  | (some (.reference path), raw) =>
    match shown? c path with
    | some t => (none, t.toList)
    | none => (some (.reference path), raw)
  | p => p

/-- The reference, if the piece is one, can be shown. -/
def Piece.Shown (c : Item) (p : Piece) : Prop :=
  ∀ path, p.1 = some (.reference path) → Shows c path

section Stage

variable {c : Item} {p : Piece} {ps : List Piece}

/-- A flat piece is rendered as what becomes of it. -/
theorem renderNode_node_eq_ok_iff (hp : p.IsFlat) {t : String} :
    renderNode c p.node = .ok t ↔ p.Shown c ∧ t = String.ofList (p.after c).2 := by
  cases hp with
  | text hcs =>
    rename_i cs
    have hshown : Piece.Shown c (none, cs) := by rintro _ ⟨⟩
    change Except.ok (String.ofList cs) = Except.ok t ↔ _ ∧ t = String.ofList cs
    rw [Except.ok.injEq, and_iff_right hshown, eq_comm]
  | reference hraw =>
    rename_i path raw
    have hnode : renderNode c (Piece.node (some (.reference path), raw)) =
        renderReference c path (String.ofList raw) := by
      change renderNode c (Node.reference path (String.ofList raw)) = _
      unfold Node.reference
      split <;> rw [renderNode]
    have hshown : Piece.Shown c (some (.reference path), raw) ↔ Shows c path :=
      ⟨fun h => h path rfl, by rintro h _ ⟨⟩; exact h⟩
    have hafter : String.ofList (Piece.after c (some (.reference path), raw)).2 =
        (shown? c path).getD (String.ofList raw) := by
      rw [Piece.after]
      cases shown? c path with
      | none => rfl
      | some u => exact String.ofList_toList
    rw [hnode, renderReference_eq_ok_iff, hshown, hafter]

/-- So are flat pieces. -/
theorem renderNodes_eq_ok_iff (h : ∀ p ∈ ps, p.IsFlat) {t : String} :
    renderNodes c (ps.map Piece.node) = .ok t ↔
      (∀ p ∈ ps, p.Shown c) ∧ t = textOf (ps.map (Piece.after c)) := by
  induction ps generalizing t with
  | nil =>
    rw [List.map_nil, renderNodes, Except.ok.injEq, and_iff_right (List.forall_mem_nil _), eq_comm]
    rfl
  | cons p ps ih =>
    obtain ⟨hp, hps⟩ := List.forall_mem_cons.mp h
    rw [List.map_cons, renderNodes, Except.bind_eq_ok_iff, List.forall_mem_cons, List.map_cons,
      textOf, List.flatMap_cons, String.ofList_append, ← textOf]
    constructor
    · rintro ⟨u, hu, hrest⟩
      obtain ⟨w, hw, heq⟩ := Except.bind_eq_ok_iff.mp hrest
      obtain ⟨hshown, rfl⟩ := (renderNode_node_eq_ok_iff hp).mp hu
      obtain ⟨hall, rfl⟩ := (ih hps).mp hw
      cases heq
      exact ⟨⟨hshown, hall⟩, rfl⟩
    · rintro ⟨⟨hshown, hall⟩, rfl⟩
      refine ⟨_, (renderNode_node_eq_ok_iff hp).mpr ⟨hshown, rfl⟩, ?_⟩
      rw [(ih hps).mpr ⟨hall, rfl⟩]
      rfl

/-- **One stage** succeeds if every reference can be shown, and then gives what the context makes of
the pieces. -/
theorem renderText_eq_ok_iff (h : ∀ p ∈ ps, p.IsFlat) {t : String} :
    renderText (textOf ps) c = .ok t ↔
      (∀ p ∈ ps, p.Shown c) ∧ t = textOf (ps.map (Piece.after c)) := by
  rw [renderText_textOf c h, Except.mapError_eq_ok_iff, renderNodes_eq_ok_iff h]

/-- If the texts of values hold no opening brace, the pieces stay flat. -/
theorem Piece.IsFlat.after (hp : p.IsFlat)
    (hvalues : ∀ path, p.1 = some (.reference path) → ∀ t ∈ shown? c path, '{' ∉ t.toList) :
    (p.after c).IsFlat := by
  cases hp with
  | text hcs => exact .text hcs
  | reference hraw =>
    rename_i path raw
    have hpath := hvalues path rfl
    rw [Piece.after]
    cases hshown : shown? c path with
    | none => exact .reference hraw
    | some t => exact .text (hpath t hshown)

/-- What is left of a piece is shown by the second context. -/
theorem shown_after_iff {d : Item} : (p.after c).Shown d ↔
    ∀ path, p.1 = some (.reference path) → shown? c path = none → Shows d path := by
  match p with
  | (none, cs) => exact iff_of_true (by rintro _ ⟨⟩) (by rintro _ ⟨⟩)
  | (some (.opening b path), cs) => exact iff_of_true (by rintro _ ⟨⟩) (by rintro _ ⟨⟩)
  | (some (.closing b), cs) => exact iff_of_true (by rintro _ ⟨⟩) (by rintro _ ⟨⟩)
  | (some (.reference path), raw) =>
    rw [Piece.after]
    cases hshown : shown? c path with
    | none =>
      refine ⟨fun h path' heq _ => h path' heq, fun h path' heq => h path' heq ?_⟩
      cases heq
      exact hshown
    | some t => 
      refine iff_of_true (by rintro _ ⟨⟩) ?_
      rintro _ ⟨⟩ hnone
      cases hnone.symm.trans hshown

end Stage

/-! ## Two stages -/

/-- What stands for a token in the end: for a reference what the first context shows, or else what
the second one shows, or else itself. -/
def Token.staged (c d : Item) : Token → String
  | .tag (.reference path) raw _ => ((shown? c path).or (shown? d path)).getD (String.ofList raw)
  | t => String.ofList t.source

/-- The text in which each reference is replaced by what the contexts show. -/
def onePass (c d : Item) (s : String) : String :=
  String.join ((tokens s.toList).map (Token.staged c d))

/-- Two stages of a token are its staged text. -/
theorem ofList_after_after (c d : Item) (t : Token) :
    String.ofList ((t.piece.after c).after d).2 = t.staged c d := by
  match t with
  | .text cs => rfl
  | .tag (.opening b path) raw offset => rfl
  | .tag (.closing b) raw offset => rfl
  | .tag (.reference path) raw offset =>
    rw [Token.piece, Piece.after, Token.staged]
    cases shown? c path with
    | some t => exact String.ofList_toList
    | none =>
      rw [Piece.after]
      cases shown? d path with
      | some t => exact String.ofList_toList
      | none => rfl

/-- One pass is both stages piece by piece. -/
theorem onePass_eq (c d : Item) (s : String) : onePass c d s =
    textOf ((((tokens s.toList).map Token.piece).map (Piece.after c)).map (Piece.after d)) := by
  rw [onePass, textOf]
  induction tokens s.toList with
  | nil => rfl
  | cons t ts ih =>
    rw [List.map_cons, String.join_cons, ih, ← ofList_after_after, List.map_cons, List.map_cons,
      List.map_cons, List.flatMap_cons, String.ofList_append]

/-- A piece that refers is a reference of the text. -/
theorem mem_references {s : String} {p : Piece} (hp : p ∈ (tokens s.toList).map Token.piece)
    {path : List String} (hpath : p.1 = some (.reference path)) : path ∈ references s := by
  obtain ⟨t, ht, rfl⟩ := List.mem_map.mp hp
  refine List.mem_filterMap.mpr ⟨t, ht, ?_⟩
  cases t with
  | text cs => cases hpath
  | tag t raw offset =>
    cases hpath
    rfl

/-- And the other way round. -/
theorem exists_piece_of_mem_references {s : String} {path : List String}
    (h : path ∈ references s) :
    ∃ p ∈ (tokens s.toList).map Token.piece, p.1 = some (.reference path) := by
  obtain ⟨t, ht, hpath⟩ := List.mem_filterMap.mp h
  refine ⟨t.piece, List.mem_map_of_mem ht, ?_⟩
  unfold Token.reference? at hpath
  split at hpath
  · cases hpath
    rfl
  · cases hpath

/-- The text of what the path leads to can be written. -/
def HasText (c : Item) (path : List String) : Prop :=
  ∀ x, c.follow path = .ok (some x) → ∃ t, x.text = .ok t

/-- Every part of a reference is mentioned. -/
theorem shows_of_mentioned {s : String} (h : ∀ part ∈ mentioned s, misplaced? part = none)
    {path : List String} (hpath : path ∈ references s) {c : Item} (htext : HasText c path) :
    Shows c path := by
  obtain ⟨p, hp, heq⟩ := exists_piece_of_mem_references hpath
  obtain ⟨t, ht, rfl⟩ := List.mem_map.mp hp
  have hparts : ∀ part ∈ path, misplaced? part = none :=
    fun part hpart => h part (List.mem_flatMap.mpr ⟨t, ht, by rw [heq]; exact hpart⟩)
  obtain ⟨found, hfound⟩ := exists_follow hparts c
  refine ⟨found, hfound, ?_⟩
  rintro x rfl
  exact htext x hfound

section Twice

variable {c d : Item} {s : String} (hflat : IsFlat s)
  (hvalues : ∀ path ∈ references s, ∀ t ∈ shown? c path, '{' ∉ t.toList)

include hflat hvalues

/-- The tags that the first rendering leaves are those that the second one finds. -/
theorem twice_eq_ok_iff {t : String} : (do renderText (← renderText s c) d) = .ok t ↔
    (∀ path ∈ references s, Shows c path ∧ (shown? c path = none → Shows d path)) ∧
      t = onePass c d s := by
  set ps := (tokens s.toList).map Token.piece with hps
  have hsource : textOf ps = s := textOf_tokens s
  have hfirst : ∀ p ∈ ps, p.IsFlat := List.forall_mem_map.mpr fun t ht => isFlat_piece hflat ht
  have hsecond : ∀ p ∈ ps.map (Piece.after c), p.IsFlat := List.forall_mem_map.mpr fun p hp =>
    (hfirst p hp).after fun path hpath => hvalues path (mem_references hp hpath)
  rw [onePass_eq, ← hps]
  constructor
  · intro h
    obtain ⟨u, hu, ht⟩ := Except.bind_eq_ok_iff.mp h
    rw [← hsource] at hu
    obtain ⟨hc, rfl⟩ := (renderText_eq_ok_iff hfirst).mp hu
    obtain ⟨hd, rfl⟩ := (renderText_eq_ok_iff hsecond).mp ht
    refine ⟨fun path hpath => ?_, rfl⟩
    obtain ⟨p, hp, heq⟩ := exists_piece_of_mem_references hpath
    exact ⟨hc p hp path heq, shown_after_iff.mp (hd _ (List.mem_map_of_mem hp)) path heq⟩
  · rintro ⟨hshows, rfl⟩
    have hc : ∀ p ∈ ps, p.Shown c := fun p hp path heq => (hshows path (mem_references hp heq)).1
    have hd : ∀ p ∈ ps.map (Piece.after c), p.Shown d :=
      List.forall_mem_map.mpr fun p hp => shown_after_iff.mpr fun path heq =>
        (hshows path (mem_references hp heq)).2
    refine Except.bind_eq_ok_iff.mpr ⟨_, ?_, (renderText_eq_ok_iff hsecond).mpr ⟨hd, rfl⟩⟩
    rw [← hsource]
    exact (renderText_eq_ok_iff hfirst).mpr ⟨hc, rfl⟩

/-- **Rendering in stages.**  A flat text is rendered in a context whose values hold no opening
brace, and the result in another one.  This gives a text exactly if every reference can be shown in
the context that it is left to, and the text has for each reference what the contexts show.  It
gives one whenever no part of a path is made of digits and no number, and what the paths lead to has
a text. -/
theorem renderText_twice :
    (∀ t, (do renderText (← renderText s c) d) = .ok t ↔
      (∀ path ∈ references s, Shows c path ∧ (shown? c path = none → Shows d path)) ∧
        t = onePass c d s) ∧
    ((∀ part ∈ mentioned s, misplaced? part = none) →
      (∀ path ∈ references s, HasText c path ∧ (shown? c path = none → HasText d path)) →
        (do renderText (← renderText s c) d) = .ok (onePass c d s)) := by
  refine ⟨fun t => twice_eq_ok_iff hflat hvalues, fun hparts htexts => ?_⟩
  refine (twice_eq_ok_iff hflat hvalues).mpr ⟨fun path hpath => ?_, rfl⟩
  obtain ⟨hc, hd⟩ := htexts path hpath
  exact ⟨shows_of_mentioned hparts hpath hc,
    fun hnone => shows_of_mentioned hparts hpath (hd hnone)⟩

end Twice

/-- A value beside a brace, one of the second context, and a tag that stays. -/
theorem renderText_twice_note :
    let s := r"}{{ a }}}-{{b.0}}{{c}}"
    let c : Item := .record [("a", .value (.text r"x}"))]
    let d : Item := .record [("a", .value (.int 1)), ("b", .list [.value (.bool true)])]
    IsFlat s ∧ (∀ path ∈ references s, ∀ t ∈ shown? c path, '{' ∉ t.toList) ∧
      (∀ part ∈ mentioned s, misplaced? part = none) ∧
      (∀ path ∈ references s, HasText c path ∧ (shown? c path = none → HasText d path)) ∧
      (do renderText (← renderText s c) d) = .ok r"}x}}-true{{c}}" := by
  intro s c d
  have htokens : tokens s.toList = [.text ['}'], .tag (.reference ["a"]) r"{{ a }}".toList 1,
      .text ['}', '-'], .tag (.reference ["b", "0"]) r"{{b.0}}".toList 10,
      .tag (.reference ["c"]) r"{{c}}".toList 17] := by
    decide +kernel
  have hreferences : references s = [["a"], ["b", "0"], ["c"]] := by rw [references, htokens]; rfl
  have hflat : IsFlat s := by
    rw [IsFlat, htokens]
    simp
  have hvalues : ∀ path ∈ references s, ∀ t ∈ shown? c path, '{' ∉ t.toList := by
    rw [hreferences]
    decide
  have hparts : ∀ part ∈ mentioned s, misplaced? part = none := by
    rw [mentioned, htokens]
    decide
  have htexts : ∀ path ∈ references s,
      HasText c path ∧ (shown? c path = none → HasText d path) := by
    rw [hreferences]
    simp only [List.forall_mem_cons]
    refine ⟨⟨?_, fun hnone => absurd hnone (by decide)⟩, ⟨?_, fun _ => ?_⟩, ⟨?_, fun _ => ?_⟩,
      List.forall_mem_nil _⟩
    all_goals rintro x ⟨⟩
    all_goals exact ⟨_, rfl⟩
  refine ⟨hflat, hvalues, hparts, htexts, ((renderText_twice hflat hvalues).2 hparts htexts).trans ?_⟩
  rw [onePass, htokens]
  rfl

/-! ## An index of too many digits -/

/-- A number that is made of ones. -/
def ones (n : Nat) : String := String.ofList (List.replicate n '1')

theorem eq_of_mem_ones {n : Nat} {x : Char} (h : x ∈ (ones n).toList) : x = '1' := by
  rw [ones, String.toList_ofList] at h
  exact List.eq_of_mem_replicate h

theorem ones_ne_empty {n : Nat} (h : 0 < n) : ones n ≠ "" := by
  intro hempty
  have hlist : List.replicate n '1' = [] := by
    rw [← String.toList_ofList (l := List.replicate n '1'), ← ones, hempty]
    rfl
  exact absurd ((List.replicate_eq_nil_iff '1').mp hlist) (Nat.ne_of_gt h)

theorem isIndex_ones {n : Nat} (h : 0 < n) : isIndex (ones n) = true := by
  refine Bool.and_eq_true_iff.mpr ⟨decide_eq_true (ones_ne_empty h), List.all_eq_true.mpr ?_⟩
  intro x hx
  rw [eq_of_mem_ones hx]
  decide

/-- A segment of too many digits is misplaced. -/
theorem misplaced?_ones {n : Nat} (h : Numeral.digitLimit < n) :
    misplaced? (ones n) = some (.excessive n) := by
  have hall : ∀ x ∈ (ones n).toList, (decimalValue? x).isSome = true := by
    intro x hx
    rw [eq_of_mem_ones hx]
    decide
  have htake : (ones n).toList.takeWhile (fun c => (decimalValue? c).isSome) = (ones n).toList := by
    rw [← List.append_nil (ones n).toList, List.takeWhile_append_of_pos hall, List.takeWhile_nil]
  have hlength : (ones n).toList.length = n := by
    rw [ones, String.toList_ofList, List.length_replicate]
  rw [misplaced?, isIndex_ones (Nat.zero_lt_of_lt h), htake, hlength]
  exact if_pos h

theorem isPath_ones {n : Nat} (h : 0 < n) : IsPath ["a", ones n] where
  names := by
    refine List.forall_mem_cons.mpr ⟨by decide, List.forall_mem_singleton.mpr ⟨ones_ne_empty h, ?_⟩⟩
    intro x hx
    rw [eq_of_mem_ones hx]
    decide
  starts := ⟨'a', '.' :: (ones n).toList, rfl, by decide⟩

/-- No such segment can be followed into a list. -/
theorem follow_ones {n : Nat} (h : Numeral.digitLimit < n) :
    Item.follow (.record [("a", .list [])]) ["a", ones n] = .error (.excessive n) := by
  have hindex := isIndex_ones (Nat.zero_lt_of_lt h)
  have hpart : (Item.list []).part (ones n) = .error (.excessive n) := by
    change (if isIndex (ones n) then (Item.indexOf (ones n)).map _ else _) = _
    rw [hindex, if_pos rfl, indexOf_eq hindex, misplaced?_ones h]
    rfl
  change (Item.list []).follow [ones n] = _
  rw [Item.follow, hpart]

/-- With too many digits a tag stays where there is no list, and ends the rendering where there is
one. -/
theorem renderText_ones {n : Nat} (h : Numeral.digitLimit < n) {s : String}
    (hs : s = (Tag.reference ["a", ones n]).print) {c d : Item} (hc : c = .record [])
    (hd : d = .record [("a", .list [])]) :
    IsFlat s ∧ (∀ path ∈ references s, ∀ t ∈ shown? c path, '{' ∉ t.toList) ∧
      (∀ part ∈ mentioned s, ∀ x ∈ part.toList, isDigit x = true → isPlainDigit x = true) ∧
      onePass c d s = s ∧
      (do renderText (← renderText s c) d) = .error (.render (.excessive n)) := by
  have hpath : IsPath ["a", ones n] := isPath_ones (Nat.zero_lt_of_lt h)
  have htokens : tokens s.toList = [.tag (.reference ["a", ones n]) s.toList 0] := by
    rw [hs]
    exact tokens_print_reference hpath
  have hparse : Node.parse s = .ok [.path ["a", ones n] s] := by
    rw [hs]
    exact parse_print_reference hpath
  have hcfollow : c.follow ["a", ones n] = .ok none := by
    rw [hc]
    rfl
  have hdfollow : d.follow ["a", ones n] = .error (.excessive n) := by
    rw [hd]
    exact follow_ones h
  have hcshown : shown? c ["a", ones n] = none := by rw [shown?, hcfollow]
  have hdshown : shown? d ["a", ones n] = none := by rw [shown?, hdfollow]
  refine ⟨?_, ?_, ?_, ?_, ?_⟩
  · rw [IsFlat, htokens]
    exact List.forall_mem_singleton.mpr ⟨_, rfl⟩
  · rw [references, htokens]
    refine List.forall_mem_singleton.mpr ?_
    rw [hcshown]
    rintro _ ⟨⟩
  · have hmentioned : mentioned s = ["a", ones n] := by
      rw [mentioned, htokens]
      rfl
    rw [hmentioned]
    refine List.forall_mem_cons.mpr ⟨by decide, List.forall_mem_singleton.mpr fun x hx => ?_⟩
    rw [eq_of_mem_ones hx]
    decide
  · rw [onePass, htokens, List.map_singleton, Token.staged, hcshown, hdshown]
    simp
  · have hfirst : renderText s c = .ok s := by
      rw [renderText, hparse]
      simp only [renderNodes, renderNode, renderReference, hcfollow]
      exact congrArg Except.ok String.append_empty
    have hsecond : renderText s d = .error (.render (.excessive n)) := by
      rw [renderText, hparse]
      simp only [renderNodes, renderNode, renderReference, hdfollow]
      rfl
    rw [hfirst]
    exact hsecond

/-- No value has a brace and every digit is an ASCII digit, but the second rendering fails. -/
theorem not_renders_twice :
    ∃ s c d, s = (Tag.reference ["a", ones 4301]).print ∧ c = Item.record [] ∧
      d = Item.record [("a", .list [])] ∧
      IsFlat s ∧ (∀ path ∈ references s, ∀ t ∈ shown? c path, '{' ∉ t.toList) ∧
      (∀ part ∈ mentioned s, ∀ x ∈ part.toList, isDigit x = true → isPlainDigit x = true) ∧
      onePass c d s = s ∧
      (do renderText (← renderText s c) d) = .error (.render (.excessive 4301)) := by
  refine ⟨_, _, _, rfl, rfl, rfl, renderText_ones ?_ rfl rfl rfl⟩
  decide

end Scaffold.Template
