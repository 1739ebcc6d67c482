import Scaffold.Proofs.Outcome
import Scaffold.Template.Render

/-!
# Proofs/Template/Typing — a template whose names are all known never fails

A scope gives each name a kind: a text, a flag, or rows of texts.  A template that uses every name
by its kind renders in every context of that scope (`exists_renderNodes`), since only an index into
a list and the text of an entity can fail, and it has neither.  None of its tags leads nowhere
(`allResolve_of_areTyped`).

What it renders to is a relation between the context, the nodes and the text (`Renders`), with the
scope and the failures left behind; a property of rendered texts is an induction on it.
-/

namespace Scaffold.Template

open Document

/-- What a name of a template stands for. -/
inductive Kind where
  | text
  | flag
  /-- A list of records whose members are all texts. -/
  | rows (members : List String)
  /-- Something that a template does not use. -/
  | other
deriving DecidableEq, Repr

/-- Names with their kinds; the first of a name counts. -/
abbrev Scope := List (String × Kind)

/-- The names inside an each-block over rows. -/
def Scope.inside (s : Scope) (members : List String) : Scope :=
  ("this", .other) :: (members.map (·, Kind.text) ++ s)

mutual

/-- The node uses every name by its kind. -/
def Node.isTyped (s : Scope) : Node → Bool
  | .text _ => true
  | .name n _ => s.lookup n == some .text
  | .ifBlock [n] _ body _ => s.lookup n == some .flag && Node.areTyped s body
  | .eachBlock [n] _ body _ =>
    match s.lookup n with
    | some (.rows members) => Node.areTyped (s.inside members) body
    | _ => false
  | _ => false

def Node.areTyped (s : Scope) : List Node → Bool
  | [] => true
  | n :: ns => n.isTyped s && Node.areTyped s ns

end

/-! ## Contexts of a scope -/

variable {P : String → Prop}

/-- The item is of a kind, and `P` holds of every text in it. -/
inductive HasKind (P : String → Prop) : Item → Kind → Prop where
  | text {s : String} : P s → HasKind P (.value (.text s)) .text
  | flag (b : Bool) : HasKind P (.value (.bool b)) .flag
  | rows {members : List String} {items : List Item} :
    (∀ x ∈ items, ∃ row : List (String × Item), x = .record row ∧ row.map (·.1) = members ∧
      ∀ e ∈ row, ∃ s, e.2 = .value (.text s) ∧ P s) → HasKind P (.list items) (.rows members)
  | other (x : Item) : HasKind P x .other

/-- The context has the names of the scope in its order, each of its kind. -/
def Fits (P : String → Prop) (s : Scope) (context : List (String × Item)) : Prop :=
  List.Forall₂ (fun k e => k.1 = e.1 ∧ HasKind P e.2 k.2) s context

/-- A name of the scope is found in a context that fits. -/
theorem Fits.lookup {s : Scope} {context : List (String × Item)} (h : Fits P s context) {n : String}
    {k : Kind} (hn : s.lookup n = some k) : ∃ x, context.lookup n = some x ∧ HasKind P x k := by
  induction h with
  | nil => cases hn
  | @cons e f s context hef _ ih =>
    obtain ⟨hname, hkind⟩ := hef
    rw [List.lookup_cons] at hn ⊢
    rw [← hname]
    split at hn
    · rw [← Option.some.inj hn]
      exact ⟨f.2, rfl, hkind⟩
    · exact ih hn

/-- An item of a list of rows opens a scope of its own. -/
theorem Fits.inside {s : Scope} {context : List (String × Item)} (h : Fits P s context)
    {row : List (String × Item)} (hrow : ∀ e ∈ row, ∃ t, e.2 = .value (.text t) ∧ P t) :
    Fits P (s.inside (row.map (·.1))) (("this", .record row) :: (row ++ context)) := by
  refine List.Forall₂.cons ⟨rfl, .other _⟩ ?_
  induction row with
  | nil => exact h
  | cons e row ih =>
    obtain ⟨t, ht, hP⟩ := hrow e List.mem_cons_self
    refine List.Forall₂.cons ⟨rfl, ?_⟩ (ih fun f hf => hrow f (List.mem_cons_of_mem e hf))
    rw [ht]
    exact .text hP

/-! ## Following a name -/

theorem follow_of_lookup {context : List (String × Item)} {n : String} {x : Item}
    (hx : context.lookup n = some x) (hnull : x.isNull = false) :
    (Item.record context).follow [n] = .ok (some x) := by
  simp [Item.follow, Item.part, hx, hnull]

theorem renderReference_of_lookup {context : List (String × Item)} {n t : String}
    (ht : context.lookup n = some (.value (.text t))) (raw : String) :
    renderReference (.record context) [n] raw = .ok t := by
  rw [renderReference, follow_of_lookup ht rfl]
  rfl

section Lookup

variable {s : Scope} {context : List (String × Item)} (h : Fits P s context)
include h

theorem Fits.lookup_text {n : String} (hn : s.lookup n = some .text) :
    ∃ t, context.lookup n = some (.value (.text t)) ∧ P t := by
  obtain ⟨x, hx, hk⟩ := h.lookup hn
  cases hk with
  | text hP => exact ⟨_, hx, hP⟩

theorem Fits.lookup_flag {n : String} (hn : s.lookup n = some .flag) :
    ∃ b, context.lookup n = some (.value (.bool b)) := by
  obtain ⟨x, hx, hk⟩ := h.lookup hn
  cases hk with
  | flag b => exact ⟨b, hx⟩

/-- A name of rows is found as a list. -/
theorem Fits.lookup_rows {n : String} {members : List String}
    (hn : s.lookup n = some (.rows members)) :
    ∃ items, context.lookup n = some (.list items) ∧ HasKind P (.list items) (.rows members) := by
  obtain ⟨x, hx, hk⟩ := h.lookup hn
  cases hk with
  | rows hrows => exact ⟨_, hx, .rows hrows⟩

end Lookup

/-- The scope of an item is a context of the inner scope. -/
theorem Fits.itemScope {s : Scope} {context : List (String × Item)} (h : Fits P s context)
    {items : List Item} {members : List String} (hk : HasKind P (.list items) (.rows members))
    {x : Item} (hx : x ∈ items) :
    ∃ inner, Template.itemScope (.record context) x = .record inner ∧
      Fits P (s.inside members) inner := by
  cases hk with
  | rows hrows =>
    obtain ⟨row, rfl, rfl, hrow⟩ := hrows x hx
    exact ⟨_, rfl, h.inside hrow⟩

/-! ## Typed nodes -/

theorem Node.areTyped_cons_iff {s : Scope} {n : Node} {ns : List Node} :
    Node.areTyped s (n :: ns) = true ↔ n.isTyped s = true ∧ Node.areTyped s ns = true := by
  rw [Node.areTyped, Bool.and_eq_true]

/-- A condition is typed if it asks for a flag. -/
theorem Node.isTyped_ifBlock_iff {s : Scope} {path : List String} {opener closer : String}
    {body : List Node} : (Node.ifBlock path opener body closer).isTyped s = true ↔
      ∃ n, path = [n] ∧ s.lookup n = some .flag ∧ Node.areTyped s body = true := by
  match path with
  | [n] => simp [Node.isTyped]
  | [] => simp [Node.isTyped]
  | _ :: _ :: _ => simp [Node.isTyped]

/-- A repetition is typed if it goes through rows. -/
theorem Node.isTyped_eachBlock_iff {s : Scope} {path : List String} {opener closer : String}
    {body : List Node} : (Node.eachBlock path opener body closer).isTyped s = true ↔
      ∃ n members, path = [n] ∧ s.lookup n = some (.rows members) ∧
        Node.areTyped (s.inside members) body = true := by
  match path with
  | [n] =>
    rw [Node.isTyped]
    split
    · rename_i members hrows
      simp [hrows]
    · rename_i hother
      simp only [Bool.false_eq_true, false_iff]
      rintro ⟨_, members, ⟨⟩, hrows, -⟩
      exact hother members hrows
  | [] => simp [Node.isTyped]
  | _ :: _ :: _ => simp [Node.isTyped]

/-! ## What a typed template renders to -/

mutual

/-- Nodes that use names by their kinds render to a text: a reference to a text of which `P` holds,
and a block to what its flag or its rows make of its body. -/
inductive Renders (P : String → Prop) : List (String × Item) → List Node → String → Prop where
  | nil {context : List (String × Item)} : Renders P context [] ""
  | text {context : List (String × Item)} {ns : List Node} {t : String} (s : String) :
    Renders P context ns t → Renders P context (.text s :: ns) (s ++ t)
  | name {context : List (String × Item)} {ns : List Node} {n raw s t : String} :
    context.lookup n = some (.value (.text s)) → P s → Renders P context ns t →
      Renders P context (.name n raw :: ns) (s ++ t)
  | present {context : List (String × Item)} {body ns : List Node} {n opener closer s t : String} :
    context.lookup n = some (.value (.bool true)) → Renders P context body s →
      Renders P context ns t → Renders P context (.ifBlock [n] opener body closer :: ns) (s ++ t)
  | absent {context : List (String × Item)} {body ns : List Node} {n opener closer t : String} :
    context.lookup n = some (.value (.bool false)) → Renders P context ns t →
      Renders P context (.ifBlock [n] opener body closer :: ns) t
  | rows {context : List (String × Item)} {items : List Item} {body ns : List Node}
    {n opener closer s t : String} :
    context.lookup n = some (.list items) → RendersEach P context body items s →
      Renders P context ns t → Renders P context (.eachBlock [n] opener body closer :: ns) (s ++ t)

/-- A body renders to a text for the items one after the other. -/
inductive RendersEach (P : String → Prop) :
    List (String × Item) → List Node → List Item → String → Prop where
  | nil {context : List (String × Item)} {body : List Node} : RendersEach P context body [] ""
  | cons {context inner : List (String × Item)} {body : List Node} {x : Item} {items : List Item}
    {s t : String} : itemScope (.record context) x = .record inner → Renders P inner body s →
      RendersEach P context body items t → RendersEach P context body (x :: items) (s ++ t)

end

/-- Rows that are rendered one by one are rendered together. -/
theorem exists_rendersEach {context : List (String × Item)} {body : List Node} {items : List Item}
    (h : ∀ x ∈ items, ∃ inner s,
      itemScope (.record context) x = .record inner ∧ Renders P inner body s) :
    ∃ t, RendersEach P context body items t := by
  induction items with
  | nil => exact ⟨"", .nil⟩
  | cons x items ih =>
    obtain ⟨⟨inner, s, hinner, hs⟩, hrest⟩ := List.forall_mem_cons.mp h
    obtain ⟨t, ht⟩ := ih hrest
    exact ⟨s ++ t, .cons hinner hs ht⟩

/-- **Typed nodes render in every context of their scope.** -/
theorem exists_renders : ∀ (ns : List Node) {s : Scope} {context : List (String × Item)},
    Fits P s context → Node.areTyped s ns = true → ∃ t, Renders P context ns t
  | [], _, _, _, _ => ⟨"", .nil⟩
  | .text u :: ns, _, _, h, htyped => by
    obtain ⟨-, hns⟩ := Node.areTyped_cons_iff.mp htyped
    obtain ⟨t, ht⟩ := exists_renders ns h hns
    exact ⟨u ++ t, .text u ht⟩
  | .name n raw :: ns, _, _, h, htyped => by
    obtain ⟨hn, hns⟩ := Node.areTyped_cons_iff.mp htyped
    obtain ⟨t, ht⟩ := exists_renders ns h hns
    obtain ⟨u, hu, hP⟩ := h.lookup_text (by simpa [Node.isTyped] using hn)
    exact ⟨u ++ t, .name hu hP ht⟩
  | .path _ _ :: _, _, _, _, htyped => by simp [Node.areTyped, Node.isTyped] at htyped
  | .ifBlock path _ body _ :: ns, _, _, h, htyped => by
    obtain ⟨hn, hns⟩ := Node.areTyped_cons_iff.mp htyped
    obtain ⟨n, rfl, hflag, hbody⟩ := Node.isTyped_ifBlock_iff.mp hn
    obtain ⟨t, ht⟩ := exists_renders ns h hns
    obtain ⟨b, hb⟩ := h.lookup_flag hflag
    cases b with
    | true =>
      obtain ⟨u, hu⟩ := exists_renders body h hbody
      exact ⟨u ++ t, .present hb hu ht⟩
    | false => exact ⟨t, .absent hb ht⟩
  | .eachBlock path _ body _ :: ns, _, context, h, htyped => by
    obtain ⟨hn, hns⟩ := Node.areTyped_cons_iff.mp htyped
    obtain ⟨n, members, rfl, hrows, hbody⟩ := Node.isTyped_eachBlock_iff.mp hn
    obtain ⟨t, ht⟩ := exists_renders ns h hns
    obtain ⟨items, hitems, hk⟩ := h.lookup_rows hrows
    have hitem : ∀ x ∈ items, ∃ inner s,
        itemScope (.record context) x = .record inner ∧ Renders P inner body s := by
      intro x hx
      obtain ⟨inner, hinner, hfits⟩ := h.itemScope hk hx
      obtain ⟨s, hs⟩ := exists_renders body hfits hbody
      exact ⟨inner, s, hinner, hs⟩
    obtain ⟨u, hu⟩ := exists_rendersEach hitem
    exact ⟨u ++ t, .rows hitems hu ht⟩

mutual

/-- What typed nodes render to is their text. -/
theorem Renders.renderNodes_eq : ∀ {context : List (String × Item)} {ns : List Node} {t : String},
    Renders P context ns t → renderNodes (.record context) ns = .ok t
  | _, _, _, .nil => rfl
  | _, _, _, .text s h => by
    rw [renderNodes, renderNode, h.renderNodes_eq]
    rfl
  | _, _, _, .name hs _ h => by
    rw [renderNodes, renderNode, renderReference_of_lookup hs, h.renderNodes_eq]
    rfl
  | _, _, _, .present hflag hbody h => by
    rw [renderNodes, renderNode, follow_of_lookup hflag rfl, h.renderNodes_eq]
    dsimp only
    rw [if_pos (show (Item.value (.bool true)).isTruthy = true from rfl), hbody.renderNodes_eq]
    rfl
  | _, _, t, .absent hflag h => by
    rw [renderNodes, renderNode, follow_of_lookup hflag rfl, h.renderNodes_eq]
    exact congrArg Except.ok t.empty_append
  | _, _, _, .rows hitems hbody h => by
    obtain ⟨ts, hts, rfl⟩ := hbody.mapM_eq
    rw [renderNodes, renderNode, follow_of_lookup hitems rfl, h.renderNodes_eq]
    simp only [Item.repeated, hts]
    rfl

/-- They are rendered as their texts in order. -/
theorem RendersEach.mapM_eq : ∀ {context : List (String × Item)} {body : List Node}
    {items : List Item} {t : String}, RendersEach P context body items t →
    ∃ ts, items.mapM (fun x => renderNodes (itemScope (.record context) x) body) = .ok ts ∧
      String.join ts = t
  | _, _, _, _, .nil => ⟨[], rfl, rfl⟩
  | _, _, _, _, .cons (s := s) hinner hs h => by
    obtain ⟨ts, hts, rfl⟩ := h.mapM_eq
    refine ⟨s :: ts, ?_, String.join_cons⟩
    rw [List.mapM_cons, hinner, hs.renderNodes_eq, hts]
    rfl

end

/-- **A typed template renders in every context of its scope.** -/
theorem exists_renderNodes (ns : List Node) {s : Scope} {context : List (String × Item)}
    (h : Fits P s context) (htyped : Node.areTyped s ns = true) :
    ∃ t, renderNodes (.record context) ns = .ok t := by
  obtain ⟨t, ht⟩ := exists_renders ns h htyped
  exact ⟨t, ht.renderNodes_eq⟩

/-- Typed nodes are rendered as the relation says. -/
theorem renders_of_renderNodes {ns : List Node} {s : Scope} {context : List (String × Item)}
    {t : String} (h : Fits P s context) (htyped : Node.areTyped s ns = true)
    (hrender : renderNodes (.record context) ns = .ok t) : Renders P context ns t := by
  obtain ⟨u, hu⟩ := exists_renders ns h htyped
  cases hrender.symm.trans hu.renderNodes_eq
  exact hu

/-! ## Tags that lead somewhere -/

mutual

/-- Every tag that is come upon leads somewhere, and that of an each-block to a list. -/
def Node.Resolves (context : Item) : Node → Prop
  | .text _ => True
  | .name n _ => ∃ x, context.follow [n] = .ok (some x)
  | .path parts _ => ∃ x, context.follow parts = .ok (some x)
  | .ifBlock parts _ body _ =>
    ∃ x, context.follow parts = .ok (some x) ∧ (x.isTruthy = true → Node.AllResolve context body)
  | .eachBlock parts _ body _ =>
    ∃ items, context.follow parts = .ok (some (.list items)) ∧
      ∀ x ∈ items, Node.AllResolve (itemScope context x) body

def Node.AllResolve (context : Item) : List Node → Prop
  | [] => True
  | n :: ns => n.Resolves context ∧ Node.AllResolve context ns

end

mutual

/-- All they refer to is there. -/
theorem Renders.allResolve : ∀ {context : List (String × Item)} {ns : List Node} {t : String},
    Renders P context ns t → Node.AllResolve (.record context) ns
  | _, _, _, .nil => by
    rw [Node.AllResolve]
    trivial
  | _, _, _, .text _ h => by
    rw [Node.AllResolve, Node.Resolves]
    exact ⟨trivial, h.allResolve⟩
  | _, _, _, .name hs _ h => by
    rw [Node.AllResolve, Node.Resolves]
    exact ⟨⟨_, follow_of_lookup hs rfl⟩, h.allResolve⟩
  | _, _, _, .present hflag hbody h => by
    rw [Node.AllResolve, Node.Resolves]
    exact ⟨⟨_, follow_of_lookup hflag rfl, fun _ => hbody.allResolve⟩, h.allResolve⟩
  | _, _, _, .absent hflag h => by
    rw [Node.AllResolve, Node.Resolves]
    exact ⟨⟨_, follow_of_lookup hflag rfl, nofun⟩, h.allResolve⟩
  | _, _, _, .rows hitems hbody h => by
    rw [Node.AllResolve, Node.Resolves]
    exact ⟨⟨_, follow_of_lookup hitems rfl, hbody.allResolve⟩, h.allResolve⟩

theorem RendersEach.allResolve : ∀ {context : List (String × Item)} {body : List Node}
    {items : List Item} {t : String}, RendersEach P context body items t →
    ∀ x ∈ items, Node.AllResolve (itemScope (.record context) x) body
  | _, _, _, _, .nil => List.forall_mem_nil _
  | _, _, _, _, .cons hinner hs h => List.forall_mem_cons.mpr ⟨hinner ▸ hs.allResolve, h.allResolve⟩

end

/-- **No tag of a typed template is left as it is** in a context of its scope. -/
theorem allResolve_of_areTyped (ns : List Node) {s : Scope} {context : List (String × Item)}
    (h : Fits P s context) (htyped : Node.areTyped s ns = true) :
    Node.AllResolve (.record context) ns := by
  obtain ⟨t, ht⟩ := exists_renders ns h htyped
  exact ht.allResolve

end Scaffold.Template
