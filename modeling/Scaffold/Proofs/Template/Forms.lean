import Scaffold.Proofs.Template.Library

/-!
# Proofs/Template/Forms — what a template of names, flags and lists says

A `Form` is a template of texts, holes, and blocks that hang on one name each.  Its tokens are read
back as its nodes (`ofTokens_tokens`), and its nodes are rendered to what it says (`fill`) wherever
the names fit their uses (`renderNodes_nodes`).  So a template of the library whose tokens begin with
those of some forms says what the forms say (`Library.render_of_forms`), and one whose tokens show a
name between two texts (`showsWithin`) puts the value of the name between them
(`Library.exists_render_between`).
-/

namespace Scaffold.Template

open Text

/-! ## Forms -/

/-- A part of a template that uses names only. -/
inductive Form where
  | text (s : String)
  | hole (name : String)
  /-- Kept if the flag of that name is set. -/
  | kept (flag : String) (body : List Form)
  /-- Repeated for each row of the list of that name. -/
  | repeated (list : String) (body : List Form)

namespace Form

mutual

/-- The node that a form is read as. -/
def node : Form → Node
  | text s => .text s
  | hole n => .name n (r"{{" ++ n ++ r"}}")
  | kept n body => .ifBlock [n] (r"{{#if " ++ n ++ r"}}") (nodes body) r"{{/if}}"
  | repeated n body => .eachBlock [n] (r"{{#each " ++ n ++ r"}}") (nodes body) r"{{/each}}"

def nodes : List Form → List Node
  | [] => []
  | f :: fs => f.node :: nodes fs

end

mutual

/-- The tokens of a form, with no regard to where they stand. -/
def tokens : Form → List Token
  | text s => [.text s.toList]
  | hole n => [.tag (.reference [n]) (r"{{" ++ n ++ r"}}").toList 0]
  | kept n body =>
    .tag (.opening .ifBlock [n]) (r"{{#if " ++ n ++ r"}}").toList 0 ::
      (allTokens body ++ [.tag (.closing .ifBlock) r"{{/if}}".toList 0])
  | repeated n body =>
    .tag (.opening .eachBlock [n]) (r"{{#each " ++ n ++ r"}}").toList 0 ::
      (allTokens body ++ [.tag (.closing .eachBlock) r"{{/each}}".toList 0])

def allTokens : List Form → List Token
  | [] => []
  | f :: fs => f.tokens ++ allTokens fs

end

end Form

/-! ## Reading a form -/

/-- The token without the place where it stands. -/
def Token.placeless : Token → Token
  | .text cs => .text cs
  | .tag t raw _ => .tag t raw 0

namespace Node

/-- Where the tokens stand matters to complaints only. -/
theorem ofTokens_placeless {stack : List Frame} {before ns : List Node} {ts : List Token}
    (h : ofTokens stack before ts = .ok ns) :
    ofTokens stack before (ts.map Token.placeless) = .ok ns := by
  fun_induction ofTokens stack before ts with
  | case1 => exact h
  | case2 => cases h
  | case3 stack before cs ts ih => exact ih h
  | case4 stack before parts raw offset ts ih => exact ih h
  | case5 stack before b parts raw offset ts ih => exact ih h
  | case6 => cases h
  | case7 before raw offset ts f rest ih =>
    rw [List.map_cons, Token.placeless, ofTokens, if_pos rfl]
    exact ih h
  | case8 => cases h

mutual

/-- The tokens of a form are parsed as its node. -/
theorem ofTokens_tokens (stack : List Frame) (before : List Node) (ts : List Token) :
    ∀ f : Form, ofTokens stack before (f.tokens ++ ts) = ofTokens stack (f.node :: before) ts
  | .text s => by rw [Form.tokens, Form.node, List.singleton_append, ofTokens, String.ofList_toList]
  | .hole n => by
    rw [Form.tokens, Form.node, List.singleton_append, ofTokens, String.ofList_toList, reference]
  | .kept n body => by
    rw [Form.tokens, Form.node, List.cons_append, List.append_assoc, List.singleton_append,
      ofTokens, String.ofList_toList, ofTokens_allTokens _ _ _ body, ofTokens, if_pos rfl,
      List.append_nil, List.reverse_reverse, String.ofList_toList, block]
  | .repeated n body => by
    rw [Form.tokens, Form.node, List.cons_append, List.append_assoc, List.singleton_append,
      ofTokens, String.ofList_toList, ofTokens_allTokens _ _ _ body, ofTokens, if_pos rfl,
      List.append_nil, List.reverse_reverse, String.ofList_toList, block]

/-- The tokens of forms are parsed as their nodes. -/
theorem ofTokens_allTokens (stack : List Frame) (before : List Node) (ts : List Token) :
    ∀ fs : List Form, ofTokens stack before (Form.allTokens fs ++ ts) =
      ofTokens stack ((Form.nodes fs).reverse ++ before) ts
  | [] => rfl
  | f :: fs => by
    rw [Form.allTokens, Form.nodes, List.append_assoc, ofTokens_tokens stack before _ f,
      ofTokens_allTokens stack _ ts fs, List.reverse_cons, List.append_assoc,
      List.singleton_append]

end

/-- The nodes before the outermost block that is open. -/
def outermost (stack : List Frame) (before : List Node) : List Node :=
  (stack.getLast?.map Frame.before).getD before

theorem outermost_cons (f : Frame) (stack : List Frame) (before : List Node) :
    outermost (f :: stack) before = outermost stack f.before := by
  cases stack with
  | nil => rfl
  | cons g stack => simp [outermost, List.getLast?_cons]

theorem outermost_push (stack : List Frame) (n : Node) (before : List Node) :
    ∃ ms, (outermost stack (n :: before)).reverse = (outermost stack before).reverse ++ ms := by
  cases stack with
  | nil => exact ⟨[n], List.reverse_cons⟩
  | cons f stack => exact ⟨[], by rw [outermost_cons, outermost_cons, List.append_nil]⟩

/-- What was read before any block was opened stays in front. -/
theorem exists_nodes_of_ofTokens {stack : List Frame} {before ns : List Node} {ts : List Token}
    (h : ofTokens stack before ts = .ok ns) :
    ∃ ms, ns = (outermost stack before).reverse ++ ms := by
  -- one more node before the innermost block that is open
  have push {stack : List Frame} {n : Node} {before : List Node}
      (h : ∃ ms, ns = (outermost stack (n :: before)).reverse ++ ms) :
      ∃ ms, ns = (outermost stack before).reverse ++ ms := by
    obtain ⟨ms, hms⟩ := h
    obtain ⟨ks, hks⟩ := outermost_push stack n before
    exact ⟨ks ++ ms, by rw [hms, hks, List.append_assoc]⟩
  fun_induction ofTokens stack before ts with
  | case1 before =>
    cases h
    exact ⟨[], (List.append_nil _).symm⟩
  | case2 => cases h
  | case3 stack before cs ts ih => exact push (ih h)
  | case4 stack before parts raw offset ts ih => exact push (ih h)
  | case5 stack before b parts raw offset ts ih =>
    rw [← outermost_cons ⟨b, parts, String.ofList raw, before⟩ stack []]
    exact ih h
  | case6 => cases h
  | case7 before raw offset ts f rest ih =>
    rw [outermost_cons]
    exact push (ih h)
  | case8 => cases h

/-- A template whose tokens begin with those of forms has their nodes in front. -/
theorem exists_nodes_of_parse {s : String} {ns : List Node} (h : parse s = .ok ns)
    {fs : List Form} {ts : List Token}
    (htokens : (Template.tokens s.toList).map Token.placeless = Form.allTokens fs ++ ts) :
    ∃ ms, ns = Form.nodes fs ++ ms ∧ (ts = [] → ms = []) := by
  have hread := ofTokens_placeless h
  rw [htokens, ofTokens_allTokens, List.append_nil] at hread
  obtain ⟨ms, hms⟩ := exists_nodes_of_ofTokens hread
  rw [outermost, List.getLast?_nil, Option.map_none, Option.getD_none, List.reverse_reverse] at hms
  refine ⟨ms, hms, ?_⟩
  rintro rfl
  rw [ofTokens, List.reverse_reverse, Except.ok.injEq] at hread
  rw [← hread] at hms
  exact List.append_right_eq_self.mp hms.symm

end Node

/-! ## Filling a form -/

namespace Form

mutual

/-- What a form says under names; a name that does not fit its use says nothing. -/
def fill (members : List (String × Item)) : Form → String
  | text s => s
  | hole n =>
    match members.lookup n with
    | some (.value (.text t)) => t
    | _ => ""
  | kept n body =>
    match members.lookup n with
    | some (.value (.bool true)) => fillAll members body
    | _ => ""
  | repeated n body =>
    match members.lookup n with
    | some (.list items) =>
      String.join (items.map fun x => fillAll (("this", x) :: (x.members ++ members)) body)
    | _ => ""

def fillAll (members : List (String × Item)) : List Form → String
  | [] => ""
  | f :: fs => f.fill members ++ fillAll members fs

end

theorem fillAll_append (members : List (String × Item)) (fs gs : List Form) :
    fillAll members (fs ++ gs) = fillAll members fs ++ fillAll members gs := by
  induction fs with
  | nil => rw [List.nil_append, fillAll, String.empty_append]
  | cons f fs ih => rw [List.cons_append, fillAll, fillAll, ih, String.append_assoc]

section Names

variable {members : List (String × Item)} {n : String}

theorem fill_text (s : String) : (text s).fill members = s := rfl

theorem fill_hole {t : String} (h : members.lookup n = some (.value (.text t))) :
    (hole n).fill members = t := by
  rw [fill, h]

theorem fill_kept {b : Bool} (h : members.lookup n = some (.value (.bool b)))
    (body : List Form) : (kept n body).fill members = if b then fillAll members body else "" := by
  rw [fill, h]
  cases b <;> rfl

/-- A repeated form is filled once for each item. -/
theorem fill_repeated {α : Type} {xs : List α} {item : α → Item}
    (h : members.lookup n = some (.list (xs.map item))) (body : List Form) :
    (repeated n body).fill members = String.join
      (xs.map fun x => fillAll (("this", item x) :: ((item x).members ++ members)) body) := by
  rw [fill, h]
  exact congrArg String.join List.map_map

end Names

section Render

variable {P : String → Prop}

mutual

/-- The node of a form is rendered as the form is filled. -/
theorem renderNode_node : ∀ (f : Form) {s : Scope} {members : List (String × Item)},
    Fits P s members → f.node.isTyped s = true →
      renderNode (.record members) f.node = .ok (f.fill members)
  | text t, _, _, _, _ => rfl
  | hole n, s, members, h, hf => by
    obtain ⟨t, ht, -⟩ := h.lookup_text (by simpa [node, Node.isTyped] using hf)
    rw [node, renderNode, renderReference_of_lookup ht, fill, ht]
  | kept n body, s, members, h, hf => by
    rw [node, Node.isTyped, Bool.and_eq_true, beq_iff_eq] at hf
    obtain ⟨b, hb⟩ := h.lookup_flag hf.1
    rw [node, renderNode, follow_of_lookup hb rfl, fill, hb]
    cases b with
    | true => exact renderNodes_nodes body h hf.2
    | false => rfl
  | repeated n body, s, members, h, hf => by
    rw [node, Node.isTyped] at hf
    split at hf
    · rename_i row hrows
      obtain ⟨items, hitems, hk⟩ := h.lookup_rows hrows
      have hbody : ∀ x ∈ items, renderNodes (itemScope (.record members) x) (nodes body) =
          .ok (fillAll (("this", x) :: (x.members ++ members)) body) := by
        intro x hx
        obtain ⟨inner, hinner, hfits⟩ := h.itemScope hk hx
        cases hinner
        exact renderNodes_nodes body hfits hf
      rw [node, renderNode, follow_of_lookup hitems rfl, fill, hitems]
      simp only [Item.repeated]
      rw [Except.mapM_eq_ok_iff.mpr (List.forall₂_map_right_iff.mpr
        (List.forall₂_same.mpr hbody))]
      rfl
    · cases hf

/-- **In a context that fits, a form gives what it says.** -/
theorem renderNodes_nodes : ∀ (fs : List Form) {s : Scope} {members : List (String × Item)},
    Fits P s members → Node.areTyped s (nodes fs) = true →
      renderNodes (.record members) (nodes fs) = .ok (fillAll members fs)
  | [], _, _, _, _ => rfl
  | f :: fs, s, members, h, hfs => by
    rw [nodes, Node.areTyped, Bool.and_eq_true] at hfs
    rw [nodes, renderNodes, renderNode_node f h hfs.1, renderNodes_nodes fs h hfs.2]
    rfl

end

end Render

end Form

/-! ## The templates of the library -/

theorem areTyped_append (s : Scope) (ns ms : List Node) :
    Node.areTyped s (ns ++ ms) = (Node.areTyped s ns && Node.areTyped s ms) := by
  induction ns with
  | nil => rfl
  | cons n ns ih => rw [List.cons_append, Node.areTyped, Node.areTyped, ih, Bool.and_assoc]

theorem renderNodes_append {context : Item} {ns ms : List Node} {a b : String}
    (ha : renderNodes context ns = .ok a) (hb : renderNodes context ms = .ok b) :
    renderNodes context (ns ++ ms) = .ok (a ++ b) := by
  induction ns generalizing a with
  | nil =>
    cases ha
    exact hb.trans (congrArg Except.ok String.empty_append.symm)
  | cons n ns ih =>
    rw [renderNodes] at ha
    obtain ⟨t, ht, ha⟩ := Except.bind_eq_ok_iff.mp ha
    obtain ⟨u, hu, ha⟩ := Except.bind_eq_ok_iff.mp ha
    cases ha
    rw [List.cons_append, renderNodes, ht, ih hu]
    exact congrArg Except.ok String.append_assoc.symm

/-- **A template of the library that begins with forms says what the forms say, and then what
stands behind them.** -/
theorem Library.render_of_forms {name source : String} (h : (name, source) ∈ Library.templates)
    {scope : Scope} {notes : List Note} (hreads : Reads source scope notes) {fs : List Form}
    {ts : List Token}
    (htokens : (tokens source.toList).map Token.placeless = Form.allTokens fs ++ ts)
    {P : String → Prop} {context : List (String × Item)} (hfits : Fits P scope context) :
    ∃ rest, Library.registry.render name (.record context) =
      .ok (Form.fillAll context fs ++ rest) ∧ (ts = [] → rest = "") := by
  obtain ⟨ns, hparse, hfind⟩ := Library.find?_registry h
  obtain ⟨ns', hparse', htyped, -⟩ := hreads
  cases hparse.symm.trans hparse'
  obtain ⟨ms, rfl, hms⟩ := Node.exists_nodes_of_parse hparse htokens
  rw [areTyped_append, Bool.and_eq_true] at htyped
  obtain ⟨rest, hrest⟩ := exists_renderNodes ms hfits htyped.2
  refine ⟨rest, ?_, ?_⟩
  · rw [Registry.render, hfind]
    simp only [renderNodes_append (Form.renderNodes_nodes fs hfits htyped.1) hrest]
    rfl
  · rintro rfl
    rw [hms rfl] at hrest
    exact (Except.ok.inj hrest).symm

/-! ## A name between two texts

What a template puts on either side of a name can be known without its other parts. -/

/-- The tokens begin with a name between two texts that satisfy conditions. -/
def showsBetween (n : String) (p q : List Char → Bool) : List Token → Bool
  | .text cs :: t :: .text ds :: _ =>
    p cs && t == .tag (.reference [n]) (r"{{" ++ n ++ r"}}").toList 0 && q ds
  | _ => false

/-- Behind some forms, the text of a template shows a name between two texts that satisfy
conditions. -/
def showsWithin (source : List Char) (fs : List Form) (n : String) (p q : List Char → Bool) : Bool :=
  let ts := (tokensWithin source.length 0 source).map Token.placeless
  let before := Form.allTokens fs
  ts.take before.length == before && showsBetween n p q (ts.drop before.length)

/-- A hole that was shown has text on both sides. -/
theorem exists_of_showsBetween {n : String} {p q : List Char → Bool} {ts : List Token}
    (h : showsBetween n p q ts = true) :
    ∃ cs ds rest, ts =
      Form.allTokens [.text (String.ofList cs), .hole n, .text (String.ofList ds)] ++ rest ∧
        p cs = true ∧ q ds = true := by
  unfold showsBetween at h
  split at h
  · rename_i cs t ds rest
    simp only [Bool.and_eq_true, beq_iff_eq] at h
    obtain ⟨⟨hp, rfl⟩, hq⟩ := h
    refine ⟨cs, ds, rest, ?_, hp, hq⟩
    simp only [Form.allTokens, Form.tokens, String.toList_ofList, List.cons_append,
      List.nil_append]
  · cases h

theorem Form.allTokens_append (fs gs : List Form) :
    Form.allTokens (fs ++ gs) = Form.allTokens fs ++ Form.allTokens gs := by
  induction fs with
  | nil => rfl
  | cons f fs ih => rw [List.cons_append, Form.allTokens, Form.allTokens, ih, List.append_assoc]

/-- So has one behind other forms. -/
theorem exists_of_showsWithin {source : String} {fs : List Form} {n : String}
    {p q : List Char → Bool} (h : showsWithin source.toList fs n p q = true) :
    ∃ cs ds rest, (tokens source.toList).map Token.placeless =
      Form.allTokens (fs ++
          [Form.text (String.ofList cs), .hole n, .text (String.ofList ds)]) ++ rest ∧
        p cs = true ∧ q ds = true := by
  simp only [showsWithin, tokensWithin_eq (Nat.le_refl _), Bool.and_eq_true, beq_iff_eq] at h
  obtain ⟨htake, hshows⟩ := h
  obtain ⟨cs, ds, rest, hdrop, hp, hq⟩ := exists_of_showsBetween hshows
  refine ⟨cs, ds, rest, ?_, hp, hq⟩
  rw [Form.allTokens_append, List.append_assoc, ← hdrop, tokens]
  refine (List.take_append_drop (Form.allTokens fs).length _).symm.trans ?_
  rw [htake]

/-- **A name between two texts of a template of the library shows its value between them.** -/
theorem Library.exists_render_between {name source : String} (h : (name, source) ∈ Library.templates)
    {scope : Scope} {notes : List Note} (hreads : Reads source scope notes) {fs : List Form}
    {n : String} {p q : List Char → Bool} (hshows : showsWithin source.toList fs n p q = true)
    {P : String → Prop} {context : List (String × Item)} (hfits : Fits P scope context) {v : String}
    (hv : context.lookup n = some (.value (.text v))) :
    ∃ cs ds rest, p cs = true ∧ q ds = true ∧ Library.registry.render name (.record context) =
      .ok (Form.fillAll context fs ++ String.ofList cs ++ v ++ String.ofList ds ++ rest) := by
  obtain ⟨cs, ds, ts, htokens, hp, hq⟩ := exists_of_showsWithin hshows
  obtain ⟨rest, hrender, -⟩ := Library.render_of_forms h hreads htokens hfits
  refine ⟨cs, ds, rest, hp, hq, ?_⟩
  rw [hrender, Form.fillAll_append]
  simp only [Form.fillAll, Form.fill_text, Form.fill_hole hv, String.append_empty,
    String.append_assoc]

end Scaffold.Template
