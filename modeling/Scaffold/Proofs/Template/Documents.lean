import Mathlib.Data.List.TakeWhile
import Scaffold.Proofs.Document.Json
import Scaffold.Proofs.Template.Dependence
import Scaffold.Proofs.Template.Printing

/-!
# Proofs/Template/Documents — what a template says of a JSON document

In a document a path leads from member to member and from item to item, or it leads nowhere
(`reach?`).  A template **says** its texts and, for each reference that is come upon, the text of
what it leads to, or the reference as it is written (`wording`).

Rendering gives what the template says, with two exceptions.  A part of a path that is made of digits
counts as an index, but not every such part is a number: there are digits that are not decimal, and
there can be too many of them.  A list that is to be entered by such a part ends the rendering.  So
does a reference that leads to a whole number of too many digits; nothing else does
(`renderText_document`).
-/

namespace Scaffold.Template

open Document Number Text

/-! ## Paths into a document -/

/-- The part of a path is made of digits, as an index is. -/
def isIndex (part : String) : Bool := part ≠ "" && part.toList.all isDigit

/-- Why a part of a path that is made of digits is no number. -/
def misplaced? (part : String) : Option RenderError :=
  let digits := part.toList.takeWhile fun c => (decimalValue? c).isSome
  if !isIndex part then none
  else if Numeral.digitLimit < digits.length then some (.excessive digits.length)
  else if digits = part.toList then none
  else some (.notDecimal part)

/-- The place in a list that a part of a path stands for. -/
def place? (part : String) : Option Nat :=
  if isIndex part && (misplaced? part).isNone then
    some (Numeral.natOf (part.toList.filterMap decimalValue?))
  else none

/-- What a part of a path leads to. -/
def enter? (v : Value) (part : String) : Option Value :=
  match v with
  | .record ms => ms.lookup part
  | .list xs => (place? part).bind fun i => xs[i]?
  | _ => none

/-- Why a value cannot be entered by a part of a path: it is a list, and the part is made of digits
and no number. -/
def refusal? (v : Value) (part : String) : Option RenderError :=
  match v with
  | .list _ => misplaced? part
  | _ => none

/-- Where a path leads; null counts as nowhere. -/
def reach? (v : Value) : List String → Option Value
  | [] => some v
  | part :: rest =>
    match enter? v part with
    | none | some .null => none
    | some w => reach? w rest

/-- Why a path cannot be followed. -/
def obstacle? (v : Value) : List String → Option RenderError
  | [] => none
  | part :: rest =>
    (refusal? v part).or
      (match enter? v part with
      | none | some .null => none
      | some w => obstacle? w rest)

/-! ## What a template says -/

/-- The text of a value: lists and mappings as documents on one line, truth values in small letters,
anything else as in a message. -/
def shownText : Value → String
  | .bool b => if b then "true" else "false"
  | .list xs => Json.print .line (.list xs)
  | .record ms => Json.print .line (.record ms)
  | v => v.shown

/-- The names inside an each-block: the item, its members, and the names outside. -/
def inside (ms : Members) (v : Value) : Members :=
  ("this", v) :: ((match v with
    | .record inner => inner
    | _ => []) ++ ms)

/-- The items that a block is repeated for. -/
def rows : Option Value → List Value
  | some (.list xs) => xs
  | _ => []

/-- The text of a reference: that of what it leads to, or its own. -/
def referenceText (ms : Members) (path : List String) (raw : String) : String :=
  ((reach? (.record ms) path).map shownText).getD raw

mutual

/-- What a node says under names: a text itself, a reference the text of what it leads to, a block
what its body says, each time that it stands. -/
def wording (ms : Members) : Node → String
  | .text s => s
  | .name n raw => referenceText ms [n] raw
  | .path parts raw => referenceText ms parts raw
  | .ifBlock path _ body _ =>
    if (reach? (.record ms) path).any Value.isTruthy then wordings ms body else ""
  | .eachBlock path _ body _ =>
    String.join ((rows (reach? (.record ms) path)).map fun v => wordings (inside ms v) body)

def wordings (ms : Members) : List Node → String
  | [] => ""
  | n :: ns => wording ms n ++ wordings ms ns

end

/-- A path that is come upon under names; a reference is to be filled in with what it leads to. -/
structure Visit where
  names : Members
  path : List String
  isReference : Bool

/-- What stands in the way of a visit: the path cannot be followed, or what it leads to cannot be
filled in, since a whole number in it has too many digits. -/
def Visit.obstacle? (p : Visit) : Option RenderError :=
  (Template.obstacle? (.record p.names) p.path).or
    (if p.isReference then
      ((reach? (.record p.names) p.path).bind Value.unspelled?).map .unwritable
    else none)

mutual

/-- The paths that are followed, in order, each under its names. -/
def visits (ms : Members) : Node → List Visit
  | .text _ => []
  | .name n _ => [⟨ms, [n], true⟩]
  | .path parts _ => [⟨ms, parts, true⟩]
  | .ifBlock path _ body _ =>
    ⟨ms, path, false⟩ ::
      if (reach? (.record ms) path).any Value.isTruthy then allVisits ms body else []
  | .eachBlock path _ body _ =>
    ⟨ms, path, false⟩ ::
      (rows (reach? (.record ms) path)).flatMap fun v => allVisits (inside ms v) body

def allVisits (ms : Members) : List Node → List Visit
  | [] => []
  | n :: ns => visits ms n ++ allVisits ms ns

end

/-- What stands in the way of the first of the visits that come to nothing. -/
def blocked? (ps : List Visit) : Option RenderError := ps.findSome? Visit.obstacle?

/-- The parts of the paths in a template text, at any depth. -/
def mentioned (s : String) : List String :=
  (tokens s.toList).flatMap fun t => (t.piece.1.bind Tag.path?).getD []

/-! ## Parts of a document -/

section Partwise

variable {P : Value → Prop} (hP : Value.Partwise P) {v w : Value} {ms : Members}

include hP

/-- What holds of a value holds of what is entered. -/
theorem holds_of_enter? (hv : P v) {part : String} (h : enter? v part = some w) : P w := by
  unfold enter? at h
  split at h
  · obtain ⟨before, after, heq, -⟩ := List.lookup_eq_some_iff.mp h
    exact hP.record.mp hv (part, w) (heq ▸ List.mem_append_right before List.mem_cons_self)
  · obtain ⟨i, -, hi⟩ := Option.bind_eq_some_iff.mp h
    exact hP.list hv w (List.mem_of_getElem? hi)
  · cases h

/-- And of what is reached. -/
theorem holds_of_reach? (hv : P v) {path : List String} (h : reach? v path = some w) : P w := by
  induction path generalizing v with
  | nil =>
    cases h
    exact hv
  | cons part rest ih =>
    rw [reach?] at h
    split at h
    · cases h
    · cases h
    · rename_i next hnext
      exact ih (holds_of_enter? hP hv hnext) h

/-- And of each row that is reached. -/
theorem holds_of_mem_rows (h : P (.record ms)) {path : List String}
    (hv : v ∈ rows (reach? (.record ms) path)) : P v := by
  unfold rows at hv
  split at hv
  · rename_i xs hxs
    exact hP.list (holds_of_reach? hP h hxs) v hv
  · cases hv

/-- The names inside an each-block stand for such values again. -/
theorem holds_inside (hms : P (.record ms)) (hv : P v) : P (.record (inside ms v)) := by
  refine hP.record.mpr (List.forall_mem_cons.mpr ⟨hv, List.forall_mem_append.mpr ⟨?_,
    hP.record.mp hms⟩⟩)
  split
  · exact hP.record.mp hv
  · exact List.forall_mem_nil _

end Partwise

/-! ## Documents as items -/

theorem ofValues_eq_map (xs : List Value) : Item.ofValues xs = xs.map Item.ofValue := by
  induction xs with
  | nil => rfl
  | cons x xs ih => rw [Item.ofValues, ih, List.map_cons]

theorem ofMembers_eq_map (ms : Members) :
    Item.ofMembers ms = ms.map fun e => (e.1, Item.ofValue e.2) := by
  induction ms with
  | nil => rfl
  | cons e ms ih => rw [Item.ofMembers, ih, List.map_cons]

theorem lookup_ofMembers (ms : Members) (name : String) :
    (Item.ofMembers ms).lookup name = (ms.lookup name).map Item.ofValue := by
  induction ms with
  | nil => rfl
  | cons e ms ih =>
    rw [Item.ofMembers, List.lookup_cons, List.lookup_cons, ih]
    cases name == e.1 <;> rfl

/-- Inside an each-block over a document the scope is again made of documents. -/
theorem itemScope_ofValue (ms : Members) {v : Value} (hv : v.IsJson) :
    itemScope (.ofValue (.record ms)) (.ofValue v) = .ofValue (.record (inside ms v)) := by
  have happend (inner : Members) : Item.ofMembers inner ++ Item.ofMembers ms =
      Item.ofMembers (inner ++ ms) := by
    rw [ofMembers_eq_map, ofMembers_eq_map, ofMembers_eq_map, List.map_append]
  cases hv with
  | record h =>
    rename_i inner
    exact congrArg (fun ms => Item.record (("this", .ofValue (.record inner)) :: ms)) (happend inner)
  | _ => rfl

/-- A document counts as true in a context if it does on its own. -/
theorem isTruthy_ofValue {v : Value} (hv : v.IsJson) :
    (Item.ofValue v).isTruthy = v.isTruthy := by
  cases hv with
  | list h =>
    rename_i xs
    cases xs <;> rfl
  | record h =>
    rename_i ms
    cases ms <;> rfl
  | _ => rfl

theorem repeated_ofValue {v : Value} (hv : v.IsJson) :
    Item.repeated (some (.ofValue v)) = (rows (some v)).map Item.ofValue := by
  cases hv with
  | list h => exact ofValues_eq_map _
  | _ => rfl

theorem toValue_value (v : Value) :
    (Item.value v).toValue = .barring ((Json.unwritable? v).map .unwritable) v := by
  rw [Item.toValue]
  cases Json.unwritable? v <;> rfl

/-- The items of a list, and the members of a record, are written one after another. -/
theorem toValues_ofValues {xs : List Value}
    (h : ∀ x ∈ xs, (Item.ofValue x).toValue = .barring (x.unspelled?.map .unwritable) x) :
    Item.toValues (Item.ofValues xs) =
      .barring ((Value.findInItems? Json.excess? (fun _ => none) xs).map .unwritable) xs := by
  induction xs with
  | nil => rfl
  | cons x xs ih =>
    obtain ⟨hx, hxs⟩ := List.forall_mem_cons.mp h
    rw [Item.ofValues, Item.toValues, hx, ih hxs, Value.findInItems?, Option.map_or]
    exact Except.barring_bind₂ _ _ _ _ List.cons

/-- Members come back as they were, unless one of them cannot be written. -/
theorem toMembers_ofMembers {ms : Members}
    (h : ∀ e ∈ ms, (Item.ofValue e.2).toValue = .barring (e.2.unspelled?.map .unwritable) e.2) :
    Item.toMembers (Item.ofMembers ms) =
      .barring ((Value.findInMembers? Json.excess? (fun _ => none) ms).map .unwritable) ms := by
  induction ms with
  | nil => rfl
  | cons e ms ih =>
    obtain ⟨he, hms⟩ := List.forall_mem_cons.mp h
    rw [Item.ofMembers, Item.toMembers, he, ih hms, Value.findInMembers?, Option.map_or]
    exact Except.barring_bind₂ _ _ _ _ fun (x : Value) (ms : Members) => (e.1, x) :: ms

/-- A document is written as it is, unless a whole number in it has too many digits. -/
theorem toValue_ofValue {v : Value} (hv : v.IsJson) :
    (Item.ofValue v).toValue = .barring (v.unspelled?.map .unwritable) v := by
  induction hv with
  | list h ih =>
    rw [Item.ofValue, Item.toValue, toValues_ofValues ih]
    exact Except.map_barring _ _ _
  | record h ih =>
    rw [Item.ofValue, Item.toValue, toMembers_ofMembers ih]
    exact Except.map_barring _ _ _
  | _ => exact toValue_value _

/-- Every value of a document has a text, unless a whole number in it has too many digits. -/
theorem text_ofValue {v : Value} (hv : v.IsJson) :
    (Item.ofValue v).text = .barring (v.unspelled?.map .unwritable) (shownText v) := by
  have hspelled (w : Value) : w.spelled.mapError RenderError.unwritable =
      .barring (w.unspelled?.map .unwritable) w.shown := by
    rw [Value.spelled]
    cases w.unspelled? <;> rfl
  cases hv with
  | list h =>
    have hvalue := toValue_ofValue (.list h)
    rw [Item.ofValue] at hvalue ⊢
    rw [Item.text, hvalue]
    · exact Except.map_barring _ _ _
    all_goals intros; contradiction
  | record h =>
    have hvalue := toValue_ofValue (.record h)
    rw [Item.ofValue] at hvalue ⊢
    rw [Item.text, hvalue]
    · exact Except.map_barring _ _ _
    all_goals intros; contradiction
  | bool b => rfl
  | null => rfl
  | text s => rfl
  | int n => exact hspelled (.int n)
  | real x => exact hspelled (.real x)

/-! ## Following a path -/

/-- An index is read from the digits that make a number. -/
theorem indexOf_eq {part : String} (h : isIndex part = true) :
    Item.indexOf part =
      .barring (misplaced? part) (Numeral.natOf (part.toList.filterMap decimalValue?)) := by
  set digits := part.toList.takeWhile fun c => (decimalValue? c).isSome with hdigits
  have hsplit : digits ++ part.toList.dropWhile (fun c => (decimalValue? c).isSome) = part.toList :=
    List.takeWhile_append_dropWhile
  have hlength : (digits.filterMap decimalValue?).length = digits.length :=
    List.filterMap_length_eq_length.mpr fun c hc =>
      List.mem_takeWhile_imp (p := fun c => (decimalValue? c).isSome) hc
  have hmisplaced : misplaced? part =
      if Numeral.digitLimit < digits.length then some (.excessive digits.length)
      else if digits = part.toList then none else some (.notDecimal part) :=
    if_neg (by simp [h])
  have hrest : (part.toList.drop digits.length).isEmpty = decide (digits = part.toList) := by
    rw [Bool.eq_iff_iff, List.isEmpty_iff, decide_eq_true_eq, ← hsplit, List.drop_left,
      List.self_eq_append_right]
  change (if Numeral.digitLimit < (digits.filterMap decimalValue?).length then
      Except.error (RenderError.excessive (digits.filterMap decimalValue?).length)
    else if (part.toList.drop digits.length).isEmpty then
      .ok (Numeral.natOf (digits.filterMap decimalValue?))
    else .error (RenderError.notDecimal part)) = _
  rw [hlength, hrest, hmisplaced]
  by_cases hlimit : Numeral.digitLimit < digits.length
  · rw [if_pos hlimit, if_pos hlimit]
    rfl
  · rw [if_neg hlimit, if_neg hlimit]
    by_cases hall : digits = part.toList
    · rw [decide_eq_true hall, if_pos rfl, if_pos hall, ← hall]
      rfl
    · rw [decide_eq_false hall, if_neg Bool.false_ne_true, if_neg hall]
      rfl

/-- A part is entered, or it is refused. -/
theorem part_ofValue {v : Value} (hv : v.IsJson) (part : String) :
    (Item.ofValue v).part part =
      .barring (refusal? v part) ((enter? v part).map Item.ofValue) := by
  cases hv with
  | list hxs =>
    rename_i xs
    change (if isIndex part then (Item.indexOf part).map fun i => (Item.ofValues xs)[i]?
      else .ok none) = _
    rw [refusal?, enter?, place?]
    by_cases hindex : isIndex part = true
    · rw [if_pos hindex, hindex, indexOf_eq hindex]
      cases misplaced? part with
      | some e => rfl
      | none => simp [Except.barring, Except.map, ofValues_eq_map]
    · have hnone : misplaced? part = none := if_pos (by simp [hindex])
      rw [if_neg hindex, hnone, Bool.eq_false_iff.mpr hindex]
      rfl
  | record hms => exact congrArg Except.ok (lookup_ofMembers _ part)
  | _ => rfl

theorem isNull_ofValue {v : Value} (hv : v.IsJson) : (Item.ofValue v).isNull = (v matches .null) := by
  cases hv <;> rfl

/-- **In a document a path is followed to where it leads**, unless a list is to be entered by a part
that is no number. -/
theorem follow_ofValue {v : Value} (hv : v.IsJson) (path : List String) :
    (Item.ofValue v).follow path =
      .barring (obstacle? v path) ((reach? v path).map Item.ofValue) := by
  induction path generalizing v with
  | nil => rfl
  | cons part rest ih =>
    rw [Item.follow, part_ofValue hv, obstacle?, reach?]
    cases refusal? v part with
    | some e => rfl
    | none =>
      cases hw : enter? v part with
      | none => rfl
      | some w =>
        have hjson := holds_of_enter? Value.partwise_isJson hv hw
        have hrest := ih hjson
        simp only [Except.barring, Option.elim, Option.map_some, isNull_ofValue hjson]
        cases hjson <;> first | rfl | exact hrest

/-! ## Rendering -/

section Rendering

variable {ms : Members}

/-- A reference is rendered as its text, unless something stands against the visit. -/
theorem renderReference_document (h : (Value.record ms).IsJson) (path : List String)
    (raw : String) : renderReference (.ofValue (.record ms)) path raw =
      .barring (Visit.obstacle? ⟨ms, path, true⟩) (referenceText ms path raw) := by
  rw [renderReference, follow_ofValue h, referenceText, Visit.obstacle?]
  cases obstacle? (.record ms) path with
  | some e => rfl
  | none =>
    cases hw : reach? (.record ms) path with
    | none => rfl
    | some w => exact text_ofValue (holds_of_reach? Value.partwise_isJson h hw)

theorem blocked?_cons (p : Visit) (ps : List Visit) :
    blocked? (p :: ps) = p.obstacle?.or (blocked? ps) := by
  rw [blocked?, List.findSome?_cons]
  cases p.obstacle? <;> rfl

/-- The path of a block has only to be followed. -/
theorem blocked?_block (ms : Members) (path : List String) (ps : List Visit) :
    blocked? (⟨ms, path, false⟩ :: ps) = (obstacle? (.record ms) path).or (blocked? ps) := by
  rw [blocked?_cons, Visit.obstacle?, if_neg Bool.false_ne_true, Option.or_none]

theorem blocked?_singleton (p : Visit) : blocked? [p] = p.obstacle? := by
  rw [blocked?_cons]
  exact Option.or_none

theorem blocked?_append (ps qs : List Visit) : blocked? (ps ++ qs) = (blocked? ps).or (blocked? qs) :=
  List.findSome?_append

/-- What stands against visits of many things stands against one of them. -/
theorem blocked?_flatMap {α : Type} (f : α → List Visit) (xs : List α) :
    blocked? (xs.flatMap f) = xs.findSome? fun x => blocked? (f x) := by
  induction xs with
  | nil => rfl
  | cons x xs ih =>
    rw [List.flatMap_cons, blocked?_append, ih, List.findSome?_cons]
    cases blocked? (f x) <;> rfl

mutual

/-- A node is rendered as its wording, unless one of its visits is blocked. -/
theorem renderNode_document : ∀ (n : Node) {ms : Members}, (Value.record ms).IsJson →
    renderNode (.ofValue (.record ms)) n = .barring (blocked? (visits ms n)) (wording ms n)
  | .text s, _, _ => rfl
  | .name n raw, ms, h => by
    rw [renderNode, renderReference_document h, visits, blocked?_singleton, wording]
  | .path parts raw, ms, h => by
    rw [renderNode, renderReference_document h, visits, blocked?_singleton, wording]
  | .ifBlock path _ body _, ms, h => by
    rw [renderNode, follow_ofValue h, visits, blocked?_block, wording]
    cases obstacle? (.record ms) path with
    | some e => rfl
    | none =>
      cases hw : reach? (.record ms) path with
      | none => rfl
      | some w =>
        have htruthy := isTruthy_ofValue (holds_of_reach? Value.partwise_isJson h hw)
        have hbody := renderNodes_document body h
        change (if (Item.ofValue w).isTruthy then renderNodes _ body else .ok "") =
          Except.barring (blocked? (if w.isTruthy then _ else [])) (if w.isTruthy then _ else "")
        rw [htruthy]
        cases w.isTruthy with
        | false => rfl
        | true => exact hbody
  | .eachBlock path _ body _, ms, h => by
    rw [renderNode, follow_ofValue h, visits, blocked?_block, wording]
    cases obstacle? (.record ms) path with
    | some e => rfl
    | none =>
      have hbody : ∀ v ∈ rows (reach? (.record ms) path),
          renderNodes (itemScope (.ofValue (.record ms)) (.ofValue v)) body =
            .barring (blocked? (allVisits (inside ms v) body)) (wordings (inside ms v) body) := by
        intro v hv
        have hjson : v.IsJson := holds_of_mem_rows Value.partwise_isJson h hv
        rw [itemScope_ofValue ms hjson]
        exact renderNodes_document body (holds_inside Value.partwise_isJson h hjson)
      have hrows : Item.repeated ((reach? (.record ms) path).map Item.ofValue) =
          (rows (reach? (.record ms) path)).map Item.ofValue := by
        cases hw : reach? (.record ms) path with
        | none => rfl
        | some w => exact repeated_ofValue (holds_of_reach? Value.partwise_isJson h hw)
      change Except.map String.join ((Item.repeated _).mapM _) =
        Except.barring (blocked? ((rows _).flatMap _)) _
      rw [hrows, List.mapM_map, blocked?_flatMap, ← Except.map_barring]
      exact congrArg (Except.map String.join) (Except.mapM_barring hbody)

/-- So are nodes one after the other. -/
theorem renderNodes_document : ∀ (ns : List Node) {ms : Members}, (Value.record ms).IsJson →
    renderNodes (.ofValue (.record ms)) ns =
      .barring (blocked? (allVisits ms ns)) (wordings ms ns)
  | [], _, _ => rfl
  | n :: ns, ms, h => by
    rw [renderNodes, renderNode_document n h, renderNodes_document ns h, allVisits,
      blocked?_append, wordings]
    exact Except.barring_bind₂ _ _ _ _ _

end

end Rendering

/-! ## Paths that can be followed -/

/-- A path without misplaced parts meets no obstacle. -/
theorem obstacle?_eq_none {path : List String} (h : ∀ part ∈ path, misplaced? part = none)
    (v : Value) : obstacle? v path = none := by
  induction path generalizing v with
  | nil => rfl
  | cons part rest ih =>
    obtain ⟨hpart, hrest⟩ := List.forall_mem_cons.mp h
    have hrefusal : refusal? v part = none := by
      cases v <;> first | rfl | exact hpart
    rw [obstacle?, hrefusal, Option.none_or]
    split
    · rfl
    · rfl
    · exact ih hrest _

mutual

/-- A visit is made by a piece of the node. -/
theorem exists_piece_of_mem_visits : ∀ {n : Node} {ms : Members} {p : Visit},
    p ∈ visits ms n → ∃ q ∈ n.pieces, q.1.bind Tag.path? = some p.path
  | .text _, _, _, hp => by cases hp
  | .name _ _, _, _, hp => by
    rw [visits, List.mem_singleton] at hp
    rw [hp, Node.pieces]
    exact ⟨_, List.mem_singleton_self _, rfl⟩
  | .path _ _, _, _, hp => by
    rw [visits, List.mem_singleton] at hp
    rw [hp, Node.pieces]
    exact ⟨_, List.mem_singleton_self _, rfl⟩
  | .ifBlock _ _ body _, ms, _, hp => by
    rw [visits, List.mem_cons] at hp
    rw [Node.pieces]
    obtain rfl | hp := hp
    · exact ⟨_, List.mem_cons_self, rfl⟩
    · split at hp
      · obtain ⟨q, hq, hpath⟩ := exists_piece_of_mem_allVisits hp
        exact ⟨q, List.mem_cons_of_mem _ (List.mem_append_left _ hq), hpath⟩
      · cases hp
  | .eachBlock _ _ body _, ms, _, hp => by
    rw [visits, List.mem_cons] at hp
    rw [Node.pieces]
    obtain rfl | hp := hp
    · exact ⟨_, List.mem_cons_self, rfl⟩
    · obtain ⟨v, -, hp⟩ := List.mem_flatMap.mp hp
      obtain ⟨q, hq, hpath⟩ := exists_piece_of_mem_allVisits hp
      exact ⟨q, List.mem_cons_of_mem _ (List.mem_append_left _ hq), hpath⟩

/-- Every path that is followed stands in a tag of the tree. -/
theorem exists_piece_of_mem_allVisits : ∀ {ns : List Node} {ms : Members}
    {p : Visit}, p ∈ allVisits ms ns →
      ∃ q ∈ Node.allPieces ns, q.1.bind Tag.path? = some p.path
  | [], _, _, hp => by cases hp
  | _ :: _, _, _, hp => by
    rw [allVisits, List.mem_append] at hp
    rw [Node.allPieces]
    obtain hp | hp := hp
    · obtain ⟨q, hq, hpath⟩ := exists_piece_of_mem_visits hp
      exact ⟨q, List.mem_append_left _ hq, hpath⟩
    · obtain ⟨q, hq, hpath⟩ := exists_piece_of_mem_allVisits hp
      exact ⟨q, List.mem_append_right _ hq, hpath⟩

end

mutual

/-- What holds of the members holds wherever a visit starts. -/
theorem holds_of_mem_visits {P : Value → Prop} (hP : Value.Partwise P) :
    ∀ {n : Node} {ms : Members} {p : Visit}, P (.record ms) → p ∈ visits ms n →
      P (.record p.names)
  | .text _, _, _, _, hp => by cases hp
  | .name _ _, _, _, h, hp => by
    rw [visits, List.mem_singleton] at hp
    rwa [hp]
  | .path _ _, _, _, h, hp => by
    rw [visits, List.mem_singleton] at hp
    rwa [hp]
  | .ifBlock _ _ body _, ms, _, h, hp => by
    rw [visits, List.mem_cons] at hp
    obtain rfl | hp := hp
    · exact h
    · split at hp
      · exact holds_of_mem_allVisits hP h hp
      · cases hp
  | .eachBlock _ _ body _, ms, _, h, hp => by
    rw [visits, List.mem_cons] at hp
    obtain rfl | hp := hp
    · exact h
    · obtain ⟨v, hv, hp⟩ := List.mem_flatMap.mp hp
      exact holds_of_mem_allVisits hP (holds_inside hP h (holds_of_mem_rows hP h hv)) hp

/-- What the names stand for has the property on every visit, if it has it outside. -/
theorem holds_of_mem_allVisits {P : Value → Prop} (hP : Value.Partwise P) :
    ∀ {ns : List Node} {ms : Members} {p : Visit}, P (.record ms) → p ∈ allVisits ms ns →
      P (.record p.names)
  | [], _, _, _, hp => by cases hp
  | _ :: _, _, _, h, hp => by
    rw [allVisits, List.mem_append] at hp
    obtain hp | hp := hp
    · exact holds_of_mem_visits hP h hp
    · exact holds_of_mem_allVisits hP h hp

end

/-- A visit without misplaced parts, among members that can be spelled, meets no obstacle. -/
theorem Visit.obstacle?_eq_none {p : Visit} (hparts : ∀ part ∈ p.path, misplaced? part = none)
    (hnames : (Value.record p.names).unspelled? = none) : p.obstacle? = none := by
  have hshown : (Template.reach? (.record p.names) p.path).bind Value.unspelled? = none := by
    rw [Option.bind_eq_none_iff]
    exact fun w hw => holds_of_reach? Value.partwise_unspelled? hnames hw
  rw [obstacle?, Template.obstacle?_eq_none hparts, hshown]
  exact ite_self _

/-- So a text without such parts is not blocked. -/
theorem blocked?_eq_none {source : String} {ns : List Node} (hparse : Node.parse source = .ok ns)
    (h : ∀ part ∈ mentioned source, misplaced? part = none) {ms : Members}
    (hspelled : (Value.record ms).unspelled? = none) : blocked? (allVisits ms ns) = none := by
  refine List.findSome?_eq_none_iff.mpr fun p hp => Visit.obstacle?_eq_none (fun part hpart => ?_)
    (holds_of_mem_allVisits Value.partwise_unspelled? hspelled hp)
  obtain ⟨q, hq, hpath⟩ := exists_piece_of_mem_allVisits hp
  rw [Node.pieces_parse hparse] at hq
  obtain ⟨t, ht, rfl⟩ := List.mem_map.mp hq
  exact h part (List.mem_flatMap.mpr ⟨t, ht, by rwa [hpath]⟩)

/-- A text is rendered as its wordings, unless a visit is blocked. -/
theorem renderText_eq_barring {source : String} {ns : List Node}
    (hparse : Node.parse source = .ok ns) {ms : Members} (hms : (Value.record ms).IsJson) :
    renderText source (.ofValue (.record ms)) =
      (Except.barring (blocked? (allVisits ms ns)) (wordings ms ns)).mapError .render := by
  rw [renderText, hparse]
  exact congrArg (Except.mapError Failure.render) (renderNodes_document ns hms)

/-- **Rendering a template over a document gives what the template says**, unless a list is to be
entered by a part of digits that is no number, or a reference leads to a whole number that is too
long to be written.  No template without such a part fails over a document without such a number. -/
theorem renderText_document {source : String} {ns : List Node}
    (hparse : Node.parse source = .ok ns) {ms : Members} (hms : (Value.record ms).IsJson) :
    (renderText source (.ofValue (.record ms)) =
      match blocked? (allVisits ms ns) with
      | none => .ok (wordings ms ns)
      | some e => .error (.render e)) ∧
    ((∀ part ∈ mentioned source, misplaced? part = none) → (Value.record ms).unspelled? = none →
      renderText source (.ofValue (.record ms)) = .ok (wordings ms ns)) := by
  rw [renderText_eq_barring hparse hms]
  constructor
  · cases blocked? (allVisits ms ns) <;> rfl
  · intro hparts hspelled
    rw [blocked?_eq_none hparse hparts hspelled]
    rfl

/-- A missing member, an index into a text, one that is out of range, and null. -/
theorem renderText_document_rows :
    let source := r"{{#each rows}}{{name}} {{tags.1}} {{unit}};{{/each}}"
    let ns := [.eachBlock ["rows"] r"{{#each rows}}" [.name "name" r"{{name}}", .text " ",
      .path ["tags", "1"] r"{{tags.1}}", .text " ", .name "unit" r"{{unit}}", .text ";"] r"{{/each}}"]
    let ms : Members := [("rows", .list [.record [("tags", .list [.int 1, .bool true])],
      .record [("name", .text "a"), ("tags", .text "xy")], .record [("tags", .list [.int 1])]]),
      ("unit", .null)]
    Node.parse source = .ok ns ∧ (Value.record ms).IsJson ∧
      (∀ part ∈ mentioned source, misplaced? part = none) ∧
      (Value.record ms).unspelled? = none ∧
      renderText source (.ofValue (.record ms)) =
        .ok r"{{name}} true {{unit}};a {{tags.1}} {{unit}};{{name}} {{tags.1}} {{unit}};" := by
  intro source ns ms
  have htokens : tokens source.toList =
      [.tag (.opening .eachBlock ["rows"]) r"{{#each rows}}".toList 0,
        .tag (.reference ["name"]) r"{{name}}".toList 14, .text [' '],
        .tag (.reference ["tags", "1"]) r"{{tags.1}}".toList 23, .text [' '],
        .tag (.reference ["unit"]) r"{{unit}}".toList 34, .text [';'],
        .tag (.closing .eachBlock) r"{{/each}}".toList 43] := by
    decide +kernel
  have hparse : Node.parse source = .ok ns := by
    rw [Node.parse, htokens]
    rfl
  have hjson : (Value.record ms).IsJson := by
    have htags : (Value.list [.int 1, .bool true]).IsJson :=
      .list (by simp [Value.IsJson.int, Value.IsJson.bool])
    have htag : (Value.list [.int 1]).IsJson := .list (by simp [Value.IsJson.int])
    have hnamed : (Value.record [("name", .text "a"), ("tags", .text "xy")]).IsJson :=
      .record (by simp [Value.IsJson.text])
    refine .record (List.forall_mem_cons.mpr ⟨.list (List.forall_mem_cons.mpr
      ⟨.record (by simpa using htags), ?_⟩), by simp [Value.IsJson.null]⟩)
    exact List.forall_mem_cons.mpr ⟨hnamed, by simpa using .record (by simpa using htag)⟩
  have hparts : ∀ part ∈ mentioned source, misplaced? part = none := by
    rw [mentioned, htokens]
    decide
  have hspelled : (Value.record ms).unspelled? = none := by decide
  exact ⟨hparse, hjson, hparts, hspelled,
    ((renderText_document hparse hjson).2 hparts hspelled).trans (by rfl)⟩

/-- A digit that is not decimal, where a list is to be entered, ends the rendering, though the path
leads nowhere. -/
theorem not_renders_superscript :
    let ns := [.path ["items", "²"] r"{{items.²}}"]
    let ms : Members := [("items", .list [.text "a"])]
    Node.parse r"{{items.²}}" = .ok ns ∧ (Value.record ms).IsJson ∧
      wordings ms ns = r"{{items.²}}" ∧
      renderText r"{{items.²}}" (.ofValue (.record ms)) = .error (.render (.notDecimal "²")) := by
  intro ns ms
  have hparse : Node.parse r"{{items.²}}" = .ok ns := by
    have hpath : IsPath ["items", "²"] := by decide +kernel
    have hprint : (Tag.reference ["items", "²"]).print = r"{{items.²}}" := by decide
    have hread := parse_print_reference hpath
    rwa [hprint] at hread
  have hjson : (Value.record ms).IsJson :=
    .record (List.forall_mem_singleton.mpr (.list (List.forall_mem_singleton.mpr (.text "a"))))
  have hblocked : blocked? (allVisits ms ns) = some (.notDecimal "²") := by decide +kernel
  refine ⟨hparse, hjson, by decide +kernel, ?_⟩
  rw [renderText_eq_barring hparse hjson, hblocked]
  rfl

end Scaffold.Template
