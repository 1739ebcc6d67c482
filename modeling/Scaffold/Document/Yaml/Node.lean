import Scaffold.Document.Yaml.Tag
import Scaffold.Document.Yaml.Token

/-!
# Document/Yaml/Node — the graph of a document

A stream of tokens holds one document, perhaps with directives before it; more than one is refused.
An anchor is given once, and an alias may refer to it from then on, also within the node that has
the anchor: the document is then a graph with a way back to where it started.  So an alias stays a
reference, and every list and mapping has a number of its own.

Every function below reads one construct and returns it with the tokens that are left, or reports
how many tokens are left where the stream cannot go on.  A count of none tells that it ended too
soon.  The first number bounds the number of steps, for which the number of tokens suffices.
-/

namespace Scaffold.Document.Yaml

inductive Node where
  | scalar (tag : Tag) (text : String)
  | list (number : Nat) (tag : Tag) (items : List Node)
  | record (number : Nat) (tag : Tag) (entries : List (Node × Node))
  /-- The node that has the anchor. -/
  | reference (anchor : String)

namespace Node

/-- What stands where nothing is written. -/
def absent : Node := .scalar .null ""

mutual

/-- The number of nodes. -/
def size : Node → Nat
  | scalar .. | reference _ => 1
  | list _ _ xs => sizeOfItems xs + 1
  | record _ _ es => sizeOfEntries es + 1

def sizeOfItems : List Node → Nat
  | [] => 0
  | x :: xs => size x + sizeOfItems xs

def sizeOfEntries : List (Node × Node) → Nat
  | [] => 0
  | (k, x) :: es => size k + size x + sizeOfEntries es

end

/-- The tag of a node; a reference has none of its own. -/
def tag : Node → Tag
  | scalar t _ | list _ t _ | record _ t _ => t
  | reference _ => .unknown

/-- The node with another tag. -/
def withTag (t : Tag) : Node → Node
  | scalar _ s => scalar t s
  | list n _ xs => list n t xs
  | record n _ es => record n t es
  | reference a => reference a

end Node

/-- A document: its outermost node and the nodes that have anchors. -/
structure Graph where
  root : Node
  anchors : List (String × Node)

/-- The node itself, or the one that it refers to. -/
def Graph.resolve (g : Graph) : Node → Node
  | .reference a => (g.anchors.lookup a).getD .absent
  | node => node

/-! ## Reading -/

/-- The anchors so far, the last first; the node of one that is still open is not known yet. -/
abbrev Anchors := List (String × Option Node)

/-- The number of tokens that are left where the stream cannot go on. -/
abbrev Halt := Nat

/-- What was read, the tokens that are left and the anchors. -/
abbrev Parsed (α : Type) := α × List Token × Anchors

/-- Where a node may stand. -/
inductive Place where
  | flow
  | block
  /-- After a key in block style, where a list needs no indentation. -/
  | blockValue
deriving DecidableEq

/-- The anchor and the tag before a node. -/
structure Properties where
  anchor : Option String
  tag : Option TagName

/-- Where the stream cannot go on if the handle of the tag stands for nothing; `ts` is what follows
the properties.  After a tag alone an anchor is looked for before the tag is. -/
def Properties.unknownHandle (p : Properties) (ts : List Token) : Halt :=
  if p.anchor.isSome then ts.length + 1 else ts.length

def properties : List Token → Properties × List Token
  | .anchor a :: .tag t :: ts => (⟨some a, some t⟩, ts)
  | .anchor a :: ts => (⟨some a, none⟩, ts)
  | .tag t :: .anchor a :: ts => (⟨some a, some t⟩, ts)
  | .tag t :: ts => (⟨none, some t⟩, ts)
  | ts => (⟨none, none⟩, ts)

/-- The tag that is written before a node; none if it is left to the node. -/
def writtenTag (handles : List (String × String)) : Option TagName → Option (Option Tag)
  | none => some none
  | some t =>
    match t.handle with
    | some h => (handles.lookup h).map fun start => some (Tag.ofName (start ++ t.suffix))
    | none => some (if t.isOpen then none else some (Tag.ofName t.suffix))

/-- What follows the comma before an item of a collection in flow style that is not its first. -/
def afterComma (isFirst : Bool) (ts : List Token) : Except Halt (List Token) :=
  match isFirst, ts with
  | true, ts | false, .comma :: ts => .ok ts
  | false, ts => .error ts.length

/-- The next token is one of those given. -/
def isNext (ts : List Token) (among : List Token) : Bool := ts.head?.any among.contains

/-- The key `=`, which stands for its mapping, is a text to those who refer to it. -/
def asKey (before : Anchors) (k : Node) (as : Anchors) : Anchors :=
  match k, as with
  | .scalar .default s, (a, some _) :: rest =>
    if before.length < as.length then (a, some (.scalar .text s)) :: rest else as
  | _, as => as

mutual

/-- A node, or the absent one if the next token cannot begin one here. -/
def nodeUnless (ends : List Token) (handles : List (String × String)) (place : Place) :
    Nat → List Token → Anchors → Except Halt (Parsed Node)
  | 0, ts, _ => .error ts.length
  | n + 1, ts, as =>
    if isNext ts ends then .ok (.absent, ts, as) else nodeAt handles place n ts as

def nodeAt (handles : List (String × String)) (place : Place) :
    Nat → List Token → Anchors → Except Halt (Parsed Node)
  | 0, ts, _ => .error ts.length
  | _ + 1, .reference name :: ts, as =>
    if (as.lookup name).isSome then .ok (.reference name, ts, as) else .error (ts.length + 1)
  | n + 1, start, as => do
    let (p, ts) := properties start
    let tag ← (writtenTag handles p.tag).elim (.error (p.unknownHandle ts)) .ok
    let as ← match p.anchor with
      | none => .ok as
      | some a => if (as.lookup a).isSome then .error ts.length else .ok ((a, none) :: as)
    let (node, ts, as) ← content handles place p tag n ts as
    return (node, ts, match p.anchor with
      | some a => (a, some node) :: as
      | none => as)

/-- What follows the properties of a node. -/
def content (handles : List (String × String)) (place : Place) (p : Properties)
    (tag : Option Tag) : Nat → List Token → Anchors → Except Halt (Parsed Node)
  | 0, ts, _ => .error ts.length
  | n + 1, start, as =>
    let list (r : Except Halt (Parsed (List Node))) : Except Halt (Parsed Node) :=
      r.map fun (xs, r) => (.list start.length (tag.getD .list) xs, r)
    let record (r : Except Halt (Parsed (List (Node × Node)))) :
        Except Halt (Parsed Node) :=
      r.map fun (es, r) => (.record start.length (tag.getD .record) es, r)
    match start with
    | .scalar text isPlain :: ts =>
      let implied := if isPlain || p.tag.any (·.isOpen) then Tag.ofPlain text else .text
      .ok (.scalar (tag.getD implied) text, ts, as)
    | .flowList :: ts => list (flowItems handles true n ts as)
    | .flowRecord :: ts => record (flowEntries handles true n ts as)
    | .blockList :: ts =>
      if place = .flow then emptyContent p tag start as else list (blockItems handles n ts as)
    | .blockRecord :: ts =>
      if place = .flow then emptyContent p tag start as else record (blockEntries handles n ts as)
    | .item :: _ =>
      if place = .blockValue then list (looseItems handles n start as)
      else emptyContent p tag start as
    | _ => emptyContent p tag start as

/-- A node with properties alone. -/
def emptyContent (p : Properties) (tag : Option Tag) (ts : List Token) (as : Anchors) :
    Except Halt (Parsed Node) :=
  if p.anchor.isNone && p.tag.isNone then .error ts.length
  else .ok (.scalar (tag.getD .null) "", ts, as)

/-- The items of a list in block style. -/
def blockItems (handles : List (String × String)) :
    Nat → List Token → Anchors → Except Halt (Parsed (List Node))
  | _ + 1, .blockEnd :: ts, as => .ok ([], ts, as)
  | n + 1, .item :: ts, as => do
    let (x, ts, as) ← nodeUnless [.item, .blockEnd] handles .block n ts as
    let (xs, ts, as) ← blockItems handles n ts as
    return (x :: xs, ts, as)
  | _, ts, _ => .error ts.length

/-- The items of a list that is not indented further than the key before it. -/
def looseItems (handles : List (String × String)) :
    Nat → List Token → Anchors → Except Halt (Parsed (List Node))
  | 0, ts, _ => .error ts.length
  | n + 1, .item :: ts, as => do
    let (x, ts, as) ← nodeUnless [.item, .key, .value, .blockEnd] handles .block n ts as
    let (xs, ts, as) ← looseItems handles n ts as
    return (x :: xs, ts, as)
  | _ + 1, ts, as => .ok ([], ts, as)

/-- The entries of a mapping in block style. -/
def blockEntries (handles : List (String × String)) :
    Nat → List Token → Anchors → Except Halt (Parsed (List (Node × Node)))
  | _ + 1, .blockEnd :: ts, as => .ok ([], ts, as)
  | n + 1, .key :: ts, as => do
    let (e, ts, as) ← entry [.key, .value, .blockEnd] [.key, .value, .blockEnd] handles .blockValue
      n ts as
    let (es, ts, as) ← blockEntries handles n ts as
    return (e :: es, ts, as)
  | _, ts, _ => .error ts.length

/-- A key and its value, both absent if nothing stands there. -/
def entry (keyEnds ends : List Token) (handles : List (String × String)) (place : Place) :
    Nat → List Token → Anchors → Except Halt (Parsed (Node × Node))
  | 0, ts, _ => .error ts.length
  | n + 1, ts, before => do
    let (k, ts, as) ← nodeUnless keyEnds handles place n ts before
    let (x, ts, as) ← match ts with
      | .value :: ts => nodeUnless ends handles place n ts (asKey before k as)
      | ts => .ok (.absent, ts, asKey before k as)
    return ((k, x), ts, as)

/-- The items of a list in flow style; an item with a key is a mapping of one entry. -/
def flowItems (handles : List (String × String)) (isFirst : Bool) :
    Nat → List Token → Anchors → Except Halt (Parsed (List Node))
  | _ + 1, .flowListEnd :: ts, as => .ok ([], ts, as)
  | n + 1, start, as => do
    let ts ← afterComma isFirst start
    match ts with
    | .flowListEnd :: ts => .ok ([], ts, as)
    | .key :: rest =>
      let (e, rest, as) ← entry [.value, .comma, .flowListEnd] [.comma, .flowListEnd] handles .flow
        n rest as
      let (xs, rest, as) ← flowItems handles false n rest as
      return (.record ts.length .record [e] :: xs, rest, as)
    | ts =>
      let (x, ts, as) ← nodeAt handles .flow n ts as
      let (xs, ts, as) ← flowItems handles false n ts as
      return (x :: xs, ts, as)
  | 0, ts, _ => .error ts.length

/-- The entries of a mapping in flow style; a node without a value is a key. -/
def flowEntries (handles : List (String × String)) (isFirst : Bool) :
    Nat → List Token → Anchors → Except Halt (Parsed (List (Node × Node)))
  | _ + 1, .flowRecordEnd :: ts, as => .ok ([], ts, as)
  | n + 1, start, before => do
    let ts ← afterComma isFirst start
    match ts with
    | .flowRecordEnd :: ts => .ok ([], ts, before)
    | .key :: ts =>
      let (e, ts, as) ← entry [.value, .comma, .flowRecordEnd] [.comma, .flowRecordEnd] handles
        .flow n ts before
      let (es, ts, as) ← flowEntries handles false n ts as
      return (e :: es, ts, as)
    | ts =>
      let (k, ts, as) ← nodeAt handles .flow n ts before
      let (es, ts, as) ← flowEntries handles false n ts (asKey before k as)
      return ((k, .absent) :: es, ts, as)
  | 0, ts, _ => .error ts.length

end

/-! ## Documents -/

/-- The handles that need no directive. -/
def commonHandles : List (String × String) := [("!", "!"), ("!!", Tag.root)]

/-- The directives before a document: at most one version, which is the first, and distinct
handles. -/
def directives (hasVersion : Bool) (handles : List (String × String)) (ts : List Token) :
    Except Halt (List (String × String) × List Token) :=
  match ts with
  | .directive (.version major) :: rest =>
    if hasVersion || major ≠ 1 then .error ts.length else directives true handles rest
  | .directive (.handle name start) :: rest =>
    if (handles.lookup name).isSome then .error ts.length
    else directives hasVersion ((name, start) :: handles) rest
  | .directive .other :: rest => directives hasVersion handles rest
  | ts => .ok (handles, ts)

def isDirective : Token → Bool
  | .directive _ => true
  | _ => false

/-- Nothing but ends of documents is left.  The directives of a further document are still read. -/
def finished (ts : List Token) : Except Halt Unit :=
  match ts.dropWhile (· == .documentEnd) with
  | [] => .ok ()
  | rest => do
    let (_, rest) ← directives false [] rest
    throw rest.length

/-- A node that must be the only document of the stream. -/
def onlyNode (handles : List (String × String)) (ts : List Token) : Except Halt Graph := do
  let (root, ts, as) ← nodeAt handles .block (4 * ts.length + 4) ts []
  finished ts
  return ⟨root, as.filterMap fun (a, node) => node.map fun x => (a, x)⟩

/-- The document of a stream: none if the stream is empty, and a failure if it is malformed or has
more than one. -/
def documentOf (ts : List Token) : Except Halt (Option Graph) :=
  match ts with
  | [] => .ok none
  | t :: _ =>
    if isDirective t || t == .documentStart then do
      let (handles, ts) ← directives false [] ts
      match ts with
      | .documentStart :: ts =>
        if ts.isEmpty || isNext ts [.documentEnd] then
          (finished ts).map fun _ => some ⟨.absent, []⟩
        else if ts.head?.any isDirective || isNext ts [.documentStart] then .error ts.length
        else (onlyNode (handles ++ commonHandles) ts).map some
      | ts => .error ts.length
    else (onlyNode commonHandles ts).map some

end Scaffold.Document.Yaml
