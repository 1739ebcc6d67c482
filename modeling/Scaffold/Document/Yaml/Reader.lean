import Scaffold.Document.Yaml.Meaning
import Scaffold.Document.Yaml.Node

/-!
# Document/Yaml/Reader — the value of a document

Mappings are merged first: the entries of a value of the key `<<` come before those of its mapping,
so that the latter win.  Of two entries with equal keys the later value stands in the earlier place.
A list or mapping that is met again inside itself becomes a reference to how far out it is
(`Value.again`).

A document can fail in several places.  The failure that counts is the one that lies least deep
(`Deep.both`), and of several at one depth the first.
-/

namespace Scaffold.Document.Yaml

/-- Why a text gives no value. -/
inductive Failure where
  | malformed
  /-- An escape gives the number of no character. -/
  | noCharacter (code : Nat)
  | senseless (s : Senseless)
deriving DecidableEq, Repr

def Failure.ofFault : QuoteFault → Failure
  | .malformed => malformed
  | .noCharacter code => .noCharacter code

def Failure.ofSenseless : Senseless → Failure
  | .bytes => malformed
  | s => .senseless s

/-! ## Depth of failures -/

/-- A value, or a failure and its depth. -/
abbrev Deep (α : Type) := Except (Nat × Failure) α

namespace Deep

variable {α β γ : Type}

/-- Two values, or the failure that lies less deep, the first if both lie equally deep. -/
def both (f : α → β → γ) : Deep α → Deep β → Deep γ
  | .ok a, .ok b => .ok (f a b)
  | .ok _, .error e => .error e
  | .error e, .ok _ => .error e
  | .error e, .error e' => .error (if e'.1 < e.1 then e' else e)

/-- All values of a list. -/
def all : List (Deep α) → Deep (List α)
  | [] => .ok []
  | x :: xs => both (· :: ·) x (all xs)

def malformed (depth : Nat) : Deep α := .error (depth, .malformed)

end Deep

/-! ## Merging -/

/-- The entries of a mapping that are not merged into it; a key `=` is a text. -/
def Graph.ownEntries (g : Graph) (es : List (Node × Node)) : List (Node × Node) :=
  es.filterMap fun (k, x) =>
    match (g.resolve k).tag with
    | .merge => none
    | .default => some ((g.resolve k).withTag .text, x)
    | _ => some (k, x)

/-- A mapping whose merges are under way: its number, its own entries, and the values of the keys
`<<` that are still to come. -/
structure Merging where
  number : Nat
  own : List (Node × Node)
  rest : List Node

/-- A mapping before its merges. -/
def Graph.merging (g : Graph) (number : Nat) (es : List (Node × Node)) : Merging :=
  ⟨number, g.ownEntries es, (es.filter fun e => (g.resolve e.1).tag = .merge).map (·.2)⟩

mutual

/-- The entries that a value of the key `<<` adds: those of a mapping, or of a list of mappings,
the last of which comes first.  A mapping of those `around`, which is merged into itself, adds what
its remaining merges add and what it has.  The first number bounds the nesting. -/
def Graph.merged? (g : Graph) (around : List Merging) :
    Nat → Node → Option (List (Node × Node))
  | 0, _ => none
  | n + 1, node =>
    let record (number : Nat) (es : List (Node × Node)) : Option (List (Node × Node)) :=
      g.mergedRecord? around n
        ((around.find? (·.number == number)).getD (g.merging number es))
    match g.resolve node with
    | .record number _ es => record number es
    | .list _ _ xs =>
      let parts : Option (List (List (Node × Node))) := xs.mapM fun x =>
        match g.resolve x with
        | .record number _ es => record number es
        | _ => none
      parts.map (·.reverse.flatten)
    | _ => none

/-- The entries of a mapping, those that are merged into it first. -/
def Graph.mergedRecord? (g : Graph) (around : List Merging) :
    Nat → Merging → Option (List (Node × Node))
  | 0, _ => none
  | n + 1, m =>
    match m.rest with
    | [] => some m.own
    | x :: rest => do
      let front ← g.merged? ({ m with rest } :: around) n x
      return front ++ (← g.mergedRecord? around n { m with rest })

end

/-! ## Values -/

/-- The text of a node: a scalar, or a mapping whose key `=` has one.  The first number bounds the
nesting. -/
def Graph.text? (g : Graph) : Nat → Node → Option String
  | 0, _ => none
  | n + 1, node =>
    match g.resolve node with
    | .scalar _ s => some s
    | .record _ _ es =>
      (es.find? fun e => (g.resolve e.1).tag = .default).bind fun e => g.text? n e.2
    | _ => none

/-- The single entry of a mapping that has one. -/
def singleEntry? : Node → Option (Node × Node)
  | .record _ _ [e] => some e
  | _ => none

/-- The node is a list or a mapping and stands for one. -/
def Node.isCollection (node : Node) : Bool :=
  [.list, .record, .set, .entries].contains node.tag

/-- The entries of a mapping, keys before values; a key must be able to be one. -/
def entriesOf (g : Graph) (n : Nat) (valueAt : Nat → Node → Deep Value) (depth number : Nat)
    (es : List (Node × Node)) : Deep (List (Value × Value)) :=
  match g.mergedRecord? [] n (g.merging number es) with
  | none => .malformed depth
  | some es =>
    let entry (e : Node × Node) : Deep (Value × Value) :=
      let key : Deep Value :=
        if (g.resolve e.1).isCollection then .malformed depth
        else match valueAt depth e.1 with
          | .ok k => if k.isKey then .ok k else .malformed depth
          | .error err => .error err
      Deep.both Prod.mk key (valueAt depth e.2)
    (Deep.all (es.map entry)).map fun es =>
      es.foldl (fun done (k, x) => Value.putEntry k x done) []

/-- The value of a node at a depth.  The first number bounds the nesting; `around` holds the numbers
of the lists and mappings around the value, innermost first, and nothing for a pair. -/
def Graph.valueAt (g : Graph) : Nat → List (Option Nat) → Nat → Node → Deep Value
  | 0, _, depth, _ => .malformed depth
  | n + 1, around, depth, node =>
    let node := g.resolve node
    let inner := depth + 1
    /- A collection that is not around its own value. -/
    let fresh (number : Nat) (value : List (Option Nat) → Deep Value) : Deep Value :=
      match around.idxOf? (some number) with
      | some up => .ok (.again up)
      | none => value (some number :: around)
    match node.tag, node with
    | .list, .list number _ xs => fresh number fun around =>
      (Deep.all (xs.map (g.valueAt n around inner))).map .list
    | .record, .record number _ es => fresh number fun around =>
      (entriesOf g n (g.valueAt n around) inner number es).map .ofEntries
    | .set, .record number _ es => fresh number fun around =>
      (entriesOf g n (g.valueAt n around) inner number es).map fun es => .set (es.map (·.1))
    | .entries, .list number _ xs => fresh number fun around =>
      let item (x : Node) : Deep Value :=
        match singleEntry? (g.resolve x) with
        | some (k, x) => Deep.both .pair (g.valueAt n (none :: around) inner k)
            (g.valueAt n (none :: around) inner x)
        | none => .malformed inner
      (Deep.all (xs.map item)).map .list
    | tag, node =>
      if node.isCollection then .malformed inner
      else if tag = .stamp && node matches .record .. && (g.text? n node).isSome then
        .error (depth, .senseless .notWritten)
      else match (g.text? n node).bind (scalarOf tag) with
        | some (.ok v) => .ok v
        | some (.error s) => .error (depth, .ofSenseless s)
        | none => .malformed depth

/-- The value of the outermost node.  No way through the graph passes a list or mapping twice, and
merging takes at most three steps for each node on it. -/
def Graph.value (g : Graph) : Except Failure Value :=
  (g.valueAt (4 * g.root.size + 4) [] 0 g.root).mapError (·.2)

/-- The value of a text that is one document, null if it is empty.  Where a token cannot be read,
what stands before it may already be malformed. -/
def read (s : String) : Except Failure Value :=
  match tokensOf (plainBreaks s.toList) with
  | .ok tokens =>
    match documentOf tokens with
    | .ok (some g) => g.value
    | .ok none => .ok .null
    | .error _ => .error .malformed
  | .error stop =>
    match documentOf stop.tokens with
    | .error (_ + 1) => .error .malformed
    | _ => .error (.ofFault stop.fault)

end Scaffold.Document.Yaml
