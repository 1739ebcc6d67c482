import Scaffold.Document.Yaml.Cursor

/-!
# Document/Yaml/Property — anchors, tags and directives
-/

namespace Scaffold.Document.Yaml

open Text

/-! ## Anchors -/

/-- The name of an anchor or an alias, past its indicator. -/
def anchorName? (c : Cursor) : Option (String × Cursor) := do
  let (name, c) := c.span isNameChar
  guard (!name.isEmpty)
  guard (endsWith (fun d => isSpacing d || "?:,]\x7d%@`".toList.contains d) c.rest)
  return (String.ofList name, c)

/-! ## Tags -/

/-- A tag as it is written: its handle, if it has one, and the rest of it. -/
structure TagName where
  handle : Option String
  suffix : String
deriving DecidableEq, Repr

/-- The tag `!`, which keeps a scalar from being taken for a text. -/
def TagName.isOpen (t : TagName) : Bool := t.handle.isNone && t.suffix == "!"

def isUriChar (c : Char) : Bool := isPlainAlnum c || "-;/?:@&=+$,_.!~*'()[]%".toList.contains c

/-- The bytes that a run of escapes gives. -/
def uriBytes : Nat → Cursor → Option (List UInt8 × Cursor)
  | 0, _ => none
  | n + 1, c =>
    match c.rest with
    | '%' :: a :: b :: _ => do
      let byte := (← hexValue? a) * 16 + (← hexValue? b)
      let (bytes, c) ← uriBytes n (c.skip 3)
      return (byte.toUInt8 :: bytes, c)
    | '%' :: _ => none
    | _ => some ([], c)

def uriFrom : Nat → Cursor → Option (List Char × Cursor)
  | 0, _ => none
  | n + 1, c =>
    match c.peek with
    | none => some ([], c)
    | some '%' => do
      let (bytes, c) ← uriBytes (c.rest.length + 1) c
      let text ← String.fromUTF8? ⟨bytes.toArray⟩
      let (more, c) ← uriFrom n c
      return (text.toList ++ more, c)
    | some d =>
      if !isUriChar d then some ([], c)
      else (uriFrom n c.next).map fun (more, c) => (d :: more, c)

/-- The name of a tag or a part of one; it is not empty. -/
def uri? (c : Cursor) : Option (String × Cursor) := do
  let (cs, c) ← uriFrom (c.rest.length + 1) c
  guard (!cs.isEmpty)
  return (String.ofList cs, c)

/-- A tag handle: `!`, `!!`, or a name between two of them. -/
def handle? (c : Cursor) : Option (String × Cursor) :=
  match c.rest with
  | '!' :: ' ' :: _ => some ("!", c.next)
  | '!' :: _ =>
    let (name, c) := c.next.span isNameChar
    if c.peek == some '!' then some (String.ofList ('!' :: name ++ ['!']), c.next) else none
  | _ => none

def endsField (cs : List Char) : Bool := endsWith (fun d => d == ' ' || isBreak d) cs

/-- A tag, from its `!` on. -/
def tagName? (c : Cursor) : Option (TagName × Cursor) := do
  let (tag, c) ← match c.rest.drop 1 with
    | '<' :: _ => do
      let (name, c) ← uri? (c.skip 2)
      guard (c.peek == some '>')
      some (TagName.mk none name, c.next)
    | rest =>
      if endsWith isSpacing rest then some (⟨none, "!"⟩, c.next)
      else if (rest.takeWhile fun d => !(d == ' ' || isBreak d)).contains '!' then do
        let (handle, c) ← handle? c
        let (name, c) ← uri? c
        some (⟨some handle, name⟩, c)
      else do
        let (name, c) ← uri? c.next
        some (⟨some "!", name⟩, c)
  guard (endsField c.rest)
  return (tag, c)

/-! ## Directives -/

inductive Directive where
  /-- The version of the format, of which only the first number counts. -/
  | version (major : Nat)
  /-- A tag handle and what it stands for. -/
  | handle (name start : String)
  | other
deriving DecidableEq, Repr

def number? (c : Cursor) : Option (Nat × Cursor) :=
  let (ds, c) := c.span isPlainDigit
  if ds.isEmpty then none else some (ds.foldl (fun n d => n * 10 + (d.toNat - 48)) 0, c)

/-- A directive, from its `%` on, with the end of its line. -/
def directive? (c : Cursor) : Option (Directive × Cursor) := do
  let (name, c) := c.next.span isNameChar
  guard (!name.isEmpty && endsField c.rest)
  let field := c.skipWhile (· == ' ')
  let (d, c) ←
    if name = "YAML".toList then do
      let (major, c) ← number? field
      guard (c.peek == some '.')
      let (_, c) ← number? c.next
      guard (endsField c.rest)
      some (Directive.version major, c)
    else if name = "TAG".toList then do
      let (name, c) ← handle? field
      guard (c.peek == some ' ')
      let (start, c) ← uri? (c.skipWhile (· == ' '))
      guard (endsField c.rest)
      some (.handle name start, c)
    else some (.other, c.skipWhile (!isBreak ·))
  return (d, ← c.pastComment)

end Scaffold.Document.Yaml
