import Scaffold.Text.Lines

/-!
# Template/Node — templates as tokens and as trees

A tag stands between double braces: a reference to a name or a path, the opening of a block, or its
closing.  Everything else is text.  Tokens keep the characters they were read from, so nothing is
lost (`sourceOf_tokens`).

Blocks nest, so the tokens of a template form a tree.  `ofTokens` builds it with a stack of the
blocks that are open; a closing tag that does not fit the innermost of them is refused.  A node
keeps the characters of its tags, and `source` gives them back in order.
-/

namespace Scaffold.Template

open Text

/-! ## Tags -/

inductive Block where
  | ifBlock
  | eachBlock
deriving DecidableEq, Repr

def Block.word : Block → String
  | ifBlock => "if"
  | eachBlock => "each"

/-- What stands between the braces; a path has at least one part. -/
inductive Tag where
  | opening (block : Block) (path : List String)
  | closing (block : Block)
  | reference (path : List String)
deriving DecidableEq, Repr

inductive Token where
  | text (cs : List Char)
  /-- A tag, the characters it was read from and the number of characters before it. -/
  | tag (t : Tag) (raw : List Char) (offset : Nat)
deriving DecidableEq, Repr

def Token.source : Token → List Char
  | text cs => cs
  | tag _ raw _ => raw

/-! ## Reading a tag -/

/-- A character with which a name can start. -/
def startsName (c : Char) : Bool := isPlainLetter c || c == '_' || c == '$'

/-- A character of which names are made. -/
def inName (c : Char) : Bool := isWord c || c == '$'

/-- A path at the start of a text: names with points between them. -/
def readPath (cs : List Char) : Option (List String × List Char) :=
  let isPart (c : Char) : Bool := inName c || c == '.'
  let parts := pieces '.' (cs.takeWhile isPart)
  if cs.head?.any startsName && parts.all (· ≠ []) then
    some (parts.map String.ofList, cs.dropWhile isPart)
  else none

/-- The word of a block at the start of a text. -/
def readBlock (cs : List Char) : Option (Block × List Char) :=
  match afterWord? ['i', 'f'] cs with
  | some rest => some (.ifBlock, rest)
  | none => (afterWord? ['e', 'a', 'c', 'h'] cs).map fun rest => (.eachBlock, rest)

/-- What stands between the braces, at the start of a text. -/
def readInside : List Char → Option (Tag × List Char)
  | '#' :: cs => do
    let (block, rest) ← readBlock cs
    guard (rest.head?.any isBlank)
    let (path, rest) ← readPath (trimLeft rest)
    return (.opening block path, rest)
  | '/' :: cs => (readBlock cs).map fun (block, rest) => (.closing block, rest)
  | cs => (readPath cs).map fun (path, rest) => (.reference path, rest)

/-- A tag at the start of a text, and what follows it. -/
def readTag : List Char → Option (Tag × List Char)
  | '{' :: '{' :: cs =>
    match readInside (trimLeft cs) with
    | some (t, rest) => (afterWord? ['}', '}'] (trimLeft rest)).map fun rest => (t, rest)
    | none => none
  | _ => none

/-! ## Tokens -/

/-- Puts a character in front of the tokens of the rest of a text. -/
def Token.addChar (c : Char) : List Token → List Token
  | .text cs :: ts => .text (c :: cs) :: ts
  | ts => .text [c] :: ts

/-- The tokens of a text that starts `offset` characters into a template. -/
def tokensFrom (offset : Nat) (cs : List Char) : List Token :=
  match cs with
  | [] => []
  | c :: cs =>
    match readTag (c :: cs) with
    | some (t, rest) =>
      let n := cs.length - rest.length
      .tag t (c :: cs.take n) offset :: tokensFrom (offset + n + 1) (cs.drop n)
    | none => Token.addChar c (tokensFrom (offset + 1) cs)
termination_by cs.length
decreasing_by
  · simp only [List.length_cons, List.length_drop]; omega
  · simp

/-- The tokens of a template. -/
def tokens (cs : List Char) : List Token := tokensFrom 0 cs

theorem source_addChar (c : Char) (ts : List Token) :
    (Token.addChar c ts).flatMap Token.source = c :: ts.flatMap Token.source := by
  unfold Token.addChar
  split <;> simp [Token.source]

/-- The characters of the tokens are those of the text. -/
theorem source_tokensFrom (offset : Nat) (cs : List Char) :
    (tokensFrom offset cs).flatMap Token.source = cs := by
  fun_induction tokensFrom offset cs with
  | case1 => rfl
  | case2 offset c cs t rest h n ih => simp [Token.source, ih]
  | case3 offset c cs h ih => simp [source_addChar, ih]

/-! ## Trees -/

/-- A part of a template. -/
inductive Node where
  | text (s : String)
  | name (name raw : String)
  /-- A path of at least two parts. -/
  | path (parts : List String) (raw : String)
  /-- Kept if the path leads to something that counts as true. -/
  | ifBlock (path : List String) (opener : String) (body : List Node) (closer : String)
  /-- Repeated for each item of the list that the path leads to. -/
  | eachBlock (path : List String) (opener : String) (body : List Node) (closer : String)
deriving Inhabited

/-- Why a text is no template. -/
inductive Malformed where
  | unexpected (raw : String) (offset : Nat)
  | mismatched (raw : String) (offset : Nat) (innermost : Block)
  | unclosed (innermost : Block)
deriving DecidableEq, Repr

def Malformed.message : Malformed → String
  | unexpected raw offset => s!"Unexpected {raw} at offset {offset}"
  | mismatched raw offset innermost =>
    s!"{raw} at offset {offset} closes an open #{innermost.word} block"
  | unclosed innermost => s!"Unclosed #{innermost.word} block"

namespace Node

mutual

/-- The text that the node was read from. -/
def source : Node → String
  | text s => s
  | name _ raw => raw
  | path _ raw => raw
  | ifBlock _ opener body closer => opener ++ sources body ++ closer
  | eachBlock _ opener body closer => opener ++ sources body ++ closer

def sources : List Node → String
  | [] => ""
  | n :: ns => source n ++ sources ns

end

/-- A reference to a name or to a path. -/
def reference (parts : List String) (raw : String) : Node :=
  match parts with
  | [n] => .name n raw
  | _ => .path parts raw

/-- A block with its body. -/
def block (b : Block) (parts : List String) (opener : String) (body : List Node)
    (closer : String) : Node :=
  match b with
  | .ifBlock => .ifBlock parts opener body closer
  | .eachBlock => .eachBlock parts opener body closer

/-- A block that is open, and the nodes before it, last first. -/
structure Frame where
  block : Block
  path : List String
  opener : String
  before : List Node

/-- The nodes of a list of tokens, read inside the blocks of `stack` after the nodes `before`, which
are kept last first. -/
def ofTokens (stack : List Frame) (before : List Node) : List Token → Except Malformed (List Node)
  | [] =>
    match stack with
    | [] => .ok before.reverse
    | f :: _ => .error (.unclosed f.block)
  | .text cs :: ts => ofTokens stack (.text (String.ofList cs) :: before) ts
  | .tag (.reference parts) raw _ :: ts =>
    ofTokens stack (reference parts (String.ofList raw) :: before) ts
  | .tag (.opening b parts) raw _ :: ts =>
    ofTokens (⟨b, parts, String.ofList raw, before⟩ :: stack) [] ts
  | .tag (.closing b) raw offset :: ts =>
    match stack with
    | [] => .error (.unexpected (String.ofList raw) offset)
    | f :: rest =>
      if f.block = b then
        ofTokens rest
          (block b f.path f.opener before.reverse (String.ofList raw) :: f.before) ts
      else .error (.mismatched (String.ofList raw) offset f.block)

/-- The nodes of a template text. -/
def parse (s : String) : Except Malformed (List Node) := ofTokens [] [] (tokens s.toList)

end Node

end Scaffold.Template
