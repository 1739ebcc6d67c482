import Scaffold.Calendar

/-!
# Document/Value — the values a document is made of

A JSON document holds the constructors up to `record`; the others arise from YAML alone.  Members
keep the order in which they were written, and a key has one member (`Members.put`).

A list or mapping may contain itself.  Inside it `again n` stands for the list, mapping or pair that
is `n` levels further out, so that a value is a finite tree.  A value as a whole refers to nothing
outside of it; a part is *taken out* of it (`takenOut`) by putting the whole where the part refers
to it, which changes nothing in a part that does not (`takenOut_of_not_reaches`).

Two values are the `same` if they are equal as data: numbers compare by value, whatever their kind,
truth values count as 0 and 1, and the order of members does not matter.
-/

namespace Scaffold.Document

open Number Calendar

inductive Value where
  | null
  | bool (b : Bool)
  | int (n : Int)
  | real (x : Binary64)
  | text (s : String)
  | list (items : List Value)
  /-- A mapping whose keys are texts. -/
  | record (members : List (String × Value))
  /-- A mapping with a key that is no text. -/
  | table (entries : List (Value × Value))
  | date (d : Date)
  | moment (m : Moment)
  | bytes (bs : List UInt8)
  | set (items : List Value)
  /-- Two values side by side. -/
  | pair (first second : Value)
  /-- The list, mapping or pair so many levels further out. -/
  | again (up : Nat)
deriving Inhabited

/-- The members of a record, in order. -/
abbrev Members := List (String × Value)

namespace Members

/-- The value of a key. -/
def get? (ms : Members) (key : String) : Option Value := ms.lookup key

def has (ms : Members) (key : String) : Bool := (ms.lookup key).isSome

/-- Sets a key: in its place if it is there, else at the end. -/
def put (key : String) (v : Value) : Members → Members
  | [] => [(key, v)]
  | (k, w) :: ms => if k = key then (k, v) :: ms else (k, w) :: put key v ms

/-- Members as they are after each pair has been put in turn. -/
def ofPairs (pairs : List (String × Value)) : Members :=
  pairs.foldl (fun ms (k, v) => put k v ms) []

def erase (key : String) (ms : Members) : Members := ms.filter (·.1 ≠ key)

end Members

namespace Value

/-- The name of the kind of a value. -/
def kind : Value → String
  | null => "NoneType"
  | bool _ => "bool"
  | int _ => "int"
  | real _ => "float"
  | text _ => "str"
  | list _ => "list"
  | record _ | table _ => "dict"
  | date _ => "date"
  | moment _ => "datetime"
  | bytes _ => "bytes"
  | set _ => "set"
  | pair .. => "tuple"
  | again _ => "list"

/-- The value counts as true. -/
def isTruthy : Value → Bool
  | null => false
  | bool b => b
  | int n => n ≠ 0
  | real x => !x.isZero
  | text s => s ≠ ""
  | list items => !items.isEmpty
  | record ms => !ms.isEmpty
  | table es => !es.isEmpty
  | bytes bs => !bs.isEmpty
  | set items => !items.isEmpty
  | date _ | moment _ | pair .. | again _ => true

def isMapping : Value → Bool
  | record _ | table _ => true
  | _ => false

def text? : Value → Option String
  | text s => some s
  | _ => none

/-- The text that bytes encode. -/
def textOfBytes? (bs : List UInt8) : Option String := String.fromUTF8? ⟨bs.toArray⟩

/-- The text of a value that is one or bytes that encode one. -/
def readable? : Value → Option String
  | text s => some s
  | bytes bs => textOfBytes? bs
  | _ => none

mutual

/-- Equality as data. -/
def same : Value → Value → Bool
  | null, null => true
  | bool a, bool b => a == b
  | bool a, int n | int n, bool a => n == (if a then 1 else 0)
  | bool a, real x | real x, bool a => x.sameInt (if a then 1 else 0)
  | int m, int n => m == n
  | int n, real x | real x, int n => x.sameInt n
  | real x, real y => x.same y || (x == .nan && y == .nan)
  | text s, text t => s == t
  | list xs, list ys => sameList xs ys
  | record xs, record ys => xs.length == ys.length && sameMembers xs ys
  | table xs, table ys => xs.length == ys.length && sameEntries xs ys
  | date a, date b => a == b
  | moment a, moment b => a.same b
  | bytes a, bytes b => a == b
  | set xs, set ys => xs.length == ys.length && sameItems xs ys
  | pair a b, pair c d => same a c && same b d
  | again m, again n => m == n
  | _, _ => false

def sameList : List Value → List Value → Bool
  | [], [] => true
  | x :: xs, y :: ys => same x y && sameList xs ys
  | _, _ => false

/-- Every member has the same value under the same key on the other side. -/
def sameMembers : List (String × Value) → List (String × Value) → Bool
  | [], _ => true
  | (k, x) :: xs, ys =>
    (match ys.lookup k with
      | some y => same x y
      | none => false) && sameMembers xs ys

def sameEntries : List (Value × Value) → List (Value × Value) → Bool
  | [], _ => true
  | (k, x) :: xs, ys => ys.any (fun e => same k e.1 && same x e.2) && sameEntries xs ys

def sameItems : List Value → List Value → Bool
  | [], _ => true
  | x :: xs, ys => ys.any (fun y => same x y) && sameItems xs ys

end

instance : BEq Value := ⟨same⟩

/-- The value can be the key of a mapping: it is neither a list, a mapping nor a set. -/
def isKey : Value → Bool
  | list _ | record _ | table _ | set _ | again _ => false
  | pair a b => isKey a && isKey b
  | _ => true

/-- The kind of what keeps a value from being a key: of two values side by side, the first that is
none. -/
def barredKind : Value → String
  | pair a b => if a.isKey then b.barredKind else a.barredKind
  | v => v.kind

/-- Sets a key of a mapping: in its place if an equal one is there, else at the end. -/
def putEntry (key v : Value) : List (Value × Value) → List (Value × Value)
  | [] => [(key, v)]
  | (k, w) :: es => if k.same key then (k, v) :: es else (k, w) :: putEntry key v es

/-- A mapping of entries with distinct keys; it is a record if every key is a text. -/
def ofEntries (es : List (Value × Value)) : Value :=
  match es.mapM fun (k, v) => k.text?.map fun s => (s, v) with
  | some ms => record ms
  | none => table es

/-! ## Parts -/

mutual

/-- The first answer of `ask` about a value or a part of it: the value itself comes first, then what
is in it as it is written, a key before its value.  What `askKey` answers about a key that is no text
goes before. -/
def findSome? {ε : Type} (ask askKey : Value → Option ε) : Value → Option ε
  | list xs => (ask (list xs)).or (findInItems? ask askKey xs)
  | record ms => (ask (record ms)).or (findInMembers? ask askKey ms)
  | table es => (ask (table es)).or (findInEntries? ask askKey es)
  | set xs => (ask (set xs)).or (findInItems? ask askKey xs)
  | pair a b =>
    (ask (pair a b)).or ((findSome? ask askKey a).or (findSome? ask askKey b))
  | v => ask v

def findInItems? {ε : Type} (ask askKey : Value → Option ε) : List Value → Option ε
  | [] => none
  | x :: xs => (findSome? ask askKey x).or (findInItems? ask askKey xs)

def findInMembers? {ε : Type} (ask askKey : Value → Option ε) :
    List (String × Value) → Option ε
  | [] => none
  | (_, x) :: ms => (findSome? ask askKey x).or (findInMembers? ask askKey ms)

def findInEntries? {ε : Type} (ask askKey : Value → Option ε) :
    List (Value × Value) → Option ε
  | [] => none
  | (k, x) :: es => (askKey k).or
      ((findSome? ask askKey k).or ((findSome? ask askKey x).or (findInEntries? ask askKey es)))

end

mutual

/-- Something in the value refers to the list or mapping `level` levels further out. -/
def reaches (level : Nat) : Value → Bool
  | again n => n == level
  | list xs => itemsReach (level + 1) xs
  | record ms => membersReach (level + 1) ms
  | table es => entriesReach (level + 1) es
  | pair a b => reaches (level + 1) a || reaches (level + 1) b
  | _ => false

def itemsReach (level : Nat) : List Value → Bool
  | [] => false
  | x :: xs => reaches level x || itemsReach level xs

def membersReach (level : Nat) : List (String × Value) → Bool
  | [] => false
  | (_, x) :: ms => reaches level x || membersReach level ms

def entriesReach (level : Nat) : List (Value × Value) → Bool
  | [] => false
  | (_, x) :: es => reaches level x || entriesReach level es

end

mutual

/-- The value with `whole` put where something refers to the list or mapping `level` levels further
out; `whole` is told the level at which it stands. -/
def fill (whole : Nat → Value) (level : Nat) : Value → Value
  | again n => if n = level then whole level else again n
  | list xs => list (fillItems whole (level + 1) xs)
  | record ms => record (fillMembers whole (level + 1) ms)
  | table es => table (fillEntries whole (level + 1) es)
  | pair a b => pair (fill whole (level + 1) a) (fill whole (level + 1) b)
  | v => v

def fillItems (whole : Nat → Value) (level : Nat) : List Value → List Value
  | [] => []
  | x :: xs => fill whole level x :: fillItems whole level xs

def fillMembers (whole : Nat → Value) (level : Nat) :
    List (String × Value) → List (String × Value)
  | [] => []
  | (k, x) :: ms => (k, fill whole level x) :: fillMembers whole level ms

def fillEntries (whole : Nat → Value) (level : Nat) : List (Value × Value) → List (Value × Value)
  | [] => []
  | (k, x) :: es => (k, fill whole level x) :: fillEntries whole level es

end

/-- A part of a value by itself.  Where the part refers to the value, that value stands; in it, the
part is the reference that the argument of `whole` makes of it. -/
def takenOut (part : Value) (whole : Value → Value) : Value :=
  if part.reaches 0 then part.fill (fun n => whole (again n)) 0 else part

theorem takenOut_of_not_reaches {part : Value} (h : part.reaches 0 = false)
    (whole : Value → Value) : part.takenOut whole = part := by
  simp [takenOut, h]

/-- A mapping, as key and value pairs. -/
def entries? : Value → Option (List (Value × Value))
  | record ms => some (ms.map fun (k, x) =>
      (text k, x.takenOut fun part => record (Members.put k part ms)))
  | table es => some (es.map fun (k, x) =>
      (k, x.takenOut fun part => table (putEntry k part es)))
  | _ => none

/-- The member of a mapping under a text key. -/
def member? (v : Value) (key : String) : Option Value :=
  match v with
  | record ms => (Members.get? ms key).map (·.takenOut fun part => record (Members.put key part ms))
  | table es => (es.find? fun e => e.1.text? = some key).map
      (·.2.takenOut fun part => table (putEntry (text key) part es))
  | _ => none

/-- The items of a list, none for anything else. -/
def items : Value → List Value
  | list xs => xs.zipIdx.map fun (x, i) => x.takenOut fun part => list (xs.set i part)
  | _ => []

/-- The items of a list, a set or a pair. -/
def sequence? : Value → Option (List Value)
  | list xs => some (list xs).items
  | set xs => some xs
  | pair a b => some [a.takenOut fun part => pair part b, b.takenOut fun part => pair a part]
  | _ => none

/-- A mapping whose members do not refer to it. -/
def separated (v : Value) : Value := (v.entries?.map ofEntries).getD v

/-- A mapping with the member set. -/
def putMember (mapping : Value) (key : String) (v : Value) : Value :=
  match mapping with
  | record ms => record (Members.put key v ms)
  | table es => table (putEntry (text key) v es)
  | w => w

/-- A mapping without the member. -/
def eraseMember (mapping : Value) (key : String) : Value :=
  match mapping with
  | record ms => record (Members.erase key ms)
  | table es => table (es.filter fun e => e.1.text? ≠ some key)
  | w => w

/-- The first value, or the second if the first counts as false. -/
def orElse (v w : Value) : Value := if v.isTruthy then v else w

end Value

end Scaffold.Document
