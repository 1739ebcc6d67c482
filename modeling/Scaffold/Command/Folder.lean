import Scaffold.Document.Literal
import Scaffold.Job.Source
import Scaffold.Text.Lines

/-!
# Command/Folder — files and directories as a command finds and leaves them

A folder maps paths to what is there.  Following a path enters one directory after the other, so a
path fails at the first step that cannot be taken; making a directory makes the missing ones above
it too.
-/

namespace Scaffold.Command

open Document

/-- The steps of a path from the root. -/
abbrev Path := List String

namespace Path

/-- The path that a text names, seen from a directory. -/
def ofText (base : Path) (s : String) : Path :=
  let steps := ((Text.pieces '/' s.toList).map String.ofList).filter fun p => p ≠ "" && p ≠ "."
  if Text.startsWith ['/'] s.toList then steps else base ++ steps

def text (p : Path) : String := "/" ++ "/".intercalate p

/-- A path without steps back. -/
def resolved (p : Path) : Path :=
  p.foldl (fun done step => if step = ".." then done.dropLast else done ++ [step]) []

/-- The last step. -/
def name (p : Path) : String := p.getLast?.getD ""

/-- The path can be given to the system at all. -/
def isProper (p : Path) : Bool := p.all fun step => !step.contains '\x00'

end Path

/-- What stands at a path. -/
inductive Place where
  | directory
  | file (content : ByteArray)

/-- Why a path cannot be used. -/
inductive PathFault where
  | missing
  | occupied
  | notDirectory
  | isDirectory
  | tooLong
  /-- The path holds a character that no path has. -/
  | improper
  /-- Anything else that the system has to say. -/
  | other (number : Nat) (text : String)
deriving DecidableEq, Repr

namespace PathFault

def number : PathFault → Nat
  | missing => 2
  | occupied => 17
  | notDirectory => 20
  | isDirectory => 21
  | improper => 22
  | tooLong => 36
  | other number _ => number

def text : PathFault → String
  | missing => "No such file or directory"
  | occupied => "File exists"
  | notDirectory => "Not a directory"
  | isDirectory => "Is a directory"
  | tooLong => "File name too long"
  | improper => "embedded null byte"
  | other _ text => text

/-- A fault at a path in one line. -/
def summary (f : PathFault) (p : Path) : String :=
  s!"[Errno {f.number}] {f.text}: " ++ Literal.quote (Path.text p)

end PathFault

/-- What is known to stand at paths; the root is always a directory. -/
structure Folder where
  places : List (Path × Place)

namespace Folder

/-- What stands at a path without steps back. -/
def get? (f : Folder) (p : Path) : Option Place :=
  if p.isEmpty then some .directory else f.places.lookup p

def isDirectory (f : Folder) (p : Path) : Bool :=
  match f.get? p with
  | some .directory => true
  | _ => false

/-- The directory that steps lead to from another one. -/
def enter (f : Folder) (base : Path) : List String → Except PathFault Path
  | [] => .ok base
  | step :: steps =>
    if step = ".." then f.enter base.dropLast steps
    else if 255 < step.utf8ByteSize then .error .tooLong
    else
      match f.get? (base ++ [step]) with
      | none => .error .missing
      | some (.file _) => .error .notDirectory
      | some .directory => f.enter (base ++ [step]) steps

/-- The path without steps back of something whose directory is there. -/
def locate (f : Folder) (p : Path) : Except PathFault Path := do
  if !Path.isProper p then throw .improper
  let directory ← f.enter [] p.dropLast
  match p.getLast? with
  | none => return []
  | some step =>
    if step = ".." then return directory.dropLast
    else if 255 < step.utf8ByteSize then throw .tooLong
    else return directory ++ [step]

/-- What a path leads to.  A path that cannot be followed leads to nothing, but one that cannot be a
path at all is refused. -/
def find? (f : Folder) (p : Path) : Except PathFault (Option Place) :=
  match f.locate p with
  | .ok q => .ok (f.get? q)
  | .error .tooLong => .error .tooLong
  | .error _ => .ok none

def put (f : Folder) (p : Path) (x : Place) : Folder :=
  ⟨f.places.filter (·.1 ≠ p) ++ [(p, x)]⟩

def makeDirectory (f : Folder) (p : Path) : Except PathFault Folder := do
  let q ← f.locate p
  if (f.get? q).isSome then throw .occupied
  return f.put q .directory

/-- A fault and the path that it concerns. -/
abbrev Obstacle := PathFault × Path

/-- Makes a directory, given by its steps backwards, with those above it; one that is there already
will do.  What was made before an obstacle stays. -/
def ensureBackwards (f : Folder) : List String → Folder × Option Obstacle
  | [] => (f, none)
  | step :: above =>
    let p := (step :: above).reverse
    let settle (f : Folder) (fault : PathFault) : Folder × Option Obstacle :=
      if (f.locate p).toOption.any f.isDirectory then (f, none) else (f, some (fault, p))
    match f.makeDirectory p with
    | .ok f => (f, none)
    | .error .missing =>
      match f.ensureBackwards above with
      | (f, some e) => (f, some e)
      | (f, none) =>
        match f.makeDirectory p with
        | .ok f => (f, none)
        | .error fault => settle f fault
    | .error fault => settle f fault

def ensure (f : Folder) (p : Path) : Folder × Option Obstacle := f.ensureBackwards p.reverse

/-- Writes a file, in place of one that is there. -/
def write (f : Folder) (p : Path) (content : ByteArray) : Folder × Option Obstacle :=
  match f.locate p with
  | .error fault => (f, some (fault, p))
  | .ok q =>
    if f.isDirectory q then (f, some (.isDirectory, p)) else (f.put q (.file content), none)

end Folder

end Scaffold.Command

/-! ## The document at a path -/

namespace Scaffold.Command

open Document Job

/-- Why a path gives no document. -/
inductive InputFailure where
  | path (fault : PathFault) (p : Path)
  | source (f : SourceFailure)
deriving DecidableEq

namespace InputFailure

/-- The words for a failure that is the input's own. -/
def message? : InputFailure → Option String
  | path .. => none
  | source f => f.message?

/-- The words for a value that does not fit. -/
def misfit? : InputFailure → Option String
  | path .. => none
  | source f => f.misfit?

end InputFailure

/-- The text of the file at a path. -/
def Folder.readText (f : Folder) (p : Path) : Except InputFailure String := do
  match ← (f.find? p).mapError (.path · p) with
  | none => throw (.source (.missing p.text))
  | some .directory => throw (.source (.notFile p.text))
  | some (.file content) => (String.fromUTF8? content).elim (throw (.source (.notText p.text))) pure

/-- The document of the file at a path. -/
def Folder.readDocument (f : Folder) (p : Path) : Except InputFailure Value := do
  let text ← f.readText p
  (documentOf p.name p.text text).mapError .source

end Scaffold.Command
