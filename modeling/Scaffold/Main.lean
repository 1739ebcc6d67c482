import Scaffold.Command.Run
import Scaffold.Template.Library
import Std.Time.DateTime.Timestamp

/-!
# Main — the command

The words of the command line, the file that they name and the clock go into a plan; the archive of
the plan goes to its path, the output and the notes to their streams.
-/

open Scaffold Scaffold.Command

/-- What the system says about a path. -/
def faultOf : IO.Error → PathFault
  | .noFileOrDirectory .. => .missing
  | .alreadyExists _ code text | .inappropriateType _ code text | .permissionDenied _ code text
  | .resourceExhausted _ code text | .invalidArgument _ code text | .noSuchThing _ code text
  | .otherError code text | .resourceBusy code text | .unsupportedOperation code text
  | .hardwareFault code text | .illegalOperation code text =>
    match code.toNat with
    | 17 => .occupied
    | 20 => .notDirectory
    | 21 => .isDirectory
    | 36 => .tooLong
    | n => .other n text
  | e => .other 5 (toString e)

/-- What stands at a path; the content of a file is read. -/
def placeAt (p : Path) : IO (Option Place) := do
  try
    let place := (← IO.currentDir) / Path.text p
    if (← place.metadata).type matches .dir then return some .directory
    return some (.file (← IO.FS.readBinFile place))
  catch _ => return none

/-- What stands at a path and on the way to it. -/
def survey (p : Path) : IO Folder := do
  let mut places := []
  for n in List.range p.length do
    let part := p.take (n + 1)
    if let some place ← placeAt part then places := (part, place) :: places
  return ⟨places⟩

/-- Delivers an archive to the disk. -/
def deliver (d : Delivery) : IO (Option Folder.Obstacle) := do
  try
    IO.FS.createDirAll (Path.text d.directory)
  catch e => return some (faultOf e, d.directory)
  try
    IO.FS.writeBinFile (Path.text d.target) d.outcome.archive
  catch e => return some (faultOf e, d.target)
  return none

/-- Prints a result; notes carry the time of day. -/
def present (moment : Nat) (r : Result) : IO UInt32 := do
  let clock := (Calendar.Moment.ofMicroseconds (moment / 1000 * 1000000)).timeText
  for note in r.notes do
    match note with
    | .usage _ => IO.eprint (usage ++ note.text ++ "\n")
    | .said .. => IO.eprintln s!"{clock} | {note.text}"
  IO.print r.output
  return r.status.code.toUInt32

/-- Says why a command has no result. -/
def abandon : Crash → IO UInt32
  | .unfitTarget u => do
    IO.eprintln u.message
    return 1
  | .path fault p | .input (.path fault p) => do
    IO.eprintln (fault.summary p)
    return 1
  | .noDirectory => do
    IO.eprintln "The option for the output directory was given without a word."
    return 1
  | .input _ => do
    IO.eprintln "The input holds a value that has no meaning."
    return 1

def main (words : List String) : IO UInt32 := do
  let moment := (← Std.Time.Timestamp.now).toMillisecondsSinceUnixEpoch.val.toNat
  match Arguments.read words with
  | .error stop => present moment stop.result
  | .ok a =>
    let base := Path.ofText [] (← IO.currentDir).toString
    let folder ← survey (Path.resolved (Path.ofText base a.input))
    match plan ⟨base, folder, Template.Library.registry, moment⟩ a with
    | .error crash => abandon crash
    | .ok (.finished r) => present moment (a.hushed r)
    | .ok (.deliver d r) =>
      match settle d r (← deliver d) with
      | .error crash => abandon crash
      | .ok r => present moment (a.hushed r)
