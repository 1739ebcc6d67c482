import Scaffold.Command.Arguments
import Scaffold.Command.Folder
import Scaffold.Job.Run

/-!
# Command/Run — what a command line does in a folder

A command line asks for the models of its input to be validated or for the whole job to be run.
`plan` decides everything that can be decided by reading; what is left is to deliver an archive, and
`Plan.settle` says how the command ends once that has been tried.  `run` does both.
-/

namespace Scaffold.Command

open Document Options Schema

/-! ## Results -/

/-- How a command ends. -/
inductive Status where
  | done
  | rejected
  | notGenerated
  | notWritten
  | badInput
deriving DecidableEq, Repr

def Status.code : Status → Nat
  | done => 0
  | rejected => 1
  | notGenerated => 2
  | notWritten => 3
  | badInput => 4

inductive Level where
  | warning
  | error
deriving DecidableEq, Repr

def Level.name : Level → String
  | warning => "WARNING"
  | error => "ERROR"

/-- The part of the program that says something. -/
inductive Speaker where
  | command
  | generation
deriving DecidableEq, Repr

def Speaker.name : Speaker → String
  | command => "modelforge"
  | generation => "modelforge.generator"

/-- Something that is said beside the output. -/
inductive Note where
  | usage (f : UsageFault)
  | said (level : Level) (speaker : Speaker) (message : String)
deriving DecidableEq, Repr

/-- A note in one line. -/
def Note.text : Note → String
  | usage f => s!"modelforge: error: {f.message}"
  | said level speaker message =>
    " | ".intercalate [Number.padRight 8 ' ' level.name, speaker.name, message]

structure Result where
  status : Status
  output : String
  notes : List Note
deriving DecidableEq, Repr

/-- What ends a command without a result: nothing is prepared for it. -/
inductive Crash where
  | input (f : InputFailure)
  | path (fault : PathFault) (p : Path)
  /-- The option for the directory of the archive was given without a word. -/
  | noDirectory
  | unfitTarget (u : Validation.UnfitTarget)

/-- An error that the command reports. -/
def failed (status : Status) (message : String) : Result :=
  ⟨status, "", [.said .error .command message]⟩

/-- The result after a note on how the job ended. -/
def Result.closed (r : Result) : Result :=
  if r.status = .done then r
  else
    { r with notes := r.notes ++
        [.said .error .command s!"Generation failed with exit code {r.status.code}."] }

/-- The result of a command line that does not come to its input. -/
def Stop.result : Stop → Result
  | .help => ⟨.done, helpText, []⟩
  | .version => ⟨.done, versionText, []⟩
  | .fault f => ⟨.badInput, "", [.usage f]⟩

/-! ## Overrides -/

/-- The member for a choice that was made, or made without a word. -/
def chosen {α : Type} [Named α] (option : String) : Given α → Members
  | .absent => []
  | .nothing => [(option, .list [])]
  | .word c => [(option, .text (Named.text c))]

/-- The members for what is left out. -/
def leftOut (a : Arguments) : Members :=
  (if a.noTests then [("include_tests", Value.bool false)] else []) ++
    if a.noDocs then [("include_documentation", Value.bool false)] else []

def generationOverrides (a : Arguments) : Members :=
  chosen "framework" a.framework ++ chosen "database" a.database ++
    chosen "authentication" a.auth ++ chosen "language" a.language ++ leftOut a

def exportOverrides (a : Arguments) : Members :=
  chosen "format" a.format ++ chosen "template" a.template ++ leftOut a

/-- A job under the name that was given, unless that is empty. -/
def renamed (a : Arguments) (job : Job) : Job :=
  match a.projectName with
  | .word name => { job with name := (Value.text name).orElse job.name }
  | _ => job

/-! ## Plans -/

/-- What a command finds. -/
structure Surroundings where
  /-- The directory in which it starts. -/
  base : Path
  folder : Folder
  templates : Template.Registry
  /-- The moment, in milliseconds. -/
  moment : Nat

/-- An archive on its way to a path. -/
structure Delivery where
  directory : Path
  target : Path
  outcome : Job.Outcome

/-- How a command ends, perhaps after a delivery. -/
inductive Plan where
  | finished (r : Result)
  | deliver (d : Delivery) (r : Result)

/-- The path that a word of the command line names.  A step that no path has is found even where a
later one leads back over it. -/
def pathOf (s : Surroundings) (word : String) : Except Crash Path :=
  let p := Path.ofText s.base word
  if Path.isProper p then .ok (Path.resolved p) else .error (.path .improper p)

def rule : String := String.ofList (List.replicate 50 '=')

/-- What validation alone has to say. -/
def validationOutput (name : String) (count : Nat) (r : Validation.Result) : String :=
  let isSpotless := r.findings.isEmpty && r.cycles.isEmpty
  Text.paragraph
    ["", rule, "  Model Validation Report", rule,
      "  File:     " ++ name,
      "  Models:   " ++ toString count,
      "  Time:     " ++ Job.Report.seconds .zero ++ "s",
      "  Valid:    " ++ (if r.isValid then "Yes" else "No"),
      "",
      if isSpotless then "  All validations passed!" else r.report,
      rule, ""]

/-- Validates the models of an input. -/
def validateOnly (s : Surroundings) (input : Path) : Except Crash Result :=
  match s.folder.readDocument input with
  | .error e =>
    match e.message? with
    | some m => .ok (failed .badInput s!"Failed to load input: {m}")
    | none => .error (.input e)
  | .ok v =>
    match Job.models? v with
    | none => .ok (failed .badInput Job.noModelsMessage)
    | some models =>
      match Validation.validateModels (models.map .raw) with
      | .error u => .error (.unfitTarget u)
      | .ok r =>
        let status := if r.isValid then .done else .rejected
        .ok ⟨status, validationOutput (Path.name input) models.length r, []⟩

/-- What generation says about the models. -/
def findingNotes (r : Validation.Result) : List Note :=
  let said (level : Level) (message : String) : Note := .said level .generation ("  " ++ message)
  r.warnings.map (fun f => said .warning f.summary) ++
    r.cycles.map (fun c => said .warning s!"Circular reference: {c}") ++
    r.errors.map fun f => said .error f.summary

/-- What generation says before a failure is reported. -/
def failureNotes (moment : Nat) (name : Value) : Job.Failure → List Note
  | .project (.collision paths) =>
    let shown := (name.orElse (.text (Project.defaultName moment))).shown
    let listed := (Value.list (paths.map .text)).literal
    [.said .error .generation s!"Project {shown} has colliding artifact paths: {listed}"]
  | _ => []

/-- Runs a job whose archive goes to a directory. -/
def planJob (s : Surroundings) (a : Arguments) (directory : Path) (job : Job) : Plan :=
  let format := if a.noFormat then none else some Format.Options.default
  match Validation.validateModels job.models with
  | .error u => .finished (failed .notGenerated s!"Generation failed: {u.message}")
  | .ok checked =>
    let notes := findingNotes checked
    if !checked.isValid then .finished ⟨.rejected, Text.paragraph [checked.report], notes⟩
    else
      match Job.produce ⟨s.templates, format, s.moment⟩ job checked with
      | .error f =>
        let r := failed .notGenerated s!"Generation failed: {f.message}"
        .finished { r with notes := notes ++ failureNotes s.moment job.name f ++ r.notes }
      | .ok outcome =>
        let r := ⟨.done, Text.paragraph [outcome.report.summary], notes⟩
        if a.dryRun then .finished r
        else .deliver ⟨directory, Path.ofText directory outcome.report.archive, outcome⟩ r

/-- The directory in which an archive is to be left. -/
def directoryOf (s : Surroundings) (a : Arguments) : Except Crash Path :=
  match a.output with
  | .word w => pathOf s w
  | _ => .error .noDirectory

/-- Reads the job of an input and runs it. -/
def planGeneration (s : Surroundings) (a : Arguments) (input : Path) : Except Crash Plan := do
  let directory ← directoryOf s a
  let refused (m : String) : Plan := .finished (failed .badInput s!"Invalid input: {m}")
  match s.folder.readDocument input with
  | .error e => (e.message?.or e.misfit?).elim (.error (.input e)) fun m => .ok (refused m)
  | .ok v =>
    match Job.read v (generationOverrides a) (exportOverrides a) with
    | .error r => return refused r.message
    | .ok job => return planJob s a directory (renamed a job)

/-- The result of a job, closed by a note if it failed. -/
def Plan.closed : Plan → Plan
  | finished r => finished r.closed
  | deliver d r => deliver d r

/-- What a command does. -/
def plan (s : Surroundings) (a : Arguments) : Except Crash Plan := do
  let input ← pathOf s a.input
  match ← (s.folder.find? input).mapError (.path · input) with
  | none => return .finished (failed .badInput s!"Input file not found: {Path.text input}")
  | some .directory =>
    return .finished (failed .badInput s!"Input path is not a file: {Path.text input}")
  | some (.file _) =>
    if a.validateOnly then return .finished (← validateOnly s input)
    else return (← planGeneration s a input).closed

/-- How a command ends after a delivery. -/
def settle (d : Delivery) (r : Result) : Option Folder.Obstacle → Except Crash Result
  | none => .ok r
  | some (.improper, p) => .error (.path .improper p)
  | some (fault, p) =>
    let message := s!"Failed to write archive {Path.text d.target}: " ++ fault.summary p
    .ok ⟨.notWritten, "", r.notes ++ (failed .notWritten message).closed.notes⟩

/-- A result in which nothing is said beside the output, if that is asked for. -/
def Arguments.hushed (a : Arguments) (r : Result) : Result :=
  if a.quiet then { r with notes := [] } else r

/-! ## Running -/

/-- Delivers an archive. -/
def Folder.deliver (f : Folder) (d : Delivery) : Folder × Option Obstacle :=
  match f.ensure d.directory with
  | (f, some e) => (f, some e)
  | (f, none) => f.write d.target d.outcome.archive

/-- Carries out a plan in a folder. -/
def Plan.carryOut (f : Folder) : Plan → Except Crash (Result × Folder)
  | finished r => .ok (r, f)
  | deliver d r =>
    let (f, obstacle) := f.deliver d
    (settle d r obstacle).map (·, f)

/-- What a command line does: how it ends and what it leaves. -/
def run (s : Surroundings) (words : List String) : Except Crash (Result × Folder) :=
  match Arguments.read words with
  | .error stop => .ok (stop.result, s.folder)
  | .ok a => do
    let (r, f) ← (← plan s a).carryOut s.folder
    return (a.hushed r, f)

end Scaffold.Command
