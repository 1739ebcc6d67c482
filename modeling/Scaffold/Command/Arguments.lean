import Scaffold.Document.Literal
import Scaffold.Options.Export
import Scaffold.Options.Generation
import Scaffold.Text.Lines

/-!
# Command/Arguments — what a command line asks for

Words are sorted first: an operand, or an option with the text attached to it.  An option may be cut
short to any beginning that only it has; letters after a single hyphen are options one by one.
After `--` every word is an operand.  Then the words are taken from left to right, so the first that
asks for help, asks for the version or is refused decides.
-/

namespace Scaffold.Command

open Document Options Schema

/-! ## Options -/

inductive Flag where
  | help
  | version
  | output
  | validateOnly
  | dryRun
  | noFormat
  | projectName
  | framework
  | database
  | auth
  | language
  | noTests
  | noDocs
  | format
  | template
  | verbose
  | quiet
deriving DecidableEq, Repr

namespace Flag

/-- The options in the order in which they are listed. -/
def all : List Flag :=
  [help, version, output, validateOnly, dryRun, noFormat, projectName, framework, database, auth,
    language, noTests, noDocs, format, template, verbose, quiet]

def spellings : Flag → List String
  | help => ["-h", "--help"]
  | version => ["--version"]
  | output => ["-o", "--output"]
  | validateOnly => ["--validate-only"]
  | dryRun => ["--dry-run"]
  | noFormat => ["--no-format"]
  | projectName => ["--project-name"]
  | framework => ["--framework"]
  | database => ["--database"]
  | auth => ["--auth"]
  | language => ["--language"]
  | noTests => ["--no-tests"]
  | noDocs => ["--no-docs"]
  | format => ["--format"]
  | template => ["--template"]
  | verbose => ["-v", "--verbose"]
  | quiet => ["-q", "--quiet"]

/-- The option is followed by a word of its own. -/
def takesWord : Flag → Bool
  | output | projectName | framework | database | auth | language | format | template => true
  | _ => false

/-- The words that the option takes, if it does not take any. -/
def choices : Flag → Option (List String)
  | framework => some (Named.texts Framework)
  | database => some (Named.texts Database)
  | auth => some (Named.texts Strategy)
  | language => some (Named.texts Language)
  | format => some (Named.texts ArchiveFormat)
  | template => some (Named.texts Tier)
  | _ => none

/-- The name of the option in messages. -/
def shown (f : Flag) : String := "/".intercalate f.spellings

/-- The spellings of all options. -/
def table : List (String × Flag) := all.flatMap fun f => f.spellings.map fun s => (s, f)

def ofSpelling? (s : String) : Option Flag := table.lookup s

end Flag

/-! ## Words -/

/-- Why a command line is refused. -/
inductive UsageFault where
  | ambiguous (word : String) (spellings : List String)
  | noWord (f : Flag)
  | notChoice (f : Flag) (word : String) (choices : List String)
  | attached (f : Flag) (word : String)
  | noInput
  | unknown (words : List String)
deriving DecidableEq, Repr

def UsageFault.message : UsageFault → String
  | ambiguous word spellings =>
    s!"ambiguous option: {word} could match " ++ ", ".intercalate spellings
  | noWord f => s!"argument {f.shown}: expected one argument"
  | notChoice f word choices =>
    s!"argument {f.shown}: invalid choice: {Literal.quote word} (choose from " ++
      ", ".intercalate (choices.map Literal.quote) ++ ")"
  | attached f word => s!"argument {f.shown}: ignored explicit argument {Literal.quote word}"
  | noInput => "the following arguments are required: INPUT"
  | unknown words => "unrecognized arguments: " ++ " ".intercalate words

/-- A word of a command line. -/
inductive Word where
  | operand (s : String)
  /-- The first `--`. -/
  | dashes
  /-- An option under one of its spellings, with the text attached to it. -/
  | option (f : Flag) (spelling : String) (attached : Option String)
  /-- What looks like an option and is none. -/
  | unknown (s : String)
deriving DecidableEq, Repr

/-- A word before its first `=`, and what follows that. -/
def splitWord (cs : List Char) : List Char × Option String :=
  match cs.dropWhile (· ≠ '=') with
  | [] => (cs, none)
  | _ :: rest => (cs.takeWhile (· ≠ '='), some (String.ofList rest))

/-- A negative number: digits, perhaps with a point before the last of them.  A line feed may end
it. -/
def isNegativeNumber (cs : List Char) : Bool :=
  let isDecimal (c : Char) : Bool := (Text.decimalValue? c).isSome
  match if cs.getLast? = some '\n' then cs.dropLast else cs with
  | '-' :: ds =>
    match ds.dropWhile isDecimal with
    | [] => !ds.isEmpty
    | '.' :: rest => !rest.isEmpty && rest.all isDecimal
    | _ => false
  | _ => false

/-- The options that a word may be short for. -/
def candidates (cs : List Char) : List (Flag × String × Option String) :=
  match cs with
  | '-' :: '-' :: _ =>
    let (front, attached) := splitWord cs
    Flag.table.filterMap fun (s, f) =>
      if Text.startsWith front s.toList then some (f, s, attached) else none
  | '-' :: c :: rest =>
    Flag.table.filterMap fun (s, f) =>
      if s.toList = ['-', c] then some (f, s, some (String.ofList rest))
      else if Text.startsWith cs s.toList then some (f, s, none)
      else none
  | _ => []

/-- What a word is when no `--` stands before it. -/
def sortWord (s : String) : Except UsageFault Word :=
  let cs := s.toList
  match cs with
  | '-' :: _ :: _ =>
    match Flag.ofSpelling? s with
    | some f => .ok (.option f s none)
    | none =>
      let (front, attached) := splitWord cs
      let front := String.ofList front
      match attached, Flag.ofSpelling? front with
      | some a, some f => .ok (.option f front (some a))
      | _, _ =>
        match candidates cs with
        | [(f, spelling, attached)] => .ok (.option f spelling attached)
        | [] => .ok (if isNegativeNumber cs || cs.contains ' ' then .operand s else .unknown s)
        | many => .error (.ambiguous s (many.map (·.2.1)))
  | _ => .ok (.operand s)

/-- The words of a command line. -/
def sortWords : List String → Except UsageFault (List Word)
  | [] => .ok []
  | "--" :: rest => .ok (.dashes :: rest.map .operand)
  | s :: rest => do
    let w ← sortWord s
    return w :: (← sortWords rest)

/-! ## Arguments -/

/-- What was given for an option that takes a word: with `--` attached to it, nothing. -/
inductive Given (α : Type) where
  | absent
  | nothing
  | word (a : α)
deriving DecidableEq, Repr

structure Arguments where
  input : String
  output : Given String
  validateOnly : Bool
  dryRun : Bool
  noFormat : Bool
  projectName : Given String
  framework : Given Framework
  database : Given Database
  auth : Given Strategy
  language : Given Language
  noTests : Bool
  noDocs : Bool
  format : Given ArchiveFormat
  template : Given Tier
  verbosity : Nat
  quiet : Bool
deriving DecidableEq, Repr

namespace Arguments

def default : Arguments :=
  ⟨"", .word ".", false, false, false, .absent, .absent, .absent, .absent, .absent, false, false,
    .absent, .absent, 0, false⟩

/-- The arguments after an option without a word. -/
def setFlag (a : Arguments) : Flag → Arguments
  | .validateOnly => { a with validateOnly := true }
  | .dryRun => { a with dryRun := true }
  | .noFormat => { a with noFormat := true }
  | .noTests => { a with noTests := true }
  | .noDocs => { a with noDocs := true }
  | .verbose => { a with verbosity := a.verbosity + 1 }
  | .quiet => { a with quiet := true }
  | _ => a

/-- What a word gives for an option with a closed list of choices. -/
def choiceOf {α : Type} [Named α] (word : Option String) : Given α :=
  match word with
  | none => .nothing
  | some w => (Named.ofText? w).elim .absent .word

/-- The arguments after an option with its word, or with none. -/
def setWord (a : Arguments) (word : Option String) : Flag → Arguments
  | .output => { a with output := word.elim .nothing .word }
  | .projectName => { a with projectName := word.elim .nothing .word }
  | .framework => { a with framework := choiceOf word }
  | .database => { a with database := choiceOf word }
  | .auth => { a with auth := choiceOf word }
  | .language => { a with language := choiceOf word }
  | .format => { a with format := choiceOf word }
  | .template => { a with template := choiceOf word }
  | _ => a

end Arguments

/-- What ends the reading of a command line early. -/
inductive Stop where
  | help
  | version
  | fault (f : UsageFault)
deriving DecidableEq, Repr

/-- What has been taken from a command line. -/
structure Taken where
  arguments : Arguments
  input : Option String
  /-- Words that nothing asks for. -/
  extra : List String

/-- An option together with the word it takes. -/
abbrev Setting := Flag × Option String

/-- Applies an option. -/
def applySetting (t : Taken) : Setting → Except Stop Taken
  | (.help, _) => .error .help
  | (.version, _) => .error .version
  | (f, none) => .ok { t with arguments := t.arguments.setFlag f }
  | (f, some word) =>
    if word = "--" then .ok { t with arguments := t.arguments.setWord none f }
    else if (f.choices.getD [word]).contains word then
      .ok { t with arguments := t.arguments.setWord (some word) f }
    else .error (.fault (.notChoice f word (f.choices.getD [])))

/-- Applies options in turn. -/
def applySettings (t : Taken) : List Setting → Except Stop Taken
  | [] => .ok t
  | s :: rest => do applySettings (← applySetting t s) rest

/-- The options of one word, and whether the last still needs the next word: letters attached to an
option that takes none are options themselves. -/
def settingsOf (f : Flag) (single : Bool) :
    Option (List Char) → Except UsageFault (List Setting × Bool)
  | none => .ok ([(f, none)], f.takesWord)
  | some cs =>
    if f.takesWord then .ok ([(f, some (String.ofList cs))], false)
    else
      match cs with
      | [] => .error (.attached f "")
      | c :: rest =>
        if !single then .error (.attached f (String.ofList cs))
        else
          match Flag.ofSpelling? (String.ofList ['-', c]) with
          | none => .error (.attached f (String.ofList cs))
          | some g => do
            let more := if rest.isEmpty then none else some rest
            let (settings, isOpen) ← settingsOf g true more
            return ((f, none) :: settings, isOpen)
termination_by cs => (cs.map List.length).getD 0
decreasing_by
  cases rest <;> simp

/-- Takes the words from left to right. -/
def takeWords (t : Taken) : List Word → Except Stop Taken
  | [] => .ok t
  | .unknown s :: rest => takeWords { t with extra := t.extra ++ [s] } rest
  | .dashes :: .operand s :: rest =>
    if t.input.isNone then takeWords { t with input := some s } rest
    else takeWords { t with extra := t.extra ++ ["--"] } (.operand s :: rest)
  | .dashes :: rest => takeWords { t with extra := t.extra ++ ["--"] } rest
  | .operand s :: .dashes :: rest =>
    if t.input.isNone then takeWords { t with input := some s } rest
    else takeWords { t with extra := t.extra ++ [s] } (.dashes :: rest)
  | .operand s :: rest =>
    if t.input.isNone then takeWords { t with input := some s } rest
    else takeWords { t with extra := t.extra ++ [s] } rest
  | .option f spelling attached :: rest => do
    let single := !Text.startsWith ['-', '-'] spelling.toList
    let (settings, isOpen) ← (settingsOf f single (attached.map String.toList)).mapError .fault
    match isOpen, rest with
    | false, rest => takeWords (← applySettings t settings) rest
    | true, .operand s :: rest =>
      let settings := settings.dropLast ++ settings.getLast?.toList.map fun (f, _) => (f, some s)
      takeWords (← applySettings t settings) rest
    | true, _ => throw (.fault (.noWord ((settings.getLast?.map (·.1)).getD f)))

namespace Arguments

/-- The arguments of a command line. -/
def read (words : List String) : Except Stop Arguments := do
  let sorted ← (sortWords words).mapError .fault
  let t ← takeWords ⟨.default, none, []⟩ sorted
  match t.input with
  | none => throw (.fault .noInput)
  | some input =>
    if t.extra.isEmpty then return { t.arguments with input }
    else throw (.fault (.unknown t.extra))

end Arguments

end Scaffold.Command

/-! ## What the command says about itself -/

namespace Scaffold.Command

def usage : String := Text.paragraph
  ["usage: modelforge [-h] [--version] [-o DIR] [--validate-only] [--dry-run]",
   "                  [--no-format] [--project-name NAME]",
   r"                  [--framework {express,fastify,koa}]",
   r"                  [--database {postgresql,mysql,mongodb}]",
   r"                  [--auth {none,jwt,oauth,session}]",
   r"                  [--language {typescript,javascript}] [--no-tests]",
   r"                  [--no-docs] [--format {zip,tar}]",
   r"                  [--template {basic,advanced,enterprise}] [-v] [-q]",
   "                  INPUT"]

/-- The usage with a line for each option. -/
def helpText : String := usage ++ Text.paragraph
  ["",
   "ModelForge - backend project generator.",
   "",
   "Compiles a data-model description (JSON/YAML) into a complete Express + TypeScript service" ++
     " and packages it as an archive.",
   "",
   "positional arguments:",
   "  INPUT                 Path to the model document (JSON or YAML).",
   "",
   "options:",
   "  -h, --help            show this help message and exit",
   "  --version             show program's version number and exit",
   "  -o DIR, --output DIR  Directory the archive is written to (default: current",
   "                        directory).",
   "",
   "operation modes:",
   "  --validate-only       Only validate the models without generating code.",
   "  --dry-run             Run the full pipeline but don't write the archive to",
   "                        disk.",
   "  --no-format           Skip the formatting pass over generated files.",
   "",
   "generation overrides:",
   "  --project-name NAME   Override the project name.",
   r"  --framework {express,fastify,koa}",
   "                        Target framework.",
   r"  --database {postgresql,mysql,mongodb}",
   "                        Target database engine.",
   r"  --auth {none,jwt,oauth,session}",
   "                        Authentication strategy.",
   r"  --language {typescript,javascript}",
   "                        Target source language.",
   "  --no-tests            Do not generate or package test files.",
   "  --no-docs             Do not generate or package documentation files.",
   "",
   "export overrides:",
   r"  --format {zip,tar}    Archive format.",
   r"  --template {basic,advanced,enterprise}",
   "                        Template tier of auxiliary deployment files.",
   "",
   "verbosity:",
   "  -v, --verbose         Increase verbosity (-v for INFO, -vv for DEBUG).",
   "  -q, --quiet           Suppress all log output.",
   "",
   "Examples:",
   "  modelforge models.yaml",
   "  modelforge models.json -o ./dist --format tar --template advanced",
   "  modelforge models.yaml --validate-only"]

def versionText : String := "ModelForge v1.0.0\n"

end Scaffold.Command
