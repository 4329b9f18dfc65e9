import RenderTrace.CommandLine.Grammar
import RenderTrace.Input.Kind
import RenderTrace.Report.Tables

/-!
# Commands

The two commands and their options: `profile` builds the profile of a trace, `validate` checks an
input file. `Command.read` understands the words of a whole command line. The values of options are
read in the order the options are given in, then the argument.
-/

namespace RenderTrace.CommandLine

/-! ## Levels of detail -/

/-- The least level of the events that are logged, by how often more detail was asked for. -/
def logLevel (verbosity : Int) : Level :=
  if verbosity = 0 then .warning else if verbosity = 1 then .info else .debug

inductive LogPart where
  | time
  | level
  | topic
  | message
  | text (s : String)
  deriving DecidableEq, Repr

def logLine : List LogPart := [.time, .text " ", .level, .text " ", .topic, .text ": ", .message]

/-- The text of a part of the line for an event. -/
def LogPart.render (time : String) (e : Event) : LogPart → String
  | .time => time
  | .level => e.level.name
  | .topic => e.topic.name
  | .message => e.message
  | .text s => s

/-- The line for an event, with the failure behind it on a line of its own. -/
def logText (time : String) (e : Event) : String :=
  String.join (logLine.map (LogPart.render time e))
    ++ (e.cause?.elim "" fun f => "\n" ++ f.message)

def isLogged (verbosity : Int) (e : Event) : Bool :=
  (logLevel verbosity).weight ≤ e.level.weight

/-! ## What the commands are asked to do -/

/-- How a profile is written. -/
inductive Format where
  | table
  | json
  deriving DecidableEq, Repr

/-- What `profile` is asked to do. -/
structure ProfileArgs where
  trace : Path
  descriptor : Option Path
  handleMapping : Option Path
  renderPasses : Option Path
  format : Format
  /-- The part to show, all of them if none is named. -/
  part : Option Report.Section
  showHeader : Bool
  /-- Queries that may be answered at once. -/
  jobs : Int
  /-- Seconds after which no further query is issued. -/
  timeout : Option Float
  output : Option Path
  compress : Bool

/-- What `validate` is asked to do. -/
structure ValidateArgs where
  file : Path
  /-- The kind of the file, told from its name if none is given. -/
  kind : Option InputKind
  quiet : Bool
  json : Bool
  verbose : Bool

inductive Command where
  | profile (args : ProfileArgs)
  | validate (args : ValidateArgs)
  /-- Show how the program is used. -/
  | help

/-! ## Options -/

def helpOption : OptionSpec := ⟨"--help", none, .flag⟩

def globalOptions : List OptionSpec :=
  [⟨"--version", none, .flag⟩, ⟨"--verbose", some 'v', .flag⟩, helpOption]

/-- The name that stands for all sections. -/
def allSections : String := "all"

/-- The name that stands for telling the kind from the name of the file. -/
def anyKind : String := "auto"

def profileOptions : List OptionSpec := [
  ⟨"--descriptor", some 'd', .existingPath⟩,
  ⟨"--handle-mapping", some 'm', .existingPath⟩,
  ⟨"--render-passes", some 'r', .existingPath⟩,
  ⟨"--format", none, .choice ["table", "json"]⟩,
  ⟨"--section", none, .choice (allSections :: Report.sections.map Report.Section.name)⟩,
  ⟨"--no-header", none, .flag⟩,
  ⟨"--jobs", some 'j', .integerFrom 1⟩,
  ⟨"--timeout", none, .above 0⟩,
  ⟨"--output", some 'o', .path⟩,
  ⟨"--compress", none, .flag⟩,
  helpOption]

def validateOptions : List OptionSpec := [
  ⟨"--kind", some 'k', .choice (InputKind.all.map InputKind.name ++ [anyKind])⟩,
  ⟨"--quiet", some 'q', .flag⟩,
  ⟨"--json", none, .flag⟩,
  ⟨"--verbose", some 'v', .flag⟩,
  helpOption]

/-! ## Reading commands -/

/-- The values of the options given. -/
abbrev Values := List (String × Value)

def Values.has (vs : Values) (name : String) : Bool := (vs.lookup name).isSome

/-- The path given for an option. -/
def Values.path? (vs : Values) (name : String) : Option Path :=
  match vs.lookup name with
  | some (.path p) => some p
  | _ => none

/-- The choice made for an option. -/
def Values.choice? (vs : Values) (name : String) : Option String :=
  match vs.lookup name with
  | some (.choice s) => some s
  | _ => none

/-- What `profile` is asked to do by the values of its options. -/
def profileArgs (trace : Path) (vs : Values) : ProfileArgs where
  trace := trace
  descriptor := vs.path? "--descriptor"
  handleMapping := vs.path? "--handle-mapping"
  renderPasses := vs.path? "--render-passes"
  format := if vs.choice? "--format" = some "json" then .json else .table
  part := (vs.choice? "--section").bind Report.Section.ofName?
  showHeader := !vs.has "--no-header"
  jobs := match vs.lookup "--jobs" with
    | some (.integer n) => n
    | _ => 1
  timeout := match vs.lookup "--timeout" with
    | some (.double x) => some x
    | _ => none
  output := vs.path? "--output"
  compress := vs.has "--compress"

/-- What `validate` is asked to do by the values of its options. -/
def validateArgs (file : Path) (vs : Values) : ValidateArgs where
  file := file
  kind := (vs.choice? "--kind").bind InputKind.ofName?
  quiet := vs.has "--quiet"
  json := vs.has "--json"
  verbose := vs.has "--verbose"

def readCommand (files : FileTree) (options : List OptionSpec) (argument : String)
    (make : Path → Values → Command) (words : List String) : Except UsageError Command := do
  let s ← scan options true words
  if s.given.any (·.option.long = helpOption.long) then return .help
  let vs ← readValues files s.given
  let p ← readArgument files argument s.arguments
  return make p vs

def commandNames : List String := ["profile", "validate"]

/-- Reads the name of a command and the words after it. An unknown name that is written like an
option is read as one first. -/
def readNamed (files : FileTree) : List String → Except UsageError Command
  | [] => .error .missingCommand
  | name :: words => do
    if name = "profile" then
      readCommand files profileOptions "TRACE" (fun p vs => .profile (profileArgs p vs)) words
    else if name = "validate" then
      readCommand files validateOptions "FILE" (fun p vs => .validate (validateArgs p vs)) words
    else
      let _ ← scan globalOptions false (name :: words)
      throw (.unknownCommand name (similarTo name commandNames))

/-- A command line that was understood. -/
structure Line where
  /-- How often more detail was asked for. -/
  verbosity : Nat
  command : Command

def Line.read (files : FileTree) (words : List String) : Except UsageError Line := do
  let s ← scan globalOptions false words
  if words.isEmpty || s.given.any (·.option.long ≠ "--verbose") then return ⟨0, .help⟩
  return ⟨s.given.length, ← readNamed files s.arguments⟩

end RenderTrace.CommandLine
