import RenderTrace.CommandLine.Command
import RenderTrace.Input.Validate
import RenderTrace.Query.Session
import RenderTrace.Report.Document
import RenderTrace.Text.ControlSequence

/-!
# Running commands

`Surroundings.run` runs a command line on a file tree and a trace engine and gives what comes of it:
the exit code, what is printed, the files afterwards, the events and what the engine was asked to do.
What is printed holds no control sequences; files do. A failure that no command expects is a `Crash`.
-/

namespace RenderTrace.CommandLine

/-- What a command finds. -/
structure Surroundings where
  files : FileTree
  /-- The engine that a trace is opened with. -/
  engine : Engine
  /-- Seconds from the start of a request to its queries. -/
  elapsed : Rat

/-- A failure that no command expects. -/
inductive Crash where
  | load (error : LoadError)
  | file (error : FileError)
  | failure (failure : Failure)

def Crash.message : Crash → String
  | load e => e.message
  | file e => e.message
  | failure f => f.message

/-- What comes of a command. -/
structure Outcome where
  exitCode : Nat
  stdout : String
  stderr : String
  files : FileTree
  events : List Event
  /-- What the trace engine was asked to do. -/
  calls : List EngineCall
  crash : Option Crash

/-- An outcome that prints no control sequences. -/
def Outcome.withoutControls (o : Outcome) : Outcome :=
  { o with
    stdout := Text.dropControlSequences o.stdout
    stderr := Text.dropControlSequences o.stderr }

/-- An error in the words that users are told it. -/
def errorLine (message : String) : String := "Error: " ++ message ++ "\n"

namespace Surroundings

variable [Zstd.Codec]

/-- Ends a command without a trace opened. -/
def finish (s : Surroundings) (exitCode : Nat) (stdout stderr : String) : Outcome :=
  ⟨exitCode, stdout, stderr, s.files, [], [], none⟩

/-- Ends a command that fails in an unexpected way. -/
def crash (s : Surroundings) (c : Crash) : Outcome :=
  { s.finish 1 "" "" with crash := some c }

/-! ## Validating -/

def validMark : String := "✅ Valid input file"

def invalidMark : String := "❌ Validation failed"

/-- The report on a file for people. -/
def validationLines (verbose : Bool) (v : Validation) : List String :=
  if v.valid then
    [validMark, "   Kind:         " ++ v.kind.name,
      "   File size:    " ++ (Validation.sizeText v.size).toOption.getD ""]
      ++ (if verbose && v.compression = .zstd then ["   Compression:  zstd"] else [])
  else invalidMark :: v.errors.map ("   " ++ ·)

def validationText (args : ValidateArgs) (v : Validation) : String :=
  if args.quiet then ""
  else if args.json then v.toJson.write ++ "\n"
  else String.join ((validationLines args.verbose v).map (· ++ "\n"))

def noKindMessage (p : Path) : String :=
  "Cannot auto-detect input kind for " ++ p.text ++ ". Use --kind to specify."

def validate (s : Surroundings) (args : ValidateArgs) : Outcome :=
  match args.kind.or (InputKind.detect? args.file) with
  | none => s.finish 2 "" (if args.quiet then "" else errorLine (noKindMessage args.file))
  | some kind =>
    match Validation.ofFile s.files args.file kind with
    | .error e => s.crash (.load e)
    | .ok v => s.finish (if v.valid then 0 else 1) (validationText args v) ""

/-! ## Profiling -/

/-- Loads the input files that are given, up to the first that fails. -/
def loadInputs (files : FileTree) (args : ProfileArgs) : Except LoadError Profile.Inputs := do
  let descriptor ← args.descriptor.mapM (Input.descriptor files)
  let handles ← args.handleMapping.mapM (Input.handleMap files)
  let table ← args.renderPasses.mapM (Input.renderPasses files)
  return ⟨descriptor, handles, (table.getD .empty).lookup.source, args.jobs⟩

/-- The request that the queries of a profile carry. -/
def requestOf (args : ProfileArgs) : Request :=
  match args.timeout with
  | none => .unlimited
  | some x => (Request.withTimeout 0 (.double x)).toOption.getD .unlimited

def profileText (args : ProfileArgs) (p : Profile Int Float) : Except Failure String :=
  match args.format, args.part with
  | .json, _ => p.format.mapError .conversion
  | .table, none => Report.allTables args.showHeader p
  | .table, some part => Report.sectionTable args.showHeader p part

def profileOf (s : Surroundings) (args : ProfileArgs) (inputs : Profile.Inputs) :
    StateM Progress (Profile Int Float × List Event) :=
  let serve := s.engine.store.serve
  if 1 < args.jobs then Profile.runBoth serve [] inputs Profile.metricsOf
  else Profile.run serve inputs Profile.metricsOf

/-- Writes the text of a profile to the file asked for, or prints it. -/
def deliver (o : Outcome) (args : ProfileArgs) (text : String) : Outcome :=
  match args.output with
  | none => { o with stdout := text ++ "\n" }
  | some p =>
    match TextFile.write o.files p (text ++ "\n") args.compress with
    | .ok files => { o with files, stderr := "Output written to " ++ p.text ++ "\n" }
    | .error e => { o with exitCode := 1, crash := some (.file e) }

/-- Runs `profile` with its inputs loaded. -/
def profileLoaded (s : Surroundings) (args : ProfileArgs) (inputs : Profile.Inputs) : Outcome :=
  match Session.openTrace s.files args.trace [] with
  | .error (.missing p) => s.finish 1 "" (errorLine (missingMessage p))
  | .error e => s.crash (.load (.unreadable e))
  | .ok session =>
    let start := { Progress.start (some (requestOf args)) with now := s.elapsed }
    let ((profile, events), progress) := (s.profileOf args inputs).run start
    let o := { s.finish 0 "" "" with
      events := session.events ++ events
      calls := progress.issued.map .query ++ [.close] }
    match profileText args profile with
    | .ok text => deliver o args text
    | .error f => { o with exitCode := 1, crash := some (.failure f) }

def profile (s : Surroundings) (args : ProfileArgs) : Outcome :=
  if args.compress && args.output.isNone then
    s.finish 1 "" (errorLine "--compress requires --output")
  else
    match loadInputs s.files args with
    | .error (.invalid p faults) => s.finish 1 "" (errorLine (LoadError.invalid p faults).message)
    | .error e => s.crash (.load e)
    | .ok inputs => s.profileLoaded args inputs

/-! ## Command lines -/

def usage : String :=
  "Usage: rendertrace [-v]... profile [OPTION]... TRACE\n"
    ++ "       rendertrace [-v]... validate [OPTION]... FILE\n"

/-- Runs what a command line says. A path that the files cannot be asked for is no error of
usage. -/
def perform (s : Surroundings) : Except UsageError Line → Outcome
  | .error (.badValue _ (.unusablePath e)) => s.crash (.file e)
  | .error e => s.finish 2 "" (errorLine e.message)
  | .ok line =>
    match line.command with
    | .profile args => s.profile args
    | .validate args => s.validate args
    | .help => s.finish 0 usage ""

def run (s : Surroundings) (words : List String) : Outcome :=
  (s.perform (Line.read s.files words)).withoutControls

end Surroundings
end RenderTrace.CommandLine
