import RenderTrace.CommandLine.Similar
import RenderTrace.Files.Tree
import RenderTrace.Number.Reader

/-!
# Options and arguments

An `OptionSpec` says how an option is written and what it takes. `scan` splits the words of a
command into the options given, in order, and the arguments: `--name value`, `--name=value`, short
options with or without a blank before the value, and several short flags in one word. Two dashes
end the options. What is wrong with the words is a `UsageError`.

These are the rules that `click` documents for options and arguments: long options are not abbreviated,
options may stand between the arguments of a command but not between those of a group of commands, of an
option that is given several times the last one counts, and values are read in the order in which the
options come up. The types of values are its `Path`, `Choice`, `IntRange` and `FloatRange`. Its way to
show an error is taken without the lines on usage above it.
-/

namespace RenderTrace.CommandLine

inductive ValueType where
  /-- No value. -/
  | flag
  | path
  | existingPath
  | choice (names : List String)
  | integerFrom (least : Int)
  /-- A double above a bound. -/
  | above (bound : Int)

structure OptionSpec where
  /-- The long spelling, with its dashes. -/
  long : String
  short : Option Char
  type : ValueType

def OptionSpec.takesValue (o : OptionSpec) : Bool :=
  match o.type with
  | .flag => false
  | _ => true

/-- The short spelling of an option. -/
def dashed (c : Char) : String := String.ofList ['-', c]

/-- The spellings of an option, in messages. -/
def OptionSpec.spellings (o : OptionSpec) : String :=
  "'" ++ o.long ++ "'" ++ (match o.short with
    | some c => " / '" ++ dashed c ++ "'"
    | none => "")

/-- A value of the wrong form. -/
inductive ValueFault where
  | missingPath (text : String)
  /-- A path that the files cannot be asked for. -/
  | unusablePath (error : FileError)
  | notOneOf (text : String) (names : List String)
  | notInteger (text : String)
  | notDouble (text : String)
  | outOfRange (value : Number) (range : String)

def ValueFault.message : ValueFault → String
  | missingPath s => "Path " ++ Text.quote s ++ " does not exist."
  | unusablePath e => e.message
  | notOneOf s names =>
    Text.quote s ++ " is not one of " ++ ", ".intercalate (names.map Text.quote) ++ "."
  | notInteger s => Text.quote s ++ " is not a valid integer range."
  | notDouble s => Text.quote s ++ " is not a valid float range."
  | outOfRange n range => n.text ++ " is not in the range " ++ range ++ "."

/-- Why the words of a command cannot be understood. -/
inductive UsageError where
  | unknownOption (name : String) (similar : List String)
  | needsValue (name : String)
  | takesNoValue (name : String)
  | unknownCommand (name : String) (similar : List String)
  | missingCommand
  | missingArgument (name : String)
  | extraArguments (words : List String)
  | badValue (spellings : String) (fault : ValueFault)

/-- The names that may have been meant. -/
def proposal : List String → String
  | [] => ""
  | [name] => " Did you mean " ++ Text.quote name ++ "?"
  | names => " (Did you mean one of: " ++ ", ".intercalate (names.map Text.quote) ++ "?)"

def UsageError.message : UsageError → String
  | unknownOption name similar => "No such option " ++ Text.quote name ++ "." ++ proposal similar
  | needsValue name => "Option " ++ Text.quote name ++ " requires an argument."
  | takesNoValue name => "Option " ++ Text.quote name ++ " does not take a value."
  | unknownCommand name similar => "No such command " ++ Text.quote name ++ "." ++ proposal similar
  | missingCommand => "Missing command."
  | missingArgument name => "Missing argument '" ++ name ++ "'."
  | extraArguments words =>
    "Got unexpected extra argument" ++ (if words.length = 1 then "" else "s")
      ++ " (" ++ " ".intercalate words ++ ")"
  | badValue spellings f => "Invalid value for " ++ spellings ++ ": " ++ f.message

/-! ## Splitting words -/

/-- An option that was given, with its value if it takes one. -/
structure Given where
  option : OptionSpec
  value : Option String

/-- What one word gives: options, and at its end an option that still waits for its value, with the
spelling it was given under. -/
structure Word where
  given : List Given
  waiting : Option (OptionSpec × String)

/-- The options of a word of short ones; the rest of the word after an option that takes a value is
its value. -/
def readShort (specs : List OptionSpec) : List Char → Except UsageError Word
  | [] => .ok ⟨[], none⟩
  | c :: cs =>
    match specs.find? (·.short = some c) with
    | none => .error (.unknownOption (dashed c) [])
    | some o =>
      if o.takesValue then
        .ok (if cs.isEmpty then ⟨[], some (o, dashed c)⟩
          else ⟨[⟨o, some (String.ofList cs)⟩], none⟩)
      else (readShort specs cs).map fun w => { w with given := ⟨o, none⟩ :: w.given }

/-- The options of a word that starts with a dash. -/
def readWord (specs : List OptionSpec) (word : List Char) : Except UsageError Word :=
  let name := word.takeWhile (· ≠ '=')
  let value := (word.drop name.length).tail
  let hasValue := name.length < word.length
  let long := String.ofList name
  match specs.find? (·.long = long) with
  | some o =>
    if o.takesValue then
      .ok (if hasValue then ⟨[⟨o, some (String.ofList value)⟩], none⟩ else ⟨[], some (o, long)⟩)
    else if hasValue then .error (.takesNoValue long)
    else .ok ⟨[⟨o, none⟩], none⟩
  | none =>
    if ['-', '-'].isPrefixOf word then
      .error (.unknownOption long (similarTo long (specs.map (·.long))))
    else readShort specs (word.drop 1)

/-- A word that is read as options. -/
def isOptionWord (word : String) : Bool :=
  match word.toList with
  | '-' :: _ :: _ => true
  | _ => false

/-- The options and arguments among the words of a command. -/
structure Scanned where
  given : List Given
  arguments : List String

/-- Splits words. Options may follow arguments only if they are `mixed`. -/
def scan (specs : List OptionSpec) (mixed : Bool) : List String → Except UsageError Scanned
  | [] => .ok ⟨[], []⟩
  | word :: words =>
    if word = "--" then .ok ⟨[], words⟩
    else if isOptionWord word then do
      let w ← readWord specs word.toList
      match w.waiting with
      | none =>
        let rest ← scan specs mixed words
        return { rest with given := w.given ++ rest.given }
      | some (o, name) =>
        match words with
        | [] => throw (.needsValue name)
        | value :: words =>
          let rest ← scan specs mixed words
          return { rest with given := w.given ++ ⟨o, some value⟩ :: rest.given }
    else if mixed then
      (scan specs mixed words).map fun rest => { rest with arguments := word :: rest.arguments }
    else .ok ⟨[], word :: words⟩

/-! ## Values -/

inductive Value where
  | flag
  | path (p : Path)
  | choice (name : String)
  | integer (n : Int)
  | double (x : Float)

/-- Reads a path, which must not hold a null character. -/
def readPath (s : String) : Except ValueFault Path :=
  let p := Path.ofString s
  if p.text.toList.contains '\x00' then .error (.unusablePath ⟨.nullCharacter, p⟩) else .ok p

/-- A text names something that is there. A path that ends in a slash, or in a dot after one, names a
directory. -/
def isThere (files : FileTree) (s : String) : Bool :=
  let p := Path.ofString s
  let ends := (Path.splitSlashes s.toList).getLast?.getD []
  s ≠ "" && s.utf8ByteSize ≤ FileTree.maxPath && (files.find p).isOk
    && (!(ends = [] || ends = ['.']) || files.isDirectory p)

def readExisting (files : FileTree) (s : String) : Except ValueFault Path := do
  let p ← readPath s
  if isThere files s then return p else throw (.missingPath s)

def ValueType.read (files : FileTree) (s : String) : ValueType → Except ValueFault Value
  | flag => .ok .flag
  | path => (readPath s).map .path
  | existingPath => (readExisting files s).map .path
  | choice names => if names.contains s then .ok (.choice s) else .error (.notOneOf s names)
  | integerFrom least =>
    match Number.readInteger s with
    | .error _ => .error (.notInteger s)
    | .ok n =>
      if n < least then .error (.outOfRange (.whole n) ("x>=" ++ toString least))
      else .ok (.integer n)
  | above bound =>
    match Number.readDouble s with
    | .error _ => .error (.notDouble s)
    | .ok x =>
      if Number.whole bound < .double x ∨ x.isNaN then .ok (.double x)
      else .error (.outOfRange (.double x) ("x>" ++ toString bound))

def Given.read (files : FileTree) (g : Given) : Except UsageError Value :=
  (g.option.type.read files (g.value.getD "")).mapError (.badValue g.option.spellings)

/-- The values of the options given, by long spelling: of an option given several times the last, in
the place of the first. -/
def readValues (files : FileTree) (given : List Given) : Except UsageError (List (String × Value)) :=
  let names := (given.map (·.option.long)).eraseDups
  names.filterMap (fun n => given.reverse.find? (·.option.long = n)) |>.mapM fun g => do
    return (g.option.long, ← g.read files)

/-- The one argument of a command, which must be there, and nothing after it. -/
def readArgument (files : FileTree) (name : String) : List String → Except UsageError Path
  | [] => .error (.missingArgument name)
  | word :: rest => do
    let p ← (readExisting files word).mapError (.badValue ("'" ++ name ++ "'"))
    if rest.isEmpty then return p else throw (.extraArguments rest)

end RenderTrace.CommandLine
