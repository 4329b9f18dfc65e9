import RenderTrace.CommandLine.Run
import RenderTrace.Files.Zstd.Reader
import RenderTrace.Json.Reader
import RenderTrace.Query.Recording

/-!
# The program

Reads the files that the words of the command line name, runs the command on them, prints what came
of it and writes the files that it made. The trace is a recording of an engine's answers, and
compressed files are those of `Zstd.Blocks.codec`.
-/

namespace RenderTrace.Program
open CommandLine

variable [Zstd.Codec]

/-- The texts in a word that may be the path of a file: the word, what follows an equals sign, and
what follows a short option. -/
def candidates (word : String) : List String :=
  let cs := word.toList
  [word, String.ofList ((cs.dropWhile (· ≠ '=')).drop 1), String.ofList (cs.drop 2)]

/-- The path of the first names of a path. -/
def leading (p : Path) (count : Nat) : Path := { p with names := p.names.take count }

/-- The place of a path in a file tree. -/
def placeOf (p : Path) : List String := p.names.foldl FileTree.next (FileTree.startOf p)

def addPath (t : FileTree) (p : Path) : IO FileTree := do
  let here ← IO.currentDir
  let place := here / p.text
  if ← place.isDir then return t.put (placeOf p) .directory
  if ← place.pathExists then
    return t.put (placeOf p) (.file (← IO.FS.readBinFile place).toList)
  return t

/-- The files that some words name, with the directories above them. -/
def filesOf (words : List String) : IO FileTree := do
  let mut t := FileTree.empty
  for s in words.flatMap candidates do
    let p := Path.ofString s
    for count in List.range p.names.length do
      t ← addPath t (leading p (count + 1))
  return t

/-- The engine that answers from a trace. -/
def engineOf (t : FileTree) (p : Path) : Engine :=
  match TextFile.read t p with
  | .error _ => Recording.engine .null
  | .ok cs => Recording.engine ((Json.read cs).toOption.getD .null)

/-- The engine that a command opens its trace with. -/
def engineFor (t : FileTree) : Command → Engine
  | .profile args => engineOf t args.trace
  | _ => Recording.engine .null

/-- Writes the entries that a command added to the files. -/
def writeNew (before after : FileTree) : IO Unit := do
  let added := after.entries.take (after.entries.length - before.entries.length)
  for (place, entry) in added.reverse do
    let name := "/".intercalate place
    match entry with
    | .directory => IO.FS.createDirAll name
    | .file bytes => IO.FS.writeBinFile name ⟨bytes.toArray⟩

/-- Runs a command line. -/
def runProgram (words : List String) : IO UInt32 := do
  let files ← filesOf words
  let line := Line.read files words
  let verbosity := (line.toOption.map Line.verbosity).getD 0
  let engine := (line.toOption.map fun l => engineFor files l.command).getD (Recording.engine .null)
  let o := (⟨files, engine, 0⟩ : Surroundings).run words
  let err ← IO.getStderr
  let time := toString (← IO.monoMsNow)
  for e in o.events.filter (isLogged verbosity) do
    err.putStrLn (logText time e)
  writeNew files o.files
  (← IO.getStdout).putStr o.stdout
  err.putStr o.stderr
  if let some c := o.crash then err.putStrLn c.message
  return UInt32.ofNat o.exitCode

end RenderTrace.Program

def main (words : List String) : IO UInt32 :=
  letI := RenderTrace.Zstd.Blocks.codec
  RenderTrace.Program.runProgram words
