import RenderTrace.Files.Path
import RenderTrace.Text.Quoted

/-!
# File trees

A `FileTree` is the content of a working directory: files with their octets and directories by
place, a place being the names that lead to it. Paths are followed name by name; two dots lead back
to the directory above. The directories above the working directory are there, under places of two
dots, and so is the root directory (`rootPlace`).
-/

namespace RenderTrace

/-- What stands at a place. -/
inductive FileEntry where
  | file (bytes : List UInt8)
  | directory

/-- The files and directories below a working directory, the newest entry of a place first. -/
structure FileTree where
  entries : List (List String × FileEntry)

/-- Why a file operation fails. -/
inductive FileFault where
  | notFound
  | occupied
  | notDirectory
  | isDirectory
  | nameTooLong
  /-- A path with a null character, which no system can be asked for. -/
  | nullCharacter
  deriving DecidableEq, Repr

structure FileError where
  fault : FileFault
  path : Path

/-- The system's number and words for a fault, none if the system was not asked. -/
def FileFault.words? : FileFault → Option (Nat × String)
  | notFound => some (2, "No such file or directory")
  | occupied => some (17, "File exists")
  | notDirectory => some (20, "Not a directory")
  | isDirectory => some (21, "Is a directory")
  | nameTooLong => some (36, "File name too long")
  | nullCharacter => none

def FileError.message (e : FileError) : String :=
  match e.fault.words? with
  | some (number, words) =>
    "[Errno " ++ toString number ++ "] " ++ words ++ ": " ++ Text.quote e.path.text
  | none => "embedded null byte"

namespace FileTree

def rootPlace : List String := ["/"]

/-- The place of the working directory or of one above it. -/
def isAbove (place : List String) : Bool := place.all (· = "..")

/-- The place that a name leads to from a directory. -/
def next (place : List String) (name : String) : List String :=
  if name ≠ ".." ∨ isAbove place then place ++ [name]
  else if place = rootPlace then place
  else place.dropLast

def empty : FileTree := ⟨[]⟩

/-- What stands at a place. -/
def at? (t : FileTree) (place : List String) : Option FileEntry :=
  if isAbove place ∨ place = rootPlace then some .directory else t.entries.lookup place

def put (t : FileTree) (place : List String) (e : FileEntry) : FileTree :=
  ⟨(place, e) :: t.entries⟩

/-! ## Following paths -/

def maxName : Nat := 255

def maxPath : Nat := 4095

/-- The place one name further, from a place that must be a directory. -/
def follow (t : FileTree) (place : List String) (name : String) : Except FileFault (List String) :=
  match t.at? place with
  | none => .error .notFound
  | some (.file _) => .error .notDirectory
  | some .directory =>
    if maxName < name.utf8ByteSize then .error .nameTooLong else .ok (next place name)

/-- The place from which a path is followed. -/
def startOf (p : Path) : List String := if p.root = "" then [] else rootPlace

/-- The place that a path names, of which only the last name may be missing. -/
def locate (t : FileTree) (p : Path) : Except FileFault (List String) :=
  if p.text.toList.contains '\x00' then .error .nullCharacter
  else if maxPath < p.text.utf8ByteSize then .error .nameTooLong
  else p.names.foldlM t.follow (startOf p)

/-- What a path leads to. -/
def find (t : FileTree) (p : Path) : Except FileFault FileEntry := do
  match t.at? (← t.locate p) with
  | some e => .ok e
  | none => .error .notFound

/-- A path leads to something. Of a name that is too long it cannot be told. -/
def contains (t : FileTree) (p : Path) : Except FileError Bool :=
  match t.find p with
  | .ok _ => .ok true
  | .error .nameTooLong => .error ⟨.nameTooLong, p⟩
  | .error _ => .ok false

def isDirectory (t : FileTree) (p : Path) : Bool :=
  match t.find p with
  | .ok .directory => true
  | _ => false

def read (t : FileTree) (p : Path) : Except FileError (List UInt8) :=
  match t.find p with
  | .ok (.file bytes) => .ok bytes
  | .ok .directory => .error ⟨.isDirectory, p⟩
  | .error f => .error ⟨f, p⟩

/-! ## Writing -/

/-- Makes one directory, in a directory that is there. -/
def makeDirectory (t : FileTree) (p : Path) : Except FileFault FileTree := do
  let place ← t.locate p
  match t.at? place with
  | some _ => .error .occupied
  | none => .ok (t.put place .directory)

/-- Makes a directory and the directories above it, of which some may be there. The number bounds the
names of the path. -/
def makeDirectories (t : FileTree) : Nat → Path → Except FileError FileTree
  | 0, p => .error ⟨.notFound, p⟩
  | bound + 1, p =>
    match t.makeDirectory p with
    | .ok t => .ok t
    | .error .notFound =>
      if p.names = [] then .error ⟨.notFound, p⟩
      else do
        let t ← t.makeDirectories bound p.parent
        match t.makeDirectory p with
        | .ok t => .ok t
        | .error f => if t.isDirectory p then .ok t else .error ⟨f, p⟩
    | .error f => if t.isDirectory p then .ok t else .error ⟨f, p⟩

/-- Writes a file into a directory that is there. -/
def writeFile (t : FileTree) (p : Path) (bytes : List UInt8) : Except FileError FileTree :=
  match t.locate p with
  | .error f => .error ⟨f, p⟩
  | .ok place =>
    match t.at? place with
    | some .directory => .error ⟨.isDirectory, p⟩
    | _ =>
      if t.at? place.dropLast matches some .directory then .ok (t.put place (.file bytes))
      else .error ⟨.notFound, p⟩

/-- Writes a file, making the directories above it as needed. -/
def write (t : FileTree) (p : Path) (bytes : List UInt8) : Except FileError FileTree := do
  let t ← t.makeDirectories (p.names.length + 1) p.parent
  t.writeFile p bytes

end FileTree
end RenderTrace
