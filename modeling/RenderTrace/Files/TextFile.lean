import RenderTrace.Files.Tree
import RenderTrace.Files.Zstd.Codec
import RenderTrace.Text.Newline
import RenderTrace.Text.Utf8

/-!
# Text files

A text file is UTF-8, plain or compressed; which of the two is told by its first octets. Reading
turns every line end into a line feed, writing leaves the text as it is.
-/

namespace RenderTrace

inductive Compression where
  | none
  | zstd
  deriving DecidableEq, Repr

def Compression.name : Compression → String
  | none => "none"
  | zstd => "zstd"

/-- Why a text file cannot be read. -/
inductive TextFileError where
  | missing (path : Path)
  | file (error : FileError)
  | encoding (error : Text.Utf8.Malformed)
  | compression (error : Zstd.Error)

def missingMessage (p : Path) : String := "File not found: " ++ p.text

def TextFileError.message : TextFileError → String
  | missing p => missingMessage p
  | file e => e.message
  | encoding e => e.message
  | compression e => e.message

namespace TextFile

def compressionOf (bytes : List UInt8) : Compression := if Zstd.isFrame bytes then .zstd else .none

variable [Zstd.Codec]

/-- The text that octets stand for. -/
def decode (bytes : List UInt8) : Except TextFileError (List Char) := do
  let content ← match compressionOf bytes with
    | .zstd => (Zstd.decompress bytes).mapError .compression
    | .none => .ok bytes
  let cs ← (Text.Utf8.decode content).mapError .encoding
  return Text.unifyNewlines cs

/-- The octets of a text, compressed if wanted. -/
def encode (compress : Bool) (cs : List Char) : List UInt8 :=
  let bytes := Text.Utf8.encode cs
  if compress then Zstd.compress bytes else bytes

/-- Refuses a path that leads nowhere. -/
def require (t : FileTree) (p : Path) : Except TextFileError Unit := do
  if ← (t.contains p).mapError .file then return () else throw (.missing p)

def bytes (t : FileTree) (p : Path) : Except TextFileError (List UInt8) := do
  require t p
  (t.read p).mapError .file

def compression (t : FileTree) (p : Path) : Except TextFileError Compression :=
  (bytes t p).map compressionOf

def read (t : FileTree) (p : Path) : Except TextFileError (List Char) := do decode (← bytes t p)

/-- Writes a text file, making the directories above it as needed. -/
def write (t : FileTree) (p : Path) (text : String) (compress : Bool) : Except FileError FileTree :=
  t.write p (encode compress text.toList)

end TextFile
end RenderTrace
