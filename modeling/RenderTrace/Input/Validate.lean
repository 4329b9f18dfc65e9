import RenderTrace.Input.Load
import RenderTrace.Number.Arithmetic
import RenderTrace.Report.Document

/-!
# Validating input files

`Validation.ofFile` loads a file as a profile would and reports the outcome. What is wrong with the
content, and a text that cannot be read, is part of the report; a file that is not there, a
compressed frame that cannot be read and an integer or a nesting beyond what is taken in are
failures.
-/

namespace RenderTrace

/-- The outcome of loading an input file. -/
structure Validation where
  valid : Bool
  kind : InputKind
  /-- Octets of the file. -/
  size : Nat
  compression : Compression
  errors : List String

namespace Validation

def unreadableMessage (e : TextFileError) : String := "File reading error: " ++ e.message

/-- What a load error contributes to the report, none if it is a failure. -/
def reported? : LoadError → Option (List String)
  | .invalid _ faults => some (faults.map InputFault.message)
  | .unreadable (.compression _) => none
  | .unreadable e => some [unreadableMessage e]
  | .excess _ => none

/-- Loads a file of some kind and reports the outcome. -/
def ofFile [Zstd.Codec] (t : FileTree) (p : Path) (kind : InputKind) : Except LoadError Validation := do
  let bytes ← (TextFile.bytes t p).mapError .unreadable
  let report (errors : List String) : Validation :=
    ⟨errors.isEmpty, kind, bytes.length, TextFile.compressionOf bytes, errors⟩
  match Input.load t p kind with
  | .ok () => return report []
  | .error e =>
    match reported? e with
    | some errors => return report errors
    | none => .error e

def toJson (v : Validation) : Json := .object [
  ("valid", .bool v.valid), ("kind", .text v.kind.name), ("file_size", .quantity (v.size : Int)),
  ("compression", .text v.compression.name), ("errors", .texts v.errors)]

/-! ## Sizes of files -/

/-- A double of at least zero with one place. -/
def oneDecimal (x : Float) : String :=
  match Number.Binary64.ofFloat x with
  | .finite _ m e =>
    let (num, den) := Number.scaled m 1 2 e
    Number.Decimal.fixed num den 1
  | _ => ""

/-- A number of octets in octets, kilobytes or megabytes; the quotient may be too large. -/
def sizeText (n : Int) : Except Number.NumberError String :=
  if n < 1024 then .ok (toString n ++ " B")
  else if n < 1024 * 1024 then (Number.quotient n 1024).map fun x => oneDecimal x ++ " KB"
  else (Number.quotient n (1024 * 1024)).map fun x => oneDecimal x ++ " MB"

end Validation
end RenderTrace
