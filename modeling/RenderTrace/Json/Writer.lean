import RenderTrace.Json.Basic

/-!
# Writing documents

`Json.write` writes a document over several lines, two blanks to a level, in ASCII: a character
beyond it is written by its UTF-16 units. Empty arrays and objects stay on one line.
-/

namespace RenderTrace.Json

def unitEscape (u : Nat) : List Char := '\\' :: 'u' :: Text.hexText 4 u

def writeChar (c : Char) : List Char :=
  if c = '"' then ['\\', '"']
  else if c = '\\' then ['\\', '\\']
  else if c = '\n' then ['\\', 'n']
  else if c = '\r' then ['\\', 'r']
  else if c = '\t' then ['\\', 't']
  else if c = '\x0c' then ['\\', 'f']
  else if c = '\x08' then ['\\', 'b']
  else if ' ' ≤ c ∧ c ≤ '~' then [c]
  else if c.toNat < 0x10000 then unitEscape c.toNat
  else
    let n := c.toNat - 0x10000
    unitEscape (0xd800 + n / 0x400) ++ unitEscape (0xdc00 + n % 0x400)

def writeText (s : String) : List Char := '"' :: (s.toList.flatMap writeChar ++ ['"'])

/-- A number: decimal digits, or the fewest that read back as the double. -/
def writeNumber : Number → List Char
  | .whole n => (toString n).toList
  | .double x => (Number.Style.document.write x).toList

/-- A line end with the blanks of a level. -/
def newline (depth : Nat) : List Char := '\n' :: List.replicate (2 * depth) ' '

/-- Parts on lines of their own between brackets. -/
def block (opening closing : Char) (depth : Nat) : List (List Char) → List Char
  | [] => [opening, closing]
  | parts =>
    opening :: (newline (depth + 1) ++ List.intercalate (',' :: newline (depth + 1)) parts
      ++ newline depth ++ [closing])

mutual

/-- A value whose brackets stand at a level. -/
def writeValue (depth : Nat) : Json → List Char
  | null => "null".toList
  | bool b => if b then "true".toList else "false".toList
  | number n => writeNumber n
  | text s => writeText s
  | array xs => block '[' ']' depth (writeItems (depth + 1) xs)
  | object ms => block '{' '}' depth (writeMembers (depth + 1) ms)

def writeItems (depth : Nat) : List Json → List (List Char)
  | [] => []
  | x :: xs => writeValue depth x :: writeItems depth xs

def writeMembers (depth : Nat) : List (String × Json) → List (List Char)
  | [] => []
  | (name, v) :: ms => (writeText name ++ ':' :: ' ' :: writeValue depth v) :: writeMembers depth ms

end

def write (v : Json) : String := String.ofList (writeValue 0 v)

end RenderTrace.Json
