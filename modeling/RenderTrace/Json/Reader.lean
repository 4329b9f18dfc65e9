import RenderTrace.Json.Basic

/-!
# Reading documents

`Json.read` reads a document from the characters of a text. Besides the standard format it accepts
`NaN`, `Infinity` and `-Infinity`. A number with a point or an exponent is a double, any other an
integer. The first fault is reported with its place (`Json.ReadError`). Containers may be nested up to
`Json.maxDepth`, and an integer may have up to `Number.maxIntegerDigits` digits; `Json.readWithin` reads
with another limit on those.
-/

namespace RenderTrace.Json
open Number (NumberError Binary64)

inductive Fault where
  | value
  | name
  | colon
  | comma
  | extraData
  | unterminated
  | controlCharacter
  | escape
  | unicodeEscape
  | byteOrderMark
  deriving DecidableEq, Repr

def Fault.message : Fault → String
  | value => "Expecting value"
  | name => "Expecting property name enclosed in double quotes"
  | colon => "Expecting ':' delimiter"
  | comma => "Expecting ',' delimiter"
  | extraData => "Extra data"
  | unterminated => "Unterminated string starting at"
  | controlCharacter => "Invalid control character at"
  | escape => "Invalid \\escape"
  | unicodeEscape => "Invalid \\uXXXX escape"
  | byteOrderMark => "Unexpected UTF-8 BOM (decode using utf-8-sig)"

/-- A place in a text: line and column from one on, and the characters before it. -/
structure Place where
  line : Nat
  column : Nat
  offset : Nat
  deriving DecidableEq, Repr

def Place.text (p : Place) : String :=
  "line " ++ toString p.line ++ " column " ++ toString p.column
    ++ " (char " ++ toString p.offset ++ ")"

/-- The values that hold other values. -/
inductive Container where
  | array
  | object
  deriving DecidableEq, Repr

def Container.word : Container → String
  | array => "array"
  | object => "object"

/-- The most containers that may stand inside one another. -/
def maxDepth : Nat := 991

/-- Why a text cannot be taken in although nothing in it is misspelt. -/
inductive Excess where
  /-- An integer has too many digits. -/
  | integer (error : NumberError)
  /-- A container stands inside too many others. -/
  | depth (container : Container)
  deriving DecidableEq, Repr

def Excess.message : Excess → String
  | integer e => e.message
  | depth c =>
    "maximum recursion depth exceeded while decoding a JSON " ++ c.word ++ " from a unicode string"

inductive ReadError where
  | malformed (fault : Fault) (place : Place)
  | excess (excess : Excess)
  deriving DecidableEq, Repr

def ReadError.message : ReadError → String
  | malformed f p => f.message ++ ": " ++ p.text
  | excess e => e.message

/-- Where reading stops: at a fault, with the characters from there on, or at an excess. -/
inductive Stop where
  | fault (fault : Fault) (rest : List Char)
  | excess (excess : Excess)

/-- What a reader gives: a result with the characters after it. -/
abbrev Read (α : Type) := Except Stop (α × List Char)

def isSpace (c : Char) : Bool := c == ' ' || c == '\t' || c == '\n' || c == '\r'

def skip (cs : List Char) : List Char := cs.dropWhile isSpace

/-! ## Texts -/

/-- The character that a one-letter escape stands for. -/
def escaped? : Char → Option Char
  | '"' => some '"'
  | '\\' => some '\\'
  | '/' => some '/'
  | 'b' => some '\x08'
  | 'f' => some '\x0c'
  | 'n' => some '\n'
  | 'r' => some '\r'
  | 't' => some '\t'
  | _ => none

/-- The number written by four hexadecimal digits. -/
def unit? (a b c d : Char) : Option Nat := do
  let a ← Text.hexValue? a
  let b ← Text.hexValue? b
  let c ← Text.hexValue? c
  let d ← Text.hexValue? d
  return ((a * 16 + b) * 16 + c) * 16 + d

/-- The characters of a text read so far, newest first, and a high surrogate that waits for its
partner. -/
structure Partial where
  read : List Char
  high : Option Nat

/-- Gives up waiting for a partner. A `Char` is never half a pair, so the replacement character stands for
a half that is alone; texts that differ in such halves only are the same text here. -/
def Partial.settle (p : Partial) : List Char :=
  match p.high with
  | none => p.read
  | some _ => '\ufffd' :: p.read

/-- Takes in a character. -/
def Partial.push (p : Partial) (c : Char) : Partial := ⟨c :: p.settle, none⟩

/-- Takes in an escaped UTF-16 unit. -/
def Partial.pushUnit (p : Partial) (u : Nat) : Partial :=
  if 0xd800 ≤ u ∧ u < 0xdc00 then ⟨p.settle, some u⟩
  else if 0xdc00 ≤ u ∧ u < 0xe000 then
    match p.high with
    | some h => ⟨Char.ofNat (0x10000 + (h - 0xd800) * 0x400 + (u - 0xdc00)) :: p.read, none⟩
    | none => p.push '\ufffd'
  else p.push (Char.ofNat u)

/-- Reads the rest of a text after its opening quote; `start` is the text from that quote on. An
escape by code must be followed by a further character. -/
def textBody (start : List Char) : Partial → List Char → Read String
  | _, [] => .error (.fault .unterminated start)
  | p, '"' :: cs => .ok (String.ofList p.settle.reverse, cs)
  | _, ['\\'] => .error (.fault .unterminated start)
  | p, '\\' :: 'u' :: a :: b :: c :: d :: cs =>
    match unit? a b c d, cs with
    | some u, _ :: _ => textBody start (p.pushUnit u) cs
    | _, _ => .error (.fault .unicodeEscape ('u' :: a :: b :: c :: d :: cs))
  | p, '\\' :: e :: cs =>
    if e = 'u' then .error (.fault .unicodeEscape (e :: cs))
    else match escaped? e with
      | some c => textBody start (p.push c) cs
      | none => .error (.fault .escape ('\\' :: e :: cs))
  | p, c :: cs =>
    if c ≤ '\x1f' then .error (.fault .controlCharacter (c :: cs))
    else textBody start (p.push c) cs

/-- Reads a text, or reports `fault` when none starts here. -/
def readText (fault : Fault) : List Char → Read String
  | '"' :: cs => textBody ('"' :: cs) ⟨[], none⟩ cs
  | cs => .error (.fault fault cs)

/-! ## Numbers and words -/

def digits (cs : List Char) : List Char × List Char := (cs.takeWhile (·.isDigit), cs.dropWhile (·.isDigit))

/-- The integer part of a number: a zero, or digits that start with none. -/
def integerPart? : List Char → Option (List Char × List Char)
  | '0' :: cs => some (['0'], cs)
  | c :: cs => if c.isDigit then some (digits (c :: cs)) else none
  | [] => none

/-- The digits after a point; a point without digits belongs to what follows the number. -/
def fractionPart : List Char → List Char × List Char
  | '.' :: cs =>
    match digits cs with
    | ([], _) => ([], '.' :: cs)
    | (ds, rest) => (ds, rest)
  | cs => ([], cs)

/-- The exponent, if a complete one follows. -/
def exponentPart? (cs : List Char) : Option (Int × List Char) :=
  match cs with
  | c :: more =>
    if c = 'e' ∨ c = 'E' then
      let (negative, body) := Number.takeSign more
      match digits body with
      | ([], _) => none
      | (ds, rest) =>
        let n : Int := Number.ofDigits ds
        some (if negative then -n else n, rest)
    else none
  | [] => none

def takeMinus : List Char → Bool × List Char
  | '-' :: cs => (true, cs)
  | cs => (false, cs)

/-- Reads a number, none when no number starts here; an integer has at most `most` digits. -/
def readNumber? (most : Nat) (cs : List Char) : Option (Read Number) := do
  let (negative, body) := takeMinus cs
  let (ds, rest) ← integerPart? body
  let (fraction, afterFraction) := fractionPart rest
  match exponentPart? afterFraction with
  | some (e, after) =>
    some (.ok (.double (Number.ofDecimal negative (ds ++ fraction) (e - fraction.length)), after))
  | none =>
    if fraction.isEmpty then
      if most < ds.length then
        some (.error (.excess (.integer (.tooManyDigits ds.length))))
      else
        let n : Int := Number.ofDigits ds
        some (.ok (.whole (if negative then -n else n), rest))
    else
      some (.ok (.double (Number.ofDecimal negative (ds ++ fraction) (-fraction.length)), afterFraction))

/-- The words that stand for a value. -/
def words : List (String × Json) := [
  ("null", null), ("true", bool true), ("false", bool false),
  ("NaN", number (.double (Binary64.assemble false Binary64.nanBits))),
  ("Infinity", number (.double (Binary64.assemble false Binary64.infinityBits))),
  ("-Infinity", number (.double (Binary64.assemble true Binary64.infinityBits)))]

def readWord? (cs : List Char) : Option (Json × List Char) :=
  words.findSome? fun (w, v) => (w.toList.isPrefixOf? cs).map (v, ·)

def readAtom (most : Nat) (cs : List Char) : Read Json :=
  match readWord? cs with
  | some r => .ok r
  | none =>
    match readNumber? most cs with
    | some r => r.map fun (n, rest) => (number n, rest)
    | none => .error (.fault .value cs)

/-! ## Values -/

/-- Reads the colon after a name, with the blanks around it. -/
def readColon (cs : List Char) : Except Stop (List Char) :=
  match skip cs with
  | ':' :: rest => .ok (skip rest)
  | rest => .error (.fault .colon rest)

mutual

/-- Reads a value that may hold containers up to `depth` inside one another and integers of at most
`most` digits. `fuel` bounds the number of steps and never runs out at twice the length of the text. -/
def readValue (most : Nat) : Nat → Nat → List Char → Read Json
  | 0, _, cs => .error (.fault .value cs)
  | _ + 1, _, '"' :: cs => (readText .value ('"' :: cs)).map fun (s, rest) => (text s, rest)
  | _ + 1, 0, '[' :: _ => .error (.excess (.depth .array))
  | fuel + 1, depth + 1, '[' :: cs =>
    match skip cs with
    | ']' :: rest => .ok (array [], rest)
    | rest => (readItems most fuel depth rest).map fun (xs, rest) => (array xs, rest)
  | _ + 1, 0, '{' :: _ => .error (.excess (.depth .object))
  | fuel + 1, depth + 1, '{' :: cs =>
    match skip cs with
    | '}' :: rest => .ok (object [], rest)
    | rest => (readMembers most fuel depth rest).map fun (ms, rest) => (object (ofMembers ms), rest)
  | _ + 1, _, cs => readAtom most cs

/-- Reads the items of an array and its end. -/
def readItems (most : Nat) : Nat → Nat → List Char → Except Stop (List Json × List Char)
  | 0, _, cs => .error (.fault .value cs)
  | fuel + 1, depth, cs => do
    let (x, rest) ← readValue most fuel depth cs
    match skip rest with
    | ']' :: rest => .ok ([x], rest)
    | ',' :: rest =>
      let (xs, rest) ← readItems most fuel depth (skip rest)
      .ok (x :: xs, rest)
    | rest => .error (.fault .comma rest)

/-- Reads the members of an object and its end. -/
def readMembers (most : Nat) : Nat → Nat → List Char → Except Stop (List (String × Json) × List Char)
  | 0, _, cs => .error (.fault .value cs)
  | fuel + 1, depth, cs => do
    let (name, rest) ← readText .name cs
    let rest ← readColon rest
    let (v, rest) ← readValue most fuel depth rest
    match skip rest with
    | '}' :: rest => .ok ([(name, v)], rest)
    | ',' :: rest =>
      let (ms, rest) ← readMembers most fuel depth (skip rest)
      .ok ((name, v) :: ms, rest)
    | rest => .error (.fault .comma rest)

end

/-- The place in `cs` where `rest`, the end of it, starts. -/
def placeOf (cs rest : List Char) : Place :=
  let before := cs.take (cs.length - rest.length)
  ⟨1 + before.count '\n', 1 + (before.reverse.takeWhile (· ≠ '\n')).length, before.length⟩

/-- Names the place of a stop. -/
def Stop.located (cs : List Char) : Stop → ReadError
  | fault f rest => .malformed f (placeOf cs rest)
  | excess e => .excess e

def readAll (most : Nat) (cs : List Char) : Except Stop Json := do
  let (v, rest) ← readValue most (2 * cs.length + 2) maxDepth (skip cs)
  match skip rest with
  | [] => .ok v
  | rest => .error (.fault .extraData rest)

/-- Reads a document in which no integer has more than `most` digits. -/
def readWithin (most : Nat) (cs : List Char) : Except ReadError Json :=
  match cs with
  | '\ufeff' :: _ => .error (.malformed .byteOrderMark ⟨1, 1, 0⟩)
  | _ => (readAll most cs).mapError (Stop.located cs)

def read (cs : List Char) : Except ReadError Json := readWithin Number.maxIntegerDigits cs

end RenderTrace.Json
