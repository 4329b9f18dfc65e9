import RenderTrace.Number.Basic
import RenderTrace.Text.Blank
import RenderTrace.Text.Quoted

/-!
# Reading numbers

`readInteger`, `readHexadecimal` and `readDouble` accept a number with blanks around it, a sign, digits
of any script and single underscores between digits. An integer has at most `maxIntegerDigits` decimal
digits, where it is read and where it is written (`toText`). Each way to fail is a `NumberError`.
-/

namespace RenderTrace.Number

/-- Why a value is no integer, or no double. -/
inductive NumberError where
  | notInteger (text : String)
  | notHexadecimal (text : String)
  | notDouble (text : String)
  | notIntegerOctets (octets : List UInt8)
  | notDoubleOctets (octets : List UInt8)
  | tooManyDigits (count : Nat)
  /-- An integer has too many digits to be written. -/
  | tooLongToWrite
  | undefinedToInteger
  | infinityToInteger
  | tooLargeForDouble
  | quotientTooLarge
  deriving DecidableEq, Repr

/-- The most digits a decimal integer may have. -/
def maxIntegerDigits : Nat := 4300

/-- How many digits an integer has in decimal, none for a double. -/
def digitCount : Number → Nat
  | .whole n => (Nat.toDigits 10 n.natAbs).length
  | .double _ => 0

/-- The most characters of a refused text that a message shows. -/
def shownWidth : Nat := 200

/-- The wording for what is no integer in a base, by its quoted form. -/
def notIntegerMessage (base : Nat) (quoted : String) : String :=
  "invalid literal for int() with base " ++ toString base ++ ": "
    ++ String.ofList (quoted.toList.take shownWidth)

/-- What is wrong with an integer that is too long, and how many digits it has if that is known. -/
def tooLongMessage (count : Option Nat) : String :=
  "Exceeds the limit (" ++ toString maxIntegerDigits ++ " digits) for integer string conversion"
    ++ (count.elim "" fun n => ": value has " ++ toString n ++ " digits")
    ++ "; use sys.set_int_max_str_digits() to increase the limit"

def NumberError.message : NumberError → String
  | notInteger s => notIntegerMessage 10 (Text.quote s)
  | notHexadecimal s => notIntegerMessage 16 (Text.quote s)
  | notDouble s => "could not convert string to float: " ++ Text.quote s
  | notIntegerOctets octets => notIntegerMessage 10 (Text.quoteOctets octets)
  | notDoubleOctets octets => "could not convert string to float: " ++ Text.quoteOctets octets
  | tooManyDigits n => tooLongMessage n
  | tooLongToWrite => tooLongMessage none
  | undefinedToInteger => "cannot convert float NaN to integer"
  | infinityToInteger => "cannot convert float infinity to integer"
  | tooLargeForDouble => "int too large to convert to float"
  | quotientTooLarge => "integer division result too large for a float"

/-! ## The parts of a number -/

/-- Writes blanks as spaces and digits of any script as ASCII digits. ASCII stays as it is; any other
character becomes one that no number has. -/
def plain (c : Char) : Char :=
  if c.toNat < 128 then c
  else if Text.isBlank c then ' '
  else match Text.digitValue? c with
    | some d => Char.ofNat ('0'.toNat + d)
    | none => '?'

/-- A text ready to be read as a number. -/
def prepare (s : String) : List Char :=
  Text.dropEnd Text.isAsciiBlank ((s.toList.map plain).dropWhile Text.isAsciiBlank)

def takeSign : List Char → Bool × List Char
  | '-' :: cs => (true, cs)
  | '+' :: cs => (false, cs)
  | cs => (false, cs)

/-- The digits at the front, single underscores between them left out, and the rest; none when an
underscore stands elsewhere. The flag says that a digit stands before. -/
def takeDigitsOf (isDigit : Char → Bool) (afterDigit : Bool) :
    List Char → Option (List Char × List Char)
  | '_' :: cs =>
    match afterDigit, cs with
    | true, c :: _ => if isDigit c then takeDigitsOf isDigit false cs else none
    | _, _ => none
  | c :: cs =>
    if isDigit c then (takeDigitsOf isDigit true cs).map fun (ds, rest) => (c :: ds, rest)
    else some ([], c :: cs)
  | [] => some ([], [])

def takeDigits : Bool → List Char → Option (List Char × List Char) := takeDigitsOf Char.isDigit

def ofDigits (ds : List Char) : Nat := ds.foldl (fun n c => n * 10 + (c.toNat - '0'.toNat)) 0

/-- Reads an integer. The number of digits is checked before what follows them. -/
def readInteger (s : String) : Except NumberError Int :=
  let (negative, body) := takeSign (prepare s)
  match takeDigits false body with
  | none => .error (.notInteger s)
  | some (ds, rest) =>
    if maxIntegerDigits < ds.length then .error (.tooManyDigits ds.length)
    else if ds.isEmpty || !rest.isEmpty then .error (.notInteger s)
    else .ok (if negative then -(ofDigits ds : Int) else ofDigits ds)

def isHexDigit (c : Char) : Bool := (Text.hexValue? c).isSome

def ofHexDigits (ds : List Char) : Nat :=
  ds.foldl (fun n c => n * 16 + (Text.hexValue? c).getD 0) 0

/-- Splits off the mark of a hexadecimal number, in either case; true if there is one. -/
def takeHexMark : List Char → Bool × List Char
  | '0' :: c :: cs => if c = 'x' ∨ c = 'X' then (true, cs) else (false, '0' :: c :: cs)
  | cs => (false, cs)

/-- Reads a hexadecimal integer, with its mark or without. An underscore may follow the mark. -/
def readHexadecimal (s : String) : Except NumberError Int :=
  let (negative, body) := takeSign (prepare s)
  let (marked, body) := takeHexMark body
  match takeDigitsOf isHexDigit marked body with
  | some (d :: ds, []) =>
    let n : Int := ofHexDigits (d :: ds)
    .ok (if negative then -n else n)
  | _ => .error (.notHexadecimal s)

/-- The double nearest to `± n · 10 ^ e`, infinite beyond the finite range. Exponents that decide
the result by themselves are not multiplied out. -/
def ofDecimal (negative : Bool) (ds : List Char) (e : Int) : Float :=
  let ds := ds.dropWhile (· == '0')
  let n := ofDigits ds
  let size : Int := e + ds.length
  if n = 0 then Binary64.assemble negative 0
  else if 400 < size then Binary64.assemble negative Binary64.infinityBits
  else if size < -400 then Binary64.assemble negative 0
  else
    let (num, den) := scaled n 1 10 e
    Binary64.nearest negative num den

/-- The words for special values, in lower case. -/
def special? (negative : Bool) (cs : List Char) : Option Float :=
  let word := String.ofList (cs.map Char.toLower)
  if word = "inf" ∨ word = "infinity" then
    some (Binary64.assemble negative Binary64.infinityBits)
  else if word = "nan" then some (Binary64.assemble false Binary64.nanBits)
  else none

/-- An exponent, written `e` with a sign and digits. -/
def takeExponent (cs : List Char) : Option (Int × List Char) :=
  let (negative, body) := takeSign cs
  match takeDigits false body with
  | some (d :: ds, rest) =>
    let n : Int := ofDigits (d :: ds)
    some (if negative then -n else n, rest)
  | _ => none

/-- Reads the digits of a double, without its sign. -/
def digitsAsDouble? (negative : Bool) (cs : List Char) : Option Float := do
  let (before, rest) ← takeDigits false cs
  let (after, rest) ← match rest with
    | '.' :: more => takeDigits false more
    | _ => some ([], rest)
  if before.isEmpty && after.isEmpty then none
  let (e, rest) ← match rest with
    | c :: more => if c = 'e' ∨ c = 'E' then takeExponent more else some (0, rest)
    | [] => some (0, [])
  if rest.isEmpty then some (ofDecimal negative (before ++ after) (e - after.length)) else none

def readDouble (s : String) : Except NumberError Float :=
  let (negative, body) := takeSign (prepare s)
  match special? negative body, digitsAsDouble? negative body with
  | some x, _ => .ok x
  | none, some x => .ok x
  | none, none => .error (.notDouble s)

/-! ## Octets -/

/-- Octets as a text; one beyond ASCII becomes a character that no number has. -/
def octetText (octets : List UInt8) : String :=
  String.ofList (octets.map fun octet => if octet.toNat < 128 then Char.ofNat octet.toNat else '?')

def readIntegerOctets (octets : List UInt8) : Except NumberError Int :=
  (readInteger (octetText octets)).mapError fun
    | .notInteger _ => .notIntegerOctets octets
    | e => e

def readDoubleOctets (octets : List UInt8) : Except NumberError Float :=
  (readDouble (octetText octets)).mapError fun _ => .notDoubleOctets octets

/-! ## Conversions between numbers -/

def toText (n : Number) : Except NumberError String :=
  if n.digitCount ≤ maxIntegerDigits then .ok n.text else .error .tooLongToWrite

def toInteger : Number → Except NumberError Int
  | .whole n => .ok n
  | .double x =>
    match integerPart? x, Binary64.ofFloat x with
    | some n, _ => .ok n
    | none, .nan => .error .undefinedToInteger
    | none, _ => .error .infinityToInteger

def toDouble : Number → Except NumberError Float
  | .whole n =>
    match Binary64.ofInt? n with
    | some x => .ok x
    | none => .error .tooLargeForDouble
  | .double x => .ok x

end RenderTrace.Number
