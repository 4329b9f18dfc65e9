import RenderTrace.Query.Failure

/-!
# Cells

A cell of a query's answer is null, a truth value, a number, a text or some octets. Each can be read as
an integer, a text or a double; null reads as zero or the empty text.
-/

namespace RenderTrace
open Number (NumberError)

/-- One cell of a result set. -/
inductive Cell where
  | null
  | bool (b : Bool)
  | number (n : Number)
  | text (s : String)
  | bytes (octets : List UInt8)

namespace Cell

/-- A truth value as an integer. -/
def ofBool (b : Bool) : Int := if b then 1 else 0

/-- The cell as an integer; a double is cut down. -/
def toInteger : Cell → Except NumberError Int
  | null => .ok 0
  | bool b => .ok (ofBool b)
  | number n => n.toInteger
  | text s => Number.readInteger s
  | bytes octets => Number.readIntegerOctets octets

def toText : Cell → Except NumberError String
  | null => .ok ""
  | bool b => .ok (if b then "True" else "False")
  | number n => n.toText
  | text s => .ok s
  | bytes octets => .ok (Text.quoteOctets octets)

def toDouble : Cell → Except NumberError Float
  | null => .ok 0.0
  | bool b => .ok (if b then 1.0 else 0.0)
  | number n => n.toDouble
  | text s => Number.readDouble s
  | bytes octets => Number.readDoubleOctets octets

end Cell
end RenderTrace
