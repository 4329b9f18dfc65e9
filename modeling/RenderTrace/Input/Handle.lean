import RenderTrace.Number.Reader

/-!
# Written handles

The names of a handle mapping: `0x` with hexadecimal digits, or decimal digits, which may start with
zeros. One line feed at the end is allowed and ignored.
-/

namespace RenderTrace.Handle
open Number (NumberError)

/-- A text without one line feed at its end. -/
def withoutLineFeed (cs : List Char) : List Char :=
  if cs.getLast? = some '\n' then cs.dropLast else cs

/-- The text is that of a handle. -/
def isHandle (s : String) : Bool :=
  match withoutLineFeed s.toList with
  | '0' :: 'x' :: ds => !ds.isEmpty && ds.all Number.isHexDigit
  | ds => !ds.isEmpty && ds.all Char.isDigit

/-- The number that a text denotes: a hexadecimal one if it starts with the mark of those, a decimal one
otherwise. -/
def read (s : String) : Except NumberError Int :=
  if (Number.takeHexMark s.toList).1 then Number.readHexadecimal s else Number.readInteger s

end RenderTrace.Handle
