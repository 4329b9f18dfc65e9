import RenderTrace.Text.Digit
import RenderTrace.Text.Printable

/-!
# Quoted text

`quote` shows a text between quotes on one line: single quotes, or double quotes when the text has
a single quote and no double one. Backslashes and the quote in use are escaped, and every character
that is not printable is written by its code. `quoteOctets` shows octets the same way, those beyond
ASCII by their code.
-/

namespace RenderTrace.Text

def quoteFor (cs : List Char) : Char :=
  if cs.contains '\'' && !cs.contains '"' then '"' else '\''

def quoteChar (q c : Char) : List Char :=
  if c = q ∨ c = '\\' then ['\\', c]
  else if c = '\t' then ['\\', 't']
  else if c = '\n' then ['\\', 'n']
  else if c = '\r' then ['\\', 'r']
  else if isPrintable c then [c]
  else if c.toNat < 0x100 then '\\' :: 'x' :: hexText 2 c.toNat
  else if c.toNat < 0x10000 then '\\' :: 'u' :: hexText 4 c.toNat
  else '\\' :: 'U' :: hexText 8 c.toNat

def quoteChars (cs : List Char) : List Char :=
  let q := quoteFor cs
  q :: (cs.flatMap (quoteChar q) ++ [q])

/-- The quoted form of a text. -/
def quote (s : String) : String := String.ofList (quoteChars s.toList)

def quoteOctet (q : Char) (octet : UInt8) : List Char :=
  if octet.toNat < 128 then quoteChar q (Char.ofNat octet.toNat)
  else '\\' :: 'x' :: hexText 2 octet.toNat

def quoteOctets (octets : List UInt8) : String :=
  let q := quoteFor (octets.map fun octet => Char.ofNat octet.toNat)
  String.ofList ('b' :: q :: (octets.flatMap (quoteOctet q) ++ [q]))

end RenderTrace.Text
