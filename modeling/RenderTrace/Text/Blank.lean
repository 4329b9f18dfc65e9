/-!
# Blanks and line ends

`isBlank` is the Unicode white space that separates words, `isAsciiBlank` its six oldest members,
`isLineEnd` what ends a line of text. `trim` and `trimRight` cut blanks off the ends, `lines` gives
the lines of a text and `splitLines` its parts between line feeds and carriage returns.
-/

namespace RenderTrace.Text

/-- Space, tab, line feed, vertical tab, form feed and carriage return. -/
def isAsciiBlank (c : Char) : Bool :=
  c == ' ' || ('\t' ≤ c && c ≤ '\r')

/-- White space of any script, the four information separators included. -/
def isBlank (c : Char) : Bool :=
  isAsciiBlank c
    || ('\x1c' ≤ c && c ≤ '\x1f')
    || [0x85, 0xa0, 0x1680, 0x2028, 0x2029, 0x202f, 0x205f, 0x3000].contains c.toNat
    || (0x2000 ≤ c.toNat && c.toNat ≤ 0x200a)

def isLineEnd (c : Char) : Bool :=
  ('\n' ≤ c && c ≤ '\r') || ('\x1c' ≤ c && c ≤ '\x1e')
    || [0x85, 0x2028, 0x2029].contains c.toNat

/-- Drops the characters of a class from the end. -/
def dropEnd (p : Char → Bool) (cs : List Char) : List Char := (cs.reverse.dropWhile p).reverse

def trimRight (cs : List Char) : List Char := dropEnd isBlank cs

def trim (cs : List Char) : List Char := trimRight (cs.dropWhile isBlank)

/-- The lines of a text at every line end; a carriage return with a line feed is one line end, and
no empty line follows the last line end. -/
def lines : List Char → List (List Char)
  | [] => []
  | '\r' :: '\n' :: cs => [] :: lines cs
  | c :: cs =>
    if isLineEnd c then [] :: lines cs
    else match lines cs with
      | [] => [[c]]
      | l :: ls => (c :: l) :: ls

def isReturn (c : Char) : Bool := c == '\n' || c == '\r'

/-- The parts of a text between line feeds and carriage returns, each of which ends a part. -/
def splitLines : List Char → List (List Char)
  | [] => [[]]
  | c :: cs =>
    if isReturn c then [] :: splitLines cs
    else match splitLines cs with
      | [] => [[c]]
      | l :: ls => (c :: l) :: ls

end RenderTrace.Text
