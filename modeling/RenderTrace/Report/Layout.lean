import RenderTrace.Number.Reader
import RenderTrace.Query.Failure

/-!
# Plain tables

`Layout.render` lays out rows of fields in columns of equal width, two blanks apart, without lines
or trailing blanks. A column whose fields all read as numbers is aligned on the decimal point and to
the right, any other to the left. The type of a column is the most general type of its fields.

This is the format `plain` of `tabulate` as that package documents it: numbers are told from texts by
how they read, numbers with commas between their thousands among them, decimals are shown in the form
`g`, a header is as far from its column as at least two blanks, and a text of several lines makes a row
of several lines. The width of a text is the number of its characters, as it is where the package for
the width of characters is not there.
-/

namespace RenderTrace.Layout
open Text (isBlank)

inductive Field where
  | number (n : Number)
  | text (s : String)

/-- The type of a field or column, from the least to the most general. -/
inductive Kind where
  | blank
  | truth
  | integer
  | decimal
  | text
  deriving DecidableEq, Repr

/-- How general a type is. A column of truth values is aligned like text. -/
def Kind.rank : Kind → Nat
  | blank => 0
  | truth => 1
  | integer => 2
  | decimal => 3
  | text => 4

/-- The more general of two types. -/
def Kind.join (a b : Kind) : Kind := if a.rank < b.rank then b else a

/-! ## Types of fields -/

def lowered (s : String) : String := String.ofList (s.toList.map Char.toLower)

/-- The text reads as a double; of the words for special values only the short ones count. -/
def isDecimal (s : String) : Bool :=
  match Number.readDouble s with
  | .error _ => false
  | .ok x =>
    if x.isNaN || x.isInf then ["inf", "-inf", "nan"].contains (lowered s) else true

def isInteger (s : String) : Bool := (Number.readInteger s).isOk

/-- Groups of three digits, each after a comma. The bound is on their number. -/
def dropThousands : Nat → List Char → List Char
  | 0, cs => cs
  | bound + 1, ',' :: a :: b :: c :: cs =>
    if a.isDigit && b.isDigit && c.isDigit then dropThousands bound cs
    else ',' :: a :: b :: c :: cs
  | _, cs => cs

/-- What follows an integer with commas between its thousands, none if the text starts with none. -/
def afterThousands? (cs : List Char) : Option (List Char) :=
  let (_, body) := Number.takeSign cs
  let leading := (body.takeWhile Char.isDigit).length
  if 1 ≤ leading ∧ leading ≤ 3 then some (dropThousands body.length (body.drop leading)) else none

/-- The end of a text, or one line feed before it. -/
def atEnd (cs : List Char) : Bool := cs = [] || cs = ['\n']

/-- A number with commas between its thousands, a fraction, or nothing at all. -/
def isGrouped (s : String) : Bool :=
  match afterThousands? s.toList with
  | some ('.' :: rest) => atEnd (rest.dropWhile Char.isDigit)
  | some rest => atEnd rest
  | none =>
    match s.toList with
    | '.' :: c :: rest => c.isDigit && atEnd (rest.dropWhile Char.isDigit)
    | cs => atEnd cs

/-- A grouped number without a point. -/
def isGroupedInteger (s : String) : Bool := isGrouped s && !s.toList.contains '.'

def Field.kind : Field → Kind
  | number (.whole _) => .integer
  | number (.double _) => .decimal
  | text s =>
    if s = "" then .blank
    else if s = "True" ∨ s = "False" then .truth
    else if isInteger s || isGroupedInteger s then .integer
    else if isDecimal s || isGrouped s then .decimal
    else .text

def columnKind (fields : List Field) : Kind := fields.foldl (fun k f => k.join f.kind) .blank

/-! ## Texts of fields -/

/-- The text of a field in a column of decimals. -/
def decimalText : Field → Except Failure String
  | .number n =>
    match n.toDouble with
    | .ok x => .ok (Number.Style.general.write x)
    | .error e => .error (.conversion e)
  | .text s =>
    if s = "" then .ok ""
    else
      let plain := String.ofList (s.toList.filter (· ≠ ','))
      match Number.readDouble plain with
      | .ok x => .ok (Number.Style.general.write x)
      | .error _ => .ok plain

/-- The text of a field, whatever its column. -/
def Field.toText : Field → Except Failure String
  | number n => n.toText.mapError .conversion
  | text s => .ok s

/-- The text of a field in a column of some type. -/
def fieldText (k : Kind) (f : Field) : Except Failure String :=
  if k = .decimal then decimalText f else f.toText

/-! ## Columns -/

inductive Side where
  | left
  | right
  deriving DecidableEq, Repr

def Kind.side : Kind → Side
  | integer | decimal => .right
  | _ => .left

/-- Fills a line up to a width. -/
def pad (side : Side) (width : Nat) (cs : List Char) : List Char :=
  let blanks := List.replicate (width - cs.length) ' '
  match side with
  | .left => cs ++ blanks
  | .right => blanks ++ cs

/-- Characters after the last one of a kind, none without one. -/
def after? (p : Char → Bool) (cs : List Char) : Option Nat :=
  if cs.any p then some (cs.reverse.takeWhile (!p ·)).length else none

/-- One more than the places after the decimal point or, without a point, after the exponent mark;
zero for what has neither or is no number. -/
def places (cs : List Char) : Nat :=
  let s := String.ofList cs
  if isInteger s || !(isDecimal s || isGrouped s) then 0
  else
    match after? (· == '.') cs with
    | some n => n + 1
    | none => ((after? (fun c => c == 'e' || c == 'E') cs).map (· + 1)).getD 0

def greatest (ns : List Nat) : Nat := ns.foldl max 0

/-- Brings the decimal points of a column into line, or cuts the blanks off a column of text. -/
def justify (k : Kind) (cells : List (List Char)) : List (List Char) :=
  match k.side with
  | .right =>
    let most := greatest (cells.map places)
    cells.map fun cs => cs ++ List.replicate (most - places cs) ' '
  | .left => cells.map Text.trim

def width (cs : List Char) : Nat := greatest ((Text.splitLines cs).map List.length)

/-- Fills every line of a text up to a width. A text without lines stays empty when the table has
texts of several lines. -/
def padLines (multiline : Bool) (side : Side) (w : Nat) (cs : List Char) : List (List Char) :=
  if multiline then (Text.lines cs).map (pad side w) else [pad side w cs]

/-- Fills every line of a header up to a width; in a table with texts of several lines every line end
within it starts a new line. -/
def headerLines (multiline : Bool) (side : Side) (w : Nat) (cs : List Char) : List (List Char) :=
  let lines := (Text.splitLines cs).map (pad side w)
  if multiline then Text.lines (List.intercalate ['\n'] lines) else lines

/-- A column: its cells as lines, under a header if there is one, and its width. -/
structure Column where
  header : List (List Char)
  cells : List (List (List Char))
  width : Nat

/-- Lays out a column. A column with a header is at least two blanks wider than the header. -/
def column (multiline : Bool) (header : Option (List Char)) (fields : List Field) :
    Except Failure Column := do
  let k := columnKind fields
  let texts ← fields.mapM (fieldText k)
  let cells := justify k (texts.map String.toList)
  let least := (header.map fun h => width h + 2).getD 0
  let w := max least (greatest (cells.map width))
  return {
    header := (header.map (headerLines multiline k.side w)).getD []
    cells := cells.map (padLines multiline k.side w)
    width := w }

/-! ## Rows -/

/-- The lines of one row: its cells side by side, the shorter ones filled with blank lines. -/
def rowLines (cells : List (List (List Char) × Nat)) : List (List Char) :=
  let height := greatest (cells.map fun (lines, _) => lines.length)
  (List.range height).map fun i =>
    Text.trimRight (List.intercalate [' ', ' ']
      (cells.map fun (lines, w) => lines.getD i (List.replicate w ' ')))

/-- Lays out rows under headers, if there are any. -/
def render (headers : Option (List String)) (rows : List (List Field)) : Except Failure String := do
  let count := (rows.head?.map List.length).getD 0
  let texts ← rows.flatten.mapM Field.toText
  let multiline := (headers.getD [] ++ texts).any (·.toList.any Text.isReturn)
  let columns ← (List.range count).mapM fun i =>
    column multiline (headers.bind (·[i]?) |>.map String.toList) (rows.filterMap (·[i]?))
  let head := if headers.isSome then rowLines (columns.map fun c => (c.header, c.width)) else []
  let body := (List.range rows.length).flatMap fun r =>
    rowLines (columns.map fun c => (c.cells.getD r [], c.width))
  return String.ofList (List.intercalate ['\n'] (head ++ body))

end RenderTrace.Layout
