import RenderTrace.Query.Cell

/-!
# Result sets

The answer to a query: named columns of equal length, addressed by position. `ResultSet.ofColumns`
checks the lengths; `ResultSet.ofRows` builds the columns from rows, of which further cells are
ignored. A column is read as a whole, as integers, texts or doubles.
-/

namespace RenderTrace
open Number (NumberError)

/-- The columns of a query's answer. -/
structure ResultSet where
  names : List String
  columns : List (List Cell)
  /-- The number of rows. -/
  size : Nat
  length_columns : columns.length = names.length
  length_column : ∀ c ∈ columns, c.length = size

namespace ResultSet

/-- The different lengths of some columns, ascending. -/
def lengths (columns : List (List Cell)) : List Nat :=
  ((columns.map List.length).mergeSort (· ≤ ·)).eraseReps

/-- The length of the first column, zero when there is none. -/
def rowCount (columns : List (List Cell)) : Nat := (columns.head?.map List.length).getD 0

/-- A result set of columns of equal length, one to a name. -/
def ofColumns (names : List String) (columns : List (List Cell)) : Except Failure ResultSet :=
  if hn : columns.length = names.length then
    if hc : ∀ c ∈ columns, c.length = rowCount columns then
      .ok ⟨names, columns, rowCount columns, hn, hc⟩
    else .error (.unevenColumns (lengths columns))
  else .error (.columnCount columns.length names.length)

/-- The cell at a place of a row. -/
def cellAt (i : Nat) (row : List Cell) : Except Failure Cell :=
  match row[i]? with
  | some c => .ok c
  | none => .error .outOfRange

/-- A result set of rows, each with a cell for every name. -/
def ofRows (names : List String) (rows : List (List Cell)) : Except Failure ResultSet := do
  let columns ← (List.range names.length).mapM fun i => rows.mapM (cellAt i)
  ofColumns names columns

/-- The first number that is too large for a position. -/
def positionBound : Int := 9223372036854775808

/-- The place in a list of some length that a position means; a negative position counts from the
end. -/
def placeOf (length : Nat) (i : Int) : Except Failure (Fin length) :=
  let place := if i < 0 then i + length else i
  if i < -positionBound ∨ positionBound ≤ i then .error .unusablePosition
  else if h : 0 ≤ place ∧ place < length then .ok ⟨place.toNat, by omega⟩
  else .error .outOfRange

def column (r : ResultSet) (i : Int) : Except Failure (List Cell) :=
  (placeOf r.columns.length i).map fun place => r.columns[place]

/-- Reads every cell of a column. -/
def read {α : Type} (convert : Cell → Except NumberError α) (cells : List Cell) :
    Except Failure (List α) :=
  (cells.mapM convert).mapError .conversion

def integers (r : ResultSet) (i : Int) : Except Failure (List Int) := do
  read Cell.toInteger (← r.column i)

def texts (r : ResultSet) (i : Int) : Except Failure (List String) := do
  read Cell.toText (← r.column i)

def doubles (r : ResultSet) (i : Int) : Except Failure (List Float) := do
  read Cell.toDouble (← r.column i)

end ResultSet
end RenderTrace
