import RenderTrace.Json.Basic
import RenderTrace.Query.Session

/-!
# Recordings

A recording is a document with the engine's rows for some queries: an object whose names are the
queries and whose values hold the names of the columns and the rows. `Recording.engine` answers from
one.
-/

namespace RenderTrace.Recording

/-- A cell of a recorded row; arrays and objects are no cells and count as null. -/
def cellOf : Json → Cell
  | .bool b => .bool b
  | .number n => .number n
  | .text s => .text s
  | _ => .null

/-- The items of a member, none without one. -/
def listOf (name : String) (v : Json) : List Json := ((v.field? name).map Json.items).getD []

def nameOf : Json → String
  | .text s => s
  | _ => ""

def rowsOf (v : Json) : EngineRows :=
  ⟨(listOf "columns" v).map nameOf, (listOf "rows" v).map fun r => r.items.map cellOf⟩

/-- What the engine says about a query without recorded rows. -/
def unknownQuery : String := "no such table"

def engine (v : Json) : Engine := fun sql =>
  match v.field? sql with
  | some r => .ok (rowsOf r)
  | none => .error ⟨.traceProcessor, unknownQuery⟩

end RenderTrace.Recording
