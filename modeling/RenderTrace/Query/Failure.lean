import RenderTrace.Number.Reader

/-!
# Failures

Everything that can go wrong between asking for profiling data and having it, by cause. The wording
of each is given by `Failure.message`.
-/

namespace RenderTrace
open Number (NumberError)

/-- Why a step of a run failed. -/
inductive Failure where
  /-- A query could not be answered. -/
  | query (sql message : String)
  /-- A query was not issued because its request had been cancelled. -/
  | cancelled (sql : String)
  /-- A query was not issued because its request had expired. -/
  | expired (sql : String)
  /-- A cell or quantity could not be converted to the type asked for. -/
  | conversion (error : NumberError)
  /-- A position beyond the end of a list. -/
  | outOfRange
  /-- A position that no list can have. -/
  | unusablePosition
  | columnCount (columns names : Nat)
  | unevenColumns (lengths : List Nat)
  | negativeTimestamp (timestamp track : Int)
  | noSliceData
  /-- A failure of another program, passed on with its own kind and wording. -/
  | foreign (kind message : String)
  deriving DecidableEq, Repr

def queryMessage (sql message : String) : String := "SQL query failed: " ++ sql ++ ": " ++ message

def Failure.message : Failure → String
  | query sql m => queryMessage sql m
  | cancelled sql => queryMessage sql "request cancelled"
  | expired sql => queryMessage sql "request deadline exceeded"
  | conversion e => e.message
  | outOfRange => "list index out of range"
  | unusablePosition => "cannot fit 'int' into an index-sized integer"
  | columnCount columns names =>
    "Got " ++ toString columns ++ " columns for " ++ toString names ++ " column names"
  | unevenColumns lengths =>
    "Columns have mismatched lengths: [" ++ ", ".intercalate (lengths.map toString) ++ "]"
  | negativeTimestamp t track =>
    "Negative timestamp " ++ toString t ++ " on counter track " ++ toString track
  | noSliceData => "No slice data to compute GPU counters from"
  | foreign _ m => m

end RenderTrace
