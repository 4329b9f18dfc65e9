import RenderTrace.Profile.Assembly
import RenderTrace.Report.Layout

/-!
# Tables of a profile

The four sections of a profile as plain tables: the groups with their slice counts, the slices, the
counters with a summary of their samples, and the metrics. A part that is missing or empty is
replaced by a sentence.
-/

namespace RenderTrace.Report
open Layout (Field)

inductive Section where
  | groups
  | slices
  | counters
  | metrics
  deriving DecidableEq, Repr

/-- The sections in the order they are shown in. -/
def sections : List Section := [.groups, .slices, .counters, .metrics]

def Section.name : Section → String
  | .groups => "groups"
  | .slices => "slices"
  | .counters => "counters"
  | .metrics => "metrics"

def Section.ofName? (s : String) : Option Section := sections.find? (·.name = s)

/-- The text of a value: nothing for null, up to six significant digits of a double, and any other
value as it is. -/
def valueText : Cell → Except Failure String
  | .number (.double x) => .ok (Number.Style.general.write x)
  | c => c.toText.mapError .conversion

/-- The text of a quantity that may be missing. -/
def quantityText {V : Type} [Numeric V] (x : Option V) : Except Failure String :=
  valueText (x.elim .null fun x => .number (toNumber x))

def quantity {V : Type} [Numeric V] (x : V) : Field := .number (toNumber x)

/-- A table, with its headers unless they are hidden. -/
def table (showHeader : Bool) (headers : List String) (rows : List (List Field)) :
    Except Failure String :=
  Layout.render (if showHeader then some headers else none) rows

/-! ## Groups and slices -/

section Slices
variable {τ : Type} [BEq τ]

def sliceCount (t : SliceTable τ) (groupId : τ) : Nat := t.slices.countP (·.groupId == groupId)

def groupRow [Numeric τ] (t : SliceTable τ) (g : Group τ) : List Field :=
  [quantity g.id, .text g.name, quantity g.range.start, quantity g.range.stop,
    quantity (sliceCount t g.id : Int)]

def groupsTable [Numeric τ] (showHeader : Bool) : Option (SliceTable τ) → Except Failure String
  | none => .ok "No slice data available."
  | some t =>
    if t.groups.list.isEmpty then .ok "No groups found."
    else table showHeader ["GROUP", "NAME", "FROM", "TO", "SLICES"] (t.groups.list.map (groupRow t))

def sliceRow [OfInteger τ] [Numeric τ] (s : Slice τ) : List Field :=
  [quantity s.id, quantity s.start, quantity s.duration, .text s.name,
    quantity s.submissionId, .number s.commandBuffer, .number s.renderPass, .number s.renderTarget,
    if s.groupId == noGroup then .text "" else quantity s.groupId]

def slicesTable [OfInteger τ] [Numeric τ] (showHeader : Bool) :
    Option (SliceTable τ) → Except Failure String
  | none => .ok "No slice data available."
  | some t =>
    if t.slices.isEmpty then .ok "No slices found."
    else table showHeader ["ID", "TS", "DUR", "NAME", "SUBMISSION", "CB", "RP", "RT", "GROUP"]
      (t.slices.map sliceRow)

end Slices

/-! ## Counters and metrics -/

/-- The mean of some numbers, summed from the first to the last. -/
def mean? (values : List Number) : Except Number.NumberError (Option Float) :=
  if values.isEmpty then return none
  else do return some (← (← values.foldlM Number.add 0).div (.whole values.length))

section Values
variable {τ V : Type} [Numeric τ] [Numeric V]

def counterRow (c : Counter τ V) : Except Failure (List Field) := do
  let mean ← (mean? (c.values.map toNumber)).mapError .conversion
  return [quantity c.id, .text c.name, .text c.unit, quantity (c.values.length : Int),
    .text (← quantityText mean), (c.spec.elim (.text "") fun s => .number s.counterId)]

def countersTable (showHeader : Bool) : Option (List (Counter τ V)) → Except Failure String
  | none => .ok "No counter data available."
  | some [] => .ok "No counters found."
  | some cs => do
    table showHeader ["ID", "NAME", "UNIT", "SAMPLES", "MEAN", "SPEC"] (← cs.mapM counterRow)

def metricHeader {τ : Type} (m : Metric τ) : String :=
  if m.unit = "" then m.name else m.name ++ " (" ++ m.unit ++ ")"

def metricRow [BEq τ] (metrics : List (Metric τ)) (e : MetricEntry τ V) :
    Except Failure (List Field) := do
  let values ← metrics.mapM fun m => quantityText (e.values.lookup m.id)
  return quantity e.groupId :: values.map .text

def metricsTable [BEq τ] (showHeader : Bool) : Option (MetricTable τ V) → Except Failure String
  | none => .ok "No metrics available."
  | some m =>
    if m.entries.isEmpty then .ok "No metrics found."
    else do
      table showHeader ("GROUP" :: m.metrics.map metricHeader)
        (← m.entries.mapM (metricRow m.metrics))

end Values

/-! ## Sections together -/

def sectionTable {τ V : Type} [BEq τ] [OfInteger τ] [Numeric τ] [Numeric V] (showHeader : Bool)
    (p : Profile τ V) : Section → Except Failure String
  | .groups => groupsTable showHeader p.slices
  | .slices => slicesTable showHeader p.slices
  | .counters => countersTable showHeader p.counters
  | .metrics => metricsTable showHeader p.metrics

/-- The line above a section's table. -/
def Section.title : Section → String
  | .groups => "=== Groups ==="
  | .slices => "=== Slices ==="
  | .counters => "=== Counters ==="
  | .metrics => "=== Metrics ==="

/-- All tables, each under its title, a blank line between two. -/
def allTables {τ V : Type} [BEq τ] [OfInteger τ] [Numeric τ] [Numeric V] (showHeader : Bool)
    (p : Profile τ V) : Except Failure String := do
  let parts ← sections.mapM fun s => do return [s.title, ← sectionTable showHeader p s, ""]
  let text := "\n".intercalate parts.flatten
  return String.ofList (Text.dropEnd (· == '\n') text.toList)

end RenderTrace.Report
