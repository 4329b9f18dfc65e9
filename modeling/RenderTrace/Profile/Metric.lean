import RenderTrace.Profile.Counter
import RenderTrace.Profile.Slice

/-!
# Metrics

For every group: its device time (the durations of its slices), its wall time (from the first start
to the last end), and for every counter the average of its values while the group's slices ran,
weighted by the time they ran.

The definitions are generic in the type `τ` of ids and times, the type `V` of counter values and the
type `W` of metric values, so that one text serves doubles when it runs and exact rationals when it
is reasoned about. Turning a time into a metric value can fail (`Measure`), and so can weighing a
counter value by a time (`Weighing`).
-/

namespace RenderTrace

/-- How a time becomes a metric value. -/
class Measure (τ W : Type) where
  measure : τ → Except Failure W

export Measure (measure)

instance : Measure Number Float := ⟨fun n => n.toDouble.mapError .conversion⟩
instance : Measure Int Float := ⟨fun n => measure (Number.whole n)⟩

/-- How a counter value counts for a time. -/
class Weighing (τ V W : Type) where
  weigh : V → τ → Except Failure W

export Weighing (weigh)

/-- A metric value is multiplied by the measured time. -/
instance Weighing.measured {τ V : Type} [Measure τ V] [Mul V] : Weighing τ V V :=
  ⟨fun v t => do return v * (← measure t)⟩

/-- The product of two numbers is measured. -/
instance : Weighing Number Number Float :=
  ⟨fun v t => do measure (← (v.mul t).mapError Failure.conversion)⟩

/-- A column of the metric table. -/
structure Metric (τ : Type) where
  id : τ
  name : String
  unit : String
  /-- The counter that the metric is taken from, none for a time. -/
  counterId : Option τ
  deriving DecidableEq, Repr

/-- The metric values of one group, by metric id. -/
structure MetricEntry (τ W : Type) where
  groupId : τ
  values : List (τ × W)

structure MetricTable (τ W : Type) where
  metrics : List (Metric τ)
  entries : List (MetricEntry τ W)

def MetricTable.map {τ W X : Type} (f : W → X) (m : MetricTable τ W) : MetricTable τ X where
  metrics := m.metrics
  entries := m.entries.map fun e => ⟨e.groupId, e.values.map fun (id, w) => (id, f w)⟩

namespace Metric

variable {τ V W : Type}

/-- A sum of values weighted by time, and the time. -/
structure Weighted (τ W : Type) where
  sum : W
  time : τ

def Weighted.zero [OfNat τ 0] [OfNat W 0] : Weighted τ W := ⟨0, 0⟩

section Values
variable [OfNat τ 0] [Time τ] [LT τ] [DecidableLT τ] [OfNat W 0] [Add W]

/-- Adds the overlap of a span with each sample interval, `previous` being the end of the interval
before; ends with the first interval that starts at the end of the span or later. -/
def accumulate [Weighing τ V W] (start stop : τ) : τ → List τ → List V → Weighted τ W →
    Except Failure (Weighted τ W)
  | _, [], _, acc => .ok acc
  | previous, t :: times, values, acc =>
    if previous < stop then do
      let common ← Time.overlap start stop previous t
      match values with
      | [] => throw .outOfRange
      | v :: values =>
        let sum := acc.sum + (← weigh v common)
        accumulate start stop t times values ⟨sum, ← Time.add acc.time common⟩
    else .ok acc

/-- The values of a counter over a slice, weighted by overlap. The first sample has no known start
and is left out; the search starts at the first sample that ends after the start of the slice. -/
def weighted [Weighing τ V W] (s : Slice τ) (c : Counter τ V) : Except Failure (Weighted τ W) := do
  let stop ← s.stop
  let place := max 1 (Time.placeAfter c.timestamps s.start)
  match c.timestamps.drop (place - 1) with
  | [] => return .zero
  | previous :: times => accumulate s.start stop previous times (c.values.drop place) .zero

/-- The values of a counter over some slices, weighted by overlap. -/
def weightedOver [Weighing τ V W] (slices : List (Slice τ)) (c : Counter τ V) :
    Except Failure (Weighted τ W) :=
  slices.foldlM (fun acc s => do
    let w : Weighted τ W ← weighted s c
    return ⟨acc.sum + w.sum, ← Time.add acc.time w.time⟩) .zero

/-- The average of a counter over some slices, none if no sample interval overlaps them. -/
def average? [Weighing τ V W] [Measure τ W] [Div W] (slices : List (Slice τ)) (c : Counter τ V) :
    Except Failure (Option W) := do
  let w : Weighted τ W ← weightedOver slices c
  if 0 < w.time then return some (w.sum / (← measure w.time)) else return none

/-- The times of a group's slices: the time they took together, and from the first start to the last
end. -/
def times [OfInteger τ] [Measure τ W] : List (Slice τ) → Except Failure (List (τ × W))
  | [] => return []
  | s :: slices => do
    let deviceTime ← measure (← Time.total (s.duration :: slices.map Slice.duration))
    let last := Time.latest (← s.stop) (← slices.mapM Slice.stop)
    let first := Time.earliest s.start (slices.map Slice.start)
    let wallTime ← measure (← Time.sub last first)
    return [(ofInteger 0, deviceTime), (ofInteger 1, wallTime)]

/-- The id of the first metric that is taken from a counter. -/
def firstCounterMetric : Int := 2

/-- The averages of the counters over a group's slices, numbered from `id` on. -/
def averages [OfInteger τ] [Weighing τ V W] [Measure τ W] [Div W] (slices : List (Slice τ)) :
    Int → List (Counter τ V) → Except Failure (List (τ × W))
  | _, [] => return []
  | id, c :: cs => do
    let a ← average? slices c
    let rest ← averages slices (id + 1) cs
    return match a with
      | some v => (ofInteger id, v) :: rest
      | none => rest

def slicesOf [BEq τ] [OfInteger τ] (t : SliceTable τ) (groupId : τ) : List (Slice τ) :=
  if groupId == noGroup then [] else t.slices.filter (·.groupId == groupId)

def entry [BEq τ] [OfInteger τ] [Weighing τ V W] [Measure τ W] [Div W] (t : SliceTable τ)
    (counters : List (Counter τ V)) (g : Group τ) : Except Failure (MetricEntry τ W) := do
  let slices := slicesOf t g.id
  return ⟨g.id, (← times slices) ++ (← averages slices firstCounterMetric counters)⟩

end Values

/-- The two times and one metric for each counter. -/
def all [OfInteger τ] (counters : List (Counter τ V)) : List (Metric τ) :=
  [⟨ofInteger 0, "GPU Time", "ns", none⟩, ⟨ofInteger 1, "Wall Time", "ns", none⟩]
    ++ counters.mapIdx fun i c => ⟨ofInteger (firstCounterMetric + i), c.name, c.unit, some c.id⟩

end Metric

def MetricTable.ofSlices {τ V W : Type} [BEq τ] [OfInteger τ] [OfNat τ 0] [Time τ] [LT τ]
    [DecidableLT τ] [OfNat W 0] [Add W] [Div W] [Measure τ W] [Weighing τ V W] (t : SliceTable τ)
    (counters : List (Counter τ V)) : Except Failure (MetricTable τ W) := do
  return ⟨Metric.all counters, ← t.groups.list.mapM (Metric.entry t counters)⟩

end RenderTrace
