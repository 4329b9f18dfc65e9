import RenderTrace.Profile.Grouping
import RenderTrace.Profile.Metric
import RenderTrace.Query.Store

/-!
# Profiles

A `Profile` is what is known of a trace: its grouped slices, its counters and the metrics computed
from both. The slices and the counters are read in two independent stages; a stage that fails is
reported and leaves its part empty, and so does a failed computation of the metrics.
`Profile.inquire` runs the stages one after the other, `Profile.runBoth` both at once.
-/

namespace RenderTrace

structure Profile (τ V : Type) where
  slices : Option (SliceTable τ)
  counters : Option (List (Counter τ V))
  metrics : Option (MetricTable τ V)

namespace Profile

/-- What a profile is made with. -/
structure Inputs where
  descriptor : Option Descriptor
  handles : Option HandleMap
  renderPasses : RenderPassSource
  /-- Sample queries that may be answered at once. -/
  workers : Int

/-- What computes the metrics from the slices and counters that were read. -/
abbrev Compute (τ V W : Type) :=
  Option (SliceTable τ) → Option (List (Counter τ V)) → Except Failure (Option (MetricTable τ W))

/-- The metrics of the slices, which must be there; missing counters count as none. -/
def metricsOf {τ V W : Type} [BEq τ] [OfInteger τ] [OfNat τ 0] [Time τ] [LT τ] [DecidableLT τ]
    [OfNat W 0] [Add W] [Div W] [Measure τ W] [Weighing τ V W] : Compute τ V W
  | none, _ => .error .noSliceData
  | some t, counters => (MetricTable.ofSlices t (counters.getD [])).map some

/-- Asks for the slices, replaces their handles and puts them into groups. -/
def inquireSlices (inputs : Inputs) : Inquiry (SliceTable Int) := do
  let table ← SliceTable.inquire
  let order ← SubmissionOrder.inquire
  let table ← match inputs.handles with
    | none => pure table
    | some m => do
      Inquiry.report (table.mapWarnings m)
      pure (table.mapHandles m)
  table.inquireGroups order inputs.renderPasses

/-- Reports a failure and goes on without a result. -/
def orNone {α : Type} (event : Failure → Event) (x : Inquiry α) : Inquiry (Option α) := do
  match ← x.attempt with
  | .ok a => return some a
  | .error f => do
    Inquiry.report [event f]
    return none

def slicesStage (inputs : Inputs) : Inquiry (Option (SliceTable Int)) :=
  orNone .slicesFailed (inquireSlices inputs)

def countersStage (inputs : Inputs) : Inquiry (Option (List (Counter Int Float))) :=
  orNone .countersFailed (Counter.inquireAll inputs.descriptor inputs.workers)

/-- A profile of what the stages read, and what is worth telling about its metrics. -/
def complete {τ V : Type} (compute : Compute τ V V) (slices : Option (SliceTable τ))
    (counters : Option (List (Counter τ V))) : Profile τ V × List Event :=
  match compute slices counters with
  | .ok metrics => (⟨slices, counters, metrics⟩, [])
  | .error f => (⟨slices, counters, none⟩, [.metricsFailed f])

/-- Asks for everything, one stage after the other. -/
def inquire (inputs : Inputs) (compute : Compute Int Float Float) : Inquiry (Profile Int Float) := do
  let slices ← slicesStage inputs
  let counters ← countersStage inputs
  let (profile, events) := complete compute slices counters
  Inquiry.report events
  return profile

/-- The result of a stage; a stage reports its failures and never fails. -/
def stageResult {α : Type} (r : Except Failure (Option α)) : Option α :=
  match r with
  | .ok a => a
  | .error _ => none

/-- Makes a profile with both stages at once, the queries answered in the order that the schedule
gives. -/
def runBoth {σ : Type} (serve : String → StateM σ Answer) (schedule : List Nat) (inputs : Inputs)
    (compute : Compute Int Float Float) : StateM σ (Profile Int Float × List Event) := do
  let (slices, counters, events) ←
    Inquiry.runBoth serve schedule (slicesStage inputs) (countersStage inputs)
  let (profile, more) := complete compute (stageResult slices) (stageResult counters)
  return (profile, events ++ more)

def run {σ : Type} (serve : String → StateM σ Answer) (inputs : Inputs)
    (compute : Compute Int Float Float) : StateM σ (Profile Int Float × List Event) := do
  let o ← (inquire inputs compute).run serve
  return ((match o.result with
    | .ok p => p
    | .error _ => ⟨none, none, none⟩), o.events)

end Profile
end RenderTrace
