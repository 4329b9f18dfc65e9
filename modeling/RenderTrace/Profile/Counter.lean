import RenderTrace.Query.Inquiry

/-!
# Counters

A `Counter` is a counter track with its samples: sample `i` is the value over the time since sample
`i - 1`. Ids and times are of a type `τ` and values of a type `V`, integers and doubles for what a
trace holds. A `Descriptor` lists the counters of the device; a counter has the specification that
is the last one with its name.
`Counter.inquireAll` reads the counters of a trace in order of their ids.
-/

namespace RenderTrace

structure CounterSpec where
  counterId : Number
  name : String
  description : String
  numeratorUnits : List String
  denominatorUnits : List String
  selectByDefault : Bool

structure Descriptor where
  specs : List CounterSpec

/-- The last specification with a name. -/
def Descriptor.spec? (d : Descriptor) (name : String) : Option CounterSpec :=
  d.specs.reverse.find? (·.name = name)

structure Counter (τ V : Type) where
  id : τ
  name : String
  unit : String
  description : String
  spec : Option CounterSpec
  timestamps : List τ
  values : List V

namespace Counter

def tracksSql : String := "SELECT id, name, unit, description FROM gpu_counter_track ORDER BY id"

def samplesSql (trackId : Int) : String :=
  "SELECT ts, value FROM counter c WHERE c.track_id = " ++ toString trackId ++ " ORDER BY ts"

/-- The query for the samples of a track, if the id of the track can be written. -/
def samplesQuery (trackId : Int) : Except Failure String :=
  match (Number.whole trackId).toText with
  | .ok _ => .ok (samplesSql trackId)
  | .error e => .error (.conversion e)

/-- The counters of the rows of the track query, still without samples, in row order. -/
def tracksOf (descriptor : Option Descriptor) (answer : ResultSet) :
    Except Failure (List (Counter Int Float)) := do
  let ids ← answer.integers 0
  let names ← answer.texts 1
  let units ← answer.texts 2
  let descriptions ← answer.texts 3
  return (List.range answer.size).map fun i => {
    id := ids.getD i 0
    name := names.getD i ""
    unit := units.getD i ""
    description := descriptions.getD i ""
    spec := descriptor.bind fun d => d.spec? (names.getD i "")
    timestamps := []
    values := [] }

/-- Ascending ids; counters of one id keep their order. -/
def sortById {V : Type} (cs : List (Counter Int V)) : List (Counter Int V) :=
  cs.mergeSort fun a b => a.id ≤ b.id

/-- The samples of a track; a timestamp before zero is refused before the values are read. -/
def samplesOf (trackId : Int) (answer : ResultSet) : Except Failure (List Int × List Float) := do
  let timestamps ← answer.integers 0
  match timestamps.find? (· < 0) with
  | some t => .error (.negativeTimestamp t trackId)
  | none => return (timestamps, ← answer.doubles 1)

def withSamples (c : Counter Int Float) (answer : ResultSet) : Except Failure (Counter Int Float) :=
  (samplesOf c.id answer).map fun (timestamps, values) => { c with timestamps, values }

def inquireSamples (c : Counter Int Float) : Inquiry ResultSet := do
  Inquiry.query (← Inquiry.ofExcept (samplesQuery c.id))

/-- Asks for the samples of one counter after the other. -/
def inquireInTurn : List (Counter Int Float) → Inquiry (List (Counter Int Float))
  | [] => return []
  | c :: cs => do
    let c ← Inquiry.ofExcept (c.withSamples (← c.inquireSamples))
    return c :: (← inquireInTurn cs)

/-- The counters with the samples of their answers, or the failure of the first that has one. -/
def withAnswers : List (Counter Int Float) → List Answer → Except Failure (List (Counter Int Float))
  | c :: cs, a :: as => do
    let c ← c.withSamples (← a)
    return c :: (← withAnswers cs as)
  | _, _ => return []

/-- The answers to the queries that could be put, and why the others could not. -/
def answersTo : List (Except Failure String) → List Answer → List Answer
  | .error f :: queries, as => .error f :: answersTo queries as
  | .ok _ :: queries, a :: as => a :: answersTo queries as
  | _, _ => []

/-- Asks for the samples of all counters at once. -/
def inquireAtOnce (cs : List (Counter Int Float)) : Inquiry (List (Counter Int Float)) :=
  let queries := cs.map fun c => samplesQuery c.id
  .askAll (queries.filterMap Except.toOption) fun as =>
    .ofExcept (withAnswers cs (answersTo queries as))

/-- Asks for the counters and their samples, those of several counters at once if there is more than
one worker. -/
def inquireAll (descriptor : Option Descriptor) (workers : Int) :
    Inquiry (List (Counter Int Float)) := do
  let tracks ← Inquiry.ofExcept (tracksOf descriptor (← Inquiry.query tracksSql))
  let tracks := sortById tracks
  let counters ← if 1 < workers ∧ 1 < tracks.length then inquireAtOnce tracks
    else inquireInTurn tracks
  Inquiry.report [.countersRead counters.length]
  return counters

end Counter
end RenderTrace
