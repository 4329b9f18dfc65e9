import RenderTrace.Query.Failure

/-!
# Events

What a run reports beside its result. Each event has a level, the part of the program that it comes
from, a wording and, for a failed step, the failure behind it. An event about a number that has no
integer part cannot be told; `Event.told` stops at the first such event.
-/

namespace RenderTrace

inductive Level where
  | debug
  | info
  | warning
  | error
  deriving DecidableEq, Repr

/-- The part of the program that an event comes from. -/
inductive Topic where
  | submissions
  | slices
  | grouping
  | counters
  | assembly
  | store
  deriving DecidableEq, Repr

def Level.name : Level → String
  | debug => "DEBUG"
  | info => "INFO"
  | warning => "WARNING"
  | error => "ERROR"

def Level.weight : Level → Nat
  | debug => 0
  | info => 1
  | warning => 2
  | error => 3

def Topic.name : Topic → String
  | submissions => "submissions"
  | slices => "slices"
  | grouping => "grouping"
  | counters => "counters"
  | assembly => "assembly"
  | store => "store"

/-- Something worth telling about a run. -/
inductive Event where
  | spuriousSubmission (id : Number)
  | unknownSubmission (id : Number)
  | ungrouped (name : String) (submission commandBuffer renderPass renderTarget : Number)
  | grouped (slices groups : Nat)
  | unmappedHandle (handle : Number)
  | ambiguousHandle (handle : Number) (count : Nat)
  | slicesRead (slices tracks : Nat)
  | countersRead (tracks : Nat)
  | slicesFailed (cause : Failure)
  | countersFailed (cause : Failure)
  | metricsFailed (cause : Failure)
  | loadingTrace (path : String)
  | runningQuery (sql : String)

namespace Event

def level : Event → Level
  | spuriousSubmission _ | unknownSubmission _ | ungrouped .. | unmappedHandle _
  | ambiguousHandle .. => .warning
  | grouped .. | slicesRead .. | countersRead _ | loadingTrace _ => .info
  | slicesFailed _ | countersFailed _ | metricsFailed _ => .error
  | runningQuery _ => .debug

def topic : Event → Topic
  | spuriousSubmission _ => .submissions
  | unknownSubmission _ | ungrouped .. | grouped .. => .grouping
  | unmappedHandle _ | ambiguousHandle .. | slicesRead .. => .slices
  | countersRead _ => .counters
  | slicesFailed _ | countersFailed _ | metricsFailed _ => .assembly
  | loadingTrace _ | runningQuery _ => .store

def cause? : Event → Option Failure
  | slicesFailed f | countersFailed f | metricsFailed f => some f
  | _ => none

/-- The numbers that the wording shows cut down to integers, in its order. -/
def numbers : Event → List Number
  | spuriousSubmission id | unknownSubmission id => [id]
  | ungrouped _ submission cb rp rt => [submission, cb, rp, rt]
  | unmappedHandle h | ambiguousHandle h _ => [h]
  | _ => []

/-- Why the event cannot be told: it shows a number that has no integer part. -/
def refusal? (e : Event) : Option Failure :=
  e.numbers.findSome? fun n =>
    match n.toInteger with
    | .ok _ => none
    | .error f => some (.conversion f)

/-- All of some events can be told. -/
def canTell (es : List Event) : Bool := es.all fun e => e.refusal?.isNone

/-- The events up to the first that cannot be told, and why it cannot. -/
def told : List Event → List Event × Option Failure
  | [] => ([], none)
  | e :: es =>
    match e.refusal? with
    | some f => ([], some f)
    | none =>
      let (es, f) := told es
      (e :: es, f)

theorem told_eq {es : List Event} (h : canTell es = true) : told es = (es, none) := by
  induction es with
  | nil => rfl
  | cons e es ih =>
    simp only [canTell, List.all_cons, Bool.and_eq_true, Option.isNone_iff_eq_none] at h
    simp [told, h.1, ih h.2]

/-- The wording of the event; numbers of a trace are shown cut down to integers. -/
def message : Event → String
  | spuriousSubmission id => "Spurious vkQueueSubmit slice with submission id " ++ id.wholeText
  | unknownSubmission id => "Encountered submission ID mismatch " ++ id.wholeText
  | ungrouped name submission cb rp rt =>
    "Group missing for slice " ++ name ++ " at submission " ++ submission.wholeText
      ++ ", commandBuffer " ++ cb.wholeText ++ ", renderPass " ++ rp.wholeText
      ++ ", renderTarget " ++ rt.wholeText
  | grouped slices groups =>
    "Assigned " ++ toString slices ++ " slices to " ++ toString groups ++ " render-pass groups"
  | unmappedHandle h => "No mapping found for handle " ++ h.wholeText
  | ambiguousHandle h n =>
    "Handle " ++ h.wholeText ++ " has " ++ toString n ++ " mappings, using the first"
  | slicesRead slices tracks =>
    "Extracted " ++ toString slices ++ " slices on " ++ toString tracks ++ " tracks"
  | countersRead tracks => "Extracted " ++ toString tracks ++ " counter tracks"
  | slicesFailed _ => "Failed to get GPU slices"
  | countersFailed _ => "Failed to get GPU counters"
  | metricsFailed _ => "Failed to calculate performance data based on GPU slices and counters"
  | loadingTrace path => "Loading trace " ++ path
  | runningQuery sql => "Running query: " ++ sql

end Event
end RenderTrace
