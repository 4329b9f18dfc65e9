import RenderTrace.Number.Basic
import RenderTrace.Query.Failure

/-!
# Render passes

A `Key` identifies one instance of a render pass, a `Range` the half-open range of commands it
covers. A `RenderPassTable` gives the range of a key; keys are equal when their numbers are. Ranges
that end before they start are refused.
-/

namespace RenderTrace.RenderPass

/-- Identifies one instance of a render pass. -/
structure Key where
  /-- The place of the submission among the valid ones, none when it is not one of them. -/
  order : Option Number
  commandBuffer : Number
  renderPass : Number
  renderTarget : Number

/-- Keys are equal when their numbers are. -/
instance : BEq Key := ⟨fun a b =>
  a.order == b.order && a.commandBuffer == b.commandBuffer && a.renderPass == b.renderPass
    && a.renderTarget == b.renderTarget⟩

def Key.text (k : Key) : String :=
  "RenderPassKey(submission_order=" ++ (k.order.elim "None" Number.text)
    ++ ", command_buffer=" ++ k.commandBuffer.text
    ++ ", render_pass=" ++ k.renderPass.text
    ++ ", render_target=" ++ k.renderTarget.text ++ ")"

/-- The commands from `start` up to but not including `stop`. -/
structure Range where
  start : Number
  stop : Number

def Range.text (r : Range) : String := r.start.text ++ "-" ++ r.stop.text

end RenderPass

open RenderPass

/-- What gives the range of a key. -/
abbrev RenderPassLookup := Key → Option Range

/-- What gives the range of a key, or fails to. -/
abbrev RenderPassSource := Key → Except Failure (Option Range)

/-- The ranges that a source does give. -/
def RenderPassSource.ranges (source : RenderPassSource) : RenderPassLookup := fun key =>
  (source key).toOption.join

/-- The source that a look-up amounts to; it never fails. -/
def RenderPassLookup.source (lookup : RenderPassLookup) : RenderPassSource := fun key =>
  .ok (lookup key)

/-- The ranges of some keys, no two of them equal. -/
structure RenderPassTable where
  entries : List (Key × Range)

namespace RenderPassTable

/-- A range that ends before it starts. -/
structure Inverted where
  key : Key
  range : Range

def Inverted.message (e : Inverted) : String :=
  "Invalid index range " ++ e.range.text ++ " for " ++ e.key.text

def empty : RenderPassTable := ⟨[]⟩

/-- Sets the range of a key: in place of the range of an equal key, at the end otherwise. -/
def put (key : Key) (range : Range) : List (Key × Range) → List (Key × Range)
  | [] => [(key, range)]
  | (k, r) :: rest => if k == key then (k, range) :: rest else (k, r) :: put key range rest

/-- Sets the range of a key, unless it ends before it starts. -/
def add (t : RenderPassTable) (key : Key) (range : Range) : Except Inverted RenderPassTable :=
  if range.stop < range.start then .error ⟨key, range⟩ else .ok ⟨put key range t.entries⟩

/-- Adds entries one after the other, up to the first that is refused. -/
def addAll (t : RenderPassTable) (entries : List (Key × Range)) : Except Inverted RenderPassTable :=
  entries.foldlM (fun t (key, range) => t.add key range) t

def lookup (t : RenderPassTable) : RenderPassLookup := fun key =>
  (t.entries.find? fun (k, _) => k == key).map (·.2)

end RenderPassTable
end RenderTrace
