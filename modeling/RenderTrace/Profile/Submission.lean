import RenderTrace.Query.Inquiry

/-!
# Submissions

Queue submissions are known by an external id of a type `τ`. `SubmissionOrder.resolve` gives each id
its place among the valid submissions, those with a command buffer; the others are reported and take
no place.
-/

namespace RenderTrace

/-- The place of each valid submission. -/
structure SubmissionOrder (τ : Type) where
  entries : List (τ × Number)

namespace SubmissionOrder

variable {τ : Type}

structure Submission (τ : Type) where
  id : τ
  commandBuffer : Number

/-- The query for the submissions, in ascending id. -/
def sql : String :=
  "SELECT submission_id, command_buffer FROM gpu_slice s "
    ++ "JOIN track t ON s.track_id = t.id "
    ++ "WHERE s.name = 'vkQueueSubmit' AND t.name = 'Vulkan Events' "
    ++ "ORDER BY submission_id"

def put [BEq τ] (id : τ) (place : Number) : List (τ × Number) → List (τ × Number)
  | [] => [(id, place)]
  | (i, p) :: rest => if i == id then (i, place) :: rest else (i, p) :: put id place rest

def empty : SubmissionOrder τ := ⟨[]⟩

def get? [BEq τ] (o : SubmissionOrder τ) (id : τ) : Option Number := o.entries.lookup id

/-- A submission without a command buffer. -/
def Submission.isSpurious (s : Submission τ) : Bool := s.commandBuffer == 0

/-- Gives every valid submission the next place; an id that comes again takes its later place. -/
def assign [BEq τ] : Nat → List (τ × Number) → List (Submission τ) → List (τ × Number)
  | _, entries, [] => entries
  | place, entries, s :: rest =>
    if s.isSpurious then assign place entries rest
    else assign (place + 1) (put s.id (.whole place) entries) rest

def resolve [BEq τ] (rows : List (Submission τ)) : SubmissionOrder τ := ⟨assign 0 [] rows⟩

def warnings [Numeric τ] (rows : List (Submission τ)) : List Event :=
  (rows.filter Submission.isSpurious).map fun s => .spuriousSubmission (toNumber s.id)

/-- Asks for the submissions and gives them their places. -/
def inquire : Inquiry (SubmissionOrder Int) := do
  let answer ← Inquiry.query sql
  let ids ← Inquiry.ofExcept (answer.integers 0)
  let buffers ← Inquiry.ofExcept (answer.integers 1)
  let rows : List (Submission Int) := (ids.zip buffers).map fun (id, b) => ⟨id, .whole b⟩
  Inquiry.report (warnings rows)
  return resolve rows

end SubmissionOrder
end RenderTrace
