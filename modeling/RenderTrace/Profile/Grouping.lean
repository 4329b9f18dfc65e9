import RenderTrace.Profile.Slice
import RenderTrace.Profile.Submission

/-!
# Grouping

One pass over the slices in query order puts each into the group of a render pass instance. Only a
slice with the name of a stage can be found by its key; one that is opens the group of its key, if
it is new, and is renamed after the range of commands it covers. Every other slice goes into the
group that the last such slice is in.
-/

namespace RenderTrace
open RenderPass

variable {τ : Type}

/-- The names of the slices that can be found by their key. -/
def stageNames : List String := ["vertex", "fragment"]

def Slice.key [BEq τ] (order : SubmissionOrder τ) (s : Slice τ) : Key :=
  { order := order.get? s.submissionId
    commandBuffer := s.commandBuffer
    renderPass := s.renderPass
    renderTarget := s.renderTarget }

/-- The range of commands of a slice that opens a group. -/
def Slice.boundary? [BEq τ] (order : SubmissionOrder τ) (lookup : RenderPassLookup) (s : Slice τ) :
    Option Range :=
  if stageNames.contains s.name then lookup (s.key order) else none

def Slice.groupName (s : Slice τ) : String :=
  "RenderPass " ++ s.renderPass.text ++ ", RenderTarget " ++ s.renderTarget.text

/-- A slice renamed after the range of commands it covers. -/
def Slice.rename (range : Range) (s : Slice τ) : Slice τ :=
  { s with name := range.text ++ " " ++ s.name }

/-- The warning about a slice whose submission has no place. -/
def Slice.submissionWarnings [BEq τ] [Numeric τ] (order : SubmissionOrder τ) (s : Slice τ) :
    List Event :=
  if (order.get? s.submissionId).isNone then [.unknownSubmission (toNumber s.submissionId)] else []

def Slice.groupWarnings [BEq τ] [OfInteger τ] [Numeric τ] (s : Slice τ) : List Event :=
  if s.groupId == noGroup then
    [.ungrouped s.name (toNumber s.submissionId) s.commandBuffer s.renderPass s.renderTarget]
  else []

def Slice.warnings [BEq τ] [OfInteger τ] [Numeric τ] (order : SubmissionOrder τ) (s : Slice τ) :
    List Event :=
  s.submissionWarnings order ++ s.groupWarnings

namespace Grouping

/-- The groups so far and the group that the last opening slice is in. -/
structure State (τ : Type) where
  groups : Groups τ
  current : τ

/-- Puts one slice into a group. -/
def step [BEq τ] [OfInteger τ] (order : SubmissionOrder τ) (lookup : RenderPassLookup)
    (st : State τ) (s : Slice τ) : Slice τ × State τ :=
  match s.boundary? order lookup with
  | some range =>
    let (id, groups) := st.groups.ensure (s.key order) s.groupName range
    ({ s.rename range with groupId := id }, ⟨groups, id⟩)
  | none => ({ s with groupId := st.current }, st)

def pass [BEq τ] [OfInteger τ] (order : SubmissionOrder τ) (lookup : RenderPassLookup) :
    State τ → List (Slice τ) → List (Slice τ) × State τ
  | st, [] => ([], st)
  | st, s :: rest =>
    let (s, st) := step order lookup st s
    let (rest, st) := pass order lookup st rest
    (s :: rest, st)

/-- Puts slices into groups, in order, up to the first about which something cannot be told. -/
def passWhileTold [BEq τ] [OfInteger τ] [Numeric τ] (order : SubmissionOrder τ)
    (lookup : RenderPassLookup) : State τ → List (Slice τ) → List (Slice τ) × State τ
  | st, [] => ([], st)
  | st, s :: rest =>
    let (grouped, next) := step order lookup st s
    if Event.canTell (grouped.warnings order) then
      let (rest, st) := passWhileTold order lookup next rest
      (grouped :: rest, st)
    else (s :: rest, st)

/-- The slices before the first whose key the source fails for, and that slice with its failure. -/
def lookedUp [BEq τ] (order : SubmissionOrder τ) (source : RenderPassSource) :
    List (Slice τ) → List (Slice τ) × Option (Slice τ × Failure)
  | [] => ([], none)
  | s :: rest =>
    match source (s.key order) with
    | .error f => ([], some (s, f))
    | .ok _ =>
      let (found, fault) := lookedUp order source rest
      (s :: found, fault)

end Grouping

namespace SliceTable

variable [BEq τ] [OfInteger τ]

/-- Puts every slice into a group. -/
def group (order : SubmissionOrder τ) (lookup : RenderPassLookup) (t : SliceTable τ) :
    SliceTable τ :=
  let (slices, st) := Grouping.pass order lookup ⟨t.groups, noGroup⟩ t.slices
  { t with slices, groups := st.groups }

/-- What is worth telling about a table whose slices have been put into groups. -/
def groupEvents [Numeric τ] (order : SubmissionOrder τ) (t : SliceTable τ) : List Event :=
  t.slices.flatMap (Slice.warnings order) ++ [.grouped t.slices.length t.groups.list.length]

/-- Puts every slice into a group and reports on it. The key of every slice is looked up, so this
fails at the first for which the source does, with what is worth telling about that slice before. -/
def inquireGroups [Numeric τ] (order : SubmissionOrder τ) (source : RenderPassSource)
    (t : SliceTable τ) : Inquiry (SliceTable τ) := do
  let (slices, fault) := Grouping.lookedUp order source t.slices
  let grouped := group order source.ranges { t with slices }
  match fault with
  | none => do
    Inquiry.report (grouped.groupEvents order)
    return grouped
  | some (s, f) => do
    Inquiry.report (grouped.slices.flatMap (Slice.warnings order) ++ s.submissionWarnings order)
    Inquiry.ofExcept (.error f)

/-- Puts slices into groups, up to the first about which something cannot be told. -/
def groupWhileTold [Numeric τ] (order : SubmissionOrder τ) (lookup : RenderPassLookup)
    (t : SliceTable τ) : SliceTable τ :=
  let (slices, st) := Grouping.passWhileTold order lookup ⟨t.groups, noGroup⟩ t.slices
  { t with slices, groups := st.groups }

end SliceTable
end RenderTrace
