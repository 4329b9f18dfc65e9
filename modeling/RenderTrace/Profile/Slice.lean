import RenderTrace.Profile.HandleMap
import RenderTrace.Profile.RenderPass
import RenderTrace.Profile.Time
import RenderTrace.Query.Inquiry

/-!
# Slices

A `Slice` is one span of work on a queue of the device; a `SliceTable` holds the slices of a trace
in query order, the tracks they lie on and the groups they are put in. Ids and times are of a type
`τ`: integers for what a trace holds, any numbers for what a caller hands in.

`Groups.ensure` gives the group of a render pass instance, `SliceTable.mapHandles` replaces replay
handles by trace handles, and `SliceTable.inquire` reads the table from a trace.
-/

namespace RenderTrace
open RenderPass

/-- The id that marks a slice without a group. -/
def noGroup {τ : Type} [OfInteger τ] : τ := ofInteger (-1)

/-- One span of work, from `start` for `duration`. -/
structure Slice (τ : Type) where
  id : τ
  start : τ
  duration : τ
  name : String
  depth : τ
  trackId : τ
  commandBuffer : Number
  renderTarget : Number
  renderPass : Number
  submissionId : τ
  hwQueueId : τ
  groupId : τ

/-- The time at which a slice ends. -/
def Slice.stop {τ : Type} [Time τ] (s : Slice τ) : Except Failure τ := Time.add s.start s.duration

structure Track (τ : Type) where
  id : τ
  name : String
  deriving DecidableEq, Repr

/-- The slices of one render pass instance. -/
structure Group (τ : Type) where
  id : τ
  name : String
  range : Range

/-! ## Groups -/

/-- Groups in order of their ids, and the ids by key. -/
structure Groups (τ : Type) where
  list : List (Group τ)
  ids : List (Key × τ)

namespace Groups

variable {τ : Type}

def empty : Groups τ := ⟨[], []⟩

def idOf? (g : Groups τ) (key : Key) : Option τ :=
  (g.ids.find? fun (k, _) => k == key).map (·.2)

/-- The id of the group of a key, which is added at the end if there is none; its id is then the
number of groups before it. -/
def ensure [OfInteger τ] (g : Groups τ) (key : Key) (name : String) (range : Range) :
    τ × Groups τ :=
  match g.idOf? key with
  | some id => (id, g)
  | none =>
    let id := ofInteger g.list.length
    (id, ⟨g.list ++ [⟨id, name, range⟩], g.ids ++ [(key, id)]⟩)

end Groups

/-! ## Tables -/

/-- The slices of a trace with their tracks and groups. -/
structure SliceTable (τ : Type) where
  slices : List (Slice τ)
  tracks : List (Track τ)
  groups : Groups τ

def Slice.mapHandles {τ : Type} (m : HandleMap) (s : Slice τ) : Slice τ :=
  { s with
    commandBuffer := m.apply s.commandBuffer
    renderTarget := m.apply s.renderTarget
    renderPass := m.apply s.renderPass }

def Slice.mapWarnings {τ : Type} (m : HandleMap) (s : Slice τ) : List Event :=
  m.warnings s.commandBuffer ++ m.warnings s.renderTarget ++ m.warnings s.renderPass

/-- Replaces the handles of a slice one after the other, as long as what is worth telling about each
can be told. -/
def Slice.mapWhileTold {τ : Type} (m : HandleMap) (s : Slice τ) : Slice τ :=
  if !Event.canTell (m.warnings s.commandBuffer) then s
  else if !Event.canTell (m.warnings s.renderTarget) then
    { s with commandBuffer := m.apply s.commandBuffer }
  else if !Event.canTell (m.warnings s.renderPass) then
    { s with commandBuffer := m.apply s.commandBuffer, renderTarget := m.apply s.renderTarget }
  else s.mapHandles m

namespace SliceTable

variable {τ : Type}

def empty : SliceTable τ := ⟨[], [], .empty⟩

def mapHandles (m : HandleMap) (t : SliceTable τ) : SliceTable τ :=
  { t with slices := t.slices.map (Slice.mapHandles m) }

def mapWarnings (m : HandleMap) (t : SliceTable τ) : List Event :=
  t.slices.flatMap (Slice.mapWarnings m)

/-- Replaces the handles of slices up to the first about which something cannot be told. -/
def mapSlicesWhileTold (m : HandleMap) : List (Slice τ) → List (Slice τ)
  | [] => []
  | s :: rest =>
    s.mapWhileTold m ::
      if Event.canTell (s.mapWarnings m) then mapSlicesWhileTold m rest else rest

/-- Replaces the handles in a table up to the first slice about which something cannot be told. -/
def mapWhileTold (m : HandleMap) (t : SliceTable τ) : SliceTable τ :=
  { t with slices := mapSlicesWhileTold m t.slices }

/-! ## Reading a trace -/

def slicesSql : String :=
  "SELECT s.id, s.ts, s.dur, s.name, s.depth, s.track_id, "
    ++ "s.command_buffer, s.render_target, s.render_pass, "
    ++ "s.submission_id, s.hw_queue_id "
    ++ "FROM gpu_slice s JOIN gpu_track t ON s.track_id = t.id "
    ++ "WHERE t.scope = 'gpu_render_stage' "
    ++ "ORDER BY s.ts"

def tracksSql : String :=
  "SELECT id, name FROM gpu_track WHERE scope = 'gpu_render_stage' ORDER BY id"

/-- The slices of the rows of the slice query, none of them in a group. -/
def slicesOf (answer : ResultSet) : Except Failure (List (Slice Int)) := do
  let ids ← answer.integers 0
  let starts ← answer.integers 1
  let durations ← answer.integers 2
  let names ← answer.texts 3
  let depths ← answer.integers 4
  let trackIds ← answer.integers 5
  let commandBuffers ← answer.integers 6
  let renderTargets ← answer.integers 7
  let renderPasses ← answer.integers 8
  let submissionIds ← answer.integers 9
  let hwQueueIds ← answer.integers 10
  return (List.range answer.size).map fun i => {
    id := ids.getD i 0
    start := starts.getD i 0
    duration := durations.getD i 0
    name := names.getD i ""
    depth := depths.getD i 0
    trackId := trackIds.getD i 0
    commandBuffer := .whole (commandBuffers.getD i 0)
    renderTarget := .whole (renderTargets.getD i 0)
    renderPass := .whole (renderPasses.getD i 0)
    submissionId := submissionIds.getD i 0
    hwQueueId := hwQueueIds.getD i 0
    groupId := noGroup }

def tracksOf (answer : ResultSet) : Except Failure (List (Track Int)) := do
  let ids ← answer.integers 0
  let names ← answer.texts 1
  return (ids.zip names).map fun (id, name) => ⟨id, name⟩

/-- Asks for the slices and the tracks they lie on. -/
def inquire : Inquiry (SliceTable Int) := do
  let slices ← Inquiry.ofExcept (slicesOf (← Inquiry.query slicesSql))
  let tracks ← Inquiry.ofExcept (tracksOf (← Inquiry.query tracksSql))
  Inquiry.report [.slicesRead slices.length tracks.length]
  return ⟨slices, tracks, .empty⟩

end SliceTable
end RenderTrace
