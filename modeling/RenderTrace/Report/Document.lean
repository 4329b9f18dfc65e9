import RenderTrace.Json.Writer
import RenderTrace.Profile.Assembly

/-!
# A profile as a document

`Profile.toJson` gives a profile as a document with every part, missing parts as null; the metric
values of a group are an object whose names are the metric ids. `Profile.document` is its text, with
integers of any length; `Profile.format` fails for an integer that is too long.
-/

namespace RenderTrace

def Json.quantity {V : Type} [Numeric V] (x : V) : Json := .number (toNumber x)

def Json.texts (ss : List String) : Json := .array (ss.map .text)

def Json.optional {α : Type} (f : α → Json) (x : Option α) : Json := (x.map f).getD .null

section Slices
variable {τ : Type} [Numeric τ]

def Slice.toJson (s : Slice τ) : Json := .object [
  ("id", .quantity s.id), ("ts", .quantity s.start), ("dur", .quantity s.duration),
  ("name", .text s.name), ("depth", .quantity s.depth), ("track_id", .quantity s.trackId),
  ("command_buffer", .number s.commandBuffer), ("render_target", .number s.renderTarget),
  ("render_pass", .number s.renderPass), ("submission_id", .quantity s.submissionId),
  ("hw_queue_id", .quantity s.hwQueueId), ("group_id", .quantity s.groupId)]

def Track.toJson (t : Track τ) : Json := .object [("id", .quantity t.id), ("name", .text t.name)]

def Group.toJson (g : Group τ) : Json := .object [
  ("id", .quantity g.id), ("name", .text g.name),
  ("from", .number g.range.start), ("to", .number g.range.stop)]

def SliceTable.toJson (t : SliceTable τ) : Json := .object [
  ("slices", .array (t.slices.map Slice.toJson)), ("tracks", .array (t.tracks.map Track.toJson)),
  ("groups", .array (t.groups.list.map Group.toJson))]

end Slices

def CounterSpec.toJson (s : CounterSpec) : Json := .object [
  ("counter_id", .number s.counterId), ("name", .text s.name), ("description", .text s.description),
  ("numerator_units", .texts s.numeratorUnits), ("denominator_units", .texts s.denominatorUnits),
  ("select_by_default", .bool s.selectByDefault)]

section Values
variable {τ V : Type} [Numeric τ] [Numeric V]

def Counter.toJson (c : Counter τ V) : Json := .object [
  ("id", .quantity c.id), ("name", .text c.name), ("unit", .text c.unit),
  ("description", .text c.description), ("spec", .optional CounterSpec.toJson c.spec),
  ("timestamps", .array (c.timestamps.map .quantity)), ("values", .array (c.values.map .quantity))]

def Metric.toJson (m : Metric τ) : Json := .object [
  ("id", .quantity m.id), ("name", .text m.name), ("unit", .text m.unit),
  ("counter_id", .optional .quantity m.counterId)]

/-- A number as the name of a member. -/
def Json.nameOf (n : Number) : String := String.ofList (Json.writeNumber n)

def MetricEntry.toJson (e : MetricEntry τ V) : Json := .object [
  ("group_id", .quantity e.groupId),
  ("metric_to_value", .object (e.values.map fun (id, x) =>
    (Json.nameOf (toNumber id), .quantity x)))]

def MetricTable.toJson (m : MetricTable τ V) : Json := .object [
  ("metrics", .array (m.metrics.map Metric.toJson)),
  ("entries", .array (m.entries.map MetricEntry.toJson))]

end Values

namespace Profile

variable {τ V : Type} [Numeric τ] [Numeric V]

def toJson (p : Profile τ V) : Json := .object [
  ("slices", .optional SliceTable.toJson p.slices),
  ("counters", .optional (fun cs => .array (cs.map Counter.toJson)) p.counters),
  ("gpu_counters", .optional MetricTable.toJson p.metrics)]

def document (p : Profile τ V) : String := p.toJson.write

def numbers (p : Profile τ V) : List Number :=
  p.toJson.numbers ++ (p.metrics.elim [] fun m =>
    m.entries.flatMap fun e => e.values.map fun (id, _) => toNumber id)

/-- The document as text, in which no integer may have more than `most` digits. -/
def formatWithin (most : Nat) (p : Profile τ V) : Except Number.NumberError String :=
  if ∀ n ∈ p.numbers, n.digitCount ≤ most then .ok p.document else .error .tooLongToWrite

/-- The document as it is printed. -/
def format (p : Profile τ V) : Except Number.NumberError String :=
  p.formatWithin Number.maxIntegerDigits

end Profile
end RenderTrace
