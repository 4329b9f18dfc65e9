import RenderTrace.Files.Path
import RenderTrace.Input.Handle
import RenderTrace.Input.Schema

/-!
# Kinds of input

There are three kinds of input files, each with a check of its shape: the counters of a device, the
handles of a replay, and the command ranges of render passes. `InputKind.detect?` tells the kind from
the name of a file.
-/

namespace RenderTrace
open Schema

inductive InputKind where
  | descriptor
  | handleMapping
  | renderPasses
  deriving DecidableEq, Repr

namespace InputKind

def all : List InputKind := [descriptor, handleMapping, renderPasses]

def name : InputKind → String
  | descriptor => "descriptor"
  | handleMapping => "handle-mapping"
  | renderPasses => "render-passes"

def ofName? (s : String) : Option InputKind := all.find? (·.name = s)

def unknownMessage (s : String) : String :=
  "Unknown input kind: " ++ s ++ ". Valid kinds: " ++ ", ".intercalate (all.map name)

/-! ## Telling the kind from a name -/

/-- Words in a file's name that tell its kind, in order of precedence. -/
def nameWords : List (InputKind × List String) := [
  (descriptor, ["descriptor", "counters"]),
  (handleMapping, ["mapping", "handles"]),
  (renderPasses, ["render_pass", "renderpass", "render-pass"])]

def occursIn (word : List Char) : List Char → Bool
  | [] => word.isEmpty
  | c :: cs => word.isPrefixOf (c :: cs) || occursIn word cs

/-- The kind that the last name of a path tells, in either case. -/
def detect? (p : Path) : Option InputKind :=
  let name := p.name.toList.map Char.toLower
  (nameWords.find? fun (_, words) => words.any fun w => occursIn w.toList name).map (·.1)

/-! ## Shapes -/

def descriptorShape : Check :=
  record ["specs"] [("specs", listOf (record ["counter_id", "name"] [
    ("counter_id", unsigned),
    ("name", allOf [isType .string, nonEmptyText]),
    ("description", isType .string),
    ("numerator_units", listOf (isType .string)),
    ("denominator_units", listOf (isType .string)),
    ("select_by_default", isType .boolean)]))]

def handleMappingShape : Check :=
  allOf [isType .object, memberNames Handle.isHandle,
    everyMember (allOf [isType .array, nonEmptyArray,
      items (record ["handle_type", "trace_value"] [
        ("handle_type", isType .string), ("trace_value", unsigned)])])]

/-- The members of one entry of a render-pass table. -/
def renderPassFields : List String :=
  ["submission_order", "command_buffer", "render_pass", "render_target", "from", "to"]

def renderPassesShape : Check :=
  record ["render_passes"] [("render_passes",
    listOf (record renderPassFields (renderPassFields.map fun n => (n, unsigned))))]

def shape : InputKind → Check
  | descriptor => descriptorShape
  | handleMapping => handleMappingShape
  | renderPasses => renderPassesShape

/-- How many violations of a file's shape are reported. -/
def defaultMost : Int := 10

def violations (k : InputKind) (v : Json) (most : Int) : List Violation := capped most (k.shape v)

end InputKind
end RenderTrace
