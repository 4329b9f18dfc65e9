import RenderTrace.Files.TextFile
import RenderTrace.Input.Kind
import RenderTrace.Json.Reader
import RenderTrace.Profile.Counter
import RenderTrace.Profile.HandleMap
import RenderTrace.Profile.RenderPass

/-!
# Loading input files

An input file is read as a document, checked against the shape of its kind, and turned into what a
profile is made with. What is wrong with its content is a list of `InputFault`s.
-/

namespace RenderTrace

/-- Something wrong with the content of an input file. -/
inductive InputFault where
  | malformed (fault : Json.Fault) (line : Nat)
  | shape (violation : Schema.Violation)
  | inverted (error : RenderPassTable.Inverted)

def InputFault.message : InputFault → String
  | malformed f line => "Line " ++ toString line ++ ": JSON decode error - " ++ f.message
  | shape v => v.message
  | inverted e => e.message

inductive LoadError where
  | invalid (path : Path) (faults : List InputFault)
  | unreadable (error : TextFileError)
  | excess (excess : Json.Excess)

def invalidMessage (p : Path) (faults : List String) : String :=
  "Invalid input file " ++ p.text ++ ":\n" ++ "\n".intercalate faults

def LoadError.message : LoadError → String
  | invalid p faults => invalidMessage p (faults.map InputFault.message)
  | unreadable e => e.message
  | excess e => e.message

namespace Input

variable [Zstd.Codec]

/-- The document in a file, of the shape of a kind. -/
def document (t : FileTree) (p : Path) (k : InputKind) : Except LoadError Json := do
  let text ← (TextFile.read t p).mapError .unreadable
  let v ← (Json.read text).mapError fun
    | .malformed f place => .invalid p [.malformed f place.line]
    | .excess e => .excess e
  match k.violations v InputKind.defaultMost with
  | [] => return v
  | vs => .error (.invalid p (vs.map .shape))

/-! ## Members of a document of known shape -/

/-- The number of a member, zero without one. -/
def number (name : String) (v : Json) : Number :=
  match v.field? name with
  | some (.number n) => n
  | _ => 0

/-- The text of a member, empty without one. -/
def text (name : String) (v : Json) : String :=
  match v.field? name with
  | some (.text s) => s
  | _ => ""

/-- The texts in a member, none without one. -/
def texts (name : String) (v : Json) : List String :=
  ((v.field? name).map Json.items).getD [] |>.filterMap fun
    | .text s => some s
    | _ => none

/-- The truth value of a member, false without one. -/
def flag (name : String) (v : Json) : Bool :=
  match v.field? name with
  | some (.bool b) => b
  | _ => false

def list (name : String) (v : Json) : List Json := ((v.field? name).map Json.items).getD []

/-! ## The three kinds -/

def specOf (v : Json) : CounterSpec where
  counterId := number "counter_id" v
  name := text "name" v
  description := text "description" v
  numeratorUnits := texts "numerator_units" v
  denominatorUnits := texts "denominator_units" v
  selectByDefault := flag "select_by_default" v

def descriptorOf (v : Json) : Descriptor := ⟨(list "specs" v).map specOf⟩

def descriptor (t : FileTree) (p : Path) : Except LoadError Descriptor :=
  (document t p .descriptor).map descriptorOf

def traceHandleOf (v : Json) : TraceHandle := ⟨text "handle_type" v, number "trace_value" v⟩

/-- One replay handle with its trace handles. -/
def mappingEntryOf (m : String × Json) : Except LoadError (Number × List TraceHandle) := do
  let n ← (Handle.read m.1).mapError fun e => .excess (.integer e)
  return (.whole n, m.2.items.map traceHandleOf)

/-- The handles of a replay, in the order they stand in. -/
def handleMapOf : Json → Except LoadError HandleMap
  | .object ms => (ms.mapM mappingEntryOf).map .ofList
  | _ => .ok ⟨[]⟩

def handleMap (t : FileTree) (p : Path) : Except LoadError HandleMap := do
  handleMapOf (← document t p .handleMapping)

def renderPassOf (v : Json) : RenderPass.Key × RenderPass.Range :=
  (⟨some (number "submission_order" v), number "command_buffer" v, number "render_pass" v,
      number "render_target" v⟩,
    ⟨number "from" v, number "to" v⟩)

def renderPassesOf (v : Json) : Except RenderPassTable.Inverted RenderPassTable :=
  RenderPassTable.empty.addAll ((list "render_passes" v).map renderPassOf)

def renderPasses (t : FileTree) (p : Path) : Except LoadError RenderPassTable := do
  let v ← document t p .renderPasses
  (renderPassesOf v).mapError fun e => .invalid p [.inverted e]

/-- Loads a file of some kind, for the sake of what is wrong with it. -/
def load (t : FileTree) (p : Path) : InputKind → Except LoadError Unit
  | .descriptor => (descriptor t p).map fun _ => ()
  | .handleMapping => (handleMap t p).map fun _ => ()
  | .renderPasses => (renderPasses t p).map fun _ => ()

end Input
end RenderTrace
