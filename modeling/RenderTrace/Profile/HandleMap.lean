import RenderTrace.Event

/-!
# Handle maps

A replay uses handles of its own; a `HandleMap` gives the handles they stand for in the trace. The
null handle stands for itself, and so does a handle without an entry; of several trace handles the
first is used.
-/

namespace RenderTrace

structure TraceHandle where
  /-- The kind of object. -/
  type : String
  value : Number

/-- The trace handles of replay handles, no two of them equal. -/
structure HandleMap where
  entries : List (Number × List TraceHandle)

namespace HandleMap

/-- Sets the entry of a handle: in place of that of an equal handle, at the end otherwise. -/
def put (handle : Number) (targets : List TraceHandle) :
    List (Number × List TraceHandle) → List (Number × List TraceHandle)
  | [] => [(handle, targets)]
  | (h, ts) :: rest =>
    if h == handle then (h, targets) :: rest else (h, ts) :: put handle targets rest

/-- The map that setting some entries one after the other leaves. -/
def ofList (entries : List (Number × List TraceHandle)) : HandleMap :=
  ⟨entries.foldl (fun acc (h, ts) => put h ts acc) []⟩

def targets (m : HandleMap) (handle : Number) : List TraceHandle :=
  ((m.entries.find? fun (h, _) => h == handle).map (·.2)).getD []

/-- The handle to use in place of `handle`. -/
def apply (m : HandleMap) (handle : Number) : Number :=
  if handle == 0 then handle
  else match m.targets handle with
    | [] => handle
    | t :: _ => t.value

def warnings (m : HandleMap) (handle : Number) : List Event :=
  if handle == 0 then []
  else match m.targets handle with
    | [] => [.unmappedHandle handle]
    | [_] => []
    | ts => [.ambiguousHandle handle ts.length]

end HandleMap
end RenderTrace
