/-!
# Exceptions

An exception is known by its class and its wording, and a class by its own name and the names of the
classes it inherits from. A handler that names some classes catches the exceptions of these classes
and of all that inherit from one of them (`ExceptionClass.isOneOf`).
-/

namespace RenderTrace

/-- The name of a class within the module that defines it. -/
structure ClassName where
  home : String
  name : String
  deriving DecidableEq, Repr

structure ExceptionClass where
  own : ClassName
  /-- The classes it inherits from, the nearest first. -/
  inherited : List ClassName
  deriving DecidableEq, Repr

namespace ExceptionClass

def name (c : ExceptionClass) : String := c.own.name

def lineage (c : ExceptionClass) : List ClassName := c.own :: c.inherited

/-- The class is the other or inherits from it. -/
def IsA (c other : ExceptionClass) : Prop := other.own ∈ c.lineage

instance (c other : ExceptionClass) : Decidable (c.IsA other) :=
  inferInstanceAs (Decidable (other.own ∈ c.lineage))

/-- A handler of some classes catches the class. -/
def isOneOf (c : ExceptionClass) (handled : List ExceptionClass) : Bool :=
  handled.any fun h => c.IsA h

/-- A class that inherits from another. -/
def derive (base : ExceptionClass) (home name : String) : ExceptionClass :=
  ⟨⟨home, name⟩, base.lineage⟩

/-! ## Classes -/

def exception : ExceptionClass :=
  ⟨⟨"builtins", "Exception"⟩, [⟨"builtins", "BaseException"⟩, ⟨"builtins", "object"⟩]⟩

/-- What the trace engine raises. -/
def traceProcessor : ExceptionClass :=
  exception.derive "perfetto.common.exceptions" "PerfettoException"

/-- What the connection to the engine raises. -/
def http : ExceptionClass := exception.derive "http.client" "HTTPException"

/-- What the operating system is at fault for. -/
def os : ExceptionClass := exception.derive "builtins" "OSError"

def connection : ExceptionClass := os.derive "builtins" "ConnectionError"

/-- The classes that have a class of their own below them, and the names of these. -/
def families : List (ExceptionClass × List String) := [
  (os, ["BlockingIOError", "ChildProcessError", "ConnectionError", "FileExistsError",
    "FileNotFoundError", "InterruptedError", "IsADirectoryError", "NotADirectoryError",
    "PermissionError", "ProcessLookupError", "TimeoutError"]),
  (connection, ["BrokenPipeError", "ConnectionAbortedError", "ConnectionRefusedError",
    "ConnectionResetError"]),
  (http, ["BadStatusLine", "ImproperConnectionState", "IncompleteRead", "InvalidURL", "LineTooLong",
    "NotConnected", "UnimplementedFileMode", "UnknownProtocol", "UnknownTransferEncoding"]),
  (http.derive "http.client" "ImproperConnectionState",
    ["CannotSendHeader", "CannotSendRequest", "ResponseNotReady"])]

/-- The class that goes by a name. Of any other name no more is known than that it is an exception. -/
def ofName (name : String) : ExceptionClass :=
  if name = "TraceProcessorException" ∨ name = "PerfettoException" then traceProcessor
  else if name = "HTTPException" then http
  else if name = "OSError" ∨ name = "IOError" ∨ name = "EnvironmentError" then os
  else match families.find? fun family => family.2.contains name with
    | some (base, _) => base.derive base.own.home name
    | none => exception.derive "builtins" name

end ExceptionClass
end RenderTrace
