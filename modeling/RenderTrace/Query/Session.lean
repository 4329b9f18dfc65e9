import RenderTrace.Event
import RenderTrace.Files.TextFile
import RenderTrace.Query.Exception
import RenderTrace.Query.Request
import RenderTrace.Query.Store

/-!
# Sessions

A `Session` puts queries to the engine that holds one trace. Each query may come with one of several
requests; a query whose request is over is refused, any other reaches the engine (`Session.calls`)
and is answered by what the engine gives. The engine serves one caller at a time, so a session asks
it with its lock held (`Session.withLock`). The clock is part of the session: `Session.wait` moves it,
and no step moves it back.
-/

namespace RenderTrace

/-- An exception that an engine raises. -/
structure EngineFault where
  kind : ExceptionClass
  message : String

/-- What an engine gives for a query: rows of cells under column names. -/
structure EngineRows where
  names : List String
  rows : List (List Cell)

/-- The rows or the fault that an engine gives. -/
abbrev EngineReply := Except EngineFault EngineRows

/-- What gives the reply to every query. -/
abbrev Engine := String → EngineReply

/-- What an engine is asked to do. -/
inductive EngineCall where
  | query (sql : String)
  | close
  deriving DecidableEq, Repr

namespace EngineRows

/-- The cell of a row under a name; of several cells under one name the last. -/
def cellNamed (names : List String) (row : List Cell) (name : String) : Except Failure Cell :=
  match (names.zip row).reverse.lookup name with
  | some c => .ok c
  | none => .error .outOfRange

/-- The rows as a result set. Cells are read by name, so columns of one name are the same. -/
def toResultSet (r : EngineRows) : Answer := do
  ResultSet.ofRows r.names (← r.rows.mapM fun row => r.names.mapM (cellNamed r.names row))

end EngineRows

/-- The exceptions of the engine, the connection to it and the system under it, which all leave a
query unanswered. -/
def EngineFault.handled : List ExceptionClass := [.traceProcessor, .http, .os]

/-- The failure that an exception of the engine is passed on as. -/
def EngineFault.failure (sql : String) (fault : EngineFault) : Failure :=
  if fault.kind.isOneOf handled then .query sql fault.message
  else .foreign fault.kind.name fault.message

/-- The answer to a query that an engine's reply amounts to. -/
def EngineReply.answer (sql : String) : EngineReply → Answer
  | .ok r => r.toResultSet
  | .error fault => .error (fault.failure sql)

/-- The store that an engine is behind. -/
def Engine.store (engine : Engine) : Store := fun sql => EngineReply.answer sql (engine sql)

/-- The requests, the clock and the engine calls of one opened trace. -/
structure Session where
  trace : Path
  requests : List Request
  now : Rat
  /-- The lock of the engine is held. -/
  locked : Bool
  /-- What the engine was asked to do, in order. -/
  calls : List EngineCall
  events : List Event

namespace Session

/-- Opens a trace that must be there. -/
def openTrace (files : FileTree) (trace : Path) (requests : List Request) :
    Except TextFileError Session := do
  TextFile.require files trace
  return ⟨trace, requests, 0, false, [], [.loadingTrace trace.text]⟩

/-- Refuses a query whose request is over. -/
def check (s : Session) (request : Option Nat) (sql : String) : Except Failure Unit :=
  match request.bind fun i => s.requests[i]? with
  | none => .ok ()
  | some r => r.check s.now sql

def tell (s : Session) (event : Event) : Session := { s with events := s.events ++ [event] }

/-- Does something with the lock held and gives the lock back, whether what is done fails or not.
A lock that is held is never free again, as no one else is there to give it back: nothing comes of
waiting for it. -/
def withLock {α : Type} (s : Session) (act : Session → α × Session) : Option (α × Session) :=
  if s.locked then none
  else
    let (a, s) := act { s with locked := true }
    some (a, { s with locked := false })

/-- Has the engine do something, which it has a reply for. -/
def ask {α : Type} (call : EngineCall) (reply : α) (s : Session) : α × Session :=
  (reply, { s with calls := s.calls ++ [call] })

/-- Puts a query to an engine that has a reply for it. -/
def query (s : Session) (sql : String) (request : Option Nat) (reply : EngineReply) :
    Option (Answer × Session) :=
  match s.check request sql with
  | .error f => some (.error f, s)
  | .ok () => do
    let (reply, s) ← (s.tell (.runningQuery sql)).withLock (ask (.query sql) reply)
    return (reply.answer sql, s)

def cancel (s : Session) (request : Nat) : Session :=
  { s with requests := s.requests.modify request Request.cancel }

/-- Lets time pass; it never runs back. -/
def wait (s : Session) (seconds : Rat) : Session :=
  if seconds < 0 then s else { s with now := s.now + seconds }

/-- Closes the engine, or fails as it does. -/
def close (s : Session) (reply : Except EngineFault Unit) :
    Option (Except Failure Unit × Session) := do
  let (reply, s) ← s.withLock (ask .close reply)
  return (reply.mapError fun fault => .foreign fault.kind.name fault.message, s)

/-! ## Steps -/

inductive Step where
  | query (sql : String) (request : Option Nat) (reply : EngineReply)
  | cancel (request : Nat)
  | wait (seconds : Rat)
  | close (reply : Except EngineFault Unit)

/-- What a step gives: a result set if it is a query and nothing else, or a failure. -/
abbrev Outcome := Except Failure (Option ResultSet)

/-- Takes a step, unless it waits for ever. -/
def step (s : Session) : Step → Option (Outcome × Session)
  | .query sql request reply => do
    let (a, s) ← s.query sql request reply
    return (a.map some, s)
  | .cancel request => some (.ok none, s.cancel request)
  | .wait seconds => some (.ok none, s.wait seconds)
  | .close reply => do
    let (closed, s) ← s.close reply
    return (closed.map fun _ => none, s)

/-- Takes steps one after the other and gives what each gave. -/
def steps (s : Session) : List Step → Option (List Outcome × Session)
  | [] => some ([], s)
  | x :: xs => do
    let (a, s) ← s.step x
    let (as, s) ← s.steps xs
    return (a :: as, s)

end Session
end RenderTrace
