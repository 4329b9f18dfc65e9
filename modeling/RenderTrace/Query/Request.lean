import RenderTrace.Query.Failure

/-!
# Requests

A request carries a deadline and can be cancelled. Once it is cancelled, or the clock has reached
its deadline, every further query is refused; that it was cancelled is what a refusal reports first.
-/

namespace RenderTrace
open Number (Value)

/-- Cancellation and deadline of one request. -/
structure Request where
  /-- The clock reading from which on the request is expired. -/
  deadline : Option Value
  cancelled : Bool

namespace Request

def unlimited : Request := ⟨none, false⟩

/-- A clock reading later by some seconds. -/
def later (now : Rat) : Value → Value
  | .finite q => .finite (now + q)
  | v => v

/-- A request that expires some seconds after `now`; the seconds are a double. -/
def withTimeout (now : Rat) (seconds : Number) : Except Failure Request :=
  match seconds.toDouble with
  | .ok x => .ok ⟨some (later now (.ofFloat x)), false⟩
  | .error e => .error (.conversion e)

/-- Cancels the request, for good. -/
def cancel (r : Request) : Request := { r with cancelled := true }

def isExpired (r : Request) (now : Rat) : Bool :=
  match r.deadline with
  | none => false
  | some d => d.less (.finite now) || d.same (.finite now)

/-- No further query is issued. -/
def isOver (r : Request) (now : Rat) : Bool := r.cancelled || r.isExpired now

/-- Refuses a query of a request that is over. -/
def check (r : Request) (now : Rat) (sql : String) : Except Failure Unit :=
  if r.cancelled then .error (.cancelled sql)
  else if r.isExpired now then .error (.expired sql)
  else .ok ()

end Request
end RenderTrace
