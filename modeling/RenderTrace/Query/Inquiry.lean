import RenderTrace.Event
import RenderTrace.Query.ResultSet

/-!
# Inquiries

An `Inquiry` is a computation that asks a store queries and reports events on its way to a result or
a failure. It says what is asked and what is made of the answers, not how they are got:
`Inquiry.run` puts the queries one after the other to a server that may keep a state, and
`Inquiry.runBoth` runs two inquiries at once, their queries answered in the order that a schedule
gives.
-/

namespace RenderTrace

/-- What a store gives for a query. -/
abbrev Answer := Except Failure ResultSet

/-- A computation that asks queries. -/
inductive Inquiry (α : Type) where
  | done (a : α)
  | fail (f : Failure)
  | note (e : Event) (rest : Inquiry α)
  /-- Asks one query. -/
  | ask (sql : String) (next : Answer → Inquiry α)
  /-- Asks several queries at once, to be answered in any order. -/
  | askAll (sqls : List String) (next : List Answer → Inquiry α)

namespace Inquiry

variable {α β σ : Type}

def bind (x : Inquiry α) (f : α → Inquiry β) : Inquiry β :=
  match x with
  | done a => f a
  | fail e => fail e
  | note e rest => note e (rest.bind f)
  | ask sql next => ask sql fun a => (next a).bind f
  | askAll sqls next => askAll sqls fun as => (next as).bind f

instance : Monad Inquiry where
  pure := done
  bind := bind

/-- A result or failure that is known. -/
def ofExcept : Except Failure α → Inquiry α
  | .ok a => done a
  | .error f => fail f

/-- Asks one query and fails with it. -/
def query (sql : String) : Inquiry ResultSet := ask sql ofExcept

/-- Reports events; fails at the first that cannot be told. -/
def report (es : List Event) : Inquiry Unit :=
  let (told, failure) := Event.told es
  told.foldr note (failure.elim (done ()) fail)

/-- Turns a failure into a result. -/
def attempt : Inquiry α → Inquiry (Except Failure α)
  | done a => done (.ok a)
  | fail f => done (.error f)
  | note e rest => note e rest.attempt
  | ask sql next => ask sql fun a => (next a).attempt
  | askAll sqls next => askAll sqls fun as => (next as).attempt

/-! ## Running -/

/-- What a run gives: a result or failure, and the events on the way. -/
structure Outcome (α : Type) where
  result : Except Failure α
  events : List Event

def run (serve : String → StateM σ Answer) : Inquiry α → StateM σ (Outcome α)
  | done a => pure ⟨.ok a, []⟩
  | fail f => pure ⟨.error f, []⟩
  | note e rest => do
    let o ← rest.run serve
    pure { o with events := e :: o.events }
  | ask sql next => do (next (← serve sql)).run serve
  | askAll sqls next => do (next (← sqls.mapM serve)).run serve

/-! ## Running two at once -/

/-- Splits off the events at the front. -/
def settle : Inquiry α → List Event × Inquiry α
  | note e rest => (e :: rest.settle.1, rest.settle.2)
  | x => ([], x)

/-- The queries that wait for an answer. -/
def pending : Inquiry α → List String
  | ask sql _ => [sql]
  | askAll sqls _ => sqls
  | _ => []

/-- Takes in the answer to the pending query at a place. -/
def resume (place : Nat) (a : Answer) : Inquiry α → Inquiry α
  | ask _ next => next a
  | askAll sqls next =>
    match sqls.eraseIdx place with
    | [] => next [a]
    | rest => askAll rest fun as => next (as.insertIdx place a)
  | x => x

/-- Runs two inquiries at once. Each number of the schedule picks one of the queries that wait then;
when the schedule is over the first inquiry is run to its end and then the second. -/
def runBoth (serve : String → StateM σ Answer) :
    List Nat → Inquiry α → Inquiry β → StateM σ (Except Failure α × Except Failure β × List Event)
  | [], x, y => do
    let ox ← x.run serve
    let oy ← y.run serve
    pure (ox.result, oy.result, ox.events ++ oy.events)
  | pick :: schedule, x, y => do
    let (ex, x) := x.settle
    let (ey, y) := y.settle
    let waiting := x.pending ++ y.pending
    let place := pick % waiting.length
    match waiting[place]? with
    | none =>
      let (rx, ry, es) ← runBoth serve schedule x y
      pure (rx, ry, ex ++ ey ++ es)
    | some sql =>
      let a ← serve sql
      let left := place < x.pending.length
      let (rx, ry, es) ← runBoth serve schedule
        (if left then x.resume place a else x)
        (if left then y else y.resume (place - x.pending.length) a)
      pure (rx, ry, ex ++ ey ++ es)

end Inquiry
end RenderTrace
