import RenderTrace.Query.Inquiry
import RenderTrace.Query.Request

/-!
# Stores

A `Store` answers a query by its text alone. `Store.serve` puts a request in front of it: a query of
a request that is over is refused, any other is issued and recorded, and the request may be cancelled
after a given number of issued queries.
-/

namespace RenderTrace

/-- The answer to every query. -/
abbrev Store := String → Answer

/-- A request on its way through a store. -/
structure Progress where
  /-- The request, if the queries carry one. -/
  request : Option Request
  /-- The clock reading. -/
  now : Rat
  /-- The queries issued so far, in order. -/
  issued : List String
  /-- The number of issued queries after which the request is cancelled. -/
  cancelAfter : Option Nat

namespace Progress

def start (request : Option Request) : Progress := ⟨request, 0, [], none⟩

/-- Refuses a query of a request that is over. -/
def check (p : Progress) (sql : String) : Except Failure Unit :=
  match p.request with
  | none => .ok ()
  | some r => r.check p.now sql

def issue (p : Progress) (sql : String) : Progress :=
  let issued := p.issued ++ [sql]
  { p with
    issued
    request := if p.cancelAfter = some issued.length then p.request.map Request.cancel
      else p.request }

end Progress

/-- Answers a query of a request. -/
def Store.serve (store : Store) (sql : String) : StateM Progress Answer := fun p =>
  match p.check sql with
  | .error f => (.error f, p)
  | .ok () => (store sql, p.issue sql)

end RenderTrace
