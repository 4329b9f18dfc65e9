import RenderTrace.Number.Arithmetic
import RenderTrace.Query.Failure

/-!
# Times

The times of a profile are of some type `τ`: integers for what a trace holds, any numbers for what a
caller hands in. A sum or a difference may fail (`Time`); where sums and differences are plain
operations it never does.
-/

namespace RenderTrace

/-- Times, whose sums and differences may fail. -/
class Time (τ : Type) where
  add : τ → τ → Except Failure τ
  sub : τ → τ → Except Failure τ

namespace Time

instance : Time Number where
  add a b := (a.add b).mapError .conversion
  sub a b := (a.sub b).mapError .conversion

/-- Plain sums and differences never fail. -/
instance plain {τ : Type} [Add τ] [Sub τ] : Time τ where
  add a b := .ok (a + b)
  sub a b := .ok (a - b)

theorem add_plain {τ : Type} [Add τ] [Sub τ] (a b : τ) : add a b = .ok (a + b) := rfl

theorem sub_plain {τ : Type} [Add τ] [Sub τ] (a b : τ) : sub a b = .ok (a - b) := rfl

variable {τ : Type}

section Order
variable [LT τ] [DecidableLT τ]

/-- The later of two times, the first if none is later. -/
def later (a b : τ) : τ := if a < b then b else a

/-- The earlier of two times, the first if none is earlier. -/
def earlier (a b : τ) : τ := if b < a then b else a

def latest (t : τ) (ts : List τ) : τ := ts.foldl later t

def earliest (t : τ) (ts : List τ) : τ := ts.foldl earlier t

/-- The length of the common part of two spans. -/
def overlap [Time τ] [OfNat τ 0] (start stop otherStart otherStop : τ) : Except Failure τ :=
  (sub (earlier stop otherStop) (later start otherStart)).map (later 0)

/-- Narrows the places from `low` up to `high` down to the first whose time is after `t`. -/
def firstAfter [OfNat τ 0] (times : Array τ) (t : τ) (low high : Nat) : Nat :=
  if h : low < high then
    let middle := (low + high) / 2
    if t < times.getD middle 0 then firstAfter times t low middle
    else firstAfter times t (middle + 1) high
  else low
termination_by high - low

/-- The first place whose time is after `t`, for ascending times. -/
def placeAfter [OfNat τ 0] (times : List τ) (t : τ) : Nat :=
  firstAfter times.toArray t 0 times.length

end Order

def total [Time τ] [OfNat τ 0] (ts : List τ) : Except Failure τ := ts.foldlM add 0

end Time
end RenderTrace
