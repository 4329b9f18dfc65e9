import RenderTrace.Number.Reader

/-!
# Arithmetic on numbers

Sums, differences and products of integers are exact; as soon as a double takes part they are
computed in doubles, and an integer beyond all doubles has no result with one. A quotient is always
a double, of two integers the one nearest to it.
-/

namespace RenderTrace.Number

/-- Applies an operation exactly to integers, in doubles otherwise. -/
def lift (onWhole : Int → Int → Int) (onDouble : Float → Float → Float) :
    Number → Number → Except NumberError Number
  | .whole m, .whole n => .ok (.whole (onWhole m n))
  | a, b => do return .double (onDouble (← a.toDouble) (← b.toDouble))

def add : Number → Number → Except NumberError Number := lift (· + ·) (· + ·)

def sub : Number → Number → Except NumberError Number := lift (· - ·) (· - ·)

def mul : Number → Number → Except NumberError Number := lift (· * ·) (· * ·)

/-- The double nearest to the quotient of two integers, of which the second is not zero. -/
def quotient (m n : Int) : Except NumberError Float :=
  match Binary64.nearest? (m < 0 ∧ 0 < n ∨ 0 ≤ m ∧ n < 0) m.natAbs n.natAbs with
  | some x => .ok x
  | none => .error .quotientTooLarge

/-- The quotient of two numbers, of which the second is not zero. -/
def div : Number → Number → Except NumberError Float
  | .whole m, .whole n => quotient m n
  | a, b => do return (← a.toDouble) / (← b.toDouble)

end RenderTrace.Number
