import RenderTrace.Number.Notation

/-!
# Numbers

A `Number` is an integer of any size or a double. Numbers compare by their exact value
(`Number.value`), so `5` and `5.0` are equal; they differ only in how they are written.
-/

namespace RenderTrace.Number

/-- An exact value: a rational, an infinity, or no value at all. -/
inductive Value where
  | finite (q : Rat)
  | infinite (negative : Bool)
  | undefined
  deriving DecidableEq

namespace Value

/-- Two values that are the same; an undefined value is the same as none. -/
def same (a b : Value) : Bool := a = b && a ≠ undefined

/-- Strict order; false when a value is undefined. -/
def less : Value → Value → Bool
  | finite p, finite q => p < q
  | infinite m, infinite n => m && !n
  | infinite m, finite _ => m
  | finite _, infinite n => !n
  | _, _ => false

/-- The exact value of a double. -/
def ofFloat (x : Float) : Value :=
  match Binary64.ofFloat x with
  | .nan => undefined
  | .infinite negative => infinite negative
  | .finite negative m e =>
    let (num, den) := scaled m 1 2 e
    finite (mkRat (if negative then -num else num) den)

end Value
end RenderTrace.Number

namespace RenderTrace

/-- An integer or a double. -/
inductive Number where
  | whole (n : Int)
  | double (x : Float)

namespace Number

/-- The exact value. -/
def value : Number → Value
  | whole n => .finite n
  | double x => .ofFloat x

/-- Numeric equality. -/
instance : BEq Number := ⟨fun a b => a.value.same b.value⟩

instance : LT Number := ⟨fun a b => a.value.less b.value = true⟩

instance : DecidableLT Number := fun a b => inferInstanceAs (Decidable (a.value.less b.value = true))

instance : OfNat Number n := ⟨whole n⟩

/-- The text of a number: decimal digits, or the fewest that read back as the double. -/
def text : Number → String
  | whole n => toString n
  | double x => Style.exact.write x

/-- The integer part of a double, none for an infinity or an undefined value. -/
def integerPart? (x : Float) : Option Int :=
  match Binary64.ofFloat x with
  | .finite negative m e =>
    let (num, den) := scaled m 1 2 e
    let n : Int := num / den
    some (if negative then -n else n)
  | _ => none

def isIntegral (x : Float) : Bool :=
  match Binary64.ofFloat x with
  | .finite _ m e =>
    let (num, den) := scaled m 1 2 e
    num % den = 0
  | _ => false

/-- The number cut down to an integer and written in decimal, or its text when it has no integer
part. -/
def wholeText : Number → String
  | whole n => toString n
  | double x => match integerPart? x with
    | some n => toString n
    | none => Style.exact.write x

end Number

/-- Quantities that are numbers. -/
class Numeric (α : Type) where
  toNumber : α → Number

export Numeric (toNumber)

instance : Numeric Number := ⟨id⟩
instance : Numeric Int := ⟨.whole⟩
instance : Numeric Float := ⟨.double⟩

/-- Quantities that the integers are among. -/
class OfInteger (α : Type) where
  ofInteger : Int → α

export OfInteger (ofInteger)

instance : OfInteger Number := ⟨.whole⟩
instance : OfInteger Int := ⟨id⟩

end RenderTrace
