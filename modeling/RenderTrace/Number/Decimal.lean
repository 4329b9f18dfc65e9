import RenderTrace.Number.Binary64

/-!
# Decimal digits of a double

`Decimal.shortest` finds the fewest decimal digits that read back as the same double, the nearest
such digits when there are several; `Decimal.rounded` gives a fixed number of significant digits
and `Decimal.fixed` a fixed number of places, both correctly rounded. All comparisons are between
natural numbers.
-/

namespace RenderTrace.Number

/-- The number `0.d₁d₂… · 10 ^ point` with digits `d₁d₂…`. -/
structure Decimal where
  digits : List Char
  point : Int
  deriving DecidableEq, Repr

namespace Decimal

def trim (d : Decimal) : Decimal :=
  { d with digits := (d.digits.reverse.dropWhile (· == '0')).reverse }

/-- `q · 10 ^ k` by its digits. -/
def ofScaled (q : Nat) (k : Int) : Decimal :=
  let ds := Nat.toDigits 10 q
  ⟨ds, k + ds.length⟩

/-- The least `p` with `num / den < 10 ^ p`, for positive parts. -/
def magnitude (num den : Nat) : Int :=
  let estimate := Binary64.floorLog2 num den * 30103 / 100000
  let below (p : Int) : Bool :=
    let (a, b) := scaled den num 10 p
    b < a
  if below estimate then estimate
  else if below (estimate + 1) then estimate + 1
  else estimate + 2

/-- `num / den` in units of `10 ^ k`, as a fraction. -/
def inUnits (num den : Nat) (k : Int) : Nat × Nat := scaled num den 10 (-k)

/-- `num / den` to `n` significant digits, a half to the even neighbour. -/
def rounded (num den n : Nat) : Decimal :=
  if num = 0 then ⟨['0'], 1⟩
  else
    let k := magnitude num den - n
    let (a, b) := inUnits num den k
    ofScaled (roundHalfEven a b) k

/-- The rational interval of numbers that round to `mantissa · 2 ^ exponent`, with its ends in when
the mantissa is even, over the common denominator of the three numbers. -/
structure Interval where
  low : Nat
  value : Nat
  high : Nat
  den : Nat
  closed : Bool

/-- The numbers that round to a positive double. Below a power of two the neighbouring double is
only half as far away. -/
def interval (mantissa : Nat) (exponent : Int) : Interval :=
  let below := if mantissa = Binary64.fractionSize ∧ Binary64.minExponent < exponent then 1 else 2
  let scale (n : Nat) : Nat := (scaled n 1 2 (exponent - 2)).1
  { low := scale (4 * mantissa - below)
    value := scale (4 * mantissa)
    high := scale (4 * mantissa + 2)
    den := (scaled 1 1 2 (exponent - 2)).2
    closed := mantissa % 2 = 0 }

/-- The point of the grid `10 ^ k` nearest to the interval's value that lies in the interval; of
two equally near, the even one. -/
def Interval.onGrid? (i : Interval) (k : Int) : Option Nat :=
  let (unit, den) := scaled i.den 1 10 k
  let low := i.low * den
  let value := i.value * den
  let high := i.high * den
  let inside (q : Nat) : Bool :=
    if i.closed then low ≤ q * unit && q * unit ≤ high else low < q * unit && q * unit < high
  let q := value / unit
  let lower := value - q * unit
  let upper := (q + 1) * unit - value
  match inside q, inside (q + 1) with
  | true, false => some q
  | false, true => some (q + 1)
  | true, true =>
    some (if lower < upper then q else if upper < lower then q + 1
      else if q % 2 = 0 then q else q + 1)
  | false, false => none

def maxDigits : Nat := 17

/-- The fewest digits that read back as `mantissa · 2 ^ exponent`. -/
def shortest (mantissa : Nat) (exponent : Int) : Decimal :=
  if mantissa = 0 then ⟨['0'], 1⟩
  else
    let i := interval mantissa exponent
    let p := magnitude i.value i.den
    let grids := (List.range maxDigits).map fun (n : Nat) => p - (n + 1 : Int)
    match grids.findSome? fun k => (i.onGrid? k).map fun q => ofScaled q k with
    | some d => d.trim
    | none => rounded i.value i.den maxDigits

/-- `num / den` with a fixed number of places, a half to the even neighbour. -/
def fixed (num den places : Nat) : String :=
  let q := roundHalfEven (num * Nat.pow 10 places) den
  let whole := toString (q / Nat.pow 10 places)
  if places = 0 then whole
  else
    let fraction := Nat.toDigits 10 (q % Nat.pow 10 places)
    whole ++ "." ++ String.ofList (List.replicate (places - fraction.length) '0' ++ fraction)

end Decimal
end RenderTrace.Number
