import RenderTrace.Number.Decimal

/-!
# Number notation

A `Style` says how the digits of a double are laid out: which exponents are written positionally,
whether a whole number keeps a point, and the words for the special values. `Style.exact` writes
the fewest digits that read back, `Style.general` at most six significant digits.
-/

namespace RenderTrace.Number

structure Style where
  /-- The first exponent too large to be written positionally. -/
  exponentLimit : Int
  /-- A whole number written positionally ends in `.0`. -/
  wholePoint : Bool
  infinity : String
  nan : String
  /-- Significant digits, or as few as read back. -/
  precision : Option Nat

namespace Style

/-- The least exponent that every style writes positionally. -/
def leastPositional : Int := -4

/-- The text that reads back as the same double. -/
def exact : Style := ⟨16, true, "inf", "nan", none⟩

/-- The text that reads back, in a data document. -/
def document : Style := { exact with infinity := "Infinity", nan := "NaN" }

/-- Up to six significant digits. -/
def general : Style := ⟨6, false, "inf", "nan", some 6⟩

/-- An exponent with its sign and at least two digits. -/
def exponentText (e : Int) : String :=
  let digits := Nat.toDigits 10 e.natAbs
  String.ofList ((if e < 0 then '-' else '+') :: (List.replicate (2 - digits.length) '0' ++ digits))

/-- Lays out trimmed digits. -/
def layout (style : Style) (d : Decimal) : String :=
  let e := d.point - 1
  if leastPositional ≤ e ∧ e < style.exponentLimit then
    if d.point ≤ 0 then
      "0." ++ String.ofList (List.replicate (-d.point).toNat '0' ++ d.digits)
    else
      let n := d.point.toNat
      if d.digits.length ≤ n then
        String.ofList (d.digits ++ List.replicate (n - d.digits.length) '0')
          ++ (if style.wholePoint then ".0" else "")
      else String.ofList (d.digits.take n) ++ "." ++ String.ofList (d.digits.drop n)
  else
    let fraction := d.digits.drop 1
    String.ofList (d.digits.take 1) ++ (if fraction.isEmpty then "" else "." ++ String.ofList fraction)
      ++ "e" ++ exponentText e

/-- The text of a positive double or zero. -/
def magnitude (style : Style) (mantissa : Nat) (exponent : Int) : String :=
  if mantissa = 0 then if style.wholePoint then "0.0" else "0"
  else
    style.layout <| match style.precision with
      | none => Decimal.shortest mantissa exponent
      | some n =>
        let (num, den) := scaled mantissa 1 2 exponent
        (Decimal.rounded num den n).trim

def write (style : Style) (x : Float) : String :=
  match Binary64.ofFloat x with
  | .nan => style.nan
  | .infinite negative => (if negative then "-" else "") ++ style.infinity
  | .finite negative m e => (if negative then "-" else "") ++ style.magnitude m e

end Style
end RenderTrace.Number
