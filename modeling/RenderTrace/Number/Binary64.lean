/-!
# Doubles as dyadic rationals

A double is read as `± mantissa · 2 ^ exponent` (`Binary64.ofBits`), and a rational is rounded to
the nearest double, ties to the even mantissa (`Binary64.nearest?`). Both work on the bit pattern
with natural numbers only, so they are exact at every size.
-/

namespace RenderTrace.Number

/-- The quotient `num / den` rounded to the nearest natural, a half to the even neighbour. -/
def roundHalfEven (num den : Nat) : Nat :=
  let q := num / den
  let r := num % den
  if 2 * r < den then q
  else if den < 2 * r then q + 1
  else if q % 2 = 0 then q else q + 1

/-- A fraction in which one of the two parts is scaled by `base ^ |exponent|`. -/
def scaled (num den base : Nat) (exponent : Int) : Nat × Nat :=
  if 0 ≤ exponent then (num * base.pow exponent.toNat, den)
  else (num, den * base.pow (-exponent).toNat)

/-- What the bit pattern of a double stands for. -/
inductive Binary64 where
  /-- The number `± mantissa · 2 ^ exponent`. -/
  | finite (negative : Bool) (mantissa : Nat) (exponent : Int)
  | infinite (negative : Bool)
  | nan
  deriving DecidableEq, Repr

namespace Binary64

def fractionSize : Nat := 0x10000000000000

/-- The exponent of the smallest positive double. -/
def minExponent : Int := -1074

/-- The bit pattern of positive infinity, above that of every positive finite double. -/
def infinityBits : Nat := 0x7ff0000000000000

/-- The bit pattern of the value that is no number. -/
def nanBits : Nat := 0x7ff8000000000000

def signBit : Nat := 0x8000000000000000

def ofBits (bits : UInt64) : Binary64 :=
  let n := bits.toNat
  let negative := signBit ≤ n
  let magnitude := n % signBit
  let fraction := magnitude % fractionSize
  let biased := magnitude / fractionSize
  if biased = 2047 then if fraction = 0 then infinite negative else nan
  else if biased = 0 then finite negative fraction minExponent
  else finite negative (fractionSize + fraction) (minExponent + (biased - 1 : Int))

def ofFloat (x : Float) : Binary64 := ofBits x.toBits

/-- The double with the given sign and magnitude bits. -/
def assemble (negative : Bool) (magnitude : Nat) : Float :=
  Float.ofBits (UInt64.ofNat (if negative then signBit + magnitude else magnitude))

/-- The greatest `e` with `2 ^ e ≤ num / den`, for positive parts. -/
def floorLog2 (num den : Nat) : Int :=
  let e : Int := num.log2 - den.log2
  let (a, b) := scaled num den 2 (-e)
  if b ≤ a then e else e - 1

/-- Magnitude bits of the double nearest to `num / den`; at `infinityBits` or above when that
leaves the finite range. A mantissa rounded up to the next power of two carries into the exponent
field by itself. -/
def nearestBits (num den : Nat) : Nat :=
  if num = 0 then 0
  else
    let e := max (floorLog2 num den - 52) minExponent
    let (a, b) := scaled num den 2 (-e)
    (e - minExponent).toNat * fractionSize + roundHalfEven a b

/-- The double nearest to `± num / den`, none when it leaves the finite range. -/
def nearest? (negative : Bool) (num den : Nat) : Option Float :=
  let bits := nearestBits num den
  if bits < infinityBits then some (assemble negative bits) else none

/-- The double nearest to `± num / den`, infinite when it leaves the finite range. -/
def nearest (negative : Bool) (num den : Nat) : Float :=
  assemble negative (min (nearestBits num den) infinityBits)

/-- The double nearest to an integer, none when it leaves the finite range. -/
def ofInt? (n : Int) : Option Float := nearest? (n < 0) n.natAbs 1

end Binary64
end RenderTrace.Number
