import Mathlib
import RenderTrace.Number.Basic

/-!
# Finite doubles

The exponent field of a double tells whether it is finite (`Double.isFinite_iff`), and what the bit pattern
stands for is a number just then (`Binary64.ofFloat_finite_iff`). The double nearest to an integer is
finite, if there is one (`Binary64.isFinite_of_ofInt?`).
-/

namespace RenderTrace
open Number (Binary64)

namespace Double
open Float.Model Float.Model.UnpackedFloat

/-- The exponent field of a bit pattern. -/
def exponentField (bits : UInt64) : Nat := bits.toNat / Binary64.fractionSize % 2048

theorem toNat_unpackExponent (bits : UInt64) :
    (@unpackExponent .binary64 bits.toBitVec).toNat = exponentField bits := by
  simp only [unpackExponent, BitVec.toNat_cast, BitVec.extractLsb_toNat, Nat.shiftRight_eq_div_pow]
  rfl

theorem isFinite_unpack_iff (bits : UInt64) :
    (UnpackedFloat.unpack .binary64 bits.toBitVec).isFinite = true ↔ exponentField bits ≠ 2047 := by
  have hones : @unpackExponent .binary64 bits.toBitVec = -1#11 ↔ exponentField bits = 2047 := by
    rw [← toNat_unpackExponent]
    exact ⟨fun h => congrArg BitVec.toNat h, fun h => BitVec.eq_of_toNat_eq h⟩
  simp only [UnpackedFloat.unpack]
  split
  · next h =>
    have hfield := hones.mp h
    split <;> simp [UnpackedFloat.isFinite, hfield]
  · next h =>
    have hfield := mt hones.mpr h
    split
    · split <;> simp [UnpackedFloat.isFinite, hfield]
    · simp [UnpackedFloat.isFinite, hfield]

theorem isFinite_iff {x : Float} : x.isFinite = true ↔ exponentField x.toBits ≠ 2047 :=
  isFinite_unpack_iff x.toBits

theorem isFinite_ofBits {bits : UInt64} (h : exponentField bits ≠ 2047) :
    (Float.ofBits bits).isFinite = true := by
  have hvalid : Format.binary64.Valid bits.toBitVec := by
    refine ⟨fun hones _ => absurd ?_ h⟩
    rw [← toNat_unpackExponent, hones]
    rfl
  have hpack : (Float.Model.ofBits bits).toBits = bits :=
    UInt64.toBitVec_inj.mp (pack_unpack_of_valid hvalid)
  exact isFinite_iff.mpr (by rw [Float.toBits, Float.ofBits, hpack]; exact h)

end Double

namespace Number.Binary64

theorem ofFloat_finite_iff {x : Float} :
    (∃ negative m e, ofFloat x = .finite negative m e) ↔ x.isFinite = true := by
  have hfield : x.toBits.toNat % signBit / fractionSize = Double.exponentField x.toBits := by
    have hsize := x.toBits.toNat_lt
    simp only [Double.exponentField, signBit, fractionSize]
    omega
  rw [Double.isFinite_iff, ofFloat, ofBits]
  rw [hfield]
  split
  · next h => split <;> simp [h]
  · next h => split <;> simp [h]

theorem isFinite_assemble {negative : Bool} {magnitude : Nat} (h : magnitude < infinityBits) :
    (assemble negative magnitude).isFinite = true := by
  refine Double.isFinite_ofBits ?_
  simp only [infinityBits] at h
  simp only [Double.exponentField, fractionSize, signBit]
  cases negative <;> simp only [Bool.false_eq_true, if_false, if_true, UInt64.toNat_ofNat'] <;> omega

theorem isFinite_of_ofInt? {n : Int} {x : Float} (h : ofInt? n = some x) : x.isFinite = true := by
  rw [ofInt?, nearest?] at h
  split at h
  · next hbits =>
    obtain rfl := Option.some.inj h
    exact isFinite_assemble hbits
  · exact nomatch h

end Number.Binary64

namespace Number

/-- An integer or a finite double. -/
def isFinite : Number → Bool
  | whole _ => true
  | double x => x.isFinite

theorem isFinite_of_isIntegral {x : Float} (h : isIntegral x) : x.isFinite = true := by
  unfold isIntegral at h
  cases hx : Binary64.ofFloat x with
  | finite negative m e => exact Binary64.ofFloat_finite_iff.mp ⟨negative, m, e, hx⟩
  | infinite | nan =>
    rw [hx] at h
    exact nomatch h

end Number
end RenderTrace
