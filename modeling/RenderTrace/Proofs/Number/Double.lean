import Mathlib
import RenderTrace.Profile.Metric

/-!
# Sums of doubles

A sum of doubles is the negative zero only if both terms are (`add_ne_negativeZero`): cancellation
gives the positive zero, and a sum is never so small that it is rounded away, since both terms are
multiples of the smallest double (`Settled`). So adding zero to what has been added up from zero
changes nothing (`add_zero`). A product with zero is a zero for a finite factor
(`zero_add_mul_zero`) and not a number for any other (`mul_zero_of_not_isFinite`), and what is not a
number stays so in sums and quotients.
-/

namespace RenderTrace.Double
open Float.Model Float.Model.UnpackedFloat

/-! ## Rounding -/

/-- A finite double other than zero, with a mantissa that fits and in units of the smallest double
or larger ones. -/
inductive Settled : UnpackedFloat → Prop
  | finite (s : Sign) (m : Nat) (e : Int) (h : 0 < m) (hm : m < 0x20000000000000)
      (he : Number.Binary64.minExponent ≤ e) : Settled (.finite s m e h)

theorem targetExponent_eq (e : Int) :
    Format.binary64.targetExponent e = max (e - 53) Number.Binary64.minExponent := rfl

theorem mantissa_shiftRight (m : ExtendedMantissa) (k : Nat) :
    (m >>> k).mantissa = m.mantissa >>> k := by
  induction k with
  | zero => rfl
  | succ k ih =>
    change (ExtendedMantissa.shiftRightOne (m >>> k)).mantissa = _
    rw [ExtendedMantissa.shiftRightOne, ih, Nat.shiftRight_succ]

theorem mantissa_ofMantissaAndAccuracy (m : Nat) (a : Accuracy) :
    (ExtendedMantissa.ofMantissaAndAccuracy m a).mantissa = m := by
  rcases a with _ | _ | _ | _ <;> rfl

theorem le_roundedMantissa (m : ExtendedMantissa) : m.mantissa ≤ m.roundedMantissa := by
  rw [ExtendedMantissa.roundedMantissa]
  rcases m.accuracy with _ | _ | _ | _ <;> simp [Accuracy.roundToNearestEven]

/-- Brought to the exponent that it is rounded at, a mantissa fits and does not vanish. -/
theorem shifted_mantissa {m : Nat} (hm : 0 < m) {e : Int}
    (he : Number.Binary64.minExponent ≤ e) {k : Nat}
    (hk : k = (Format.binary64.targetExponent (totalExponent m e) - e).toNat) :
    0 < m >>> k ∧ m >>> k < 0x20000000000000 := by
  have hfloor : Nat.pow 2 m.log2 ≤ m := Nat.log2_self_le (by omega)
  have hceil : m < Nat.pow 2 (m.log2 + 1) := Nat.lt_log2_self
  rw [targetExponent_eq, totalExponent] at hk
  simp only [Number.Binary64.minExponent] at hk he
  have hle : k ≤ m.log2 := by omega
  have hbits : m.log2 + 1 ≤ 53 + k := by omega
  rw [Nat.shiftRight_eq_div_pow]
  constructor
  · exact Nat.div_pos ((Nat.pow_le_pow_right (by decide) hle).trans hfloor) (Nat.two_pow_pos k)
  · rw [Nat.div_lt_iff_lt_mul (Nat.two_pow_pos k)]
    calc m < 2 ^ (m.log2 + 1) := hceil
      _ ≤ 2 ^ (53 + k) := Nat.pow_le_pow_right (by decide) hbits
      _ = 0x20000000000000 * 2 ^ k := Nat.pow_add 2 53 k

theorem shiftToTargetExponent_spec {m : Nat} (hm : 0 < m) {e : Int}
    (he : Number.Binary64.minExponent ≤ e) (a : Accuracy) :
    0 < (shiftToTargetExponent .binary64 m e a).1.mantissa ∧
      (shiftToTargetExponent .binary64 m e a).1.mantissa < 0x20000000000000 ∧
      Number.Binary64.minExponent ≤ (shiftToTargetExponent .binary64 m e a).2 := by
  obtain ⟨hpos, hfits⟩ := shifted_mantissa hm he rfl
  simp only [shiftToTargetExponent, shiftToExponent, mantissa_shiftRight,
    mantissa_ofMantissaAndAccuracy]
  exact ⟨hpos, hfits, by omega⟩

theorem settled_roundWithAccuracy (s : Sign) {m : Nat} (hm : 0 < m) {e : Int}
    (he : Number.Binary64.minExponent ≤ e) (a : Accuracy) :
    Settled (roundWithAccuracy .binary64 s m e a) := by
  obtain ⟨hpos, -, he⟩ := shiftToTargetExponent_spec hm he a
  -- rounding up may have made one more bit, which is shifted out
  obtain ⟨hpos, hfits, he⟩ := shiftToTargetExponent_spec
    (Nat.lt_of_lt_of_le hpos (le_roundedMantissa _)) he .exact
  simp only [roundWithAccuracy]
  rw [dif_neg (Nat.ne_of_gt hpos)]
  exact .finite _ _ _ _ hfits he

theorem settled_round (s : Sign) {m : Nat} (hm : 0 < m) {e : Int}
    (he : Number.Binary64.minExponent ≤ e) : Settled (UnpackedFloat.round .binary64 s m e) := by
  simp only [UnpackedFloat.round, decreaseExponent]
  refine settled_roundWithAccuracy s ?_ ?_ .exact
  · rw [Nat.shiftLeft_eq]
    exact Nat.mul_pos hm (Nat.two_pow_pos _)
  · rw [targetExponent_eq]
    omega

theorem pack_ne_packedZero {x : UnpackedFloat} (h : Settled x) (s : Sign) :
    UnpackedFloat.pack .binary64 x ≠ packedZero .binary64 s := by
  obtain ⟨t, m, e, hpos, hm, he⟩ := h
  have hbias : Format.binary64.exponentBias = 1023 := rfl
  have hbits : Format.binary64.mantissaBits = 53 := rfl
  simp only [Number.Binary64.minExponent] at he
  simp only [UnpackedFloat.pack, hbias, hbits]
  split
  · intro hzero
    have hexponent := congrArg unpackExponent hzero
    rw [packedInfinity, packedZero, unpackExponent_packComponents, unpackExponent_packComponents]
      at hexponent
    exact absurd hexponent (by decide)
  next hfinite =>
    split
    · -- with a leading bit the exponent is not that of zero
      intro hzero
      have hexponent := congrArg (fun b => (unpackExponent b).toNat) hzero
      simp only [packedZero, unpackExponent_packComponents, BitVec.toNat_ofNat] at hexponent
      change _ = 0 at hexponent
      change ¬2048 ≤ _ at hfinite
      change _ % 2048 = 0 at hexponent
      omega
    next hlow =>
      -- without one the mantissa is not that of zero
      intro hzero
      have hmantissa := congrArg (fun b => (unpackMantissa b).toNat) hzero
      simp only [packedZero, unpackMantissa_packComponents, BitVec.toNat_ofNat] at hmantissa
      change _ % 0x10000000000000 = 0 at hmantissa
      have hlog : m.log2 < 53 := (Nat.log2_lt (by omega)).mpr hm
      have hsmall : m < 0x10000000000000 := (Nat.log2_lt (by omega)).mp (by omega : m.log2 < 52)
      omega

/-! ## Zeros -/

theorem minExponent_le_of_unpack {x : Float.Model} {s : Sign} {m : Nat} {e : Int} {h : 0 < m}
    (hx : x.unpack = .finite s m e h) : Number.Binary64.minExponent ≤ e := by
  have hbias : Format.binary64.exponentBias = 1023 := rfl
  simp only [Float.Model.unpack, UnpackedFloat.unpack, hbias] at hx
  simp only [Number.Binary64.minExponent]
  split at hx
  · split at hx <;> simp at hx
  next =>
    split at hx
    next hzero =>
      split at hx
      · simp at hx
      · simp only [finite.injEq, hzero] at hx
        obtain ⟨-, -, rfl⟩ := hx
        decide
    next hnonzero =>
      simp only [finite.injEq] at hx
      obtain ⟨-, -, rfl⟩ := hx
      have hpos : 0 < (@unpackExponent .binary64 x.toBits.toBitVec).toNat :=
        Nat.pos_of_ne_zero fun h => hnonzero (BitVec.eq_of_toNat_eq h)
      change -1074 ≤ ((@unpackExponent .binary64 x.toBits.toBitVec).toNat : Int) - (1023 + 52)
      omega

theorem eq_iff_unpack {x y : Float} : x = y ↔ x.toModel.unpack = y.toModel.unpack := by
  rw [← Float.toBits_inj]
  simp only [Float.Model.unpack, Float.toBits, unpack_inj_of_valid x.toModel.valid y.toModel.valid]
  exact UInt64.toBitVec_inj.symm

theorem unpack_pack (x : Float.Model) : (Float.Model.pack x.unpack).unpack = x.unpack :=
  congrArg (UnpackedFloat.unpack .binary64) (pack_unpack_of_valid x.valid)

@[simp] theorem unpack_pack_notANumber : (Float.Model.pack .notANumber).unpack = .notANumber := rfl

@[simp] theorem unpack_pack_infinity (s : Sign) : (Float.Model.pack (.infinity s)).unpack = .infinity s := by
  cases s <;> rfl

@[simp] theorem unpack_pack_zero (s : Sign) : (Float.Model.pack (.zero s)).unpack = .zero s := by
  cases s <;> rfl

theorem unpack_zero : (0 : Float).toModel.unpack = .zero .positive := rfl

theorem unpack_negativeZero : (-0 : Float).toModel.unpack = .zero .negative := rfl

theorem unpack_nan : Float.nan.toModel.unpack = .notANumber := rfl

theorem unpack_add (x y : Float) : (x + y).toModel.unpack =
    (Float.Model.pack (UnpackedFloat.add .binary64 x.toModel.unpack y.toModel.unpack)).unpack := rfl

theorem unpack_mul (x y : Float) : (x * y).toModel.unpack =
    (Float.Model.pack (UnpackedFloat.mul .binary64 x.toModel.unpack y.toModel.unpack)).unpack := rfl

theorem unpack_div (x y : Float) : (x / y).toModel.unpack =
    (Float.Model.pack (UnpackedFloat.div .binary64 x.toModel.unpack y.toModel.unpack)).unpack := rfl

theorem unpack_pack_normalize_ne (m : Int) {e : Int} (he : Number.Binary64.minExponent ≤ e) :
    (Float.Model.pack (UnpackedFloat.normalize .binary64 m e .positive)).unpack ≠
      .zero .negative := by
  have hsettled : ∀ {x : UnpackedFloat}, Settled x →
      (Float.Model.pack x).unpack ≠ .zero .negative := fun hx hzero =>
    pack_ne_packedZero hx .negative ((unpack_eq_zero_iff_of_valid valid_pack).mp hzero)
  unfold UnpackedFloat.normalize
  split
  next h =>
    have := Int.compare_eq_lt.mp h
    exact hsettled (settled_round _ (by omega) he)
  · simp
  next h =>
    have := Int.compare_eq_gt.mp h
    exact hsettled (settled_round _ (by omega) he)

theorem add_ne_negativeZero {x : Float} (hx : x ≠ -0) (y : Float) : x + y ≠ -0 := by
  rw [ne_eq, eq_iff_unpack, unpack_negativeZero] at hx ⊢
  have hx' := unpack_pack x.toModel
  have hy' := unpack_pack y.toModel
  rw [unpack_add]
  cases hxs : x.toModel.unpack with
  | notANumber => simp [UnpackedFloat.add]
  | infinity s =>
    cases y.toModel.unpack with
    | infinity t =>
      simp only [UnpackedFloat.add]
      split <;> simp
    | _ => simp [UnpackedFloat.add]
  | zero s =>
    rw [hxs] at hx
    cases hys : y.toModel.unpack with
    | zero t => cases s <;> cases t <;> simp_all [UnpackedFloat.add]
    | finite => simp [UnpackedFloat.add, hys ▸ hy']
    | _ => simp [UnpackedFloat.add]
  | finite s m e h =>
    cases hys : y.toModel.unpack with
    | finite t n f h' =>
      have he := minExponent_le_of_unpack hxs
      have hf := minExponent_le_of_unpack hys
      exact unpack_pack_normalize_ne _ (by omega)
    | zero t => simp [UnpackedFloat.add, hxs ▸ hx']
    | _ => simp [UnpackedFloat.add]

theorem add_zero {x : Float} (hx : x ≠ -0) : x + 0 = x := by
  rw [ne_eq, eq_iff_unpack, unpack_negativeZero] at hx
  have hadd : UnpackedFloat.add .binary64 x.toModel.unpack (.zero .positive) =
      x.toModel.unpack := by
    cases hs : x.toModel.unpack with
    | zero s => cases s with
      | positive => rfl
      | negative => exact absurd hs hx
    | _ => simp [UnpackedFloat.add]
  rw [eq_iff_unpack, unpack_add, unpack_zero, hadd, unpack_pack]

theorem nan_add (x : Float) : Float.nan + x = Float.nan := by
  rw [eq_iff_unpack, unpack_add, unpack_nan]
  simp [UnpackedFloat.add]

theorem add_nan (x : Float) : x + Float.nan = Float.nan := by
  rw [eq_iff_unpack, unpack_add, unpack_nan]
  cases x.toModel.unpack <;> simp [UnpackedFloat.add]

theorem nan_div (x : Float) : Float.nan / x = Float.nan := by
  rw [eq_iff_unpack, unpack_div, unpack_nan]
  simp [UnpackedFloat.div]

theorem mul_zero_of_not_isFinite {x : Float} (h : x.isFinite = false) : x * 0 = Float.nan := by
  rw [eq_iff_unpack, unpack_mul, unpack_zero, unpack_nan]
  change x.toModel.unpack.isFinite = false at h
  cases hs : x.toModel.unpack with
  | notANumber | infinity => simp [UnpackedFloat.mul]
  | zero | finite => simp [hs, UnpackedFloat.isFinite] at h

/-- Whatever sign the product has, with the zero added it is that zero. -/
theorem zero_add_mul_zero {x : Float} (h : x.isFinite = true) : 0 + x * 0 = 0 := by
  rw [eq_iff_unpack, unpack_add, unpack_mul, unpack_zero]
  change x.toModel.unpack.isFinite = true at h
  cases hs : x.toModel.unpack with
  | notANumber | infinity => simp [hs, UnpackedFloat.isFinite] at h
  | zero s | finite s => simp [UnpackedFloat.mul, UnpackedFloat.add]

end RenderTrace.Double
