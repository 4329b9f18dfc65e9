import Mathlib.Data.List.DropRight
import RenderTrace.Proofs.Json.Grammar
import RenderTrace.Proofs.Json.Number
import RenderTrace.Proofs.Number.Finite

/-!
# Numbers by the grammar

Integers and finite doubles are written as the grammar has numbers (`numeral_writeNumber`). The shortest
digits of a double do not begin with a zero, whichever grid they are found on
(`Number.Decimal.proper_shortest`), and no layout puts one before them (`unsigned_layout`).
-/

namespace RenderTrace.Json
open Grammar
open Number (Binary64 Decimal Style)

/-! ## Digits -/

theorem digits_toDigits_grammar (n : Nat) : Digits (Nat.toDigits 10 n) :=
  ⟨Nat.toDigits_ne_nil, fun _ => isDigit_of_mem⟩

theorem whole_toDigits (n : Nat) : Whole (Nat.toDigits 10 n) := by
  refine ⟨digits_toDigits_grammar n, fun hhead => ?_⟩
  rcases Nat.eq_zero_or_pos n with rfl | hn
  · rfl
  · obtain ⟨c, cs, hdigits, hc⟩ := exists_toDigits hn
    rw [hdigits] at hhead
    exact absurd (Option.some.inj hhead) hc

theorem Grammar.Digits.append_zeros {ds : List Char} (h : Digits ds) (n : Nat) :
    Digits (ds ++ List.replicate n '0') :=
  ⟨List.append_ne_nil_of_left_ne_nil h.1 _, fun c hc => (List.mem_append.mp hc).elim (h.2 c)
    fun hzero => List.eq_of_mem_replicate hzero ▸ rfl⟩

theorem Grammar.Digits.zeros_append {ds : List Char} (h : Digits ds) (n : Nat) :
    Digits (List.replicate n '0' ++ ds) :=
  ⟨List.append_ne_nil_of_right_ne_nil _ h.1, fun c hc => (List.mem_append.mp hc).elim
    (fun hzero => List.eq_of_mem_replicate hzero ▸ rfl) (h.2 c)⟩

end RenderTrace.Json

namespace RenderTrace.Number.Decimal
open Json.Grammar (Digits)

/-- Digits that do not begin with a zero, unless that is all and no other zeros are written after it. -/
structure Proper (d : Decimal) : Prop where
  digits : Digits d.digits
  lead : d.digits.head? = some '0' → d.digits = ['0'] ∧
    (d.point ≤ 1 ∨ Style.document.exponentLimit < d.point)

/-! ## The digits that are found -/

theorem scaled_pos {num den base : Nat} (hnum : 0 < num) (hden : 0 < den) (hbase : 0 < base)
    (e : Int) : 0 < (scaled num den base e).1 ∧ 0 < (scaled num den base e).2 := by
  unfold scaled
  split
  · exact ⟨Nat.mul_pos hnum (Nat.pow_pos hbase), hden⟩
  · exact ⟨hnum, Nat.mul_pos hden (Nat.pow_pos hbase)⟩

theorem proper_trim {q : Nat} (hq : 0 < q) (k : Int) : Proper (ofScaled q k).trim := by
  obtain ⟨c, cs, hdigits, hc⟩ := Json.exists_toDigits hq
  have htrim : (ofScaled q k).trim.digits = (c :: cs).rdropWhile (· == '0') := by
    rw [← hdigits]
    rfl
  have hprefix : (c :: cs).rdropWhile (· == '0') <+: c :: cs := List.rdropWhile_prefix _ _
  have hne : (c :: cs).rdropWhile (· == '0') ≠ [] := by
    rw [ne_eq, List.rdropWhile_eq_nil_iff]
    intro hzeros
    exact hc (by simpa using hzeros c List.mem_cons_self)
  obtain ⟨d, ds, hds⟩ := List.exists_cons_of_ne_nil hne
  rw [hds] at htrim hprefix
  obtain ⟨rfl, -⟩ := List.cons_prefix_cons.mp hprefix
  refine ⟨⟨by rw [htrim]; exact List.cons_ne_nil _ _, fun x hx => ?_⟩, fun hhead => ?_⟩
  · rw [htrim] at hx
    exact Json.isDigit_of_mem (hdigits ▸ hprefix.subset hx)
  · rw [htrim] at hhead
    exact absurd (Option.some.inj hhead) hc

/-- A point of a grid lies in the interval. -/
def Interval.admits (i : Interval) (k : Int) (q : Nat) : Bool :=
  let unit := (scaled i.den 1 10 k).1
  let den := (scaled i.den 1 10 k).2
  if i.closed then i.low * den ≤ q * unit && q * unit ≤ i.high * den
  else i.low * den < q * unit && q * unit < i.high * den

theorem admits_of_onGrid? {i : Interval} {k : Int} {q : Nat} (h : i.onGrid? k = some q) :
    i.admits k q = true := by
  unfold Interval.onGrid? at h
  dsimp only at h
  split at h
  · next hq _ =>
    obtain rfl := Option.some.inj h
    exact hq
  · next hnext =>
    obtain rfl := Option.some.inj h
    exact hnext
  · next hq hnext =>
    obtain rfl := Option.some.inj h
    split_ifs
    · exact hq
    · exact hnext
    · exact hq
    · exact hnext
  · exact nomatch h

theorem pos_of_admits {i : Interval} (hlow : 0 < i.low) {k : Int} {q : Nat}
    (h : i.admits k q = true) : 0 < q := by
  have hden : 0 < (scaled i.den 1 10 k).2 := by
    unfold scaled
    split
    · exact Nat.one_pos
    · exact Nat.mul_pos Nat.one_pos (Nat.pow_pos (by decide))
  have hlowest : 0 < i.low * (scaled i.den 1 10 k).2 := Nat.mul_pos hlow hden
  refine Nat.pos_of_ne_zero ?_
  rintro rfl
  simp only [Interval.admits, Nat.zero_mul] at h
  split at h <;> simp only [Bool.and_eq_true, decide_eq_true_eq] at h <;> omega

/-! ## Digits to a fixed number of places -/

theorem two_pow_mul_le {num den : Nat} (hnum : 0 < num) {k : Nat}
    (h : (k : Int) + 1 ≤ Binary64.floorLog2 num den) : 2 ^ k * den ≤ num := by
  have hlogs : (k : Int) + 1 ≤ num.log2 - den.log2 := by
    unfold Binary64.floorLog2 at h
    dsimp only at h
    split at h <;> omega
  calc 2 ^ k * den ≤ 2 ^ k * 2 ^ (den.log2 + 1) := Nat.mul_le_mul_left _ Nat.lt_log2_self.le
    _ = 2 ^ (k + (den.log2 + 1)) := (Nat.pow_add 2 _ _).symm
    _ ≤ 2 ^ num.log2 := Nat.pow_le_pow_right (by decide) (by omega)
    _ ≤ num := Nat.log2_self_le (Nat.ne_of_gt hnum)

theorem roundHalfEven_pos {num den : Nat} (hden : 0 < den) (h : den ≤ num) :
    0 < roundHalfEven num den := by
  have hquotient : 0 < num / den := Nat.div_pos h hden
  unfold roundHalfEven
  dsimp only
  split_ifs <;> omega

/-- The estimate of the magnitude is never far off what it is taken from. -/
theorem magnitude_le (num den : Nat) :
    magnitude num den ≤ Binary64.floorLog2 num den * 30103 / 100000 + 2 ∧
      Binary64.floorLog2 num den * 30103 / 100000 ≤ magnitude num den := by
  unfold magnitude
  dsimp only
  split
  · omega
  split <;> omega

/-- Digits that are all zero can only be written where no more zeros follow. -/
theorem proper_rounded {num den : Nat} (hnum : 0 < num) (hden : 0 < den) :
    Proper (rounded num den maxDigits) := by
  unfold rounded
  rw [if_neg (Nat.ne_of_gt hnum)]
  dsimp only
  generalize hrounded : roundHalfEven _ _ = q
  refine ⟨Json.digits_toDigits_grammar q, fun hhead => ?_⟩
  have hdigits : Nat.toDigits 10 q = ['0'] := (Json.whole_toDigits q).2 hhead
  refine ⟨hdigits, ?_⟩
  have hpoint : (ofScaled q (magnitude num den - maxDigits)).point =
      magnitude num den - maxDigits + 1 := by
    rw [ofScaled, hdigits]
    rfl
  rw [hpoint]
  by_contra hbetween
  have hlimit : Style.document.exponentLimit = 16 := rfl
  have hmost : (maxDigits : Int) = 17 := rfl
  obtain ⟨hhigh, hlow⟩ := magnitude_le num den
  obtain ⟨j, hj⟩ : ∃ j : Nat, magnitude num den - maxDigits = j + 1 :=
    ⟨(magnitude num den - maxDigits - 1).toNat, by omega⟩
  have hunits : inUnits num den (magnitude num den - maxDigits) = (num, den * 10 ^ (j + 1)) := by
    rw [inUnits, scaled, hj, if_neg (by omega)]
    rfl
  have hpower : 10 ^ (j + 1) ≤ 2 ^ (4 * (j + 1)) := by
    rw [Nat.pow_mul]
    exact Nat.pow_le_pow_left (by decide) _
  have hle : den * 10 ^ (j + 1) ≤ num := by
    rw [Nat.mul_comm]
    exact (Nat.mul_le_mul_right den hpower).trans (two_pow_mul_le hnum (by omega))
  rw [hunits] at hrounded
  obtain ⟨c, cs, hcs, hc⟩ := Json.exists_toDigits
    (hrounded ▸ roundHalfEven_pos (Nat.mul_pos hden (Nat.pow_pos (by decide))) hle)
  rw [hcs] at hdigits
  exact hc (List.head_eq_of_cons_eq hdigits)

theorem proper_shortest {m : Nat} (hm : 0 < m) (e : Int) : Proper (shortest m e) := by
  have hlow : 0 < (interval m e).low := by
    refine (scaled_pos ?_ Nat.one_pos (by decide) _).1
    split <;> omega
  have hvalue : 0 < (interval m e).value := (scaled_pos (by omega) Nat.one_pos (by decide) _).1
  have hden : 0 < (interval m e).den := (scaled_pos Nat.one_pos Nat.one_pos (by decide) _).2
  unfold shortest
  rw [if_neg (Nat.ne_of_gt hm)]
  dsimp only
  split
  · next d hd =>
    obtain ⟨k, -, hk⟩ := List.exists_of_findSome?_eq_some hd
    obtain ⟨q, hq, rfl⟩ := Option.map_eq_some_iff.mp hk
    exact proper_trim (pos_of_admits hlow (admits_of_onGrid? hq)) k
  · exact proper_rounded hvalue hden

end RenderTrace.Number.Decimal

namespace RenderTrace.Json
open Grammar
open Number (Binary64 Decimal Style)

/-! ## Layouts -/

theorem Grammar.Digits.take {ds : List Char} (h : Digits ds) {n : Nat} (hn : 0 < n) :
    Digits (ds.take n) := by
  refine ⟨?_, fun c hc => h.2 c (List.mem_of_mem_take hc)⟩
  rw [ne_eq, List.take_eq_nil_iff, not_or]
  exact ⟨Nat.ne_of_gt hn, h.1⟩

theorem Grammar.Digits.drop {ds : List Char} (h : Digits ds) {n : Nat} (hn : n < ds.length) :
    Digits (ds.drop n) := by
  refine ⟨?_, fun c hc => h.2 c (List.mem_of_mem_drop hc)⟩
  rw [ne_eq, List.drop_eq_nil_iff]
  omega

theorem exponent_exponentText (e : Int) : Exponent ('e' :: (Style.exponentText e).toList) := by
  refine .inr ⟨'e', [if e < 0 then '-' else '+'], _, .inl rfl, ?_,
    (digits_toDigits_grammar e.natAbs).zeros_append (2 - (Nat.toDigits 10 e.natAbs).length), ?_⟩
  · split
    · exact .inr (.inr rfl)
    · exact .inr (.inl rfl)
  · rw [Style.exponentText, String.toList_ofList]
    rfl

theorem unsigned_layout {d : Decimal} (h : d.Proper) : Unsigned (Style.document.layout d).toList := by
  have hzero : Whole ['0'] := whole_toDigits 0
  have hpoint : Style.document.wholePoint = true := rfl
  unfold Style.layout
  dsimp only
  split
  · next hpositional =>
    split
    · -- all digits stand behind the point
      have hdigits := h.digits.zeros_append (-d.point).toNat
      have hunsigned := Unsigned.intro hzero (.inr ⟨_, hdigits, rfl⟩) (.inl rfl)
      simpa using hunsigned
    · next hpos =>
      split
      · next hlength =>
        -- zeros fill the digits up to the point
        have hwhole : Whole (d.digits ++ List.replicate (d.point.toNat - d.digits.length) '0') := by
          refine ⟨h.digits.append_zeros _, fun hhead => ?_⟩
          rw [List.head?_append_of_ne_nil _ h.digits.1] at hhead
          obtain ⟨hone, hpoint⟩ := h.lead hhead
          have hnone : d.point.toNat - d.digits.length = 0 := by
            rw [hone, List.length_singleton]
            omega
          rw [hnone, hone]
          rfl
        have hfraction : Fraction ['.', '0'] := .inr ⟨['0'], hzero.1, rfl⟩
        have hunsigned := Unsigned.intro hwhole hfraction (.inl rfl)
        simpa [hpoint] using hunsigned
      · next hlength =>
        -- the point stands between digits
        have hwhole : Whole (d.digits.take d.point.toNat) := by
          refine ⟨h.digits.take (by omega), fun hhead => ?_⟩
          rw [List.head?_take, if_neg (by omega)] at hhead
          rw [(h.lead hhead).1, List.length_singleton] at hlength
          omega
        have hdigits : Digits (d.digits.drop d.point.toNat) := h.digits.drop (by omega)
        have hunsigned := Unsigned.intro hwhole (.inr ⟨_, hdigits, rfl⟩) (.inl rfl)
        simpa using hunsigned
  · -- one digit stands before the point
    obtain ⟨c, cs, hcs⟩ := List.exists_cons_of_ne_nil h.digits.1
    have hwhole : Whole [c] := by
      refine ⟨⟨by simp, fun x hx => ?_⟩, fun hhead => ?_⟩
      · rw [List.mem_singleton.mp hx]
        exact h.digits.2 c (hcs ▸ List.mem_cons_self)
      · rw [Option.some.inj hhead]
    have hfraction : Fraction (if cs.isEmpty then [] else '.' :: cs) := by
      split
      · exact .inl rfl
      · next hne =>
        refine .inr ⟨cs, ⟨by simpa using hne, fun x hx => ?_⟩, rfl⟩
        exact h.digits.2 x (hcs ▸ List.mem_cons_of_mem c hx)
    have hunsigned := Unsigned.intro hwhole hfraction (exponent_exponentText (d.point - 1))
    rw [hcs]
    cases cs <;> simpa using hunsigned

theorem unsigned_magnitude (m : Nat) (e : Int) :
    Unsigned (Style.document.magnitude m e).toList := by
  unfold Style.magnitude
  split
  · have hzero : Whole ['0'] := whole_toDigits 0
    exact Unsigned.intro hzero (.inr ⟨['0'], hzero.1, rfl⟩) (.inl rfl)
  · next hm => exact unsigned_layout (Decimal.proper_shortest (Nat.pos_of_ne_zero hm) e)

/-! ## Numbers -/

theorem numeral_whole (n : Int) : Numeral (writeNumber (.whole n)) := by
  have hunsigned : Unsigned (Nat.toDigits 10 n.natAbs) := by
    simpa using Unsigned.intro (whole_toDigits n.natAbs) (.inl rfl) (.inl rfl)
  rw [writeNumber_whole]
  split
  · exact .negative hunsigned
  · exact .positive hunsigned

theorem numeral_double {x : Float} (h : x.isFinite = true) : Numeral (writeNumber (.double x)) := by
  obtain ⟨negative, m, e, hx⟩ := Binary64.ofFloat_finite_iff.mpr h
  rw [writeNumber, Style.write, hx]
  cases negative with
  | false => simpa using Numeral.positive (unsigned_magnitude m e)
  | true => simpa using Numeral.negative (unsigned_magnitude m e)

/-- The word for a double that is not finite begins with a letter, behind its sign. -/
theorem shows_double {x : Float} (h : ¬ x.isFinite = true) :
    Shows true (writeNumber (.double x)) := by
  have hword : Shows true "NaN".toList ∧ Shows true "Infinity".toList ∧
      Shows true "-Infinity".toList := by
    refine ⟨fun before => ?_, fun before => ?_, fun before => ?_⟩ <;> cases before <;> rfl
  rw [writeNumber, Style.write]
  cases hx : Binary64.ofFloat x with
  | finite negative m e => exact absurd (Binary64.ofFloat_finite_iff.mp ⟨_, _, _, hx⟩) h
  | nan => exact hword.1
  | infinite negative => cases negative with
    | false => exact hword.2.1
    | true => exact hword.2.2

end RenderTrace.Json
