import Mathlib.Data.List.GetD
import RenderTrace.Profile.Time

/-!
# Bisection

Of ascending times `Time.placeAfter` gives the place that separates those up to a given time from
those after it (`placeAfter_spec`). The invariant of the search: the times before `low` are up to
the given one, those from `high` on are after it.
-/

namespace RenderTrace.Time

/-- The times before a place are up to `t`, those from it on are after `t`. -/
structure Separates (times : List Int) (t : Int) (low high : Nat) : Prop where
  before : ∀ i < low, times.getD i 0 ≤ t
  after : ∀ i, high ≤ i → i < times.length → t < times.getD i 0

theorem getD_le_getD {times : List Int} (hsorted : times.Pairwise (· ≤ ·)) {i j : Nat} (hij : i ≤ j)
    (hj : j < times.length) : times.getD i 0 ≤ times.getD j 0 := by
  have hi : i < times.length := by omega
  rw [List.getD_eq_getElem _ _ hi, List.getD_eq_getElem _ _ hj]
  rcases Nat.eq_or_lt_of_le hij with rfl | hlt
  · exact Int.le_refl _
  · exact List.pairwise_iff_getElem.mp hsorted i j hi hj hlt

theorem getD_toArray (times : List Int) (i : Nat) : times.toArray.getD i 0 = times.getD i 0 := by
  rw [Array.getD_eq_getD_getElem?, List.getD_eq_getElem?_getD, List.getElem?_toArray]

/-- The search keeps what it knows about the times on both sides. -/
theorem firstAfter_spec {times : List Int} (hsorted : times.Pairwise (· ≤ ·)) (t : Int)
    (low high : Nat) (hle : low ≤ high) (hhigh : high ≤ times.length)
    (hsep : Separates times t low high) :
    firstAfter times.toArray t low high ≤ times.length ∧
      Separates times t (firstAfter times.toArray t low high)
        (firstAfter times.toArray t low high) := by
  fun_induction firstAfter times.toArray t low high with
  | case1 low high hlt middle hafter ih =>
    have hmiddle : middle < high := by omega
    rw [getD_toArray] at hafter
    refine ih (by omega) (by omega) ⟨hsep.before, fun i hi hlen => ?_⟩
    exact Int.lt_of_lt_of_le hafter (getD_le_getD hsorted hi hlen)
  | case2 low high hlt middle hbefore ih =>
    have hmiddle : middle < high := by omega
    rw [getD_toArray] at hbefore
    refine ih (by omega) hhigh ⟨fun i hi => ?_, hsep.after⟩
    exact Int.le_trans (getD_le_getD hsorted (by omega) (by omega)) (Int.not_lt.mp hbefore)
  | case3 low high hge =>
    obtain rfl : low = high := by omega
    exact ⟨hhigh, hsep⟩

theorem placeAfter_spec {times : List Int} (hsorted : times.Pairwise (· ≤ ·)) (t : Int) :
    placeAfter times t ≤ times.length ∧
      Separates times t (placeAfter times t) (placeAfter times t) := by
  refine firstAfter_spec hsorted t 0 times.length (Nat.zero_le _) (Nat.le_refl _)
    ⟨fun i hi => ?_, fun i hi hlen => ?_⟩
  · exact absurd hi (Nat.not_lt_zero i)
  · exact absurd hlen (Nat.not_lt.mpr hi)

end RenderTrace.Time
