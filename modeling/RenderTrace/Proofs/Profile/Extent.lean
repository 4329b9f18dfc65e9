import Mathlib.Data.Int.Interval
import RenderTrace.Proofs.Profile.Mean

/-!
# The extent of slices

The wall time of slices is the length of the interval from their first start up to their last end
(`Metric.Extent`). Slices at different times fit into it side by side, so that together they take no
longer (`Metric.deviceTime_le_card`), and the samples of a counter cover no more of them than there is
(`Metric.coveredTime_le_deviceTime`). `Metric.times_bounds` states this of the groups of a table.
-/

namespace RenderTrace

/-- A slice runs from its start on, and no longer at its end. -/
def Slice.RunsAt (s : Slice Int) (time : Int) : Prop :=
  s.start ≤ time ∧ time < s.start + s.duration

/-- Two slices run at no time both. -/
def Slice.Disjoint (a b : Slice Int) : Prop := ∀ time, a.RunsAt time → ¬ b.RunsAt time

theorem Slice.disjoint_of_le {a b : Slice Int}
    (h : a.start + a.duration ≤ b.start ∨ b.start + b.duration ≤ a.start) : a.Disjoint b := by
  rintro time ⟨hstart, hstop⟩ ⟨hstart', hstop'⟩
  omega

theorem exists_interval (a b : Int) : ∃ times : Finset Int,
    (∀ time, time ∈ times ↔ a ≤ time ∧ time < b) ∧ (times.card : Int) = max 0 (b - a) := by
  refine ⟨Finset.Ico a b, fun time => Finset.mem_Ico, ?_⟩
  rw [Int.card_Ico]
  omega

namespace Metric

variable {slices slices' : List (Slice Int)} {first last : Int}

/-! ## The first start and the last end -/

/-- Some slices start first at one time and end last at another. -/
structure Extent (slices : List (Slice Int)) (first last : Int) : Prop where
  start_mem : first ∈ slices.map Slice.start
  first_le : ∀ s ∈ slices, first ≤ s.start
  stop_mem : last ∈ slices.map fun s => s.start + s.duration
  le_last : ∀ s ∈ slices, s.start + s.duration ≤ last

theorem Extent.min? (h : Extent slices first last) : (slices.map Slice.start).min? = some first :=
  List.min?_eq_some_iff.mpr ⟨h.start_mem, List.forall_mem_map.mpr h.first_le⟩

theorem Extent.max? (h : Extent slices first last) :
    (slices.map fun s => s.start + s.duration).max? = some last :=
  List.max?_eq_some_iff.mpr ⟨h.stop_mem, List.forall_mem_map.mpr h.le_last⟩

theorem Extent.wallTime_eq (h : Extent slices first last) : wallTime slices = last - first := by
  rw [wallTime, h.min?, h.max?]
  rfl

theorem exists_extent (hne : slices ≠ []) : ∃ first last, Extent slices first last := by
  have hstarts : slices.map Slice.start ≠ [] := mt List.map_eq_nil_iff.mp hne
  have hstops : (slices.map fun s => s.start + s.duration) ≠ [] := mt List.map_eq_nil_iff.mp hne
  obtain ⟨first, hfirst⟩ := Option.ne_none_iff_exists'.mp (mt List.min?_eq_none_iff.mp hstarts)
  obtain ⟨last, hlast⟩ := Option.ne_none_iff_exists'.mp (mt List.max?_eq_none_iff.mp hstops)
  obtain ⟨hstart, hle⟩ := List.min?_eq_some_iff.mp hfirst
  obtain ⟨hstop, hge⟩ := List.max?_eq_some_iff.mp hlast
  exact ⟨first, last, hstart, fun s hs => hle _ (List.mem_map_of_mem hs), hstop,
    fun s hs => hge _ (List.mem_map_of_mem hs)⟩

theorem Extent.perm (h : Extent slices first last) (hperm : slices.Perm slices') :
    Extent slices' first last where
  start_mem := (hperm.map _).mem_iff.mp h.start_mem
  first_le s hs := h.first_le s (hperm.mem_iff.mpr hs)
  stop_mem := (hperm.map _).mem_iff.mp h.stop_mem
  le_last s hs := h.le_last s (hperm.mem_iff.mpr hs)

theorem wallTime_perm (hperm : slices.Perm slices') : wallTime slices' = wallTime slices := by
  by_cases hne : slices = []
  · subst hne
    rw [List.nil_perm.mp hperm]
  · obtain ⟨first, last, h⟩ := exists_extent hne
    rw [(h.perm hperm).wallTime_eq, h.wallTime_eq]

theorem Extent.duration_le (h : Extent slices first last) {s : Slice Int} (hs : s ∈ slices) :
    s.duration ≤ wallTime slices := by
  rw [h.wallTime_eq]
  have hstart := h.first_le s hs
  have hstop := h.le_last s hs
  omega

theorem Extent.within (h : Extent slices first last) {s : Slice Int} (hs : s ∈ slices) {time : Int}
    (hruns : s.RunsAt time) : first ≤ time ∧ time < last :=
  ⟨(h.first_le s hs).trans hruns.1, hruns.2.trans_le (h.le_last s hs)⟩

/-! ## Slices side by side -/

/-- Slices at different times, all among some times, take no longer than these. -/
theorem deviceTime_le_card (hnonneg : ∀ s ∈ slices, 0 ≤ s.duration)
    (hdisjoint : slices.Pairwise Slice.Disjoint) {times : Finset Int}
    (hin : ∀ s ∈ slices, ∀ time, s.RunsAt time → time ∈ times) : deviceTime slices ≤ times.card := by
  induction slices generalizing times with
  | nil => exact Int.natCast_nonneg _
  | cons s slices ih =>
    obtain ⟨hs, hslices⟩ := List.forall_mem_cons.mp hnonneg
    obtain ⟨hsin, hslicesin⟩ := List.forall_mem_cons.mp hin
    obtain ⟨hapart, hrest⟩ := List.pairwise_cons.mp hdisjoint
    obtain ⟨span, hspan, hlength⟩ := exists_interval s.start (s.start + s.duration)
    have hsub : span ⊆ times := fun time h => hsin time ((hspan time).mp h)
    -- the other slices run at the times that the first one leaves
    have hothers : deviceTime slices ≤ (times \ span).card := by
      apply ih hslices hrest
      intro r hr time hruns
      refine Finset.mem_sdiff.mpr ⟨hslicesin r hr time hruns, fun h => ?_⟩
      exact hapart r hr time ((hspan time).mp h) hruns
    have hcard := Finset.card_sdiff_add_card_eq_card hsub
    rw [deviceTime, List.map_cons, List.sum_cons, ← deviceTime]
    omega

theorem Extent.deviceTime_le (h : Extent slices first last)
    (hnonneg : ∀ s ∈ slices, 0 ≤ s.duration) (hdisjoint : slices.Pairwise Slice.Disjoint) :
    deviceTime slices ≤ wallTime slices := by
  obtain ⟨times, htimes, hlength⟩ := exists_interval first last
  have hcard := deviceTime_le_card hnonneg hdisjoint fun s hs time hruns =>
    (htimes time).mpr (h.within hs hruns)
  have hordered : first ≤ last := by
    obtain ⟨s, hs, rfl⟩ := List.mem_map.mp h.start_mem
    have hstop := h.le_last s hs
    have hduration := hnonneg s hs
    omega
  rw [h.wallTime_eq]
  omega

/-! ## Slices that samples cover -/

theorem coveredTime_le_deviceTime (hnonneg : ∀ s ∈ slices, 0 ≤ s.duration) (times : List Int) :
    coveredTime slices times ≤ deviceTime slices :=
  List.sum_le_sum fun s hs => covered_le_duration (hnonneg s hs)

section Weighted

variable {V W : Type} [Weighing Int V W] [Add W]

theorem time_foldl_add (acc : Weighted Int W) (ws : List (Weighted Int W)) :
    (ws.foldl Weighted.add acc).time = acc.time + (ws.map Weighted.time).sum := by
  induction ws generalizing acc with
  | nil => simp
  | cons w ws ih =>
    rw [List.foldl_cons, ih, List.map_cons, List.sum_cons, ← add_assoc]
    rfl

variable [OfNat W 0] {c : Counter Int V}

theorem time_of_weightedOver (hsorted : c.timestamps.Pairwise (· ≤ ·)) {w : Weighted Int W}
    (h : weightedOver slices c = .ok w) : w.time = coveredTime slices c.timestamps := by
  rw [weightedOver_eq] at h
  obtain ⟨ws, hws, rfl⟩ := map_eq_ok.mp h
  have htimes : ws.map Weighted.time = slices.map fun s => covered s c.timestamps := by
    have hweighed := mapM_eq_ok_iff.mp hws
    clear h hws
    induction hweighed with
    | nil => rfl
    | cons hw _ ih => rw [List.map_cons, List.map_cons, ih, time_of_weighted hsorted hw]
  rw [time_foldl_add, htimes]
  exact Int.zero_add _

end Weighted

/-! ## Groups -/

section Groups

variable {t : SliceTable Int} {id : Int}

theorem mem_of_mem_slicesOf {s : Slice Int} (h : s ∈ slicesOf t id) : s ∈ t.slices := by
  unfold slicesOf at h
  split at h
  · exact absurd h List.not_mem_nil
  · exact (List.mem_filter.mp h).1

theorem slicesOf_perm {t' : SliceTable Int} (h : t.slices.Perm t'.slices) :
    (slicesOf t id).Perm (slicesOf t' id) := by
  unfold slicesOf
  split
  · exact .nil
  · exact h.filter _

/-- What is measured for a group with slices is its device time and its wall time. The wall time is no
shorter than any of its slices, and the order of the slices has no part in it; the device time is no
longer if the slices run at different times. The time for which a counter is weighed, where its samples
have values that can be, is no longer than the device time. -/
theorem times_bounds {V W : Type} [Measure Int W] [Weighing Int V W] [Add W] [OfNat W 0]
    (hnonneg : ∀ s ∈ t.slices, 0 ≤ s.duration) (hne : slicesOf t id ≠ []) :
    times (slicesOf t id) = (do
      let device ← measure (deviceTime (slicesOf t id))
      let wall ← measure (wallTime (slicesOf t id))
      return [(0, device), (1, wall)] : Except Failure (List (Int × W))) ∧
    (∀ s ∈ slicesOf t id, s.duration ≤ wallTime (slicesOf t id)) ∧
    (∀ t' : SliceTable Int, t.slices.Perm t'.slices →
      wallTime (slicesOf t' id) = wallTime (slicesOf t id)) ∧
    ((slicesOf t id).Pairwise Slice.Disjoint →
      deviceTime (slicesOf t id) ≤ wallTime (slicesOf t id)) ∧
    ∀ c : Counter Int V, c.timestamps.Pairwise (· ≤ ·) →
      ((∃ w : Weighted Int W, weightedOver (slicesOf t id) c = .ok w) ↔
        ∀ s ∈ slicesOf t id, ∀ v ∈ visits s c.timestamps,
          ∃ x, c.values[v.1]? = some x ∧ ∃ y : W, weigh x v.2 = .ok y) ∧
      ∀ w : Weighted Int W, weightedOver (slicesOf t id) c = .ok w →
        w.time ≤ deviceTime (slicesOf t id) := by
  have hdurations : ∀ s ∈ slicesOf t id, 0 ≤ s.duration := fun s hs =>
    hnonneg s (mem_of_mem_slicesOf hs)
  obtain ⟨first, last, hextent⟩ := exists_extent hne
  refine ⟨times_eq_bind hne, fun s => hextent.duration_le, fun t' h => wallTime_perm (slicesOf_perm h),
    hextent.deviceTime_le hdurations, fun c hsorted => ⟨?_, fun w hw => ?_⟩⟩
  · rw [exists_weightedOver_iff]
    exact forall₂_congr fun s _ => exists_weighted_iff
  · rw [time_of_weightedOver hsorted hw]
    exact coveredTime_le_deviceTime hdurations _

/-- One group of three slices that are not in order of time, one of them without a duration. -/
def sampleSlices : SliceTable Int :=
  ⟨[sampleSlice, { sampleSlice with start := 0, duration := 4 },
    { sampleSlice with start := 15, duration := 0 }], [], ⟨[⟨0, "", ⟨0, 1⟩⟩], []⟩⟩

theorem times_bounds_sample :
    (∀ s ∈ sampleSlices.slices, 0 ≤ s.duration) ∧ slicesOf sampleSlices 0 ≠ [] ∧
      deviceTime (slicesOf sampleSlices 0) ≤ wallTime (slicesOf sampleSlices 0) ∧
      sampleSlice.duration ≤ wallTime (slicesOf sampleSlices 0) ∧
      wallTime (slicesOf { sampleSlices with slices := sampleSlices.slices.reverse } 0) =
        wallTime (slicesOf sampleSlices 0) ∧
      ∃ w : Weighted Int Rat, weightedOver (slicesOf sampleSlices 0) sampleCounter = .ok w ∧
        w.time ≤ deviceTime (slicesOf sampleSlices 0) := by
  have hnonneg : ∀ s ∈ sampleSlices.slices, 0 ≤ s.duration := by decide
  have hne : slicesOf sampleSlices 0 ≠ [] := List.cons_ne_nil _ _
  have hordered : (slicesOf sampleSlices 0).Pairwise fun a b =>
      a.start + a.duration ≤ b.start ∨ b.start + b.duration ≤ a.start := by decide
  have hdisjoint := hordered.imp Slice.disjoint_of_le
  have hsorted : sampleCounter.timestamps.Pairwise (· ≤ ·) := by decide
  obtain ⟨-, hduration, horder, hdevice, hcounter⟩ := times_bounds (V := Rat) (W := Rat) hnonneg hne
  obtain ⟨hexists, htime⟩ := hcounter sampleCounter hsorted
  obtain ⟨w, hw⟩ := hexists.mpr fun s _ v hv => by
    have hin : v.1 < sampleCounter.values.length := (mem_visits hv).2.1
    exact ⟨_, List.getElem?_eq_getElem hin, _, rfl⟩
  exact ⟨hnonneg, hne, hdevice hdisjoint, hduration _ List.mem_cons_self,
    horder _ (List.reverse_perm _).symm, w, hw, htime w hw⟩

end Groups
end Metric
end RenderTrace
