import RenderTrace.Proofs.Query.Outcome
import RenderTrace.Proofs.Profile.Scan

/-!
# The time that samples cover

The sample intervals of a counter lie end to end, so their overlaps with a slice add up to the
overlap with all of them together (`sum_common`, a telescoping sum). The loop over samples comes to
that time, `Metric.covered`, wherever it starts and stops (`time_of_weighted`); it comes to an end
just if every sample that it visits has a value that can be weighed (`exists_weighted_iff`).
-/

namespace RenderTrace.Metric

/-- The overlap of a slice with the time from the first sample to the last. -/
def covered (s : Slice Int) (times : List Int) : Int :=
  common s.start (s.start + s.duration) (times.getD 0 0) (times.getD (times.length - 1) 0)

/-! ## Intervals end to end -/

section common
variable {start stop a b c : Int}

theorem common_nonneg : 0 ≤ common start stop a b := Int.le_max_left ..

theorem common_self : common start stop a a = 0 := by
  unfold common
  omega

theorem common_add_common (hab : a ≤ b) (hbc : b ≤ c) :
    common start stop a b + common start stop b c = common start stop a c := by
  unfold common
  omega

theorem common_le_length (h : start ≤ stop) (a b : Int) :
    common start stop a b ≤ stop - start := by
  unfold common
  omega

end common

theorem sum_common (s : Slice Int) {times : List Int} (hsorted : times.Pairwise (· ≤ ·)) {k : Nat}
    (hk : k = 0 ∨ k < times.length) :
    (((List.range' 1 k).map (overlapAt s times)).map (·.2)).sum =
      common s.start (s.start + s.duration) (times.getD 0 0) (times.getD k 0) := by
  induction k with
  | zero => exact common_self.symm
  | succ k ih =>
    have hlt : k + 1 < times.length := by omega
    have hfirst := Time.getD_le_getD hsorted (i := 0) (j := k) (by omega) (by omega)
    have hnext := Time.getD_le_getD hsorted (i := k) (j := k + 1) (by omega) hlt
    rw [List.range'_1_concat, List.map_append, List.map_append, List.sum_append, ih (by omega),
      ← common_add_common hfirst hnext, Nat.add_comm 1 k]
    simp [overlapAt]

theorem sum_scan (s : Slice Int) {times : List Int} (hsorted : times.Pairwise (· ≤ ·)) :
    ((scan s times).map (·.2)).sum = covered s times :=
  sum_common s hsorted (by omega)

theorem covered_nonneg {s : Slice Int} {times : List Int} : 0 ≤ covered s times := common_nonneg

theorem covered_nil (s : Slice Int) : covered s [] = 0 := common_self

theorem covered_eq (s : Slice Int) {times : List Int} (h : times ≠ []) : covered s times =
    max 0 (min (s.start + s.duration) (times.getLast h) - max s.start (times.head h)) := by
  have hpos := List.length_pos_iff.mpr h
  rw [covered, common, List.getD_eq_getElem _ _ hpos, List.getD_eq_getElem _ _ (by omega),
    List.getLast_eq_getElem, List.head_eq_getElem]

theorem covered_le_duration {s : Slice Int} {times : List Int} (h : 0 ≤ s.duration) :
    covered s times ≤ s.duration := by
  have hstop : s.start ≤ s.start + s.duration := by omega
  have := common_le_length hstop (times.getD 0 0) (times.getD (times.length - 1) 0)
  rw [covered]
  omega

/-! ## What the loop comes to -/

theorem visits_nil (s : Slice Int) : visits s [] = [] := by simp [visits]

section loop
variable {V W : Type} [Weighing Int V W] [Add W]

theorem exists_foldlM_visit_iff {values : List V} {vs : List (Nat × Int)}
    {acc : Weighted Int W} :
    (∃ w, vs.foldlM (Weighted.visit values) acc = .ok w) ↔
      ∀ v ∈ vs, ∃ x, values[v.1]? = some x ∧ ∃ y : W, weigh x v.2 = .ok y := by
  induction vs generalizing acc with
  | nil => simp [pure, Except.pure]
  | cons v vs ih =>
    rw [List.foldlM_cons, List.forall_mem_cons]
    simp only [bind_eq_ok]
    constructor
    · rintro ⟨w, a, ha, hw⟩
      refine ⟨?_, ih.mp ⟨w, hw⟩⟩
      rw [Weighted.visit] at ha
      cases hvalue : values[v.1]? with
      | none => simp [hvalue] at ha
      | some x =>
        simp only [hvalue, bind_eq_ok] at ha
        obtain ⟨y, hy, -⟩ := ha
        exact ⟨x, rfl, y, hy⟩
    · rintro ⟨⟨x, hx, y, hy⟩, hvs⟩
      obtain ⟨w, hw⟩ := ih.mpr hvs
      refine ⟨w, ⟨acc.sum + y, acc.time + v.2⟩, ?_, hw⟩
      rw [Weighted.visit, hx]
      simp only [hy]
      rfl

variable [OfNat W 0]

theorem exists_weighted_iff {s : Slice Int} {c : Counter Int V} :
    (∃ w : Weighted Int W, weighted s c = .ok w) ↔
      ∀ v ∈ visits s c.timestamps, ∃ x, c.values[v.1]? = some x ∧ ∃ y : W, weigh x v.2 = .ok y := by
  rw [weighted_eq_foldlM, exists_foldlM_visit_iff]

theorem lt_length_of_weighted {s : Slice Int} {c : Counter Int V} {w : Weighted Int W}
    (h : weighted s c = .ok w) : ∀ v ∈ visits s c.timestamps, v.1 < c.values.length := by
  intro v hv
  obtain ⟨x, hx, -⟩ := exists_weighted_iff.mp ⟨w, h⟩ v hv
  exact (List.getElem?_eq_some_iff.mp hx).1

theorem time_of_weighted {s : Slice Int} {c : Counter Int V}
    (hsorted : c.timestamps.Pairwise (· ≤ ·)) {w : Weighted Int W} (h : weighted s c = .ok w) :
    w.time = covered s c.timestamps := by
  rw [weighted_eq_foldlM] at h
  rw [time_of_foldlM_visit h, sum_visits s hsorted (·.2) fun _ h => h, sum_scan s hsorted]
  exact Int.zero_add _

/-- The loop over samples comes to a result just if the samples that it visits have values that can
be weighed, and then to the time that the slice has in common with all samples together: nothing is
counted twice and nothing is lost. -/
theorem weighted_time_eq (s : Slice Int) (c : Counter Int V)
    (hsorted : c.timestamps.Pairwise (· ≤ ·)) :
    ((∃ w : Weighted Int W, weighted s c = .ok w) ↔
      ∀ v ∈ visits s c.timestamps, ∃ x, c.values[v.1]? = some x ∧ ∃ y : W, weigh x v.2 = .ok y) ∧
    (c.timestamps = [] → weighted s c = .ok (Weighted.zero : Weighted Int W)) ∧
    ∀ w : Weighted Int W, weighted s c = .ok w →
      (∀ h : c.timestamps ≠ [], w.time = max 0 (min (s.start + s.duration) (c.timestamps.getLast h) -
        max s.start (c.timestamps.head h))) ∧
      (c.timestamps = [] → w.time = 0) ∧
      (0 ≤ s.duration → w.time ≤ s.duration) := by
  refine ⟨exists_weighted_iff, fun hnil => ?_, fun w hw => ?_⟩
  · rw [weighted_eq_foldlM, hnil, visits_nil]
    rfl
  · rw [time_of_weighted hsorted hw]
    exact ⟨covered_eq s, fun hnil => hnil ▸ covered_nil s, covered_le_duration⟩

end loop

/-- A slice that starts and ends between samples, two of which are at one time. -/
theorem weighted_time_eq_sample :
    sampleCounter.timestamps.Pairwise (· ≤ ·) ∧
      ∃ w : Weighted Int Rat, weighted sampleSlice sampleCounter = .ok w ∧ w.time = 10 := by
  have hsorted : sampleCounter.timestamps.Pairwise (· ≤ ·) := by decide
  obtain ⟨hiff, -, htime⟩ := weighted_time_eq (W := Rat) sampleSlice sampleCounter hsorted
  obtain ⟨w, hw⟩ := hiff.mpr fun v hv => by
    have hin : v.1 < sampleCounter.values.length := (mem_visits hv).2.1
    exact ⟨_, List.getElem?_eq_getElem hin, _, rfl⟩
  exact ⟨hsorted, w, hw, ((htime w hw).1 (by decide)).trans (by decide)⟩

end RenderTrace.Metric
