import RenderTrace.Proofs.Number.Double
import RenderTrace.Proofs.Profile.Coverage
import RenderTrace.Proofs.Profile.MetricValues

/-!
# Slices apart from all samples

A slice that overlaps no sample interval (`Metric.Apart`) adds no time to a counter's average. The
loop over samples may still visit a sample there: an empty slice strictly inside an interval starts
before the interval ends and ends after it starts (`Metric.mem_visits_iff`). The value of such a
sample is multiplied by zero, which is harmless for a finite double but not for an infinity or for
what is not a number (`Metric.spoils`). So with the slice the average is what it is without it, or
it is not a number (`Metric.average_insert`); `Metric.value_insert_iff` says the same of the table
of metrics, and `Metric.value_insert_spoiled` has a table in which the two differ.
-/

namespace RenderTrace.Metric

/-- No sample interval has any time in common with the slice. -/
def Apart (s : Slice Int) (times : List Int) : Prop := ∀ v ∈ scan s times, v.2 = 0

/-- Some visited sample has a value that is not finite. -/
def spoils (s : Slice Int) (c : Counter Int Float) : Bool :=
  (visits s c.timestamps).any fun v => !(c.values.getD v.1 0).isFinite

/-! ## The samples that are visited -/

theorem mem_scan_of_visits {s : Slice Int} {times : List Int} {v : Nat × Int}
    (h : v ∈ visits s times) : v ∈ scan s times :=
  mem_scan_iff.mpr (mem_visits h)

/-- Visited are the samples whose intervals end after the start of the slice and start before its
end. -/
theorem mem_visits_iff {s : Slice Int} {times : List Int} (hsorted : times.Pairwise (· ≤ ·))
    {i : Nat} : overlapAt s times i ∈ visits s times ↔ 1 ≤ i ∧ i < times.length ∧
      s.start < times.getD i 0 ∧ times.getD (i - 1) 0 < s.start + s.duration := by
  obtain ⟨hle, hsep⟩ := Time.placeAfter_spec hsorted s.start
  have hinj : Function.Injective (overlapAt s times) := fun i j h => congrArg Prod.fst h
  rw [visits, List.mem_map_of_injective hinj]
  constructor
  · intro h
    have hrange := List.mem_range'_1.mp ((List.takeWhile_prefix _).subset h)
    refine ⟨by omega, by omega, hsep.after i (by omega) (by omega), ?_⟩
    simpa using List.mem_takeWhile_imp h
  · rintro ⟨hpos, hlt, hstart, hstop⟩
    have hplace : Time.placeAfter times s.start ≤ i := by
      by_contra hbefore
      have := hsep.before i (by omega)
      omega
    have hrange : i ∈ List.range' (max 1 (Time.placeAfter times s.start))
        (times.length - max 1 (Time.placeAfter times s.start)) := by
      rw [List.mem_range'_1]
      omega
    rw [← List.takeWhile_append_dropWhile (l := List.range' _ _), List.mem_append] at hrange
    refine hrange.resolve_right fun hdropped => ?_
    have hnot := not_of_mem_dropWhile (pairwise_starts hsorted _ _) i hdropped
    exact absurd hstop (by simpa using hnot)

theorem spoils_eq_false_iff {s : Slice Int} {c : Counter Int Float}
    (hsorted : c.timestamps.Pairwise (· ≤ ·)) : spoils s c = false ↔
      ∀ i, 1 ≤ i → i < c.timestamps.length → s.start < c.timestamps.getD i 0 →
        c.timestamps.getD (i - 1) 0 < s.start + s.duration →
        (c.values.getD i 0).isFinite = true := by
  simp only [spoils, List.any_eq_false, Bool.not_eq_true, Bool.not_eq_false']
  constructor
  · intro h i hpos hlt hstart hstop
    have hvalue := h _ ((mem_visits_iff hsorted).mpr ⟨hpos, hlt, hstart, hstop⟩)
    rwa [overlapAt] at hvalue
  · intro h v hv
    have hplace := (mem_visits hv).2.2
    rw [hplace, mem_visits_iff hsorted] at hv
    exact h v.1 hv.1 hv.2.1 hv.2.2.1 hv.2.2.2

/-! ## What such a slice comes to -/

theorem measure_zero : (measure (0 : Int) : Except Failure Float) = .ok 0 := by decide +kernel

theorem weigh_zero (x : Float) : (weigh x (0 : Int) : Except Failure Float) = .ok (x * 0) := by
  change (measure (0 : Int) >>= fun t => .ok (x * t)) = _
  rw [measure_zero]
  rfl

/-- Values that count for no time leave zero if all are finite, and no number otherwise. -/
theorem foldlM_visit_zero {values : List Float} {vs : List (Nat × Int)}
    (hzero : ∀ v ∈ vs, v.2 = 0) (hvalues : ∀ v ∈ vs, v.1 < values.length) (time : Int) {x : Float}
    (hx : x = 0 ∨ x = Float.nan) :
    vs.foldlM (Weighted.visit values) ⟨x, time⟩ = .ok
      (⟨if vs.any fun v => !(values.getD v.1 0).isFinite then Float.nan else x, time⟩ :
        Weighted Int Float) := by
  induction vs generalizing x with
  | nil => rfl
  | cons v vs ih =>
    obtain ⟨hv, hzero⟩ := List.forall_mem_cons.mp hzero
    obtain ⟨hlt, hvalues⟩ := List.forall_mem_cons.mp hvalues
    have hvalue : values[v.1]? = some (values.getD v.1 0) := by
      rw [List.getD_eq_getElem _ _ hlt, List.getElem?_eq_getElem hlt]
    have hvisit : Weighted.visit values ⟨x, time⟩ v =
        .ok (⟨x + values.getD v.1 0 * 0, time⟩ : Weighted Int Float) := by
      rw [Weighted.visit, hvalue, hv, Int.add_zero]
      simp only [weigh_zero]
      rfl
    rw [List.foldlM_cons, hvisit, List.any_cons]
    change vs.foldlM _ _ = _
    cases hfinite : (values.getD v.1 0).isFinite with
    | true =>
      have hsame : x + values.getD v.1 0 * 0 = x := by
        rcases hx with rfl | rfl
        · exact Double.zero_add_mul_zero hfinite
        · exact Double.nan_add _
      rw [hsame, ih hzero hvalues hx]
      rfl
    | false =>
      rw [Double.mul_zero_of_not_isFinite hfinite, Double.add_nan, ih hzero hvalues (.inr rfl)]
      simp

theorem weighted_of_apart {s : Slice Int} {c : Counter Int Float} (hapart : Apart s c.timestamps)
    (hvalues : ∀ v ∈ visits s c.timestamps, v.1 < c.values.length) :
    weighted s c = .ok (⟨if spoils s c then Float.nan else 0, 0⟩ : Weighted Int Float) := by
  rw [weighted_eq_foldlM]
  exact foldlM_visit_zero (fun v hv => hapart v (mem_scan_of_visits hv)) hvalues 0 (.inl rfl)

/-! ## Adding up -/

theorem foldl_add_ne_negativeZero {acc : Weighted Int Float} (h : acc.sum ≠ -0)
    (ws : List (Weighted Int Float)) : (ws.foldl Weighted.add acc).sum ≠ -0 := by
  induction ws generalizing acc with
  | nil => exact h
  | cons w ws ih => exact ih (Double.add_ne_negativeZero h w.sum)

theorem foldl_add_nan (acc : Weighted Int Float) (ws : List (Weighted Int Float)) :
    ws.foldl Weighted.add ⟨Float.nan, acc.time⟩ =
      ⟨Float.nan, (ws.foldl Weighted.add acc).time⟩ := by
  induction ws generalizing acc with
  | nil => rfl
  | cons w ws ih =>
    rw [List.foldl_cons, List.foldl_cons, ← ih (acc.add w), Weighted.add, Double.nan_add]
    rfl

theorem weightedOver_insert {s : Slice Int} {c : Counter Int Float}
    (hapart : Apart s c.timestamps)
    (hvalues : ∀ v ∈ visits s c.timestamps, v.1 < c.values.length) (before after : List (Slice Int)) :
    (weightedOver (before ++ s :: after) c : Except Failure (Weighted Int Float)) =
      (weightedOver (before ++ after) c).map fun w =>
        ⟨if spoils s c then Float.nan else w.sum, w.time⟩ := by
  rw [weightedOver_eq, weightedOver_eq, List.mapM_append, List.mapM_append, List.mapM_cons,
    weighted_of_apart hapart hvalues]
  cases before.mapM fun s => (weighted s c : Except Failure (Weighted Int Float)) with
  | error f => rfl
  | ok ws =>
    cases after.mapM fun s => (weighted s c : Except Failure (Weighted Int Float)) with
    | error f => rfl
    | ok ws' =>
      simp only [bind, Except.bind, pure, Except.pure, Except.map, List.foldl_append,
        List.foldl_cons]
      have hne : (ws.foldl Weighted.add .zero : Weighted Int Float).sum ≠ -0 :=
        foldl_add_ne_negativeZero (by decide +kernel) ws
      generalize (ws.foldl Weighted.add .zero : Weighted Int Float) = acc at hne ⊢
      cases spoils s c with
      | true =>
        have hadd : acc.add ⟨Float.nan, 0⟩ = ⟨Float.nan, acc.time⟩ := by
          rw [Weighted.add, Double.add_nan, Int.add_zero]
        simp only [if_true, hadd, foldl_add_nan]
      | false =>
        have hadd : acc.add ⟨0, 0⟩ = acc := by
          rw [Weighted.add, Double.add_zero hne, Int.add_zero]
        simp only [Bool.false_eq_true, if_false, hadd]

theorem average_insert {s : Slice Int} {c : Counter Int Float} (hapart : Apart s c.timestamps)
    (hvalues : ∀ v ∈ visits s c.timestamps, v.1 < c.values.length) (before after : List (Slice Int)) :
    (average? (before ++ s :: after) c : Except Failure (Option Float)) =
      (average? (before ++ after) c).map (Option.map fun x =>
        if spoils s c then Float.nan else x) := by
  rw [average?, average?, weightedOver_insert hapart hvalues]
  cases (weightedOver (before ++ after) c : Except Failure (Weighted Int Float)) with
  | error f => rfl
  | ok w =>
    simp only [bind, Except.bind, Except.map]
    split
    · cases (measure w.time : Except Failure Float) with
      | error f => rfl
      | ok x => cases spoils s c <;> simp [pure, Except.pure, Double.nan_div]
    · rfl

/-- A slice of a group that is apart from all samples of a counter changes nothing about its average
but that it may not be a number any more. The group has the same value with the slice as without it
just if every value at a sample strictly around the slice is finite, or there was no number to
begin with. -/
theorem value_insert_iff (s : Slice Int) (c : Counter Int Float)
    (hsorted : c.timestamps.Pairwise (· ≤ ·)) (hapart : Apart s c.timestamps) :
    (∀ before after, (∀ v ∈ visits s c.timestamps, v.1 < c.values.length) →
      (average? (before ++ s :: after) c : Except Failure (Option Float)) =
        (average? (before ++ after) c).map (Option.map fun x =>
          if spoils s c then Float.nan else x)) ∧
    -- in the table of metrics
    ∀ (before after : List (Slice Int)) (tracks : List (Track Int)) (groups : Groups Int)
      (counters : List (Counter Int Float)) (place j : Nat) (m m' : MetricTable Int Float),
      counters[j]? = some c →
      (∃ g, groups.list[place]? = some g ∧ g.id = s.groupId ∧ g.id ≠ noGroup) →
      MetricTable.ofSlices ⟨before ++ s :: after, tracks, groups⟩ counters = .ok m →
      MetricTable.ofSlices ⟨before ++ after, tracks, groups⟩ counters = .ok m' →
      (m.value? place (firstCounterMetric + j) = m'.value? place (firstCounterMetric + j) ↔
        (∀ i, 1 ≤ i → i < c.timestamps.length → s.start < c.timestamps.getD i 0 →
          c.timestamps.getD (i - 1) 0 < s.start + s.duration →
          (c.values.getD i 0).isFinite = true) ∨
        ∀ x, m'.value? place (firstCounterMetric + j) = some x → x.isNaN = true) := by
  refine ⟨fun before after hvalues => average_insert hapart hvalues before after, ?_⟩
  rintro before after tracks groups counters place j m m' hc ⟨g, hg, hid, hne⟩ hm hm'
  have haverage := MetricTable.average_of_ofSlices hm hg hc
  have haverage' := MetricTable.average_of_ofSlices hm' hg hc
  rw [slicesOf_append _ _ _ _ hne] at haverage haverage'
  rw [List.filter_cons_of_pos (by simp [hid])] at haverage
  -- the visited samples have values, as the average could be had
  have hvalues : ∀ v ∈ visits s c.timestamps, v.1 < c.values.length := by
    obtain ⟨w, hw⟩ := exists_weightedOver_iff.mp (exists_weightedOver_of_average haverage) s
      (List.mem_append_right _ List.mem_cons_self)
    exact lt_length_of_weighted hw
  rw [average_insert hapart hvalues, haverage'] at haverage
  rw [← Except.ok.inj haverage, ← spoils_eq_false_iff hsorted]
  cases spoils s c with
  | true =>
    cases m'.value? place (firstCounterMetric + j) <;>
      simp [Float.isNaN_eq_decide_eq_nan, eq_comm]
  | false => simp

def work (start duration : Int) : Slice Int :=
  ⟨0, start, duration, "vertex", 0, 0, 0, 0, 0, 0, 0, 0⟩

def oneGroup : Groups Int := ⟨[⟨0, "", ⟨0, 1⟩⟩], []⟩

/-- A counter that ends with a value. -/
def rising (last : Float) : Counter Int Float := ⟨3, "load", "%", "", none, [0, 10, 20], [0, 2, last]⟩

/-- An empty slice at a finite sample makes no difference. -/
theorem value_insert_iff_sample :
    (rising 4).timestamps.Pairwise (· ≤ ·) ∧ Apart (work 15 0) (rising 4).timestamps ∧
      ∃ m m' : MetricTable Int Float,
        MetricTable.ofSlices ⟨[work 0 10, work 15 0], [], oneGroup⟩ [rising 4] = .ok m ∧
        MetricTable.ofSlices ⟨[work 0 10], [], oneGroup⟩ [rising 4] = .ok m' ∧
        m.value? 0 2 = m'.value? 0 2 := by
  have hsorted : (rising 4).timestamps.Pairwise (· ≤ ·) := by decide
  have hapart : Apart (work 15 0) (rising 4).timestamps := by unfold Apart; decide
  have hok : (MetricTable.ofSlices ⟨[work 0 10, work 15 0], [], oneGroup⟩ [rising 4] :
      Except Failure (MetricTable Int Float)).isOk = true := by decide +kernel
  have hok' : (MetricTable.ofSlices ⟨[work 0 10], [], oneGroup⟩ [rising 4] :
      Except Failure (MetricTable Int Float)).isOk = true := by decide +kernel
  obtain ⟨m, hm⟩ := exists_eq_ok hok
  obtain ⟨m', hm'⟩ := exists_eq_ok hok'
  refine ⟨hsorted, hapart, m, m', hm, hm', ?_⟩
  refine ((value_insert_iff (work 15 0) (rising 4) hsorted hapart).2 [work 0 10] [] [] oneGroup
    [rising 4] 0 0 m m' rfl ⟨_, rfl, rfl, by decide⟩ hm hm').mpr (.inl fun i hpos hlt _ _ => ?_)
  have hlt : i < 3 := hlt
  interval_cases i <;> decide +kernel

/-- At an infinite one it turns the average of the group into no number. -/
theorem value_insert_spoiled :
    (rising (1 / 0)).timestamps.Pairwise (· ≤ ·) ∧ Apart (work 15 0) (rising (1 / 0)).timestamps ∧
      (MetricTable.ofSlices ⟨[work 0 10, work 15 0], [], oneGroup⟩ [rising (1 / 0)]).map
        (fun m => m.value? 0 2) = .ok (some Float.nan) ∧
      (MetricTable.ofSlices ⟨[work 0 10], [], oneGroup⟩ [rising (1 / 0)]).map
        (fun m => m.value? 0 2) = .ok (some (2 : Float)) := by
  refine ⟨by decide, by unfold Apart; decide, by decide +kernel, by decide +kernel⟩

end RenderTrace.Metric
