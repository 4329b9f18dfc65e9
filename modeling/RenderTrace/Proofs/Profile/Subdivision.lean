import RenderTrace.Proofs.Profile.Mean

/-!
# Time cut up

What exact metrics come to does not depend on how time is cut up. A slice counts as much as the two
parts that it is cut into (`Metric.Cut`), and a sample counts as much as two samples with its value
that share its interval (`Counter.insertSample`), at sample boundaries and with empty parts as well.
-/

namespace RenderTrace

/-- A sample added at a place, before the one that is there. -/
def Counter.insertSample {V : Type} (c : Counter Int V) (i : Nat) (time : Int) (value : V) :
    Counter Int V :=
  { c with timestamps := c.timestamps.insertIdx i time, values := c.values.insertIdx i value }

namespace Metric

/-- A slice and two parts of it, one up to some time and one from then on. -/
structure Cut (s first second : Slice Int) : Prop where
  first_group : first.groupId = s.groupId
  second_group : second.groupId = s.groupId
  first_start : first.start = s.start
  second_start : second.start = first.start + first.duration
  stop : second.start + second.duration = s.start + s.duration
  first_nonneg : 0 ≤ first.duration
  second_nonneg : 0 ≤ second.duration

/-! ## A slice in two parts -/

theorem max?_append_of_le {a b : Int} (hab : a ≤ b) (xs ys : List Int) :
    (xs ++ a :: b :: ys).max? = (xs ++ b :: ys).max? := by
  induction xs with
  | nil =>
    simp only [List.nil_append, List.max?_cons]
    cases ys.max? <;> simp <;> omega
  | cons x xs ih => rw [List.cons_append, List.cons_append, List.max?_cons, List.max?_cons, ih]

theorem min?_append_of_le {a b : Int} (hab : a ≤ b) (xs ys : List Int) :
    (xs ++ a :: b :: ys).min? = (xs ++ a :: ys).min? := by
  induction xs with
  | nil =>
    simp only [List.nil_append, List.min?_cons]
    cases ys.min? <;> simp <;> omega
  | cons x xs ih => rw [List.cons_append, List.cons_append, List.min?_cons, List.min?_cons, ih]

section Cut
variable {s first second : Slice Int} (h : Cut s first second)
include h

theorem Cut.common_eq (a b : Int) : common s.start (s.start + s.duration) a b =
    common first.start (first.start + first.duration) a b +
      common second.start (second.start + second.duration) a b := by
  have hstart := h.first_start
  have hmiddle := h.second_start
  have hstop := h.stop
  have hfirst := h.first_nonneg
  have hsecond := h.second_nonneg
  unfold common
  omega

theorem Cut.sum_scan (times : List Int) (value : Nat → Rat) :
    ((scan s times).map fun v => value v.1 * v.2).sum =
      ((scan first times).map fun v => value v.1 * v.2).sum +
        ((scan second times).map fun v => value v.1 * v.2).sum := by
  simp only [scan, List.map_map, ← List.sum_map_add]
  refine congrArg List.sum (List.map_congr_left fun i _ => ?_)
  simp only [Function.comp, overlapAt, h.common_eq, Int.cast_add, mul_add]

theorem Cut.mean_eq (before after : List (Slice Int)) (c : Counter Int Rat) :
    mean? (before ++ s :: after) c = mean? (before ++ first :: second :: after) c := by
  have htime : coveredTime (before ++ s :: after) c.timestamps =
      coveredTime (before ++ first :: second :: after) c.timestamps := by
    simp [coveredTime, covered, h.common_eq, add_assoc]
  have hsum : weightedSum (before ++ s :: after) c =
      weightedSum (before ++ first :: second :: after) c := by
    have hscan := h.sum_scan c.timestamps (c.values.getD · 0)
    simp only [weightedSum, List.map_append, List.map_cons, List.sum_append, List.sum_cons, hscan,
      add_assoc]
  rw [mean?, mean?, htime, hsum]

theorem Cut.deviceTime_eq (before after : List (Slice Int)) :
    deviceTime (before ++ s :: after) = deviceTime (before ++ first :: second :: after) := by
  have hduration : s.duration = first.duration + second.duration := by
    have hstart := h.first_start
    have hmiddle := h.second_start
    have hstop := h.stop
    omega
  simp [deviceTime, hduration, add_assoc]

theorem Cut.wallTime_eq (before after : List (Slice Int)) :
    wallTime (before ++ s :: after) = wallTime (before ++ first :: second :: after) := by
  have hstart : first.start ≤ second.start := by
    have := h.second_start
    have := h.first_nonneg
    omega
  have hstop : first.start + first.duration ≤ second.start + second.duration := by
    have := h.second_start
    have := h.second_nonneg
    omega
  simp only [wallTime, List.map_append, List.map_cons]
  rw [max?_append_of_le hstop, min?_append_of_le hstart, h.stop, h.first_start]

theorem Cut.exactValues_eq (before after : List (Slice Int)) (counters : List (Counter Int Rat)) :
    exactValues (before ++ s :: after) counters =
      exactValues (before ++ first :: second :: after) counters := by
  have hmeans : counters.map (mean? (before ++ s :: after)) =
      counters.map (mean? (before ++ first :: second :: after)) :=
    List.map_congr_left fun c _ => h.mean_eq before after c
  simp [exactValues, exactTimes, hmeans, h.deviceTime_eq, h.wallTime_eq]

theorem Cut.exactValues_slicesOf (before after : List (Slice Int)) (tracks : List (Track Int))
    (groups : Groups Int) (counters : List (Counter Int Rat)) (id : Int) :
    exactValues (slicesOf ⟨before ++ s :: after, tracks, groups⟩ id) counters =
      exactValues (slicesOf ⟨before ++ first :: second :: after, tracks, groups⟩ id) counters := by
  by_cases hnone : id = noGroup
  · subst hnone
    simp [slicesOf]
  rw [slicesOf_append _ _ _ _ hnone, slicesOf_append _ _ _ _ hnone]
  by_cases hid : s.groupId = id
  · rw [List.filter_cons_of_pos (by simp [hid]), List.filter_cons_of_pos (by simp [h.first_group, hid]),
      List.filter_cons_of_pos (by simp [h.second_group, hid]), h.exactValues_eq]
  · rw [List.filter_cons_of_neg (by simp [hid]), List.filter_cons_of_neg (by simp [h.first_group, hid]),
      List.filter_cons_of_neg (by simp [h.second_group, hid])]

end Cut

/-! ## A sample in two parts -/

section insertIdx
variable {α : Type} {l : List α} {i k : Nat} {a d : α}

theorem getD_insertIdx_of_lt (h : k < i) : (l.insertIdx i a).getD k d = l.getD k d := by
  rw [List.getD_eq_getElem?_getD, List.getElem?_insertIdx_of_lt h, List.getD_eq_getElem?_getD]

theorem getD_insertIdx_self (h : i ≤ l.length) : (l.insertIdx i a).getD i d = a := by
  rw [List.getD_eq_getElem?_getD, List.getElem?_insertIdx_self, if_pos h, Option.getD_some]

theorem getD_insertIdx_succ (h : i ≤ k) : (l.insertIdx i a).getD (k + 1) d = l.getD k d := by
  rw [List.getD_eq_getElem?_getD, List.getElem?_insertIdx_of_gt (by omega), Nat.add_sub_cancel,
    List.getD_eq_getElem?_getD]

theorem pairwise_insertIdx {R : α → α → Prop} (h : l.Pairwise R) (hbefore : ∀ x ∈ l.take i, R x a)
    (hafter : ∀ x ∈ l.drop i, R a x) : (l.insertIdx i a).Pairwise R := by
  induction i generalizing l with
  | zero => exact List.pairwise_cons.mpr ⟨hafter, h⟩
  | succ i ih =>
    cases l with
    | nil => exact .nil
    | cons b l =>
      obtain ⟨hb, hl⟩ := List.pairwise_cons.mp h
      obtain ⟨hba, hbefore⟩ := List.forall_mem_cons.mp hbefore
      rw [List.insertIdx_succ_cons, List.pairwise_cons]
      refine ⟨fun x hx => ?_, ih hl hbefore hafter⟩
      rcases List.eq_or_mem_of_mem_insertIdx hx with rfl | hx
      · exact hba
      · exact hb x hx

end insertIdx

theorem sum_range'_insert {f f' : Nat → Rat} {i : Nat} (hpos : 1 ≤ i)
    (hbefore : ∀ k < i, f' k = f k) (hat : f' i + f' (i + 1) = f i)
    (hafter : ∀ k, i < k → f' (k + 1) = f k) (m : Nat) :
    ((List.range' 1 (i + m + 1)).map f').sum = ((List.range' 1 (i + m)).map f).sum := by
  induction m with
  | zero =>
    obtain ⟨n, rfl⟩ : ∃ n, i = n + 1 := ⟨i - 1, by omega⟩
    have hfront : (List.range' 1 n).map f' = (List.range' 1 n).map f :=
      List.map_congr_left fun k hk => hbefore k (by rw [List.mem_range'_1] at hk; omega)
    simp only [List.range'_1_concat, List.map_append, List.sum_append, hfront,
      List.map_cons, List.map_nil, List.sum_singleton, Nat.add_comm 1, add_assoc, hat]
  | succ m ih =>
    rw [← Nat.add_assoc, List.range'_1_concat, List.map_append, List.sum_append, ih,
      List.range'_1_concat, List.map_append, List.sum_append]
    simp [Nat.add_comm 1, hafter (i + m + 1) (by omega)]

section insertSample
variable {times : List Int} {i : Nat} {time : Int} (hpos : 1 ≤ i) (hlt : i < times.length)
  (hprevious : times.getD (i - 1) 0 ≤ time) (hnext : time ≤ times.getD i 0)
include hpos hlt

theorem covered_insertIdx (s : Slice Int) : covered s (times.insertIdx i time) = covered s times := by
  have hlength : (times.insertIdx i time).length - 1 = times.length - 1 + 1 := by
    rw [List.length_insertIdx, if_pos hlt.le]
    omega
  rw [covered, covered, hlength, getD_insertIdx_of_lt (by omega), getD_insertIdx_succ (by omega)]

include hprevious hnext

theorem sum_scan_insertIdx (s : Slice Int) {values : List Rat} (hvalue : i < values.length) :
    ((scan s (times.insertIdx i time)).map fun v =>
      (values.insertIdx i (values.getD i 0)).getD v.1 0 * v.2).sum =
      ((scan s times).map fun v => values.getD v.1 0 * v.2).sum := by
  obtain ⟨m, hm⟩ : ∃ m, times.length = i + m + 1 := ⟨times.length - i - 1, by omega⟩
  have hlength : (times.insertIdx i time).length - 1 = i + m + 1 := by
    rw [List.length_insertIdx, if_pos hlt.le]
    omega
  simp only [scan, List.map_map, hlength, hm, Nat.add_sub_cancel, Function.comp_def, overlapAt]
  apply sum_range'_insert hpos
  · intro k hk
    rw [getD_insertIdx_of_lt hk, getD_insertIdx_of_lt hk, getD_insertIdx_of_lt (by omega)]
  · rw [getD_insertIdx_self hvalue.le, getD_insertIdx_succ le_rfl, getD_insertIdx_self hlt.le,
      getD_insertIdx_of_lt (by omega), Nat.add_sub_cancel, getD_insertIdx_self hlt.le,
      getD_insertIdx_succ le_rfl, ← mul_add, ← Int.cast_add, common_add_common hprevious hnext]
  · intro k hk
    obtain ⟨n, rfl⟩ : ∃ n, k = n + 1 := ⟨k - 1, by omega⟩
    rw [getD_insertIdx_succ hk.le, getD_insertIdx_succ hk.le, Nat.add_sub_cancel,
      getD_insertIdx_succ (by omega), Nat.add_sub_cancel]

theorem sorted_insertIdx (hsorted : times.Pairwise (· ≤ ·)) :
    (times.insertIdx i time).Pairwise (· ≤ ·) := by
  refine pairwise_insertIdx hsorted (fun x hx => ?_) fun x hx => ?_
  · obtain ⟨j, hj, rfl⟩ := List.mem_take_iff_getElem.mp hx
    have hle := Time.getD_le_getD hsorted (i := j) (j := i - 1) (by omega) (by omega)
    rw [List.getD_eq_getElem _ _ (by omega)] at hle
    exact hle.trans hprevious
  · obtain ⟨j, hj, rfl⟩ := List.mem_drop_iff_getElem.mp hx
    have hle := Time.getD_le_getD hsorted (i := i) (j := i + j) (by omega) (by omega)
    rw [List.getD_eq_getElem _ _ (by omega : i + j < times.length)] at hle
    exact hnext.trans hle

end insertSample

theorem mean_insertSample {c : Counter Int Rat} {i : Nat} {time : Int} {value : Rat} (hpos : 1 ≤ i)
    (hlt : i < c.timestamps.length) (hprevious : c.timestamps.getD (i - 1) 0 ≤ time)
    (hnext : time ≤ c.timestamps.getD i 0) (hvalue : c.values[i]? = some value)
    (slices : List (Slice Int)) : mean? slices (c.insertSample i time value) = mean? slices c := by
  obtain ⟨hin, hget⟩ := List.getElem?_eq_some_iff.mp hvalue
  have hgetD : value = c.values.getD i 0 := by rw [List.getD_eq_getElem _ _ hin, hget]
  have htime : coveredTime slices (c.timestamps.insertIdx i time) =
      coveredTime slices c.timestamps := by
    simp only [coveredTime, covered_insertIdx hpos hlt]
  have hsum : weightedSum slices (c.insertSample i time value) = weightedSum slices c := by
    simp only [weightedSum, Counter.insertSample, hgetD,
      sum_scan_insertIdx hpos hlt hprevious hnext _ hin]
  simp only [mean?, hsum]
  rw [Counter.insertSample, htime]

end Metric

namespace MetricTable
open RenderTrace.Metric

variable {t t' : SliceTable Int} {counters counters' : List (Counter Int Rat)}

/-- Tables with the same exact averages are the same, and they can be had if every sample has a
value. -/
theorem agree_of_ofMeans_eq (hsorted : ∀ c ∈ counters, c.timestamps.Pairwise (· ≤ ·))
    (hsorted' : ∀ c ∈ counters', c.timestamps.Pairwise (· ≤ ·))
    (heq : ofMeans t counters = ofMeans t' counters') :
    (∀ m m' : MetricTable Int Rat, ofSlices t counters = .ok m → ofSlices t' counters' = .ok m' →
      m = m') ∧
    ((∀ c ∈ counters, c.timestamps.length ≤ c.values.length) →
      (∀ c ∈ counters', c.timestamps.length ≤ c.values.length) →
      ∃ m : MetricTable Int Rat, ofSlices t counters = .ok m ∧ ofSlices t' counters' = .ok m) := by
  have hsame : ∀ m m' : MetricTable Int Rat, ofSlices t counters = .ok m →
      ofSlices t' counters' = .ok m' → m = m' := by
    intro m m' hm hm'
    rw [ofSlices_eq_ofMeans hsorted hm, ofSlices_eq_ofMeans hsorted' hm', heq]
  refine ⟨hsame, fun hvalues hvalues' => ?_⟩
  obtain ⟨m, hm⟩ := exists_ofSlices (t := t) hvalues
  obtain ⟨m', hm'⟩ := exists_ofSlices (t := t') hvalues'
  obtain rfl := hsame m m' hm hm'
  exact ⟨m, hm, hm'⟩

theorem ofMeans_cut {s first second : Slice Int} (h : Cut s first second)
    (before after : List (Slice Int)) (tracks : List (Track Int)) (groups : Groups Int) :
    ofMeans ⟨before ++ s :: after, tracks, groups⟩ counters =
      ofMeans ⟨before ++ first :: second :: after, tracks, groups⟩ counters := by
  simp only [ofMeans, h.exactValues_slicesOf before after tracks groups]

theorem ofMeans_insertSample {j i : Nat} {c : Counter Int Rat} {time : Int} {value : Rat}
    (hc : counters[j]? = some c) (hpos : 1 ≤ i) (hlt : i < c.timestamps.length)
    (hprevious : c.timestamps.getD (i - 1) 0 ≤ time) (hnext : time ≤ c.timestamps.getD i 0)
    (hvalue : c.values[i]? = some value) :
    ofMeans t (counters.set j (c.insertSample i time value)) = ofMeans t counters := by
  have hmeans : ∀ slices, (counters.set j (c.insertSample i time value)).map (mean? slices) =
      counters.map (mean? slices) := fun slices =>
    map_set_eq hc (mean_insertSample hpos hlt hprevious hnext hvalue slices)
  simp only [ofMeans, exactValues, hmeans]
  rw [Counter.insertSample, all_set hc]

/-- Exact metrics do not depend on how time is cut up. The table is the same if a slice is replaced
by two parts of it, and if a sample is added that shares the interval and the value of another. -/
theorem eq_of_subdivided :
    (∀ (before after : List (Slice Int)) (s first second : Slice Int) (tracks : List (Track Int))
      (groups : Groups Int) (counters : List (Counter Int Rat)),
      Cut s first second → (∀ c ∈ counters, c.timestamps.Pairwise (· ≤ ·)) →
      (∀ m m' : MetricTable Int Rat,
        ofSlices ⟨before ++ s :: after, tracks, groups⟩ counters = .ok m →
        ofSlices ⟨before ++ first :: second :: after, tracks, groups⟩ counters = .ok m' → m = m') ∧
      ((∀ c ∈ counters, c.timestamps.length ≤ c.values.length) → ∃ m : MetricTable Int Rat,
        ofSlices ⟨before ++ s :: after, tracks, groups⟩ counters = .ok m ∧
        ofSlices ⟨before ++ first :: second :: after, tracks, groups⟩ counters = .ok m)) ∧
    ∀ (t : SliceTable Int) (counters : List (Counter Int Rat)) (j i : Nat) (c : Counter Int Rat)
      (previous time next : Int) (value : Rat),
      (∀ c ∈ counters, c.timestamps.Pairwise (· ≤ ·)) → counters[j]? = some c → 1 ≤ i →
      c.timestamps[i - 1]? = some previous → c.timestamps[i]? = some next →
      previous ≤ time → time ≤ next → c.values[i]? = some value →
      (∀ m m' : MetricTable Int Rat, ofSlices t counters = .ok m →
        ofSlices t (counters.set j (c.insertSample i time value)) = .ok m' → m = m') ∧
      ((∀ c ∈ counters, c.timestamps.length ≤ c.values.length) → ∃ m : MetricTable Int Rat,
        ofSlices t counters = .ok m ∧
        ofSlices t (counters.set j (c.insertSample i time value)) = .ok m) := by
  refine ⟨fun before after s first second tracks groups counters hcut hsorted => ?_,
    fun t counters j i c previous time next value hsorted hc hpos hbefore hat hprevious hnext
      hvalue => ?_⟩
  · obtain ⟨hsame, hexists⟩ :=
      agree_of_ofMeans_eq hsorted hsorted (ofMeans_cut hcut before after tracks groups)
    exact ⟨hsame, fun hvalues => hexists hvalues hvalues⟩
  · obtain ⟨hlt, rfl⟩ := List.getElem?_eq_some_iff.mp hat
    have hprevious : c.timestamps.getD (i - 1) 0 ≤ time := by
      rwa [List.getD_eq_getElem?_getD, hbefore]
    have hnext : time ≤ c.timestamps.getD i 0 := by rwa [List.getD_eq_getElem _ _ hlt]
    have hsorted' : ∀ d ∈ counters.set j (c.insertSample i time value),
        d.timestamps.Pairwise (· ≤ ·) := by
      intro d hd
      rcases List.mem_or_eq_of_mem_set hd with hd | rfl
      · exact hsorted d hd
      · exact sorted_insertIdx hpos hlt hprevious hnext (hsorted c (List.mem_of_getElem? hc))
    have hmeans := ofMeans_insertSample (t := t) hc hpos hlt hprevious hnext hvalue
    obtain ⟨hsame, hexists⟩ := agree_of_ofMeans_eq hsorted hsorted' hmeans.symm
    refine ⟨hsame, fun hvalues => hexists hvalues fun d hd => ?_⟩
    rcases List.mem_or_eq_of_mem_set hd with hd | rfl
    · exact hvalues d hd
    · have hlength := hvalues c (List.mem_of_getElem? hc)
      simp only [Counter.insertSample, List.length_insertIdx]
      split <;> split <;> omega

/-- A cut at a sample, and a sample added between two others. -/
theorem eq_of_subdivided_sample :
    Cut sampleSlice { sampleSlice with duration := 5 }
        { sampleSlice with start := 10, duration := 5 } ∧
      sampleCounter.timestamps.Pairwise (· ≤ ·) ∧
      sampleCounter.timestamps.length ≤ sampleCounter.values.length ∧
      (∃ m : MetricTable Int Rat,
        ofSlices ⟨[sampleSlice], [], sampleTable.groups⟩ [sampleCounter] = .ok m ∧
        ofSlices ⟨[{ sampleSlice with duration := 5 },
          { sampleSlice with start := 10, duration := 5 }], [], sampleTable.groups⟩
          [sampleCounter] = .ok m) ∧
      ∃ m : MetricTable Int Rat, ofSlices sampleTable [sampleCounter] = .ok m ∧
        ofSlices sampleTable [sampleCounter.insertSample 3 12 4] = .ok m := by
  have hcut : Cut sampleSlice { sampleSlice with duration := 5 }
      { sampleSlice with start := 10, duration := 5 } := by
    constructor <;> decide
  have hsorted : ∀ c ∈ [sampleCounter], c.timestamps.Pairwise (· ≤ ·) :=
    List.forall_mem_singleton.mpr (by decide)
  have hlength : ∀ c ∈ [sampleCounter], c.timestamps.length ≤ c.values.length :=
    List.forall_mem_singleton.mpr (by decide)
  obtain ⟨hslice, hsample⟩ := eq_of_subdivided
  refine ⟨hcut, hsorted _ List.mem_cons_self, hlength _ List.mem_cons_self, ?_, ?_⟩
  · exact (hslice [] [] _ _ _ [] _ _ hcut hsorted).2 hlength
  · exact (hsample _ [sampleCounter] 0 3 sampleCounter 10 12 20 4 hsorted rfl (by decide) rfl rfl
      (by decide) (by decide) rfl).2 hlength

end MetricTable
end RenderTrace
