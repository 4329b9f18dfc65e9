import Mathlib.Algebra.Order.BigOperators.Group.List
import Mathlib.Algebra.Order.Field.Rat
import Mathlib.Algebra.Order.Field.Basic
import Mathlib.Data.List.ReduceOption
import Mathlib.Data.Set.Finite.Lemmas
import RenderTrace.Proofs.Profile.Coverage
import RenderTrace.Proofs.Profile.MetricValues

/-!
# Averages of exact values

Over exact values the average of a counter over some slices is one quotient (`Metric.mean?`): the
values at all samples, each times the overlap of its interval with each slice, over the time that the
slices have in common with the counter. The table that is computed is the one with these averages
(`MetricTable.ofMeans`), so what is true of the quotient is true of the table. The main statement here
is `MetricTable.value_bounds`: a group has a value just if one of its slices overlaps the samples,
and then one between the least and the greatest of the values whose intervals it overlaps.
-/

namespace RenderTrace

/-! ## One element replaced -/

theorem set_eq_self {α : Type} {l : List α} {j : Nat} {a : α} (h : l[j]? = some a) :
    l.set j a = l := by
  obtain ⟨hlt, rfl⟩ := List.getElem?_eq_some_iff.mp h
  exact List.set_getElem_self hlt

theorem mapIdx_set_eq {α β : Type} {f : Nat → α → β} {l : List α} {j : Nat} {a a' : α}
    (ha : l[j]? = some a) (h : f j a' = f j a) : (l.set j a').mapIdx f = l.mapIdx f := by
  rw [List.mapIdx_set, h]
  exact set_eq_self (by rw [List.getElem?_mapIdx, ha]; rfl)

theorem map_set_eq {α β : Type} {f : α → β} {l : List α} {j : Nat} {a a' : α}
    (ha : l[j]? = some a) (h : f a' = f a) : (l.set j a').map f = l.map f := by
  rw [List.map_set, h]
  exact set_eq_self (by rw [List.getElem?_map, ha]; rfl)

theorem mapM_set_eq {ε α β : Type} {f : α → Except ε β} {l : List α} {j : Nat} {a a' : α}
    (ha : l[j]? = some a) (h : f a' = f a) : (l.set j a').mapM f = l.mapM f := by
  have hmap : ∀ l : List α, l.mapM f = (l.map f).mapM fun x => x := fun l => by
    rw [List.mapM_map]
    rfl
  rw [hmap, hmap, map_set_eq ha h]

namespace Metric

def weightedSum (slices : List (Slice Int)) (c : Counter Int Rat) : Rat :=
  (slices.map fun s => ((scan s c.timestamps).map fun v => c.values.getD v.1 0 * v.2).sum).sum

def coveredTime (slices : List (Slice Int)) (times : List Int) : Int :=
  (slices.map fun s => covered s times).sum

def mean? (slices : List (Slice Int)) (c : Counter Int Rat) : Option Rat :=
  if 0 < coveredTime slices c.timestamps then
    some (weightedSum slices c / coveredTime slices c.timestamps)
  else none

/-- A sample whose interval overlaps one of some slices. -/
def Touched (slices : List (Slice Int)) (times : List Int) (i : Nat) : Prop :=
  1 ≤ i ∧ i < times.length ∧
    ∃ s ∈ slices, 0 < common s.start (s.start + s.duration) (times.getD (i - 1) 0) (times.getD i 0)

/-! ## What is computed -/

theorem weighted_exact {s : Slice Int} {c : Counter Int Rat}
    (hsorted : c.timestamps.Pairwise (· ≤ ·)) {w : Weighted Int Rat} (h : weighted s c = .ok w) :
    w = ⟨((scan s c.timestamps).map fun v => c.values.getD v.1 0 * v.2).sum,
      covered s c.timestamps⟩ := by
  have hin := lt_length_of_weighted h
  rw [weighted_eq_foldlM, foldlM_visit_exact hin,
    sum_visits s hsorted (·.2) fun _ h => h, sum_scan s hsorted,
    sum_visits s hsorted (fun v => c.values.getD v.1 0 * v.2) fun v h => by simp [h]] at h
  rw [← Except.ok.inj h]
  simp [Weighted.zero]

theorem weightedOver_exact {slices : List (Slice Int)} {c : Counter Int Rat}
    (hsorted : c.timestamps.Pairwise (· ≤ ·)) {w : Weighted Int Rat}
    (h : weightedOver slices c = .ok w) :
    w = ⟨weightedSum slices c, coveredTime slices c.timestamps⟩ := by
  rw [weightedOver_eq] at h
  cases hmap : slices.mapM fun s => (weighted s c : Except Failure (Weighted Int Rat)) with
  | error f => rw [hmap] at h; exact nomatch h
  | ok ws =>
    rw [hmap] at h
    rw [← Except.ok.inj h]
    have hws := mapM_eq_ok_iff.mp hmap
    clear h hmap
    -- on from every sum
    have hfrom : ∀ acc : Weighted Int Rat, ws.foldl Weighted.add acc =
        ⟨acc.sum + weightedSum slices c, acc.time + coveredTime slices c.timestamps⟩ := by
      induction hws with
      | nil => intro acc; simp [weightedSum, coveredTime]
      | cons hw _ ih =>
        intro acc
        rw [List.foldl_cons, ih, weighted_exact hsorted hw]
        simp only [Weighted.add, weightedSum, coveredTime, List.map_cons, List.sum_cons, add_assoc]
    refine (hfrom .zero).trans ?_
    simp [Weighted.zero]

theorem average_exact {slices : List (Slice Int)} {c : Counter Int Rat}
    (hsorted : c.timestamps.Pairwise (· ≤ ·)) {a : Option Rat} (h : average? slices c = .ok a) :
    a = mean? slices c := by
  obtain ⟨w, hw⟩ := exists_weightedOver_of_average h
  rw [average?, hw, weightedOver_exact hsorted hw] at h
  rw [mean?]
  change (if 0 < coveredTime slices c.timestamps then _ else _) = _ at h
  by_cases hpos : 0 < coveredTime slices c.timestamps
  · rw [if_pos hpos] at h ⊢
    exact (Except.ok.inj h).symm
  · rw [if_neg hpos] at h ⊢
    exact (Except.ok.inj h).symm

/-! ## When there is an average -/

theorem covered_pos_iff {s : Slice Int} {times : List Int} : 0 < covered s times ↔
    ∃ h : times ≠ [], 0 < min (s.start + s.duration) (times.getLast h) -
      max s.start (times.head h) := by
  constructor
  · intro hpos
    have hne : times ≠ [] := by
      rintro rfl
      rw [covered_nil] at hpos
      omega
    rw [covered_eq s hne] at hpos
    exact ⟨hne, by omega⟩
  · rintro ⟨hne, hpos⟩
    rw [covered_eq s hne]
    omega

theorem coveredTime_pos_iff {slices : List (Slice Int)} {times : List Int} :
    0 < coveredTime slices times ↔ ∃ s ∈ slices, 0 < covered s times := by
  induction slices with
  | nil => simp [coveredTime]
  | cons s slices ih =>
    have hs : 0 ≤ covered s times := covered_nonneg
    have hslices : 0 ≤ coveredTime slices times := List.sum_nonneg fun x hx => by
      obtain ⟨s, -, rfl⟩ := List.mem_map.mp hx
      exact covered_nonneg
    have hsum : coveredTime (s :: slices) times = covered s times + coveredTime slices times := rfl
    rw [List.exists_mem_cons_iff, ← ih, hsum]
    omega

theorem mean_eq_some_iff {slices : List (Slice Int)} {c : Counter Int Rat} {x : Rat} :
    mean? slices c = some x ↔ 0 < coveredTime slices c.timestamps ∧
      x = weightedSum slices c / coveredTime slices c.timestamps := by
  rw [mean?]
  split
  next hpos => simp [hpos, eq_comm]
  next hnot => simp [hnot]

theorem exists_mean_iff {slices : List (Slice Int)} {c : Counter Int Rat} :
    (∃ x, mean? slices c = some x) ↔ ∃ s ∈ slices, 0 < covered s c.timestamps := by
  simp only [← coveredTime_pos_iff, mean_eq_some_iff, exists_and_left, exists_eq, and_true]

/-! ## Bounds -/

theorem nonneg_of_mem_scan {s : Slice Int} {times : List Int} {v : Nat × Int}
    (h : v ∈ scan s times) : 0 ≤ v.2 := by
  rw [(mem_scan_iff.mp h).2.2]
  exact common_nonneg

theorem touched_of_mem_scan {slices : List (Slice Int)} {s : Slice Int} (hs : s ∈ slices)
    {times : List Int} {v : Nat × Int} (hv : v ∈ scan s times) (hpos : 0 < v.2) :
    Touched slices times v.1 := by
  obtain ⟨hfirst, hlt, heq⟩ := mem_scan_iff.mp hv
  rw [heq] at hpos
  exact ⟨hfirst, hlt, s, hs, hpos⟩

theorem sum_mul_bounds (value : Nat → Rat) {low high : Rat} {vs : List (Nat × Int)}
    (hvs : ∀ v ∈ vs, 0 ≤ v.2) (h : ∀ v ∈ vs, 0 < v.2 → low ≤ value v.1 ∧ value v.1 ≤ high) :
    low * ((vs.map (·.2)).sum : Int) ≤ (vs.map fun v => value v.1 * v.2).sum ∧
      (vs.map fun v => value v.1 * v.2).sum ≤ high * ((vs.map (·.2)).sum : Int) := by
  induction vs with
  | nil => simp
  | cons v vs ih =>
    obtain ⟨hv, hvs⟩ := List.forall_mem_cons.mp hvs
    obtain ⟨hbounds, h⟩ := List.forall_mem_cons.mp h
    obtain ⟨hlow, hhigh⟩ := ih hvs h
    have hterm : low * v.2 ≤ value v.1 * v.2 ∧ value v.1 * v.2 ≤ high * v.2 := by
      rcases hv.eq_or_lt with hzero | hpos
      · simp [← hzero]
      · have hnonneg : (0 : Rat) ≤ v.2 := Int.cast_nonneg hv
        exact ⟨mul_le_mul_of_nonneg_right (hbounds hpos).1 hnonneg,
          mul_le_mul_of_nonneg_right (hbounds hpos).2 hnonneg⟩
    simp only [List.map_cons, List.sum_cons, Int.cast_add, mul_add]
    exact ⟨add_le_add hterm.1 hlow, add_le_add hterm.2 hhigh⟩

theorem weightedSum_bounds {slices : List (Slice Int)} {c : Counter Int Rat}
    (hsorted : c.timestamps.Pairwise (· ≤ ·)) {low high : Rat}
    (h : ∀ i, Touched slices c.timestamps i → low ≤ c.values.getD i 0 ∧ c.values.getD i 0 ≤ high) :
    low * coveredTime slices c.timestamps ≤ weightedSum slices c ∧
      weightedSum slices c ≤ high * coveredTime slices c.timestamps := by
  induction slices with
  | nil => simp [coveredTime, weightedSum]
  | cons s slices ih =>
    have hbounds : ∀ v ∈ scan s c.timestamps, 0 < v.2 →
        low ≤ c.values.getD v.1 0 ∧ c.values.getD v.1 0 ≤ high :=
      fun v hv hpos => h v.1 (touched_of_mem_scan List.mem_cons_self hv hpos)
    have hscan := sum_mul_bounds (c.values.getD · 0) (fun v hv => nonneg_of_mem_scan hv) hbounds
    rw [sum_scan s hsorted] at hscan
    obtain ⟨hlow, hhigh⟩ := ih fun i ⟨hpos, hlt, s', hs', hcommon⟩ =>
      h i ⟨hpos, hlt, s', List.mem_cons_of_mem s hs', hcommon⟩
    simp only [coveredTime, weightedSum, List.map_cons, List.sum_cons, Int.cast_add, mul_add]
      at hscan hlow hhigh ⊢
    exact ⟨add_le_add hscan.1 hlow, add_le_add hscan.2 hhigh⟩

theorem mean_bounds {slices : List (Slice Int)} {c : Counter Int Rat}
    (hsorted : c.timestamps.Pairwise (· ≤ ·)) {low high x : Rat} (hx : mean? slices c = some x)
    (h : ∀ i, Touched slices c.timestamps i → low ≤ c.values.getD i 0 ∧ c.values.getD i 0 ≤ high) :
    low ≤ x ∧ x ≤ high := by
  obtain ⟨hlow, hhigh⟩ := weightedSum_bounds hsorted h
  obtain ⟨hpos, rfl⟩ := mean_eq_some_iff.mp hx
  have htime : (0 : Rat) < coveredTime slices c.timestamps := Int.cast_pos.mpr hpos
  exact ⟨(le_div_iff₀ htime).mpr hlow, (div_le_iff₀ htime).mpr hhigh⟩

theorem exists_touched_iff {slices : List (Slice Int)} {times : List Int}
    (hsorted : times.Pairwise (· ≤ ·)) :
    (∃ i, Touched slices times i) ↔ ∃ s ∈ slices, 0 < covered s times := by
  constructor
  · rintro ⟨i, hpos, hlt, s, hs, hcommon⟩
    refine ⟨s, hs, hcommon.trans_le ?_⟩
    rw [← sum_scan s hsorted]
    refine List.single_le_sum ?_ _ (List.mem_map.mpr ⟨overlapAt s times i, ?_, rfl⟩)
    · intro x hx
      obtain ⟨v, hv, rfl⟩ := List.mem_map.mp hx
      exact nonneg_of_mem_scan hv
    · exact mem_scan_iff.mpr ⟨hpos, hlt, rfl⟩
  · rintro ⟨s, hs, hcovered⟩
    by_contra hnone
    refine hcovered.ne' ?_
    rw [← sum_scan s hsorted]
    refine List.sum_eq_zero fun x hx => ?_
    obtain ⟨v, hv, rfl⟩ := List.mem_map.mp hx
    refine le_antisymm (Int.not_lt.mp fun hpos => hnone ?_) (nonneg_of_mem_scan hv)
    exact ⟨v.1, touched_of_mem_scan hs hv hpos⟩

theorem exists_mean_bounds {slices : List (Slice Int)} {c : Counter Int Rat}
    (hsorted : c.timestamps.Pairwise (· ≤ ·)) {x : Rat} (hx : mean? slices c = some x) :
    ∃ low high, Touched slices c.timestamps low ∧ Touched slices c.timestamps high ∧
      (∀ i, Touched slices c.timestamps i →
        c.values.getD low 0 ≤ c.values.getD i 0 ∧ c.values.getD i 0 ≤ c.values.getD high 0) ∧
      c.values.getD low 0 ≤ x ∧ x ≤ c.values.getD high 0 := by
  have hfinite : {i | Touched slices c.timestamps i}.Finite :=
    (Set.finite_lt_nat c.timestamps.length).subset fun i hi => hi.2.1
  have hnonempty : {i | Touched slices c.timestamps i}.Nonempty :=
    (exists_touched_iff hsorted).mpr (exists_mean_iff.mp ⟨x, hx⟩)
  obtain ⟨low, hlow, hleast⟩ := Set.exists_min_image _ (c.values.getD · 0) hfinite hnonempty
  obtain ⟨high, hhigh, hgreatest⟩ := Set.exists_max_image _ (c.values.getD · 0) hfinite hnonempty
  have hbetween : ∀ i, Touched slices c.timestamps i →
      c.values.getD low 0 ≤ c.values.getD i 0 ∧ c.values.getD i 0 ≤ c.values.getD high 0 :=
    fun i hi => ⟨hleast i hi, hgreatest i hi⟩
  exact ⟨low, high, hlow, hhigh, hbetween, mean_bounds hsorted hx hbetween⟩

/-! ## The first sample -/

section
variable {V W : Type} [OfNat W 0] [Add W] [Weighing Int V W]

theorem weighted_set_first (s : Slice Int) (c : Counter Int V) (v : V) :
    (weighted s { c with values := c.values.set 0 v } : Except Failure (Weighted Int W)) =
      weighted s c := by
  have hdrop : (c.values.set 0 v).drop (max 1 (Time.placeAfter c.timestamps s.start)) =
      c.values.drop (max 1 (Time.placeAfter c.timestamps s.start)) :=
    List.drop_set_of_lt (by omega)
  simp only [weighted, hdrop]

variable [Measure Int W] [Div W]

theorem average_set_first (slices : List (Slice Int)) (c : Counter Int V) (v : V) :
    (average? slices { c with values := c.values.set 0 v } : Except Failure (Option W)) =
      average? slices c := by
  simp only [average?, weightedOver, weighted_set_first]

/-! ## The averages of all counters -/

/-- The averages that there are, numbered by their places from an id on. -/
def numbered (id : Int) (as : List (Option W)) : List (Int × W) :=
  (as.mapIdx fun j a => a.map (id + (j : Int), ·)).reduceOption

omit [OfNat W 0] [Add W] [Measure Int W] [Div W] in
theorem numbered_cons (id : Int) (a : Option W) (as : List (Option W)) :
    numbered id (a :: as) = a.toList.map (id, ·) ++ numbered (id + 1) as := by
  have hplace : ∀ j : Nat, id + ((j + 1 : Nat) : Int) = id + 1 + (j : Int) := fun j => by omega
  rw [numbered, List.mapIdx_cons]
  simp only [hplace, Int.natCast_zero, Int.add_zero]
  cases a <;> rfl

theorem averages_eq (slices : List (Slice Int)) (cs : List (Counter Int V)) (id : Int) :
    (averages slices id cs : Except Failure (List (Int × W))) =
      (cs.mapM (average? slices)).map (numbered id) := by
  induction cs generalizing id with
  | nil => rfl
  | cons c cs ih =>
    rw [averages, ih, List.mapM_cons]
    cases (average? slices c : Except Failure (Option W)) with
    | error f => rfl
    | ok a =>
      cases cs.mapM fun c => (average? slices c : Except Failure (Option W)) with
      | error f => rfl
      | ok as =>
        simp only [bind, Except.bind, Except.map, pure, Except.pure, numbered_cons]
        cases a <;> rfl

end

theorem averages_exact {slices : List (Slice Int)} {counters : List (Counter Int Rat)}
    (hsorted : ∀ c ∈ counters, c.timestamps.Pairwise (· ≤ ·)) {id : Int}
    {values : List (Int × Rat)} (h : averages slices id counters = .ok values) :
    values = numbered id (counters.map (mean? slices)) := by
  induction counters generalizing id values with
  | nil => exact (Except.ok.inj h).symm
  | cons c counters ih =>
    obtain ⟨hc, hcounters⟩ := List.forall_mem_cons.mp hsorted
    obtain ⟨a, rest, ha, hrest, rfl⟩ := averages_cons_eq_ok.mp h
    rw [List.map_cons, numbered_cons, ← average_exact hc ha, ← ih hcounters hrest]

def exactTimes (slices : List (Slice Int)) : List (Int × Rat) :=
  if slices.isEmpty then [] else [(0, (deviceTime slices : Rat)), (1, (wallTime slices : Rat))]

theorem times_exact (slices : List (Slice Int)) : times slices = .ok (exactTimes slices) := by
  cases slices with
  | nil => rfl
  | cons s slices => exact times_eq (List.cons_ne_nil s slices) rfl rfl

def exactValues (slices : List (Slice Int)) (counters : List (Counter Int Rat)) :
    List (Int × Rat) :=
  exactTimes slices ++ numbered firstCounterMetric (counters.map (mean? slices))

theorem entry_exact {t : SliceTable Int} {counters : List (Counter Int Rat)}
    (hsorted : ∀ c ∈ counters, c.timestamps.Pairwise (· ≤ ·)) {g : Group Int}
    {e : MetricEntry Int Rat} (h : entry t counters g = .ok e) :
    e = ⟨g.id, exactValues (slicesOf t g.id) counters⟩ := by
  obtain ⟨id, values⟩ := e
  obtain ⟨hid, first, rest, hfirst, hrest, hvalues⟩ := entry_eq_ok_iff.mp h
  obtain rfl : id = g.id := hid
  obtain rfl : values = first ++ rest := hvalues
  rw [times_exact] at hfirst
  rw [exactValues, Except.ok.inj hfirst, ← averages_exact hsorted hrest]

theorem all_set {V : Type} {counters : List (Counter Int V)} {j : Nat} {c : Counter Int V}
    (hc : counters[j]? = some c) (times : List Int) (values : List V) :
    (all (counters.set j { c with timestamps := times, values := values }) : List (Metric Int)) =
      all counters := by
  rw [all, all, mapIdx_set_eq hc]
  rfl

end Metric

namespace MetricTable
open RenderTrace.Metric

variable {t : SliceTable Int} {counters : List (Counter Int Rat)}

theorem exists_ofSlices (hvalues : ∀ c ∈ counters, c.timestamps.length ≤ c.values.length) :
    ∃ m : MetricTable Int Rat, ofSlices t counters = .ok m := by
  have hentry : ∀ g ∈ t.groups.list, ∃ e : MetricEntry Int Rat,
      entry t counters g = .ok e ∧ True := by
    intro g _
    have hfits : ∀ n ∈ measured (slicesOf t g.id) counters, ∃ w : Rat, measure n = .ok w :=
      fun n _ => ⟨n, rfl⟩
    obtain ⟨rest, hrest⟩ := exists_averages hvalues hfits firstCounterMetric
    exact ⟨⟨g.id, _⟩, entry_eq_ok_iff.mpr ⟨rfl, _, rest, times_exact _, hrest, rfl⟩, trivial⟩
  obtain ⟨entries, hentries, -⟩ := exists_mapM_eq_ok hentry
  refine ⟨⟨all counters, entries⟩, ?_⟩
  rw [ofSlices, hentries]
  rfl

/-- The table of exact averages. -/
def ofMeans (t : SliceTable Int) (counters : List (Counter Int Rat)) : MetricTable Int Rat :=
  ⟨all counters, t.groups.list.map fun g => ⟨g.id, exactValues (slicesOf t g.id) counters⟩⟩

theorem ofSlices_eq_ofMeans (hsorted : ∀ c ∈ counters, c.timestamps.Pairwise (· ≤ ·))
    {m : MetricTable Int Rat} (h : ofSlices t counters = .ok m) : m = ofMeans t counters := by
  obtain ⟨hmetrics, hentries⟩ := ofSlices_eq_ok_iff.mp h
  have hall : List.Forall₂ Eq (t.groups.list.map fun g =>
      (⟨g.id, exactValues (slicesOf t g.id) counters⟩ : MetricEntry Int Rat)) m.entries :=
    List.forall₂_map_left_iff.mpr (hentries.imp fun _ _ h => (entry_exact hsorted h).symm)
  rw [List.forall₂_eq_eq_eq] at hall
  rw [ofMeans, hall, ← hmetrics]

theorem ofSlices_set_first {j : Nat} {c : Counter Int Rat} (hc : counters[j]? = some c) (v : Rat) :
    (ofSlices t (counters.set j { c with values := c.values.set 0 v }) :
      Except Failure (MetricTable Int Rat)) = ofSlices t counters := by
  have hentry : (entry t (counters.set j { c with values := c.values.set 0 v }) :
      Group Int → Except Failure (MetricEntry Int Rat)) = entry t counters := by
    funext g
    rw [entry, entry, averages_eq, averages_eq, mapM_set_eq hc (average_set_first _ c v)]
  rw [ofSlices, ofSlices, hentry, all_set hc]

/-- Over exact values a group has a value for a counter just if one of its slices overlaps the time
from the counter's first sample to the last. The value is then a quotient by a positive time, and
lies between the least and the greatest of the values at the samples whose intervals overlap a slice
of the group; the first sample, whose interval has no known start, makes no difference. -/
theorem value_bounds (t : SliceTable Int) (counters : List (Counter Int Rat)) :
    ((∀ c ∈ counters, c.timestamps.length ≤ c.values.length) →
      ∃ m : MetricTable Int Rat, ofSlices t counters = .ok m) ∧
    (∀ m : MetricTable Int Rat, ofSlices t counters = .ok m →
      ∀ (place : Nat) (g : Group Int) (j : Nat) (c : Counter Int Rat),
        t.groups.list[place]? = some g → counters[j]? = some c → c.timestamps.Pairwise (· ≤ ·) →
        ∃ e, m.entries[place]? = some e ∧ e.groupId = g.id ∧
          ((∃ x, e.values.lookup (firstCounterMetric + j) = some x) ↔
            ∃ s ∈ slicesOf t g.id, ∃ h : c.timestamps ≠ [],
              0 < min (s.start + s.duration) (c.timestamps.getLast h) -
                max s.start (c.timestamps.head h)) ∧
          ∀ x, e.values.lookup (firstCounterMetric + j) = some x →
            (∃ w : Weighted Int Rat, weightedOver (slicesOf t g.id) c = .ok w ∧ 0 < w.time ∧
              x = w.sum / w.time) ∧
            ∃ low high, Touched (slicesOf t g.id) c.timestamps low ∧
              Touched (slicesOf t g.id) c.timestamps high ∧
              (∀ i, Touched (slicesOf t g.id) c.timestamps i →
                c.values.getD low 0 ≤ c.values.getD i 0 ∧
                  c.values.getD i 0 ≤ c.values.getD high 0) ∧
              c.values.getD low 0 ≤ x ∧ x ≤ c.values.getD high 0) ∧
    ∀ (j : Nat) (c : Counter Int Rat) (v : Rat), counters[j]? = some c →
      (ofSlices t (counters.set j { c with values := c.values.set 0 v }) :
        Except Failure (MetricTable Int Rat)) = ofSlices t counters := by
  refine ⟨exists_ofSlices, fun m hm place g j c hg hc hsorted => ?_,
    fun j c v hc => ofSlices_set_first hc v⟩
  obtain ⟨e, he, hentry⟩ := exists_entry_of_ofSlices hm hg
  have haverage := average_of_entry hentry hc
  have hmean := average_exact hsorted haverage
  refine ⟨e, he, (entry_eq_ok_iff.mp hentry).1, ?_, fun x hx => ⟨?_, ?_⟩⟩
  · rw [hmean, exists_mean_iff]
    simp only [covered_pos_iff]
  · obtain ⟨w, hw⟩ := exists_weightedOver_of_average haverage
    obtain ⟨hpos, hquotient⟩ := mean_eq_some_iff.mp (hmean.symm.trans hx)
    obtain rfl := weightedOver_exact hsorted hw
    exact ⟨_, hw, hpos, hquotient⟩
  · exact exists_mean_bounds hsorted (hmean.symm.trans hx)

/-- One group with two slices, of which only the first overlaps the samples. -/
def sampleTable : SliceTable Int :=
  ⟨[sampleSlice, { sampleSlice with start := 20 }], [], ⟨[⟨0, "", ⟨0, 1⟩⟩], []⟩⟩

theorem value_bounds_sample :
    sampleCounter.timestamps.length ≤ sampleCounter.values.length ∧
      sampleCounter.timestamps.Pairwise (· ≤ ·) ∧
      ∃ m : MetricTable Int Rat, ∃ e x, ofSlices sampleTable [sampleCounter] = .ok m ∧
        m.entries[0]? = some e ∧ e.values.lookup 2 = some x ∧ 2 ≤ x ∧ x ≤ 4 := by
  have hlength : sampleCounter.timestamps.length ≤ sampleCounter.values.length := by decide
  have hsorted : sampleCounter.timestamps.Pairwise (· ≤ ·) := by decide
  obtain ⟨hexists, hvalue, -⟩ := value_bounds sampleTable [sampleCounter]
  obtain ⟨m, hm⟩ := hexists (List.forall_mem_singleton.mpr hlength)
  obtain ⟨e, he, -, hiff, hbounds⟩ := hvalue m hm 0 _ 0 _ rfl rfl hsorted
  obtain ⟨x, hx⟩ := hiff.mpr ⟨sampleSlice, List.mem_cons_self, by decide, by decide⟩
  obtain ⟨-, low, high, hlow, hhigh, -, hle, hge⟩ := hbounds x hx
  -- no time goes to the first sample
  have hvalues : ∀ i, 1 ≤ i → i < 4 → 2 ≤ sampleCounter.values.getD i 0 ∧
      sampleCounter.values.getD i 0 ≤ 4 := by decide
  exact ⟨hlength, hsorted, m, e, x, hm, he, hx, (hvalues low hlow.1 hlow.2.1).1.trans hle,
    hge.trans (hvalues high hhigh.1 hhigh.2.1).2⟩

end MetricTable
end RenderTrace
