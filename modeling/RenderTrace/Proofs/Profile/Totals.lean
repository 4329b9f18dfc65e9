import RenderTrace.Proofs.Profile.Grouping
import RenderTrace.Proofs.Profile.Isolation
import RenderTrace.Proofs.Profile.Partition
import RenderTrace.Proofs.Profile.Scan
import RenderTrace.Proofs.Query.Outcome
import RenderTrace.Report.Tables

/-!
# Totals of a grouped table

The groups of a table cut its slices into parts, and everything that is told about the groups is
told of these parts. `SliceTable.groupBy_accounts` follows it through: the warnings about slices
without a group, the counts in the table of the groups, and the metrics, whose device times add up
to what the slices in groups took. The metrics are there unless one of the integers that are
measured for them (`Metric.measured`) is beyond all doubles.
-/

namespace RenderTrace

/-! ## Metrics that can be had -/

namespace Metric

section Integers

variable {V : Type}

def deviceTime (slices : List (Slice Int)) : Int := (slices.map Slice.duration).sum

def wallTime (slices : List (Slice Int)) : Int :=
  (slices.map fun s => s.start + s.duration).max?.getD 0 - (slices.map Slice.start).min?.getD 0

/-- The overlaps of slices with the sample intervals of a counter, one after the other. -/
def overlaps (slices : List (Slice Int)) (c : Counter Int V) : List Int :=
  slices.flatMap fun s => (visits s c.timestamps).map (·.2)

/-- The integers that are measured for the metrics of some slices. -/
def measured (slices : List (Slice Int)) (counters : List (Counter Int V)) : List Int :=
  deviceTime slices :: wallTime slices ::
    counters.flatMap fun c => overlaps slices c ++ [(overlaps slices c).sum]

end Integers

theorem total_eq_sum (ts : List Int) : Time.total ts = .ok ts.sum := by
  have hfrom : ∀ t : Int, ts.foldlM Time.add t = (.ok (t + ts.sum) : Except Failure Int) := by
    induction ts with
    | nil => simp [pure, Except.pure]
    | cons u ts ih =>
      intro t
      rw [List.foldlM_cons, Time.add_plain]
      change ts.foldlM Time.add (t + u) = _
      rw [ih, List.sum_cons, Int.add_assoc]
  rw [Time.total, hfrom, Int.zero_add]

theorem latest_eq_max (t : Int) (ts : List Int) : Time.latest t ts = (t :: ts).max?.getD 0 := by
  have hlater : (Time.later : Int → Int → Int) = max := by
    funext x y
    exact later_eq_max x y
  rw [List.max?_cons', Option.getD_some, Time.latest, hlater]

theorem earliest_eq_min (t : Int) (ts : List Int) : Time.earliest t ts = (t :: ts).min?.getD 0 := by
  have hearlier : (Time.earlier : Int → Int → Int) = min := by
    funext x y
    exact earlier_eq_min x y
  rw [List.min?_cons', Option.getD_some, Time.earliest, hearlier]

section Slices

variable {W : Type} [Measure Int W]

theorem times_eq_bind {slices : List (Slice Int)} (hne : slices ≠ []) :
    times slices = (do
      let device ← measure (deviceTime slices)
      let wall ← measure (wallTime slices)
      return [(0, device), (1, wall)] : Except Failure (List (Int × W))) := by
  obtain ⟨s, slices, rfl⟩ := List.exists_cons_of_ne_nil hne
  have hstops : slices.mapM Slice.stop =
      (.ok (slices.map fun s => s.start + s.duration) : Except Failure (List Int)) :=
    mapM_eq_ok_iff.mpr (List.forall₂_map_right_iff.mpr (List.forall₂_same.mpr fun _ _ => rfl))
  have hstop : s.stop = .ok (s.start + s.duration) := rfl
  rw [deviceTime, wallTime, List.map_cons, List.map_cons, List.map_cons, ← latest_eq_max,
    ← earliest_eq_min]
  simp only [times, total_eq_sum, hstops, hstop, Time.sub_plain, bind, Except.bind]
  rfl

theorem times_eq {slices : List (Slice Int)} (hne : slices ≠ []) {device wall : W}
    (hdevice : measure (deviceTime slices) = .ok device)
    (hwall : measure (wallTime slices) = .ok wall) :
    times slices = .ok [(0, device), (1, wall)] := by
  rw [times_eq_bind hne, hdevice]
  simp only [hwall, bind, Except.bind]
  rfl

variable [Mul W] [Add W] [OfNat W 0]

omit [OfNat W 0] in
theorem exists_foldlM_visit {values : List W} {vs : List (Nat × Int)}
    (hvs : ∀ v ∈ vs, v.1 < values.length ∧ ∃ w : W, measure v.2 = .ok w) (acc : Weighted Int W) :
    ∃ w, vs.foldlM (Weighted.visit values) acc = .ok w := by
  induction vs generalizing acc with
  | nil => exact ⟨acc, rfl⟩
  | cons v vs ih =>
    obtain ⟨⟨hv, w, hw⟩, hvs⟩ := List.forall_mem_cons.mp hvs
    have hvisit : Weighted.visit values acc v =
        .ok ⟨acc.sum + values[v.1] * w, acc.time + v.2⟩ := by
      rw [Weighted.visit, List.getElem?_eq_getElem hv]
      simp only [weigh, hw, bind, Except.bind, pure, Except.pure]
    rw [List.foldlM_cons, hvisit]
    exact ih hvs _

theorem exists_weighted {c : Counter Int W} (hvalues : c.timestamps.length ≤ c.values.length)
    {s : Slice Int} (hfits : ∀ v ∈ visits s c.timestamps, ∃ w : W, measure v.2 = .ok w) :
    ∃ w : Weighted Int W, weighted s c = .ok w ∧
      w.time = ((visits s c.timestamps).map (·.2)).sum := by
  have hvs : ∀ v ∈ visits s c.timestamps,
      v.1 < c.values.length ∧ ∃ w : W, measure v.2 = .ok w := fun v hv =>
    ⟨Nat.lt_of_lt_of_le (mem_visits hv).2.1 hvalues, hfits v hv⟩
  obtain ⟨w, hw⟩ := exists_foldlM_visit hvs .zero
  have htime : w.time = 0 + ((visits s c.timestamps).map (·.2)).sum := time_of_foldlM_visit hw
  exact ⟨w, (weighted_eq_foldlM s c).trans hw, by rw [htime, Int.zero_add]⟩

theorem exists_weightedOver {c : Counter Int W} (hvalues : c.timestamps.length ≤ c.values.length)
    {slices : List (Slice Int)} (hfits : ∀ n ∈ overlaps slices c, ∃ w : W, measure n = .ok w) :
    ∃ w : Weighted Int W, weightedOver slices c = .ok w ∧ w.time = (overlaps slices c).sum := by
  -- on from every sum
  suffices hfrom : ∀ acc : Weighted Int W, ∃ w : Weighted Int W,
      (slices.foldlM (fun acc s => do
        let w : Weighted Int W ← weighted s c
        return ⟨acc.sum + w.sum, ← Time.add acc.time w.time⟩) acc : Except Failure _) = .ok w ∧
        w.time = acc.time + (overlaps slices c).sum by
    obtain ⟨w, hw, htime⟩ := hfrom .zero
    have hzero : (Weighted.zero : Weighted Int W).time = 0 := rfl
    exact ⟨w, hw, by rw [htime, hzero, Int.zero_add]⟩
  induction slices with
  | nil => exact fun acc => ⟨acc, rfl, by simp [overlaps]⟩
  | cons s slices ih =>
    intro acc
    have hoverlaps : overlaps (s :: slices) c =
        (visits s c.timestamps).map (·.2) ++ overlaps slices c := List.flatMap_cons
    rw [hoverlaps] at hfits ⊢
    obtain ⟨w, hw, htime⟩ := exists_weighted hvalues fun v hv =>
      hfits _ (List.mem_append_left _ (List.mem_map_of_mem hv))
    obtain ⟨v, hv, hsum⟩ := ih (fun n hn => hfits n (List.mem_append_right _ hn))
      ⟨acc.sum + w.sum, acc.time + w.time⟩
    refine ⟨v, ?_, ?_⟩
    · rw [List.foldlM_cons]
      simp only [hw, Time.add_plain, bind, Except.bind, pure, Except.pure] at hv ⊢
      exact hv
    · rw [hsum, htime, List.sum_append]
      dsimp only
      omega

variable [Div W]

theorem exists_average {c : Counter Int W} (hvalues : c.timestamps.length ≤ c.values.length)
    {slices : List (Slice Int)} (hfits : ∀ n ∈ overlaps slices c, ∃ w : W, measure n = .ok w)
    (hsum : ∃ w : W, measure (overlaps slices c).sum = .ok w) :
    ∃ a : Option W, average? slices c = .ok a := by
  obtain ⟨w, hw, htime⟩ := exists_weightedOver hvalues hfits
  obtain ⟨total, htotal⟩ := hsum
  rw [average?, hw]
  change ∃ a, (if 0 < w.time then _ else _) = _
  split
  · rw [htime, htotal]
    exact ⟨_, rfl⟩
  · exact ⟨none, rfl⟩

theorem exists_averages {slices : List (Slice Int)} {counters : List (Counter Int W)}
    (hvalues : ∀ c ∈ counters, c.timestamps.length ≤ c.values.length)
    (hfits : ∀ n ∈ measured slices counters, ∃ w : W, measure n = .ok w) (id : Int) :
    ∃ values : List (Int × W), averages slices id counters = .ok values := by
  have hcounter : ∀ c ∈ counters, ∃ a : Option W, average? slices c = .ok a := by
    intro c hc
    have hmem : ∀ n ∈ overlaps slices c ++ [(overlaps slices c).sum], n ∈ measured slices counters :=
      fun n hn => List.mem_cons_of_mem _ (List.mem_cons_of_mem _ (List.mem_flatMap.mpr ⟨c, hc, hn⟩))
    refine exists_average (hvalues c hc) (fun n hn => hfits n (hmem n ?_)) (hfits _ (hmem _ ?_))
    · exact List.mem_append_left _ hn
    · exact List.mem_append_right _ (List.mem_singleton_self _)
  clear hvalues hfits
  induction counters generalizing id with
  | nil => exact ⟨[], rfl⟩
  | cons c counters ih =>
    obtain ⟨⟨a, ha⟩, hcounters⟩ := List.forall_mem_cons.mp hcounter
    obtain ⟨values, hvalues⟩ := ih (id + 1) hcounters
    rw [averages, ha]
    simp only [hvalues, bind, Except.bind]
    exact ⟨_, rfl⟩

theorem exists_entry {t : SliceTable Int} {counters : List (Counter Int W)} {g : Group Int}
    (hne : slicesOf t g.id ≠ [])
    (hvalues : ∀ c ∈ counters, c.timestamps.length ≤ c.values.length)
    (hfits : ∀ n ∈ measured (slicesOf t g.id) counters, ∃ w : W, measure n = .ok w) :
    ∃ e : MetricEntry Int W, entry t counters g = .ok e ∧ e.groupId = g.id ∧
      ∃ device wall more, e.values = (0, device) :: (1, wall) :: more ∧
        measure (deviceTime (slicesOf t g.id)) = .ok device ∧
        measure (wallTime (slicesOf t g.id)) = .ok wall := by
  obtain ⟨device, hdevice⟩ := hfits _ List.mem_cons_self
  obtain ⟨wall, hwall⟩ := hfits _ (List.mem_cons_of_mem _ List.mem_cons_self)
  obtain ⟨more, hmore⟩ := exists_averages hvalues hfits firstCounterMetric
  refine ⟨⟨g.id, (0, device) :: (1, wall) :: more⟩, ?_, rfl, device, wall, more, rfl, hdevice,
    hwall⟩
  simp only [entry, times_eq hne hdevice hwall, hmore, bind, Except.bind]
  rfl

end Slices
end Metric

/-! ## What is told about the groups -/

def Event.isUngrouped : Event → Bool
  | .ungrouped .. => true
  | _ => false

theorem Slice.filter_warnings (order : SubmissionOrder Int) (s : Slice Int) :
    (s.warnings order).filter Event.isUngrouped = s.groupWarnings := by
  unfold Slice.warnings Slice.submissionWarnings Slice.groupWarnings
  split <;> split <;> rfl

namespace SliceTable

theorem filter_groupEvents (order : SubmissionOrder Int) (t : SliceTable Int) :
    (t.groupEvents order).filter Event.isUngrouped = t.slices.flatMap Slice.groupWarnings := by
  have hlast : [Event.grouped t.slices.length t.groups.list.length].filter Event.isUngrouped = [] :=
    rfl
  rw [groupEvents, List.filter_append, hlast, List.append_nil, List.filter_flatMap]
  simp only [Slice.filter_warnings]

/-- The row of a group in the table of the groups, with a number of slices. -/
def shownGroup (g : Group Int) (count : Nat) : List Layout.Field :=
  [Report.quantity g.id, .text g.name, Report.quantity g.range.start, Report.quantity g.range.stop,
    Report.quantity (count : Int)]

theorem groupsTable_eq (t : SliceTable Int) (showHeader : Bool) :
    Report.groupsTable showHeader (some t) =
      if t.groups.list.isEmpty then .ok "No groups found."
      else Report.table showHeader ["GROUP", "NAME", "FROM", "TO", "SLICES"]
        (List.zipWith shownGroup t.groups.list
          (t.groups.list.map fun g => Report.sliceCount t g.id)) := by
  rw [List.zipWith_map_right, List.zipWith_self]
  rfl

namespace Parts

variable {t : SliceTable Int} {ungrouped grouped : List (Slice Int)} (h : Parts t ungrouped grouped)
include h

theorem flatMap_groupWarnings : t.slices.flatMap Slice.groupWarnings = ungrouped.map fun s =>
    .ungrouped s.name (toNumber s.submissionId) s.commandBuffer s.renderPass s.renderTarget := by
  have hfront : ungrouped.flatMap Slice.groupWarnings = ungrouped.flatMap fun s =>
      [.ungrouped s.name (toNumber s.submissionId) s.commandBuffer s.renderPass s.renderTarget] :=
    List.flatMap_congr fun s hs => if_pos (by simp [h.outside s hs])
  have hback : grouped.flatMap Slice.groupWarnings = [] :=
    List.flatMap_eq_nil_iff.mpr fun s hs => if_neg (by simp [h.inside s hs])
  rw [h.slices, List.flatMap_append, hfront, hback, List.append_nil, List.map_eq_flatMap]

theorem sliceCount_pos {g : Group Int} (hg : g ∈ t.groups.list) : 0 < Report.sliceCount t g.id := by
  obtain ⟨s, hs, hid⟩ := h.mem_slices_of_mem_groups hg
  exact List.countP_pos_iff.mpr ⟨s, hs, by simp [hid]⟩

theorem sum_sliceCount :
    (t.groups.list.map fun g => Report.sliceCount t g.id).sum = grouped.length := by
  have hsum := h.sum_groups fun _ => 1
  simp only [List.map_const', List.sum_replicate_nat, Nat.mul_one] at hsum
  rw [← hsum]
  simp only [Report.sliceCount, List.countP_eq_length_filter]

theorem slicesOf_eq_filter {g : Group Int} (hg : g ∈ t.groups.list) :
    Metric.slicesOf t g.id = t.slices.filter (·.groupId == g.id) := by
  obtain ⟨s, hs, hid⟩ := h.used g hg
  have hne : g.id ≠ noGroup := hid ▸ h.inside s hs
  rw [Metric.slicesOf, if_neg (by simpa using hne)]

theorem slicesOf_ne_nil {g : Group Int} (hg : g ∈ t.groups.list) :
    Metric.slicesOf t g.id ≠ [] := by
  obtain ⟨s, hs, hid⟩ := h.mem_slices_of_mem_groups hg
  rw [h.slicesOf_eq_filter hg]
  exact List.ne_nil_of_mem (List.mem_filter.mpr ⟨hs, by simp [hid]⟩)

theorem sum_deviceTime : (t.groups.list.map fun g => Metric.deviceTime (Metric.slicesOf t g.id)).sum =
    (grouped.map Slice.duration).sum := by
  rw [← h.sum_groups]
  refine congrArg List.sum (List.map_congr_left fun g hg => ?_)
  rw [Metric.deviceTime, h.slicesOf_eq_filter hg]

theorem exists_metrics {counters : List (Counter Int Float)}
    (hvalues : ∀ c ∈ counters, c.timestamps.length ≤ c.values.length)
    (hfits : ∀ g ∈ t.groups.list, ∀ n ∈ Metric.measured (Metric.slicesOf t g.id) counters,
      ∃ x : Float, measure n = .ok x) :
    ∃ entries : List (MetricEntry Int Float),
      MetricTable.ofSlices t counters = .ok ⟨Metric.all counters, entries⟩ ∧
        List.Forall₂ (fun g e => e.groupId = g.id ∧ ∃ device wall more,
          e.values = (0, device) :: (1, wall) :: more ∧
            measure (Metric.deviceTime (Metric.slicesOf t g.id)) = .ok device ∧
            measure (Metric.wallTime (Metric.slicesOf t g.id)) = .ok wall)
          t.groups.list entries := by
  obtain ⟨entries, hentries, hall⟩ := exists_mapM_eq_ok fun g hg =>
    Metric.exists_entry (h.slicesOf_ne_nil hg) hvalues (hfits g hg)
  refine ⟨entries, ?_, hall⟩
  rw [MetricTable.ofSlices, hentries]
  rfl

end Parts

/-- What a pass makes of slices that are in no group, each found by a lookup of its own. The slices
without a group come first, and each of them is warned about once. Every group has a slice; the
table of the groups counts their slices, and the counts add up to the slices in groups, as do the
device times. There is an entry of metrics for each group, which starts with its two times, if every
integer that is measured is one that a double can be near to. -/
theorem groupBy_accounts (order : SubmissionOrder Int) (lookup : Nat → RenderPassLookup)
    (slices : List (Slice Int)) (tracks : List (Track Int)) :
    let t := groupBy order ((List.range slices.length).map lookup) ⟨slices, tracks, .empty⟩
    -- a pass with one lookup is the case of equal ones
    (∀ l, (∀ i, lookup i = l) → group order l ⟨slices, tracks, .empty⟩ = t) ∧
      ∃ ungrouped grouped, t.slices = ungrouped ++ grouped ∧
        (∀ s ∈ ungrouped, s.groupId = noGroup) ∧ (∀ s ∈ grouped, s.groupId ≠ noGroup) ∧
        (t.groupEvents order).filter Event.isUngrouped = (ungrouped.map fun s =>
          .ungrouped s.name (toNumber s.submissionId) s.commandBuffer s.renderPass
            s.renderTarget) ∧
        (∀ g ∈ t.groups.list, ∃ s ∈ grouped, s.groupId = g.id) ∧
        -- the counts that are shown
        (∃ counts : List Nat, counts.length = t.groups.list.length ∧ (∀ n ∈ counts, 0 < n) ∧
          counts.sum = grouped.length ∧
          ∀ showHeader, Report.groupsTable showHeader (some t) =
            if t.groups.list.isEmpty then .ok "No groups found."
            else Report.table showHeader ["GROUP", "NAME", "FROM", "TO", "SLICES"]
              (List.zipWith shownGroup t.groups.list counts)) ∧
        -- the metrics
        (t.groups.list.map fun g => Metric.deviceTime (Metric.slicesOf t g.id)).sum =
          (grouped.map Slice.duration).sum ∧
        ∀ counters : Option (List (Counter Int Float)),
          (∀ c ∈ counters.getD [], c.timestamps.length ≤ c.values.length) →
          (∀ g ∈ t.groups.list, ∀ n ∈ Metric.measured (Metric.slicesOf t g.id) (counters.getD []),
            ∃ x : Float, measure n = .ok x) →
          ∃ table, Profile.traceMetrics (some t) counters = .ok (some table) ∧
            table.metrics.take 2 = [⟨0, "GPU Time", "ns", none⟩, ⟨1, "Wall Time", "ns", none⟩] ∧
            List.Forall₂ (fun g e => e.groupId = g.id ∧ ∃ device wall more,
              e.values = (0, device) :: (1, wall) :: more ∧
                measure (Metric.deviceTime (Metric.slicesOf t g.id)) = .ok device ∧
                measure (Metric.wallTime (Metric.slicesOf t g.id)) = .ok wall)
              t.groups.list table.entries := by
  intro t
  have hlookups : ∀ l, (∀ i, lookup i = l) →
      (List.range slices.length).map lookup = List.replicate slices.length l := fun l hl => by
    simp [funext hl]
  obtain ⟨ungrouped, grouped, h⟩ : ∃ ungrouped grouped, Parts t ungrouped grouped :=
    exists_parts order _ slices tracks (by simp)
  refine ⟨fun l hl => ?_, ungrouped, grouped, h.slices, h.outside, h.inside, ?_, h.used,
    ⟨_, List.length_map .., fun n hn => ?_, h.sum_sliceCount, groupsTable_eq t⟩, h.sum_deviceTime,
    fun counters hvalues hfits => ?_⟩
  · rw [group_eq_groupBy, ← hlookups l hl]
  · rw [filter_groupEvents, h.flatMap_groupWarnings]
  · obtain ⟨g, hg, rfl⟩ := List.mem_map.mp hn
    exact h.sliceCount_pos hg
  · obtain ⟨entries, htable, hentries⟩ := h.exists_metrics hvalues hfits
    refine ⟨⟨Metric.all (counters.getD []), entries⟩, ?_, rfl, hentries⟩
    rw [Profile.traceMetrics, Profile.metricsOf, htable]
    rfl

def timedStages : List (Slice Int) :=
  [("barrier", 0, 4), ("vertex", 7, 10), ("barrier", 0, 5), ("fragment", 8, 20)].map
    fun (name, renderPass, duration) =>
      ⟨0, 10, duration, name, 0, 0, 5, 9, .whole renderPass, 0, 0, 0⟩

def loadCounter : Counter Int Float := ⟨3, "load", "%", "", none, [0, 12, 40], [1, 2, 3]⟩

/-- Of four slices two groups come, with 15 and 20 of the time. -/
theorem groupBy_accounts_sample :
    let t := group .empty sampleLookup ⟨timedStages, [], .empty⟩
    loadCounter.timestamps.length ≤ loadCounter.values.length ∧
      (∀ g ∈ t.groups.list, ∀ n ∈ Metric.measured (Metric.slicesOf t g.id) [loadCounter],
        ∃ x : Float, measure n = .ok x) ∧
      (t.groups.list.map fun g => Metric.deviceTime (Metric.slicesOf t g.id)) = [15, 20] ∧
      ∃ table, Profile.traceMetrics (some t) (some [loadCounter]) = .ok (some table) ∧
        table.entries.length = 2 := by
  intro t
  obtain ⟨heq, ungrouped, grouped, -, -, -, -, -, -, -, hmetrics⟩ :=
    groupBy_accounts .empty (fun _ => sampleLookup) timedStages []
  have ht := heq sampleLookup fun _ => rfl
  have hlen : loadCounter.timestamps.length ≤ loadCounter.values.length := by decide
  have hok : ∀ g ∈ t.groups.list, ∀ n ∈ Metric.measured (Metric.slicesOf t g.id) [loadCounter],
      (measure n : Except Failure Float).isOk = true := by decide +kernel
  have hfits : ∀ g ∈ t.groups.list, ∀ n ∈ Metric.measured (Metric.slicesOf t g.id) [loadCounter],
      ∃ x : Float, measure n = .ok x := fun g hg n hn => exists_eq_ok (hok g hg n hn)
  rw [← ht] at hmetrics
  obtain ⟨table, htable, -, hentries⟩ := hmetrics (some [loadCounter])
    (List.forall_mem_singleton.mpr hlen) hfits
  refine ⟨hlen, hfits, by decide +kernel, table, htable, ?_⟩
  rw [← hentries.length_eq]
  decide +kernel

end SliceTable
end RenderTrace
