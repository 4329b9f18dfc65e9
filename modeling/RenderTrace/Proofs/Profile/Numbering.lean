import RenderTrace.Proofs.Profile.Apart

/-!
# Metrics by their ids

Three numberings meet in a table of metrics: groups have their ids, metrics theirs, and counters their
places. The metric of the counter at place `j` has the id `j + 2` (`Metric.getElem?_all`); the entry of
a group has values under ascending ids, the two times if the group has a slice and no value otherwise
(`Metric.ids_of_entry`); and a value under an id depends on one counter at most
(`Metric.lookup_of_entry_set`). `MetricTable.numbered_by_place` puts this together.
-/

namespace RenderTrace

theorem mapM_congr {ε α β : Type} {f g : α → Except ε β} {l : List α} (h : ∀ a ∈ l, f a = g a) :
    l.mapM f = l.mapM g := by
  induction l with
  | nil => rfl
  | cons a l ih =>
    obtain ⟨ha, hl⟩ := List.forall_mem_cons.mp h
    rw [List.mapM_cons, List.mapM_cons, ha, ih hl]

/-- The slices that carry the id of a group. -/
def SliceTable.inGroups (t : SliceTable Int) : List (Slice Int) :=
  t.slices.filter fun s => t.groups.list.any fun g => g.id == s.groupId

/-- The ids of the metrics that a group has a value for. -/
def MetricEntry.ids {W : Type} (e : MetricEntry Int W) : List Int := e.values.map (·.1)

namespace Metric

/-! ## Metrics -/

section
variable {V : Type} {counters : List (Counter Int V)}

theorem length_all (counters : List (Counter Int V)) :
    (all counters : List (Metric Int)).length = 2 + counters.length := by
  rw [all, List.length_append, List.length_mapIdx]
  rfl

theorem getElem?_all {j : Nat} {c : Counter Int V} (hc : counters[j]? = some c) :
    (all counters : List (Metric Int))[j + 2]? =
      some ⟨firstCounterMetric + j, c.name, c.unit, some c.id⟩ := by
  change (counters.mapIdx _)[j]? = _
  rw [List.getElem?_mapIdx, hc]
  rfl

theorem id_of_getElem?_all {k : Nat} {x : Metric Int}
    (hx : (all counters : List (Metric Int))[k]? = some x) : x.id = k := by
  match k with
  | 0 =>
    obtain rfl := Option.some.inj hx
    rfl
  | 1 =>
    obtain rfl := Option.some.inj hx
    rfl
  | j + 2 =>
    have hlt : j + 2 < 2 + counters.length := length_all counters ▸ (List.getElem?_eq_some_iff.mp hx).1
    rw [getElem?_all (List.getElem?_eq_getElem (by omega : j < counters.length))] at hx
    obtain rfl := Option.some.inj hx
    change 2 + (j : Int) = (j + 2 : Nat)
    omega

end

/-! ## The slices of a group -/

theorem slicesOf_eq_filter {id : Int} (hid : id ≠ noGroup) (t : SliceTable Int) :
    slicesOf t id = t.slices.filter (·.groupId == id) := if_neg (by simpa using hid)

theorem slicesOf_eq_nil_iff {t : SliceTable Int} {id : Int} (hid : id ≠ noGroup) :
    slicesOf t id = [] ↔ ¬ ∃ s ∈ t.slices, s.groupId = id := by
  simp [slicesOf_eq_filter hid]

theorem slicesOf_eq_inGroups {t : SliceTable Int} {g : Group Int} (hg : g ∈ t.groups.list)
    (hid : g.id ≠ noGroup) : slicesOf t g.id = t.inGroups.filter (·.groupId == g.id) := by
  rw [slicesOf_eq_filter hid, SliceTable.inGroups, List.filter_filter]
  refine List.filter_congr fun s _ => ?_
  cases hs : s.groupId == g.id with
  | true =>
    have hany : (t.groups.list.any fun g => g.id == s.groupId) = true :=
      List.any_eq_true.mpr ⟨g, hg, by rw [beq_iff_eq] at hs ⊢; exact hs.symm⟩
    rw [hany]
    rfl
  | false => rfl

/-! ## Ids of values -/

section
variable {V W : Type} [Measure Int W]

theorem ids_of_times {slices : List (Slice Int)} {values : List (Int × W)}
    (h : times slices = .ok values) :
    values.map (·.1) = if slices = [] then [] else [0, 1] := by
  cases slices with
  | nil =>
    obtain rfl : [] = values := Except.ok.inj h
    rfl
  | cons s slices =>
    simp only [times, bind_eq_ok] at h
    obtain ⟨_, -, _, -, _, -, _, -, _, -, _, -, h⟩ := h
    obtain rfl := Except.ok.inj h
    rfl

variable [OfNat W 0] [Add W] [Div W] [Weighing Int V W] {slices : List (Slice Int)}

theorem ids_of_averages {cs : List (Counter Int V)} {id : Int} {values : List (Int × W)}
    (h : averages slices id cs = .ok values) :
    (values.map (·.1)).Pairwise (· < ·) ∧ ∀ k ∈ values.map (·.1), id ≤ k ∧ k < id + cs.length := by
  induction cs generalizing id values with
  | nil =>
    obtain rfl : [] = values := Except.ok.inj h
    exact ⟨.nil, List.forall_mem_nil _⟩
  | cons c cs ih =>
    obtain ⟨a, rest, -, hrest, rfl⟩ := averages_cons_eq_ok.mp h
    obtain ⟨hascending, hbounds⟩ := ih hrest
    have hlater : ∀ k ∈ rest.map (·.1), id ≤ k ∧ k < id + (c :: cs).length := fun k hk => by
      have := hbounds k hk
      simp only [List.length_cons]
      omega
    cases a with
    | none => exact ⟨hascending, hlater⟩
    | some x =>
      refine ⟨List.pairwise_cons.mpr ⟨fun k hk => ?_, hascending⟩,
        List.forall_mem_cons.mpr ⟨?_, hlater⟩⟩
      · have := (hbounds k hk).1
        dsimp only
        omega
      · simp only [List.length_cons]
        omega

theorem averages_nil (id : Int) (cs : List (Counter Int V)) :
    (averages [] id cs : Except Failure (List (Int × W))) = .ok [] := by
  induction cs generalizing id with
  | nil => rfl
  | cons c cs ih =>
    rw [averages, ih]
    rfl

variable {t : SliceTable Int} {counters : List (Counter Int V)} {g : Group Int}
  {e e' : MetricEntry Int W}

/-- A group has values under ascending ids of metrics, those of its times if it has a slice, and none
at all if it has no slice. -/
theorem ids_of_entry (h : entry t counters g = .ok e) :
    e.ids.Pairwise (· < ·) ∧ (∀ k ∈ e.ids, 0 ≤ k ∧ k < 2 + counters.length) ∧
      (slicesOf t g.id ≠ [] → 0 ∈ e.ids ∧ 1 ∈ e.ids) ∧ (slicesOf t g.id = [] → e.ids = []) := by
  obtain ⟨-, first, rest, hfirst, hrest, hvalues⟩ := entry_eq_ok_iff.mp h
  have hids : e.ids = first.map (·.1) ++ rest.map (·.1) := by
    rw [MetricEntry.ids, hvalues, List.map_append]
  obtain ⟨hascending, hbounds⟩ := ids_of_averages hrest
  simp only [firstCounterMetric] at hbounds
  rw [hids, ids_of_times hfirst]
  by_cases hnone : slicesOf t g.id = []
  · rw [hnone, averages_nil] at hrest
    obtain rfl := Except.ok.inj hrest
    simp [hnone]
  · rw [if_neg hnone]
    refine ⟨List.pairwise_append.mpr ⟨by decide, hascending, fun k hk k' hk' => ?_⟩, fun k hk => ?_,
      fun _ => by simp, fun h => absurd h hnone⟩
    · have := (hbounds k' hk').1
      simp only [List.mem_cons, List.not_mem_nil, or_false] at hk
      omega
    · rcases List.mem_append.mp hk with hk | hk
      · simp only [List.mem_cons, List.not_mem_nil, or_false] at hk
        omega
      · have := hbounds k hk
        omega

/-! ## One counter replaced -/

omit [Measure Int W] [OfNat W 0] [Add W] [Div W] in
theorem lookup_eq_none_of_notMem {values : List (Int × W)} {k : Int} (h : k ∉ values.map (·.1)) :
    values.lookup k = none :=
  List.lookup_eq_none_iff.mpr fun p hp => by
    rw [bne_iff_ne]
    rintro rfl
    exact h (List.mem_map_of_mem hp)

theorem lookup_of_entry_times {others : List (Counter Int V)} (h : entry t counters g = .ok e)
    (h' : entry t others g = .ok e') {k : Int} (hk : k < firstCounterMetric) :
    e'.values.lookup k = e.values.lookup k := by
  obtain ⟨-, first, rest, hfirst, hrest, hvalues⟩ := entry_eq_ok_iff.mp h
  obtain ⟨-, first', rest', hfirst', hrest', hvalues'⟩ := entry_eq_ok_iff.mp h'
  obtain rfl : first = first' := Except.ok.inj (hfirst.symm.trans hfirst')
  have hnone : ∀ {cs : List (Counter Int V)} {rest : List (Int × W)},
      averages (slicesOf t g.id) firstCounterMetric cs = .ok rest → rest.lookup k = none := by
    intro cs rest hrest
    refine lookup_eq_none_of_notMem fun hmem => ?_
    have := ((ids_of_averages hrest).2 k hmem).1
    omega
  rw [hvalues, hvalues', List.lookup_append, List.lookup_append, hnone hrest, hnone hrest']

theorem lookup_of_entry_set {j : Nat} {c : Counter Int V} (h : entry t counters g = .ok e)
    (h' : entry t (counters.set j c) g = .ok e') {k : Int} (hk : k ≠ firstCounterMetric + j) :
    e'.values.lookup k = e.values.lookup k := by
  by_cases htime : k < firstCounterMetric
  · exact lookup_of_entry_times h h' htime
  obtain ⟨i, rfl⟩ : ∃ i : Nat, k = firstCounterMetric + i := ⟨(k - firstCounterMetric).toNat, by omega⟩
  have hplace : i ≠ j := fun heq => hk (by rw [heq])
  cases hi : counters[i]? with
  | some d =>
    have hset : (counters.set j c)[i]? = some d := by
      rw [List.getElem?_set_ne (Ne.symm hplace), hi]
    have haverage := average_of_entry h hi
    rw [average_of_entry h' hset] at haverage
    exact Except.ok.inj haverage
  | none =>
    -- beyond the last counter there are no values
    have hnone : ∀ {cs : List (Counter Int V)} {e : MetricEntry Int W}, entry t cs g = .ok e →
        cs.length = counters.length → e.values.lookup (firstCounterMetric + i) = none := by
      intro cs e he hlength
      refine lookup_eq_none_of_notMem fun hmem => ?_
      have hlt := ((ids_of_entry he).2.1 _ hmem).2
      have hle := List.getElem?_eq_none_iff.mp hi
      simp only [firstCounterMetric] at hlt
      omega
    rw [hnone h rfl, hnone h' List.length_set]

end
end Metric

namespace MetricTable

variable {V W : Type} [OfNat W 0] [Add W] [Div W] [Measure Int W] [Weighing Int V W]
  {t : SliceTable Int} {counters : List (Counter Int V)} {m m' : MetricTable Int W}

theorem length_entries (h : ofSlices t counters = .ok m) : m.entries.length = t.groups.list.length :=
  (ofSlices_eq_ok_iff.mp h).2.length_eq.symm

theorem map_groupId_entries (h : ofSlices t counters = .ok m) :
    m.entries.map MetricEntry.groupId = t.groups.list.map Group.id := by
  have hentries := (ofSlices_eq_ok_iff.mp h).2.imp fun g e he => (Metric.entry_eq_ok_iff.mp he).1
  have hall : List.Forall₂ Eq (m.entries.map MetricEntry.groupId) (t.groups.list.map Group.id) :=
    List.forall₂_map_left_iff.mpr (List.forall₂_map_right_iff.mpr hentries.flip)
  rwa [List.forall₂_eq_eq_eq] at hall

theorem exists_group_of_ofSlices (h : ofSlices t counters = .ok m) {place : Nat}
    {e : MetricEntry Int W} (he : m.entries[place]? = some e) :
    ∃ g ∈ t.groups.list, e.groupId = g.id ∧ Metric.entry t counters g = .ok e := by
  have hlt : place < t.groups.list.length := length_entries h ▸ (List.getElem?_eq_some_iff.mp he).1
  obtain ⟨e', he', hentry⟩ := exists_entry_of_ofSlices h (List.getElem?_eq_getElem hlt)
  obtain rfl : e = e' := Option.some.inj (he.symm.trans he')
  exact ⟨_, List.getElem_mem hlt, (Metric.entry_eq_ok_iff.mp hentry).1, hentry⟩

theorem ofSlices_congr {u : SliceTable Int} (hids : ∀ g ∈ t.groups.list, g.id ≠ noGroup)
    (hgroups : u.groups.list = t.groups.list) (hslices : u.inGroups = t.inGroups) :
    (ofSlices u counters : Except Failure (MetricTable Int W)) = ofSlices t counters := by
  have hentry : ∀ g ∈ t.groups.list,
      (Metric.entry u counters g : Except Failure (MetricEntry Int W)) =
        Metric.entry t counters g := by
    intro g hg
    rw [Metric.entry, Metric.entry, Metric.slicesOf_eq_inGroups hg (hids g hg),
      Metric.slicesOf_eq_inGroups (hgroups ▸ hg) (hids g hg), hslices]
  rw [ofSlices, ofSlices, hgroups, mapM_congr hentry]

theorem value_set {j : Nat} {c : Counter Int V} (h : ofSlices t counters = .ok m)
    (h' : ofSlices t (counters.set j c) = .ok m') (place : Nat) {k : Int}
    (hk : k ≠ Metric.firstCounterMetric + j) : m'.value? place k = m.value? place k := by
  rw [value?, value?]
  cases hg : t.groups.list[place]? with
  | none =>
    have hle := List.getElem?_eq_none_iff.mp hg
    rw [← length_entries h] at hle
    rw [List.getElem?_eq_none hle, List.getElem?_eq_none]
    rwa [length_entries h', ← length_entries h]
  | some g =>
    obtain ⟨e, he, hentry⟩ := exists_entry_of_ofSlices h hg
    obtain ⟨e', he', hentry'⟩ := exists_entry_of_ofSlices h' hg
    rw [he, he']
    exact Metric.lookup_of_entry_set hentry hentry' hk

/-- The metrics of a table are numbered by their places, those of the counters two places further than
the counters. There is one entry for each group, in their order. It has the two times just if a slice
carries the id of the group, and other values only then; slices that carry the id of no group, or none,
have no say; and another counter in the place of one changes no value but those of its metric. -/
theorem numbered_by_place (t : SliceTable Int) (hids : ∀ g ∈ t.groups.list, g.id ≠ noGroup)
    (counters : List (Counter Int V)) (m : MetricTable Int W) (hm : ofSlices t counters = .ok m) :
    (m.metrics.length = 2 + counters.length ∧
      (∀ (k : Nat) (x : Metric Int), m.metrics[k]? = some x → x.id = k) ∧
      ∀ (j : Nat) (c : Counter Int V), counters[j]? = some c →
        ∃ x, m.metrics[j + 2]? = some x ∧ x.name = c.name ∧ x.unit = c.unit ∧
          x.counterId = some c.id) ∧
    (m.entries.map MetricEntry.groupId = t.groups.list.map Group.id ∧
      ∀ (place : Nat) (e : MetricEntry Int W), m.entries[place]? = some e →
        e.ids.Pairwise (· < ·) ∧ (∀ k ∈ e.ids, 0 ≤ k ∧ k < 2 + counters.length) ∧
        (0 ∈ e.ids ↔ ∃ s ∈ t.slices, s.groupId = e.groupId) ∧
        (1 ∈ e.ids ↔ ∃ s ∈ t.slices, s.groupId = e.groupId) ∧
        ∀ k ∈ e.ids, ∃ s ∈ t.slices, s.groupId = e.groupId) ∧
    (∀ u : SliceTable Int, u.groups.list = t.groups.list → u.inGroups = t.inGroups →
      (ofSlices u counters : Except Failure (MetricTable Int W)) = .ok m) ∧
    ∀ (j : Nat) (c : Counter Int V) (m' : MetricTable Int W),
      ofSlices t (counters.set j c) = .ok m' →
        ∀ (place : Nat) (k : Int), k ≠ j + 2 → m'.value? place k = m.value? place k := by
  have hmetrics := (ofSlices_eq_ok_iff.mp hm).1
  refine ⟨⟨?_, fun k x hx => ?_, fun j c hc => ?_⟩,
    ⟨map_groupId_entries hm, fun place e he => ?_⟩, fun u hgroups hslices => ?_,
    fun j c m' hm' place k hk => ?_⟩
  · rw [hmetrics, Metric.length_all]
  · exact Metric.id_of_getElem?_all (hmetrics ▸ hx)
  · rw [hmetrics]
    exact ⟨_, Metric.getElem?_all hc, rfl, rfl, rfl⟩
  · obtain ⟨g, hg, hid, hentry⟩ := exists_group_of_ofSlices hm he
    obtain ⟨hascending, hbounds, htimes, hnone⟩ := Metric.ids_of_entry hentry
    have hcarried := Metric.slicesOf_eq_nil_iff (t := t) (hids g hg)
    have hneeds : ∀ k ∈ e.ids, ∃ s ∈ t.slices, s.groupId = g.id := fun k hk => by
      by_contra h
      rw [hnone (hcarried.mpr h)] at hk
      exact List.not_mem_nil hk
    have hgives : (∃ s ∈ t.slices, s.groupId = g.id) → 0 ∈ e.ids ∧ 1 ∈ e.ids := fun h =>
      htimes fun hnil => hcarried.mp hnil h
    rw [hid]
    exact ⟨hascending, hbounds, ⟨hneeds 0, fun h => (hgives h).1⟩, ⟨hneeds 1, fun h => (hgives h).2⟩,
      hneeds⟩
  · rw [ofSlices_congr hids hgroups hslices, hm]
  · refine value_set hm hm' place ?_
    simp only [Metric.firstCounterMetric]
    omega

/-- Two groups, of which the second has no slice; a slice without a group, and one with the id of
none. -/
def strayTable : SliceTable Int where
  slices := [Metric.work 0 10, { Metric.work 20 5 with groupId := 7 },
    { Metric.work 30 5 with groupId := -1 }]
  tracks := []
  groups := ⟨[⟨0, "", ⟨0, 1⟩⟩, ⟨4, "", ⟨1, 2⟩⟩], []⟩

/-- Two counters of one id and name. -/
def sameNames : List (Counter Int Float) := [Metric.rising 4, Metric.rising 5]

theorem numbered_by_place_sample :
    (∀ g ∈ strayTable.groups.list, g.id ≠ noGroup) ∧
      ∃ m m' : MetricTable Int Float, ofSlices strayTable sameNames = .ok m ∧
        ofSlices strayTable (sameNames.set 1 (Metric.rising 8)) = .ok m' ∧
        m.metrics.length = 4 ∧ m.entries.map MetricEntry.groupId = [0, 4] ∧
        (∀ e, m.entries[1]? = some e → e.ids = []) ∧
        ofSlices { strayTable with slices := [Metric.work 0 10] } sameNames = .ok m ∧
        m'.value? 0 2 = m.value? 0 2 := by
  have hids : ∀ g ∈ strayTable.groups.list, g.id ≠ noGroup := by decide
  have hok : (ofSlices strayTable sameNames : Except Failure (MetricTable Int Float)).isOk = true := by
    decide +kernel
  have hok' : (ofSlices strayTable (sameNames.set 1 (Metric.rising 8)) :
      Except Failure (MetricTable Int Float)).isOk = true := by decide +kernel
  obtain ⟨m, hm⟩ := exists_eq_ok hok
  obtain ⟨m', hm'⟩ := exists_eq_ok hok'
  obtain ⟨⟨hlength, -, -⟩, ⟨hgroups, hentries⟩, hstray, hset⟩ :=
    numbered_by_place strayTable hids sameNames m hm
  refine ⟨hids, m, m', hm, hm', hlength, hgroups, fun e he => ?_, hstray _ rfl rfl,
    hset 1 _ m' hm' 0 2 (by decide)⟩
  obtain ⟨-, -, -, -, hneeds⟩ := hentries 1 e he
  have hid : e.groupId = 4 := by
    have hsecond := congrArg (·[1]?) hgroups
    rw [List.getElem?_map, he] at hsecond
    exact Option.some.inj hsecond
  refine List.eq_nil_iff_forall_not_mem.mpr fun k hk => ?_
  have hcarried := hneeds k hk
  rw [hid] at hcarried
  exact absurd hcarried (by decide)

end MetricTable
end RenderTrace
