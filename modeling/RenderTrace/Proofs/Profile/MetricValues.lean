import RenderTrace.Proofs.Profile.Totals

/-!
# Values of metrics by their ids

The values of a group are kept by metric id, and the id of a counter's metric is its place among the
counters moved up by two. So the value of that metric for a group is the average of the counter over
the slices of the group, if it has one (`MetricTable.average_of_ofSlices`). An average is a sum over
the slices in turn, and whether it can be had is decided slice by slice before anything is added up
(`Metric.weightedOver_eq`).
-/

namespace RenderTrace

theorem lookup_append_of_ne {α β : Type} [BEq α] [LawfulBEq α] {k : α} {l l' : List (α × β)}
    (h : ∀ p ∈ l, p.1 ≠ k) : (l ++ l').lookup k = l'.lookup k := by
  rw [List.lookup_append, List.lookup_eq_none_iff.mpr, Option.none_or]
  intro p hp
  simpa using (h p hp).symm

namespace Metric

theorem slicesOf_append (before after : List (Slice Int)) (tracks : List (Track Int))
    (groups : Groups Int) {id : Int} (hid : id ≠ noGroup) :
    slicesOf ⟨before ++ after, tracks, groups⟩ id =
      before.filter (·.groupId == id) ++ after.filter (·.groupId == id) := by
  rw [slicesOf, if_neg (by simpa using hid), List.filter_append]

section
variable {V W : Type} [Add W]

def Weighted.add (a b : Weighted Int W) : Weighted Int W := ⟨a.sum + b.sum, a.time + b.time⟩

variable [OfNat W 0] [Weighing Int V W]

theorem weightedOver_eq (slices : List (Slice Int)) (c : Counter Int V) :
    (weightedOver slices c : Except Failure (Weighted Int W)) =
      (slices.mapM fun s => weighted s c).map fun ws => ws.foldl Weighted.add .zero := by
  rw [weightedOver]
  generalize (Weighted.zero : Weighted Int W) = acc
  induction slices generalizing acc with
  | nil => rfl
  | cons s slices ih =>
    rw [List.foldlM_cons, List.mapM_cons]
    cases (weighted s c : Except Failure (Weighted Int W)) with
    | error f => rfl
    | ok w =>
      refine (ih (acc.add w)).trans ?_
      cases slices.mapM fun s => (weighted s c : Except Failure (Weighted Int W)) <;> rfl

theorem exists_weightedOver_iff {slices : List (Slice Int)} {c : Counter Int V} :
    (∃ w : Weighted Int W, weightedOver slices c = .ok w) ↔
      ∀ s ∈ slices, ∃ w : Weighted Int W, weighted s c = .ok w := by
  rw [weightedOver_eq, ← not_iff_not, ← exists_error_iff]
  push Not
  simp only [← not_exists, ← exists_error_iff, ← mapM_eq_error_iff]
  cases slices.mapM fun s => (weighted s c : Except Failure (Weighted Int W)) <;> simp [Except.map]

variable [Measure Int W] [Div W]

theorem exists_weightedOver_of_average {slices : List (Slice Int)} {c : Counter Int V}
    {a : Option W} (h : average? slices c = .ok a) :
    ∃ w : Weighted Int W, weightedOver slices c = .ok w :=
  (bind_eq_ok.mp h).imp fun _ hw => hw.1

theorem averages_cons_eq_ok {slices : List (Slice Int)} {c : Counter Int V}
    {cs : List (Counter Int V)} {id : Int} {values : List (Int × W)} :
    averages slices id (c :: cs) = .ok values ↔ ∃ a rest, average? slices c = .ok a ∧
      averages slices (id + 1) cs = .ok rest ∧ values = a.toList.map (id, ·) ++ rest := by
  rw [averages]
  simp only [bind_eq_ok]
  constructor
  · rintro ⟨a, ha, rest, hrest, h⟩
    refine ⟨a, rest, ha, hrest, ?_⟩
    cases a <;> exact (Except.ok.inj h).symm
  · rintro ⟨a, rest, ha, hrest, rfl⟩
    refine ⟨a, ha, rest, hrest, ?_⟩
    cases a <;> rfl

theorem le_of_mem_averages {slices : List (Slice Int)} {cs : List (Counter Int V)} {id : Int}
    {values : List (Int × W)} (h : averages slices id cs = .ok values) :
    ∀ p ∈ values, id ≤ p.1 := by
  induction cs generalizing id values with
  | nil =>
    obtain rfl : [] = values := Except.ok.inj h
    simp
  | cons c cs ih =>
    obtain ⟨a, rest, -, hrest, rfl⟩ := averages_cons_eq_ok.mp h
    intro p hp
    rcases List.mem_append.mp hp with hp | hp
    · obtain ⟨x, -, rfl⟩ := List.mem_map.mp hp
      exact Int.le_refl id
    · have := ih hrest p hp
      omega

theorem average_of_averages {slices : List (Slice Int)} {cs : List (Counter Int V)} {id : Int}
    {values : List (Int × W)} (h : averages slices id cs = .ok values) {j : Nat} {c : Counter Int V}
    (hc : cs[j]? = some c) : average? slices c = .ok (values.lookup (id + j)) := by
  induction cs generalizing id values j with
  | nil => simp at hc
  | cons d cs ih =>
    obtain ⟨a, rest, ha, hrest, rfl⟩ := averages_cons_eq_ok.mp h
    cases j with
    | zero =>
      obtain rfl : d = c := by simpa using hc
      have hlater : rest.lookup id = none := List.lookup_eq_none_iff.mpr fun p hp => by
        have := le_of_mem_averages hrest p hp
        simp
        omega
      rw [ha]
      cases a <;> simp [hlater]
    | succ j =>
      have hplace : id + 1 + j = id + (j + 1 : Nat) := by omega
      rw [ih hrest (by simpa using hc), hplace, lookup_append_of_ne]
      intro p hp
      obtain ⟨x, -, rfl⟩ := List.mem_map.mp hp
      dsimp only
      omega

omit [OfNat W 0] [Add W] [Weighing Int V W] [Div W] in
theorem lt_of_mem_times {slices : List (Slice Int)} {values : List (Int × W)}
    (h : times slices = .ok values) : ∀ p ∈ values, p.1 < firstCounterMetric := by
  cases slices with
  | nil =>
    obtain rfl : [] = values := Except.ok.inj h
    simp
  | cons s slices =>
    simp only [times, bind_eq_ok] at h
    obtain ⟨_, -, _, -, _, -, _, -, _, -, _, -, h⟩ := h
    obtain rfl := Except.ok.inj h
    simp [ofInteger, firstCounterMetric]

theorem entry_eq_ok_iff {t : SliceTable Int} {counters : List (Counter Int V)} {g : Group Int}
    {e : MetricEntry Int W} : entry t counters g = .ok e ↔ e.groupId = g.id ∧
      ∃ first rest, times (slicesOf t g.id) = .ok first ∧
        averages (slicesOf t g.id) firstCounterMetric counters = .ok rest ∧
        e.values = first ++ rest := by
  rw [entry]
  simp only [bind_eq_ok]
  constructor
  · rintro ⟨first, hfirst, rest, hrest, h⟩
    obtain rfl := Except.ok.inj h
    exact ⟨rfl, first, rest, hfirst, hrest, rfl⟩
  · rintro ⟨hid, first, rest, hfirst, hrest, hvalues⟩
    refine ⟨first, hfirst, rest, hrest, ?_⟩
    rw [← hid, ← hvalues]
    rfl

theorem average_of_entry {t : SliceTable Int} {counters : List (Counter Int V)} {g : Group Int}
    {e : MetricEntry Int W} (h : entry t counters g = .ok e) {j : Nat} {c : Counter Int V}
    (hc : counters[j]? = some c) :
    average? (slicesOf t g.id) c = .ok (e.values.lookup (firstCounterMetric + j)) := by
  obtain ⟨-, first, rest, hfirst, hrest, hvalues⟩ := entry_eq_ok_iff.mp h
  rw [hvalues, lookup_append_of_ne, average_of_averages hrest hc]
  intro p hp
  have := lt_of_mem_times hfirst p hp
  omega

end
end Metric

namespace MetricTable

variable {V W : Type}

/-- The value of a metric for the group at a place, none if the group has no value for it. -/
def value? (m : MetricTable Int W) (place : Nat) (id : Int) : Option W :=
  m.entries[place]?.bind fun e => e.values.lookup id

variable [OfNat W 0] [Add W] [Weighing Int V W] [Measure Int W] [Div W] {t : SliceTable Int}
  {counters : List (Counter Int V)} {m : MetricTable Int W}

theorem ofSlices_eq_ok_iff : ofSlices t counters = .ok m ↔ m.metrics = Metric.all counters ∧
    List.Forall₂ (fun g e => Metric.entry t counters g = .ok e) t.groups.list m.entries := by
  rw [ofSlices, bind_eq_ok, ← mapM_eq_ok_iff]
  constructor
  · rintro ⟨entries, hentries, h⟩
    obtain rfl := Except.ok.inj h
    exact ⟨rfl, hentries⟩
  · rintro ⟨hmetrics, hentries⟩
    refine ⟨m.entries, hentries, ?_⟩
    rw [← hmetrics]
    rfl

theorem exists_entry_of_ofSlices (h : ofSlices t counters = .ok m) {place : Nat} {g : Group Int}
    (hg : t.groups.list[place]? = some g) :
    ∃ e, m.entries[place]? = some e ∧ Metric.entry t counters g = .ok e := by
  obtain ⟨hlt, rfl⟩ := List.getElem?_eq_some_iff.mp hg
  obtain ⟨hlength, hentries⟩ := List.forall₂_iff_get.mp (ofSlices_eq_ok_iff.mp h).2
  exact ⟨_, List.getElem?_eq_getElem (hlength ▸ hlt), hentries place hlt (hlength ▸ hlt)⟩

theorem average_of_ofSlices (h : ofSlices t counters = .ok m) {place : Nat} {g : Group Int}
    (hg : t.groups.list[place]? = some g) {j : Nat} {c : Counter Int V}
    (hc : counters[j]? = some c) : Metric.average? (Metric.slicesOf t g.id) c =
      .ok (m.value? place (Metric.firstCounterMetric + j)) := by
  obtain ⟨e, he, hentry⟩ := exists_entry_of_ofSlices h hg
  rw [Metric.average_of_entry hentry hc, value?, he]
  rfl

end MetricTable
end RenderTrace
