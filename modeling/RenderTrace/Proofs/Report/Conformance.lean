import RenderTrace.Proofs.Input.Finite
import RenderTrace.Proofs.Input.Schema
import RenderTrace.Proofs.Json.Conformance
import RenderTrace.Proofs.Profile.CounterTracks
import RenderTrace.Proofs.Profile.EmptyRange
import RenderTrace.Proofs.Profile.MetricValues
import RenderTrace.Proofs.Profile.SliceRows
import RenderTrace.Proofs.Query.Returns
import RenderTrace.Report.Document

/-!
# Profiles by the grammar

The document of a profile conforms to the grammar just if all its numbers are finite. Those that come from
its inputs are, as inputs loaded from files have no others (`Profile.Inputs.Finite.of_loadInputs`), and so
are those that come from the trace but for the values of samples and of the metrics that are taken from
counters (`Profile.conforms_made_iff`). Such a value can leave the finite range even if every sample is
finite.
-/

namespace RenderTrace

/-! ## Finite documents -/

namespace Json

def Finite (v : Json) : Prop := ∀ n ∈ v.numbers, n.isFinite = true

@[simp] theorem finite_null : Finite null := nofun

@[simp] theorem finite_bool (b : Bool) : Finite (bool b) := nofun

@[simp] theorem finite_text (s : String) : Finite (text s) := nofun

@[simp] theorem finite_number {n : Number} : Finite (number n) ↔ n.isFinite = true :=
  List.forall_mem_singleton

@[simp] theorem finite_array {xs : List Json} : Finite (array xs) ↔ ∀ x ∈ xs, Finite x := by
  simp only [Finite, numbers, mem_itemNumbers, forall_exists_index, and_imp]
  exact ⟨fun h x hx n hn => h n x hx hn, fun h n x hx hn => h x hx n hn⟩

@[simp] theorem finite_object {ms : List (String × Json)} :
    Finite (object ms) ↔ ∀ m ∈ ms, Finite m.2 := by
  simp only [Finite, numbers, mem_memberNumbers, forall_exists_index, and_imp]
  exact ⟨fun h m hm n hn => h n m hm hn, fun h n m hm hn => h m hm n hn⟩

@[simp] theorem finite_quantity (n : Int) : Finite (quantity n) := finite_number.mpr rfl

@[simp] theorem finite_quantity_double {x : Float} : Finite (quantity x) ↔ x.isFinite = true :=
  finite_number

@[simp] theorem finite_texts (ss : List String) : Finite (texts ss) := by simp [texts]

@[simp] theorem finite_optional {α : Type} {f : α → Json} {x : Option α} :
    Finite (optional f x) ↔ ∀ a ∈ x, Finite (f a) := by
  cases x <;> simp [optional]

end Json

/-- The handles of a slice are finite. -/
def Slice.FiniteHandles (s : Slice Int) : Prop :=
  s.commandBuffer.isFinite = true ∧ s.renderTarget.isFinite = true ∧ s.renderPass.isFinite = true

/-- The handles of all slices and the ranges of all groups are finite. -/
structure SliceTable.Finite (t : SliceTable Int) : Prop where
  slices : ∀ s ∈ t.slices, s.FiniteHandles
  groups : ∀ g ∈ t.groups.list, g.range.Finite

/-- The device's number of the counter is finite, if it has one. -/
def Counter.FiniteSpec (c : Counter Int Float) : Prop :=
  ∀ spec ∈ c.spec, spec.counterId.isFinite = true

theorem Slice.finite_toJson {s : Slice Int} : s.toJson.Finite ↔ s.FiniteHandles := by
  simp [Slice.toJson, Slice.FiniteHandles]

theorem Group.finite_toJson {g : Group Int} : g.toJson.Finite ↔ g.range.Finite := by
  simp [Group.toJson, RenderPass.Range.Finite]

theorem SliceTable.finite_toJson {t : SliceTable Int} : t.toJson.Finite ↔ t.Finite := by
  have htracks : ∀ track : Track Int, track.toJson.Finite := by simp [Track.toJson]
  simp only [SliceTable.toJson, Json.finite_object, List.forall_mem_cons, Json.finite_array,
    List.forall_mem_map, Slice.finite_toJson, Group.finite_toJson, htracks, implies_true]
  exact ⟨fun h => ⟨h.1, h.2.2.1⟩, fun h => ⟨h.1, trivial, h.2, nofun⟩⟩

theorem Counter.finite_toJson {c : Counter Int Float} :
    c.toJson.Finite ↔ c.FiniteSpec ∧ ∀ x ∈ c.values, x.isFinite = true := by
  simp [Counter.toJson, Counter.FiniteSpec, CounterSpec.toJson]

theorem MetricEntry.finite_toJson {e : MetricEntry Int Float} :
    e.toJson.Finite ↔ ∀ v ∈ e.values, v.2.isFinite = true := by
  simp only [MetricEntry.toJson, Json.finite_object, List.forall_mem_cons, List.forall_mem_map,
    Json.finite_quantity, Json.finite_quantity_double]
  exact ⟨fun h => h.2.1, fun h => ⟨trivial, h, nofun⟩⟩

theorem MetricTable.finite_toJson {m : MetricTable Int Float} :
    m.toJson.Finite ↔ ∀ e ∈ m.entries, ∀ v ∈ e.values, v.2.isFinite = true := by
  simp [MetricTable.toJson, Metric.toJson, MetricEntry.finite_toJson]

theorem Profile.finite_toJson {p : Profile Int Float} : p.toJson.Finite ↔
    (∀ t ∈ p.slices, t.Finite) ∧
      (∀ cs ∈ p.counters, ∀ c ∈ cs, c.FiniteSpec ∧ ∀ x ∈ c.values, x.isFinite = true) ∧
      ∀ m ∈ p.metrics, ∀ e ∈ m.entries, ∀ v ∈ e.values, v.2.isFinite = true := by
  simp [Profile.toJson, SliceTable.finite_toJson, Counter.finite_toJson, MetricTable.finite_toJson]

/-! ## What a trace gives -/

theorem HandleMap.isFinite_of_uses {m : Option HandleMap}
    (hm : ∀ map ∈ m, ∀ h, ∀ target ∈ map.targets h, target.value.isFinite = true) {h : Int}
    {used : Number} (huses : Uses m h used) : used.isFinite = true := by
  obtain ⟨rfl, -⟩ | ⟨-, map, hmap, target, more, htargets, rfl⟩ := huses
  · rfl
  · exact hm map hmap (.whole h) target (htargets ▸ List.mem_cons_self)

theorem Slice.OfRow.finiteHandles {called : String → String → Prop} {uses : Int → Number → Prop}
    {row : List Cell} {s : Slice Int} (h : OfRow called uses row s)
    (huses : ∀ h used, uses h used → used.isFinite = true) : s.FiniteHandles :=
  have ⟨_, _, hcommandBuffer⟩ := h.commandBuffer
  have ⟨_, _, hrenderTarget⟩ := h.renderTarget
  have ⟨_, _, hrenderPass⟩ := h.renderPass
  ⟨huses _ _ hcommandBuffer, huses _ _ hrenderTarget, huses _ _ hrenderPass⟩

/-- The slices are those of some rows, and none of them is in a group yet. -/
def SliceTable.OfRows (t : SliceTable Int) : Prop :=
  (∃ rows, List.Forall₂ (Slice.OfRow Eq fun h used => used = .whole h) rows t.slices) ∧
    t.groups = .empty

theorem SliceTable.returns_inquire : SliceTable.inquire.Returns OfRows := by
  refine .after fun answer => .bind (.ofExcept fun slices => forall₂_slicesOf) fun slices h => ?_
  exact .after fun _ => .after fun _ => .after fun _ => .pure ⟨⟨_, h⟩, rfl⟩

theorem SliceTable.finite_group {t : SliceTable Int} (h : t.OfRows) {inputs : Profile.Inputs}
    (hinputs : inputs.Finite) (order : SubmissionOrder Int) :
    (group order inputs.renderPasses.ranges
      { t with slices := t.slices.map (Slice.withHandles inputs.handles) }).Finite := by
  obtain ⟨slices, tracks, groups⟩ := t
  obtain ⟨⟨rows, hrows⟩, hgroups⟩ := h
  obtain rfl : groups = .empty := hgroups
  have hmapped : List.Forall₂ (Slice.OfRow Eq (HandleMap.Uses inputs.handles)) rows
      (slices.map (Slice.withHandles inputs.handles)) :=
    List.forall₂_map_right_iff.mpr (hrows.imp fun _ _ hrow => hrow.withHandles inputs.handles)
  refine ⟨fun s hs => ?_, fun g hg => ?_⟩
  · have hgrouped := Grouping.forall₂_pass order inputs.renderPasses.ranges hmapped ⟨.empty, noGroup⟩
    obtain ⟨row, -, hrow⟩ := (Schema.exists_of_mem_forall₂ hgrouped).2 s hs
    exact hrow.finiteHandles fun _ _ => HandleMap.isFinite_of_uses hinputs.handles
  · obtain ⟨s, -, hs⟩ := exists_boundary_of_mem_groups hg
    exact hinputs.renderPasses _ _
      (RenderPassSource.ranges_eq_some_iff.mp (lookup_of_boundary hs))

namespace Counter

def FiniteSpecs (cs : List (Counter Int Float)) : Prop := ∀ c ∈ cs, c.FiniteSpec

variable {descriptor : Option Descriptor}
  (hspecs : ∀ d ∈ descriptor, ∀ spec ∈ d.specs, spec.counterId.isFinite = true)

include hspecs in
theorem finiteSpecs_tracksOf {answer : ResultSet} {tracks : List (Counter Int Float)}
    (h : tracksOf descriptor answer = .ok tracks) : FiniteSpecs tracks := by
  intro c hc spec hspec
  obtain ⟨row, -, htrack, -⟩ := (Schema.exists_of_mem_forall₂ (forall₂_tracksOf h)).2 c hc
  rw [htrack.spec, Option.mem_def, Option.bind_eq_some_iff] at hspec
  obtain ⟨d, hd, hlast⟩ := hspec
  exact hspecs d hd spec (List.mem_filter.mp (List.mem_of_getLast? hlast)).1

theorem FiniteSpec.withSamples {c d : Counter Int Float} (hc : c.FiniteSpec) {samples : ResultSet}
    (h : c.withSamples samples = .ok d) : d.FiniteSpec := by
  obtain ⟨_, _, -, rfl⟩ := withSamples_eq_ok_iff.mp h
  exact hc

theorem FiniteSpecs.withAnswers {cs ds : List (Counter Int Float)} (hcs : FiniteSpecs cs)
    {as : List Answer} (h : Counter.withAnswers cs as = .ok ds) : FiniteSpecs ds := by
  induction cs generalizing as ds with
  | nil =>
    obtain rfl : [] = ds := Except.ok.inj h
    exact hcs
  | cons c cs ih =>
    obtain ⟨hc, hcs⟩ := List.forall_mem_cons.mp hcs
    cases as with
    | nil =>
      obtain rfl : [] = ds := Except.ok.inj h
      exact nofun
    | cons a as =>
      rw [withAnswers_cons] at h
      simp only [bind_eq_ok, Except.ok.injEq] at h
      obtain ⟨d, ⟨samples, -, hd⟩, ds, hds, rfl⟩ := h
      exact List.forall_mem_cons.mpr ⟨hc.withSamples hd, ih hcs hds⟩

theorem FiniteSpecs.returns_inquireInTurn {cs : List (Counter Int Float)} (hcs : FiniteSpecs cs) :
    (inquireInTurn cs).Returns FiniteSpecs := by
  induction cs with
  | nil => exact .pure hcs
  | cons c cs ih =>
    obtain ⟨hc, hcs⟩ := List.forall_mem_cons.mp hcs
    refine .after fun samples => .bind (.ofExcept fun d => hc.withSamples) fun d hd => ?_
    exact .bind (ih hcs) fun ds hds => .pure (List.forall_mem_cons.mpr ⟨hd, hds⟩)

include hspecs in
theorem returns_inquireAll (workers : Int) : (inquireAll descriptor workers).Returns FiniteSpecs := by
  refine .after fun answer => .bind (.ofExcept fun _ => finiteSpecs_tracksOf hspecs) fun tracks h => ?_
  have hsorted : FiniteSpecs (sortById tracks) := fun c hc => h c (mem_sortById.mp hc)
  have hread : ∀ cs, FiniteSpecs cs → (Inquiry.report [.countersRead cs.length] >>= fun _ =>
      pure cs).Returns FiniteSpecs := fun cs hcs => .after fun _ => .pure hcs
  dsimp only
  split
  · have hanswers : (inquireAtOnce (sortById tracks)).Returns FiniteSpecs := fun as =>
      .ofExcept fun _ => hsorted.withAnswers
    exact hanswers.bind hread
  · exact hsorted.returns_inquireInTurn.bind hread

end Counter

namespace Profile

variable {inputs : Inputs}

theorem returns_inquireGroups {P : SliceTable Int → Prop} {order : SubmissionOrder Int}
    {source : RenderPassSource} {t : SliceTable Int} (h : P (t.group order source.ranges)) :
    (t.inquireGroups order source).Returns P := by
  obtain heq | ⟨events, f, heq⟩ := t.inquireGroups_cases order source
  · exact heq ▸ .after fun _ => .pure h
  · exact heq ▸ .after fun _ => .ofExcept nofun

theorem returns_inquireSlices (hinputs : inputs.Finite) :
    (inquireSlices inputs).Returns SliceTable.Finite := by
  refine .bind SliceTable.returns_inquire fun table htable => .after fun order => ?_
  have hfinite := SliceTable.finite_group htable hinputs order
  have hgrouped : ∀ t : SliceTable Int,
      t = { table with slices := table.slices.map (Slice.withHandles inputs.handles) } →
        (t.inquireGroups order inputs.renderPasses).Returns SliceTable.Finite := by
    rintro _ rfl
    exact returns_inquireGroups hfinite
  cases hhandles : inputs.handles with
  | none =>
    refine .bind (.pure rfl) fun t (h : table = t) => hgrouped t ?_
    rw [hhandles, ← h]
    exact congrArg (fun slices => { table with slices }) table.slices.map_id.symm
  | some m =>
    refine .after fun _ => .bind (.pure rfl) fun t (h : table.mapHandles m = t) => hgrouped t ?_
    rw [hhandles, ← h]
    rfl

theorem returns_orNone {α : Type} {P : α → Prop} {x : Inquiry α} (hx : x.Returns P)
    (event : Failure → Event) : (orNone event x).Returns fun a? => ∀ a ∈ a?, P a := by
  refine hx.attempt.bind fun r hr => ?_
  cases r with
  | ok a => exact .pure fun b hb => hr b (congrArg Except.ok (Option.some.inj hb))
  | error f => exact .after fun _ => .pure nofun

theorem of_mem_stageResult {α : Type} {r : Except Failure (Option α)} {a : α}
    (h : a ∈ stageResult r) : ∃ a?, r = .ok a? ∧ a ∈ a? := by
  cases r with
  | ok a? => exact ⟨a?, rfl, h⟩
  | error f => exact nomatch h

theorem parts_make {P : SliceTable Int → Prop} {Q : List (Counter Int Float) → Prop}
    (hslices : (inquireSlices inputs).Returns P)
    (hcounters : (Counter.inquireAll inputs.descriptor inputs.workers).Returns Q) {σ : Type}
    (serve : String → StateM σ Answer) (compute : Compute Int Float Float) (mode : Mode) (s : σ) :
    (∀ t ∈ ((make serve inputs compute mode).run s).1.1.slices, P t) ∧
      ∀ cs ∈ ((make serve inputs compute mode).run s).1.1.counters, Q cs := by
  cases mode with
  | inTurn =>
    rcases hfirst : ((inquireSlices inputs).run serve).run s with ⟨slices, s'⟩
    rcases hsecond : ((Counter.inquireAll inputs.descriptor inputs.workers).run serve).run s'
      with ⟨counters, s''⟩
    rw [make, run_eq hfirst hsecond, slices_complete, counters_complete]
    refine ⟨fun t ht => hslices.run serve s t ?_, fun cs hcs => hcounters.run serve s' cs ?_⟩
    · rw [hfirst]
      exact toOption_eq_some_iff.mp ht
    · rw [hsecond]
      exact toOption_eq_some_iff.mp hcs
  | atOnce schedule =>
    obtain ⟨hleft, hright⟩ := (returns_orNone hslices .slicesFailed).runBoth
      (returns_orNone hcounters .countersFailed) serve schedule s
    have hmake : ((make serve inputs compute (.atOnce schedule)).run s).1.1 =
        let stages := ((Inquiry.runBoth serve schedule (slicesStage inputs)
          (countersStage inputs)).run s).1
        (complete compute (stageResult stages.1) (stageResult stages.2.1)).1 := rfl
    rw [hmake, slices_complete, counters_complete]
    refine ⟨fun t ht => ?_, fun cs hcs => ?_⟩
    · obtain ⟨_, hresult, ht⟩ := of_mem_stageResult ht
      exact hleft _ hresult t ht
    · obtain ⟨_, hresult, hcs⟩ := of_mem_stageResult hcs
      exact hright _ hresult cs hcs

end Profile

/-! ## Times -/

namespace Metric

theorem isFinite_of_measure {n : Int} {x : Float} (h : (measure n : Except Failure Float) = .ok x) :
    x.isFinite = true := by
  change ((Number.whole n).toDouble.mapError Failure.conversion) = .ok x at h
  rw [Number.toDouble] at h
  cases hx : Number.Binary64.ofInt? n with
  | none =>
    rw [hx] at h
    exact nomatch h
  | some y =>
    rw [hx] at h
    obtain rfl : y = x := Except.ok.inj h
    exact Number.Binary64.isFinite_of_ofInt? hx

theorem isFinite_of_times {slices : List (Slice Int)} {values : List (Int × Float)}
    (h : times slices = .ok values) : ∀ v ∈ values, v.2.isFinite = true := by
  cases slices with
  | nil =>
    obtain rfl : [] = values := Except.ok.inj h
    exact nofun
  | cons s slices =>
    simp only [times, bind_eq_ok] at h
    obtain ⟨_, -, device, hdevice, _, -, _, -, _, -, wall, hwall, h⟩ := h
    obtain rfl := Except.ok.inj h
    exact List.forall_mem_cons.mpr ⟨isFinite_of_measure hdevice,
      List.forall_mem_singleton.mpr (isFinite_of_measure hwall)⟩

end Metric

theorem MetricTable.isFinite_of_times {t : SliceTable Int} {counters : List (Counter Int Float)}
    {m : MetricTable Int Float} (h : ofSlices t counters = .ok m) {e : MetricEntry Int Float}
    (he : e ∈ m.entries) {v : Int × Float} (hv : v ∈ e.values)
    (hid : v.1 < Metric.firstCounterMetric) : v.2.isFinite = true := by
  obtain ⟨g, -, hg⟩ := (Schema.exists_of_mem_forall₂ (ofSlices_eq_ok_iff.mp h).2).2 e he
  obtain ⟨-, first, rest, hfirst, hrest, hvalues⟩ := Metric.entry_eq_ok_iff.mp hg
  rcases List.mem_append.mp (hvalues ▸ hv) with hv | hv
  · exact Metric.isFinite_of_times hfirst v hv
  · exact absurd hid (Int.not_lt.mpr (Metric.le_of_mem_averages hrest v hv))

namespace Profile

theorem mem_metrics_complete {compute : Compute Int Float Float} {slices : Option (SliceTable Int)}
    {counters : Option (List (Counter Int Float))} {m : MetricTable Int Float} :
    m ∈ (complete compute slices counters).1.metrics ↔ compute slices counters = .ok (some m) := by
  unfold complete
  cases compute slices counters <;> simp

theorem exists_ofSlices_of_mem_metrics {slices : Option (SliceTable Int)}
    {counters : Option (List (Counter Int Float))} {m : MetricTable Int Float}
    (h : m ∈ (complete traceMetrics slices counters).1.metrics) :
    ∃ t, MetricTable.ofSlices t (counters.getD []) = .ok m := by
  have hmetrics := mem_metrics_complete.mp h
  cases slices with
  | none => cases hmetrics
  | some t =>
    obtain ⟨table, htable, hsome⟩ := map_eq_ok.mp hmetrics
    exact ⟨t, htable.trans (congrArg Except.ok (Option.some.inj hsome))⟩

/-- The document of a profile conforms to the grammar, or shows no word for what is no finite number, just
if its numbers are finite. -/
theorem conforms_document_iff (p : Profile Int Float) :
    (Json.Conforms p.document.toList ↔ p.toJson.Finite) ∧
      (Json.Shows false p.document.toList ↔ p.toJson.Finite) := by
  have hshows := Json.shows_writeValue 0 p.toJson
  refine ⟨Json.conforms_write_iff p.toJson, ?_⟩
  rw [document, Json.write, String.toList_ofList, Json.Finite, ← Json.someNonFinite_eq_false_iff]
  exact ⟨hshows.unique, fun h => h ▸ hshows⟩

/-- The samples of all counters are finite, and so are the values of the metrics taken from them. -/
structure FiniteValues (p : Profile Int Float) : Prop where
  samples : ∀ cs ∈ p.counters, ∀ c ∈ cs, ∀ x ∈ c.values, x.isFinite = true
  metrics : ∀ m ∈ p.metrics, ∀ e ∈ m.entries, ∀ v ∈ e.values,
    Metric.firstCounterMetric ≤ v.1 → v.2.isFinite = true

/-- The document of a profile that is made of a trace conforms to the grammar just if the samples of its
counters and the metrics taken from them are finite, and just then no word for anything else stands outside
of quotes, whatever the trace says and however the stages are run. -/
theorem conforms_made_iff (hinputs : inputs.Finite) {σ : Type} (serve : String → StateM σ Answer)
    (mode : Mode) (s : σ) :
    let made := ((make serve inputs traceMetrics mode).run s).1.1
    (Json.Conforms made.document.toList ↔ made.FiniteValues) ∧
      (Json.Shows false made.document.toList ↔ made.FiniteValues) := by
  intro made
  obtain ⟨hslices, hcounters⟩ := parts_make (returns_inquireSlices hinputs)
    (Counter.returns_inquireAll hinputs.specs inputs.workers) serve traceMetrics mode s
  have hcomplete : made = (complete traceMetrics made.slices made.counters).1 :=
    make_eq_complete serve inputs traceMetrics mode s
  have hfinite : made.toJson.Finite ↔ made.FiniteValues := by
    rw [finite_toJson]
    constructor
    · rintro ⟨-, hsamples, hmetrics⟩
      exact ⟨fun cs hcs c hc => (hsamples cs hcs c hc).2, fun m hm e he v hv _ => hmetrics m hm e he v hv⟩
    · intro h
      refine ⟨hslices, fun cs hcs c hc => ⟨hcounters cs hcs c hc, h.samples cs hcs c hc⟩,
        fun m hm e he v hv => ?_⟩
      -- a value is a time or taken from a counter
      obtain ⟨t, ht⟩ := exists_ofSlices_of_mem_metrics (hcomplete ▸ hm)
      rcases Int.lt_or_le v.1 Metric.firstCounterMetric with hid | hid
      · exact MetricTable.isFinite_of_times ht he hv hid
      · exact h.metrics m hm e he v hv hid
  rw [← hfinite]
  exact conforms_document_iff made

def oneRangeInputs : Inputs :=
  { sampleInputs with renderPasses := (RenderPassTable.lookup ⟨[(⟨some 0, 0, 0, 0⟩, ⟨0, 1⟩)]⟩).source }

/-- A store with one slice and one counter, which has a zero and a given value for samples. -/
def oneValueStore (x : Float) : Store := fun sql =>
  if sql = SliceTable.slicesSql then
    ResultSet.ofRows (List.replicate 11 "") [[.number (.whole 1), .null, .number (.whole 1000),
      .text "vertex", .null, .number (.whole 1), .null, .null, .null, .number (.whole 1), .null]]
  else if sql = SliceTable.tracksSql ∨ sql = SubmissionOrder.sql then
    ResultSet.ofRows ["", ""] [[.number (.whole 1), .number (.whole 1)]]
  else if sql = Counter.tracksSql then
    ResultSet.ofRows ["", "", "", ""] [[.number (.whole 1), .text "load", .null, .null]]
  else ResultSet.ofRows ["", ""] [[.null, .null], [.number (.whole 1000), .number (.double x)]]

def oneValueProfile (x : Float) : Profile Int Float :=
  ((make (oneValueStore x).serve oneRangeInputs traceMetrics .inTurn).run (.start none)).1.1

theorem finite_oneRangeInputs : oneRangeInputs.Finite where
  specs := nofun
  handles := nofun
  renderPasses := by
    intro key range hrange
    obtain ⟨e, he, rfl⟩ := RenderPassTable.exists_mem_of_lookup (Except.ok.inj hrange)
    obtain rfl := List.mem_singleton.mp he
    exact ⟨rfl, rfl⟩

instance (p : Profile Int Float) : Decidable p.FiniteValues :=
  decidable_of_iff ((∀ cs ∈ p.counters, ∀ c ∈ cs, ∀ x ∈ c.values, x.isFinite = true) ∧
    ∀ m ∈ p.metrics, ∀ e ∈ m.entries, ∀ v ∈ e.values,
      Metric.firstCounterMetric ≤ v.1 → v.2.isFinite = true)
    ⟨fun h => ⟨h.1, h.2⟩, fun h => ⟨h.1, h.2⟩⟩

theorem conforms_made_iff_sample :
    oneRangeInputs.Finite ∧ (oneValueProfile 1.5).FiniteValues ∧
      Json.Conforms (oneValueProfile 1.5).document.toList := by
  have hvalues : (oneValueProfile 1.5).FiniteValues := by decide +kernel
  have hconforms := (conforms_made_iff finite_oneRangeInputs (oneValueStore 1.5).serve .inTurn
    (.start none)).1
  exact ⟨finite_oneRangeInputs, hvalues, hconforms.mpr hvalues⟩

/-- Finite samples over a finite time come to a sum beyond all doubles, and its word stands in the
document. -/
theorem not_conforms_of_overflow :
    (∀ cs ∈ (oneValueProfile 1e308).counters, ∀ c ∈ cs, ∀ x ∈ c.values, x.isFinite = true) ∧
      ¬ Json.Conforms (oneValueProfile 1e308).document.toList := by
  have hsamples : ∀ cs ∈ (oneValueProfile 1e308).counters, ∀ c ∈ cs, ∀ x ∈ c.values,
      x.isFinite = true := by decide +kernel
  have hnumbers : Json.someNonFinite (oneValueProfile 1e308).toJson.numbers = true := by
    decide +kernel
  refine ⟨hsamples, fun hconforms => ?_⟩
  have hfinite := (conforms_document_iff _).1.mp hconforms
  rw [Json.someNonFinite_eq_false_iff.mpr hfinite] at hnumbers
  exact nomatch hnumbers

end Profile
end RenderTrace
