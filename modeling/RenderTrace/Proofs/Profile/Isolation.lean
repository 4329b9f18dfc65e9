import RenderTrace.Proofs.Profile.Stages

/-!
# Isolation of the stages

`Profile.make` makes a profile in one of the two ways of `Mode`. In both it is made of what each
stage comes to by itself (`exists_make_eq`), so that neither stage can tell what the queries of the
other are answered (`stages_isolated`).
-/

namespace RenderTrace
namespace Profile

variable {σ : Type}

/-- How the stages are run. -/
inductive Mode where
  | inTurn
  /-- Both at once, the queries answered in the order that a schedule gives. -/
  | atOnce (schedule : List Nat)

def make (serve : String → StateM σ Answer) (inputs : Inputs) (compute : Compute Int Float Float) :
    Mode → StateM σ (Profile Int Float × List Event)
  | .inTurn => run serve inputs compute
  | .atOnce schedule => runBoth serve schedule inputs compute

def slicesPart (inputs : Inputs) (store : Store) : Option (SliceTable Int) :=
  ((inquireSlices inputs).evaluate store).result.toOption

def countersPart (inputs : Inputs) (store : Store) : Option (List (Counter Int Float)) :=
  ((Counter.inquireAll inputs.descriptor inputs.workers).evaluate store).result.toOption

/-- The events of both stages and of the metrics, one after the other. -/
def reported (inputs : Inputs) (compute : Compute Int Float Float) (store : Store) : List Event :=
  let slices := (inquireSlices inputs).evaluate store
  let counters := (Counter.inquireAll inputs.descriptor inputs.workers).evaluate store
  slices.events ++ failures .slicesFailed slices.result ++
    (counters.events ++ failures .countersFailed counters.result ++
      failures .metricsFailed (compute slices.result.toOption counters.result.toOption))

/-- The metrics that are computed for a trace, if nothing else is asked for. -/
abbrev traceMetrics : Compute Int Float Float := metricsOf

section Complete

variable (compute : Compute Int Float Float) (slices : Option (SliceTable Int))
  (counters : Option (List (Counter Int Float)))

theorem slices_complete : (complete compute slices counters).1.slices = slices := by
  unfold complete
  split <;> rfl

theorem counters_complete : (complete compute slices counters).1.counters = counters := by
  unfold complete
  split <;> rfl

theorem events_complete : (complete compute slices counters).2 =
    failures .metricsFailed (compute slices counters) := by
  unfold complete
  cases compute slices counters <;> rfl

theorem metrics_complete_eq_none : (complete traceMetrics slices counters).1.metrics = none ↔
    slices = none ∨ ∃ f, traceMetrics slices counters = .error f := by
  unfold complete
  cases hmetrics : traceMetrics slices counters with
  | error f => simp
  | ok metrics =>
    cases slices with
    | none => exact nomatch hmetrics
    | some t =>
      rw [traceMetrics, metricsOf] at hmetrics
      cases htable : (MetricTable.ofSlices t (counters.getD []) :
          Except Failure (MetricTable Int Float)) with
      | error f =>
        rw [htable] at hmetrics
        exact nomatch hmetrics
      | ok table =>
        rw [htable] at hmetrics
        obtain rfl : some table = metrics := Except.ok.inj hmetrics
        simp

theorem metrics_complete_none : (complete traceMetrics slices none).1.metrics =
    (complete traceMetrics slices (some [])).1.metrics := by
  have hmetrics : traceMetrics slices none = traceMetrics slices (some []) := by
    cases slices <;> rfl
  unfold complete
  rw [hmetrics]
  split <;> rfl

end Complete

/-! ## One stage after the other -/

section InTurn

variable {serve : String → StateM σ Answer} {inputs : Inputs} {s s' s'' : σ}
  {slices : Inquiry.Outcome (SliceTable Int)} {counters : Inquiry.Outcome (List (Counter Int Float))}
  (hslices : ((inquireSlices inputs).run serve).run s = (slices, s'))
  (hcounters : ((Counter.inquireAll inputs.descriptor inputs.workers).run serve).run s' =
    (counters, s'')) (compute : Compute Int Float Float)
include hslices hcounters

/-- The profile is of what came out of each stage; every step that failed is reported after what it
reported itself. -/
theorem run_inquire : ((inquire inputs compute).run serve).run s =
    (⟨.ok (complete compute slices.result.toOption counters.result.toOption).1,
      slices.events ++ failures .slicesFailed slices.result ++
        (counters.events ++ failures .countersFailed counters.result ++
          failures .metricsFailed
            (compute slices.result.toOption counters.result.toOption))⟩, s'') := by
  have hmetrics : ∀ r : Except Failure (Option (MetricTable Int Float)),
      Event.canTell (failures .metricsFailed r) = true := by
    rintro (f | metrics) <;> rfl
  rw [inquire, Inquiry.run_bind, slicesStage, run_orNone serve (fun _ => rfl), hslices]
  dsimp only
  rw [Inquiry.run_bind, countersStage, run_orNone serve (fun _ => rfl), hcounters]
  dsimp only
  rw [Inquiry.run_bind, events_complete, Inquiry.run_report serve (hmetrics _)]
  dsimp only
  rw [Inquiry.run_pure, List.append_nil]

theorem run_eq : (run serve inputs compute).run s =
    (((complete compute slices.result.toOption counters.result.toOption).1,
      slices.events ++ failures .slicesFailed slices.result ++
        (counters.events ++ failures .countersFailed counters.result ++
          failures .metricsFailed
            (compute slices.result.toOption counters.result.toOption))), s'') := by
  rw [run, StateT.run_bind, run_inquire hslices hcounters]
  rfl

theorem filter_events : ((run serve inputs compute).run s).1.2.filter (·.level = .error) =
    failures .slicesFailed slices.result ++ failures .countersFailed counters.result ++
      failures .metricsFailed (compute slices.result.toOption counters.result.toOption) := by
  have hquiet : ∀ es : List Event, (∀ e ∈ es, e.level ≠ .error) →
      es.filter (·.level = .error) = [] := fun es hes =>
    List.filter_eq_nil_iff.mpr fun e he => by simp [hes e he]
  have hslices' : ∀ e ∈ slices.events, e.level ≠ .error := by
    have hwithin := ((within_inquireSlices inputs).run serve s).2
    rwa [hslices] at hwithin
  have hcounters' : ∀ e ∈ counters.events, e.level ≠ .error := by
    have hwithin := ((within_inquireAll inputs.descriptor inputs.workers).run serve s').2
    rwa [hcounters] at hwithin
  rw [run_eq hslices hcounters]
  simp only [List.filter_append, hquiet _ hslices', hquiet _ hcounters', List.nil_append]
  rw [filter_failures fun _ => rfl, filter_failures fun _ => rfl, filter_failures fun _ => rfl,
    List.append_assoc]

end InTurn

/-! ## Either way -/

section Make

variable (serve : String → StateM σ Answer) (inputs : Inputs) (compute : Compute Int Float Float)

theorem exists_runBoth_eq (schedule : List Nat) (s : σ) : ∃ slices counters events,
    ((Inquiry.runBoth serve schedule (slicesStage inputs) (countersStage inputs)).run s).1 =
      (.ok slices, .ok counters, events) := by
  have hslices : (slicesStage inputs).Within ⟨SliceSide, fun _ => True, fun _ => False⟩ :=
    within_orNone (fun _ => rfl) (within_inquireSlices inputs)
  have hcounters : (countersStage inputs).Within ⟨CounterSide, fun _ => True, fun _ => False⟩ :=
    within_orNone (fun _ => rfl) (within_inquireAll inputs.descriptor inputs.workers)
  obtain ⟨hnoslices, hnocounters⟩ := hslices.runBoth hcounters serve schedule s
  rcases hrun : ((Inquiry.runBoth serve schedule (slicesStage inputs) (countersStage inputs)).run
    s).1 with ⟨f | slices, g | counters, events⟩
  · exact (hnoslices f (by rw [hrun])).elim
  · exact (hnoslices f (by rw [hrun])).elim
  · exact (hnocounters g (by rw [hrun])).elim
  · exact ⟨slices, counters, events, rfl⟩

theorem make_eq_complete (mode : Mode) (s : σ) :
    ((make serve inputs compute mode).run s).1.1 =
      (complete compute ((make serve inputs compute mode).run s).1.1.slices
        ((make serve inputs compute mode).run s).1.1.counters).1 := by
  obtain ⟨slices, counters, hmake⟩ : ∃ slices counters,
      ((make serve inputs compute mode).run s).1.1 = (complete compute slices counters).1 := by
    cases mode with
    | inTurn =>
      rcases hslices : ((inquireSlices inputs).run serve).run s with ⟨slices, s'⟩
      rcases hcounters : ((Counter.inquireAll inputs.descriptor inputs.workers).run serve).run s'
        with ⟨counters, s''⟩
      refine ⟨slices.result.toOption, counters.result.toOption, ?_⟩
      rw [make, run_eq hslices hcounters]
    | atOnce schedule => exact ⟨_, _, rfl⟩
  rw [hmake, slices_complete, counters_complete]

/-- A server that answers as a store does gives the profile of what the stages come to, in either
way to run them, and the events of both stages, in an order of its own. -/
theorem exists_make_eq {store : Store} {I : σ → Prop} {s : σ} (h : Inquiry.Serves serve store I)
    (mode : Mode) (hs : I ((make serve inputs compute mode).run s).2) :
    ∃ events, ((make serve inputs compute mode).run s).1 =
        ((complete compute (slicesPart inputs store) (countersPart inputs store)).1, events) ∧
      events.Perm (reported inputs compute store) := by
  cases mode with
  | inTurn =>
    rcases hslices : ((inquireSlices inputs).run serve).run s with ⟨slices, s'⟩
    rcases hcounters : ((Counter.inquireAll inputs.descriptor inputs.workers).run serve).run s'
      with ⟨counters, s''⟩
    rw [make, run_eq hslices hcounters] at hs ⊢
    -- what holds at the end held between the stages
    obtain ⟨hcounters', hs'⟩ := Inquiry.run_eq h _ (by rw [hcounters]; exact hs)
    obtain ⟨hslices', -⟩ := Inquiry.run_eq h _ (by rw [hslices]; exact hs')
    rw [hcounters] at hcounters'
    rw [hslices] at hslices'
    rw [slicesPart, countersPart, reported, ← hslices', ← hcounters']
    exact ⟨_, rfl, List.Perm.refl _⟩
  | atOnce schedule =>
    -- the schedule shows in the events only
    obtain ⟨events, hrun, hevents, -⟩ := Inquiry.runBoth_eq h schedule (slicesStage inputs)
      (countersStage inputs) (s := s) hs
    rw [slicesStage, countersStage, evaluate_orNone _ fun _ => rfl,
      evaluate_orNone _ fun _ => rfl] at hrun hevents
    have hmake : ((make serve inputs compute (.atOnce schedule)).run s).1 =
        let stages := ((Inquiry.runBoth serve schedule (slicesStage inputs)
          (countersStage inputs)).run s).1
        let made := complete compute (stageResult stages.1) (stageResult stages.2.1)
        (made.1, stages.2.2 ++ made.2) := rfl
    rw [hmake, slicesStage, countersStage, hrun]
    refine ⟨_, rfl, ?_⟩
    rw [events_complete, reported, ← List.append_assoc]
    exact hevents.append_right _

theorem make_eq {store : Store} {I : σ → Prop} {s : σ} (h : Inquiry.Serves serve store I)
    (mode : Mode) (hs : I ((make serve inputs compute mode).run s).2) :
    ((make serve inputs compute mode).run s).1.1 =
      (complete compute (slicesPart inputs store) (countersPart inputs store)).1 := by
  obtain ⟨events, hmake, -⟩ := exists_make_eq serve inputs compute h mode hs
  rw [hmake]

end Make

/-! ## Isolation -/

/-- Making a profile never fails and keeps the stages apart: what one of them gives does not depend
on what the queries of the other are answered, as long as the request is not over. The metrics are
missing just if the slices are or their computation fails, missing counters count as none, and one
stage after the other reports one error for each step that failed, in order. -/
theorem stages_isolated (inputs : Inputs) (compute : Compute Int Float Float) :
    -- no failure gets out, whatever is answered
    (∀ {σ : Type} (serve : String → StateM σ Answer) (s : σ),
      (∃ profile, (((inquire inputs compute).run serve).run s).1.result = .ok profile) ∧
        ∀ schedule, ∃ slices counters events,
          ((Inquiry.runBoth serve schedule (slicesStage inputs) (countersStage inputs)).run s).1 =
            (.ok slices, .ok counters, events)) ∧
      -- no query is of both sides, and neither part depends on the queries of the other side
      (∀ sql, SliceSide sql → ¬ CounterSide sql) ∧
      (∀ (store store' : Store) (mode mode' : Mode) (p p' : Progress)
        (made made' : (Profile Int Float × List Event) × Progress),
        (make store.serve inputs compute mode).run p = made → made.2.Open →
          (make store'.serve inputs compute mode').run p' = made' → made'.2.Open →
            ((∀ sql, SliceSide sql → store sql = store' sql) →
                made.1.1.slices = made'.1.1.slices) ∧
              ((∀ sql, CounterSide sql → store sql = store' sql) →
                made.1.1.counters = made'.1.1.counters)) ∧
      -- the metrics
      (∀ {σ : Type} (serve : String → StateM σ Answer) (mode : Mode) (s : σ)
        (profile : Profile Int Float),
        ((make serve inputs traceMetrics mode).run s).1.1 = profile →
          (profile.metrics = none ↔
              profile.slices = none ∨
                ∃ f, traceMetrics profile.slices profile.counters = .error f) ∧
            (profile.counters = none →
              profile.metrics = (complete traceMetrics profile.slices (some [])).1.metrics)) ∧
      -- what one stage after the other gives, and its errors
      ∀ {σ : Type} (serve : String → StateM σ Answer) (s s' s'' : σ)
        (slices : Inquiry.Outcome (SliceTable Int))
        (counters : Inquiry.Outcome (List (Counter Int Float))),
        ((inquireSlices inputs).run serve).run s = (slices, s') →
          ((Counter.inquireAll inputs.descriptor inputs.workers).run serve).run s' =
              (counters, s'') →
            ((run serve inputs compute).run s).1.1 =
                (complete compute slices.result.toOption counters.result.toOption).1 ∧
              ((run serve inputs compute).run s).1.2.filter (·.level = .error) =
                failures .slicesFailed slices.result ++ failures .countersFailed counters.result ++
                  failures .metricsFailed
                    (compute slices.result.toOption counters.result.toOption) := by
  refine ⟨fun serve s => ⟨?_, fun schedule => exists_runBoth_eq serve inputs schedule s⟩,
    fun sql => SliceSide.not_counterSide, ?_, fun serve mode s profile hprofile => ?_,
    fun serve s s' s'' slices counters hslices hcounters => ⟨?_, ?_⟩⟩
  · rcases hslices : ((inquireSlices inputs).run serve).run s with ⟨slices, s'⟩
    rcases hcounters : ((Counter.inquireAll inputs.descriptor inputs.workers).run serve).run s'
      with ⟨counters, s''⟩
    rw [run_inquire hslices hcounters]
    exact ⟨_, rfl⟩
  · rintro store store' mode mode' p p' made made' rfl hopen rfl hopen'
    rw [make_eq _ inputs compute store.serves mode hopen,
      make_eq _ inputs compute store'.serves mode' hopen', slices_complete, slices_complete,
      counters_complete, counters_complete]
    refine ⟨fun hagree => ?_, fun hagree => ?_⟩
    · rw [slicesPart, slicesPart, (within_inquireSlices inputs).evaluate_eq hagree]
    · rw [countersPart, countersPart,
        (within_inquireAll inputs.descriptor inputs.workers).evaluate_eq hagree]
  · -- a profile is complete, so its metrics are those of its own parts
    have hcomplete : profile = (complete traceMetrics profile.slices profile.counters).1 := by
      rw [← hprofile]
      exact make_eq_complete serve inputs traceMetrics mode s
    refine ⟨?_, fun hcounters => ?_⟩
    · rw [← metrics_complete_eq_none, ← hcomplete]
    · rw [← metrics_complete_none, ← hcounters, ← hcomplete]
  · rw [run_eq hslices hcounters]
  · exact filter_events hslices hcounters compute

def sampleInputs : Inputs := ⟨none, none, RenderPassTable.empty.lookup.source, 1⟩

/-- A store with a row of ones for every query of the slices stage. -/
def sampleStore (counters : Answer) : Store := fun sql =>
  if sql = SliceTable.slicesSql then
    ResultSet.ofRows (List.replicate 11 "") [List.replicate 11 (.number (.whole 1))]
  else if sql = SliceTable.tracksSql ∨ sql = SubmissionOrder.sql then
    ResultSet.ofRows ["", ""] [List.replicate 2 (.number (.whole 1))]
  else counters

/-- A profile made with a store that does not answer the counters stage. -/
def sampleFailed : (Profile Int Float × List Event) × Progress :=
  (make (sampleStore (.error .outOfRange)).serve sampleInputs traceMetrics .inTurn).run (.start none)

/-- A profile made with a store that has no counters. -/
def sampleAnswered : (Profile Int Float × List Event) × Progress :=
  (make (sampleStore (ResultSet.ofRows ["", "", "", ""] [])).serve sampleInputs traceMetrics
    (.atOnce [1, 0])).run (.start (some .unlimited))

theorem stages_isolated_sample :
    sampleFailed.2.Open ∧ sampleAnswered.2.Open ∧
      sampleFailed.1.1.counters.isNone ∧ sampleAnswered.1.1.counters.isSome ∧
      sampleFailed.1.1.slices.isSome ∧ sampleFailed.1.1.slices = sampleAnswered.1.1.slices := by
  have hfailed : sampleFailed.2.Open := by decide +kernel
  have hanswered : sampleAnswered.2.Open := by decide +kernel
  have hagree : ∀ sql, SliceSide sql → ∀ a b, sampleStore a sql = sampleStore b sql := by
    intro sql hsql a b
    unfold sampleStore
    split
    · rfl
    · next hslices => rw [if_pos (hsql.resolve_left hslices), if_pos (hsql.resolve_left hslices)]
  refine ⟨hfailed, hanswered, by decide +kernel, by decide +kernel, by decide +kernel, ?_⟩
  have hisolated := (stages_isolated sampleInputs traceMetrics).2.2.1
    (sampleStore (.error .outOfRange)) (sampleStore (ResultSet.ofRows ["", "", "", ""] []))
    .inTurn (.atOnce [1, 0]) (.start none) (.start (some .unlimited))
    sampleFailed sampleAnswered rfl hfailed rfl hanswered
  exact hisolated.1 fun sql hsql => hagree sql hsql _ _

end Profile
end RenderTrace
