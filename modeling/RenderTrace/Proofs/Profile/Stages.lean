import RenderTrace.Profile.Assembly
import RenderTrace.Proofs.Query.Outcome
import RenderTrace.Proofs.Query.Within

/-!
# The two stages of a profile

The slices stage asks the queries of `Profile.SliceSide` and the counters stage those of
`Profile.CounterSide`, and no query is of both sides. What a stage does on its way reports no error
(`within_inquireSlices`, `within_inquireAll`). `orNone` makes a stage of it that never fails
(`within_orNone`) and reports the failure, if there is one, as its last event (`run_orNone`).
-/

namespace RenderTrace

/-! ## Levels of events -/

theorem HandleMap.level_of_mem_warnings {m : HandleMap} {handle : Number} {e : Event}
    (he : e ∈ m.warnings handle) : e.level = .warning := by
  unfold HandleMap.warnings at he
  split at he
  · exact nomatch he
  · split at he
    · rw [List.mem_singleton.mp he]
      rfl
    · exact nomatch he
    · rw [List.mem_singleton.mp he]
      rfl

theorem SliceTable.level_of_mem_mapWarnings {τ : Type} {m : HandleMap} {t : SliceTable τ}
    {e : Event} (he : e ∈ t.mapWarnings m) : e.level = .warning := by
  obtain ⟨s, -, he⟩ := List.mem_flatMap.mp he
  simp only [Slice.mapWarnings, List.mem_append] at he
  rcases he with (he | he) | he
  all_goals exact HandleMap.level_of_mem_warnings he

theorem Slice.level_of_mem_warnings {τ : Type} [BEq τ] [OfInteger τ] [Numeric τ]
    {order : SubmissionOrder τ} {s : Slice τ} {e : Event} (he : e ∈ s.warnings order) :
    e.level = .warning := by
  rcases List.mem_append.mp he with he | he
  · unfold Slice.submissionWarnings at he
    split at he
    · rw [List.mem_singleton.mp he]
      rfl
    · exact nomatch he
  · unfold Slice.groupWarnings at he
    split at he
    · rw [List.mem_singleton.mp he]
      rfl
    · exact nomatch he

theorem SliceTable.level_of_mem_groupEvents {τ : Type} [BEq τ] [OfInteger τ] [Numeric τ]
    {order : SubmissionOrder τ} {t : SliceTable τ} {e : Event} (he : e ∈ t.groupEvents order) :
    e.level ≠ .error := by
  rcases List.mem_append.mp he with he | he
  · obtain ⟨s, -, he⟩ := List.mem_flatMap.mp he
    rw [Slice.level_of_mem_warnings he]
    decide
  · rw [List.mem_singleton.mp he]
    exact nofun

theorem SubmissionOrder.level_of_mem_warnings {τ : Type} [Numeric τ]
    {rows : List (SubmissionOrder.Submission τ)} {e : Event}
    (he : e ∈ SubmissionOrder.warnings rows) : e.level = .warning := by
  obtain ⟨s, -, rfl⟩ := List.mem_map.mp he
  rfl

namespace Profile

variable {α σ : Type}

/-! ## What the stages ask -/

/-- The queries for slices, tracks and submissions. -/
def SliceSide (sql : String) : Prop :=
  sql = SliceTable.slicesSql ∨ sql = SliceTable.tracksSql ∨ sql = SubmissionOrder.sql

/-- The queries for counter tracks and the samples of one. -/
def CounterSide (sql : String) : Prop :=
  sql = Counter.tracksSql ∨ ∃ id, sql = Counter.samplesSql id

theorem CounterSide.of_samplesQuery {id : Int} {sql : String}
    (h : Counter.samplesQuery id = .ok sql) : CounterSide sql := by
  unfold Counter.samplesQuery at h
  split at h
  · exact .inr ⟨id, (Except.ok.inj h).symm⟩
  · exact nomatch h

/-- What a query for the samples of a track starts with. -/
def samplesHead : String := "SELECT ts, value FROM counter c WHERE c.track_id = "

theorem octet_samplesSql (id : Int) : (Counter.samplesSql id).toByteArray.data[7]? = some 116 := by
  have happend : Counter.samplesSql id = samplesHead ++ (toString id ++ " ORDER BY ts") :=
    String.append_assoc
  have hlen : 7 < samplesHead.toByteArray.data.size := by decide +kernel
  rw [happend, String.toByteArray_append, ByteArray.data_append, Array.getElem?_append_left hlen]
  decide +kernel

theorem SliceSide.not_counterSide {sql : String} (h : SliceSide sql) : ¬ CounterSide sql := by
  have hslice : sql.toByteArray.data[7]? ≠ some 116 ∧ sql ≠ Counter.tracksSql := by
    rcases h with rfl | rfl | rfl
    all_goals decide +kernel
  rintro (rfl | ⟨id, rfl⟩)
  · exact hslice.2 rfl
  · exact hslice.1 (octet_samplesSql id)

/-- Asks some queries, reports no error and may fail in any way. -/
def quietly (asks : String → Prop) : Inquiry.Bounds := ⟨asks, (·.level ≠ .error), fun _ => True⟩

section Asking

variable {asks : String → Prop}

theorem within_query {sql : String} (h : asks sql) : (Inquiry.query sql).Within (quietly asks) :=
  .query h fun _ => trivial

theorem within_ofExcept (r : Except Failure α) : (Inquiry.ofExcept r).Within (quietly asks) :=
  .ofExcept fun _ _ => trivial

theorem within_report {es : List Event} (h : ∀ e ∈ es, e.level ≠ .error) :
    (Inquiry.report es).Within (quietly asks) :=
  .report h fun _ _ _ _ => trivial

theorem within_report_singleton {e : Event} (h : e.level ≠ .error) :
    (Inquiry.report [e]).Within (quietly asks) :=
  within_report fun _ he => List.mem_singleton.mp he ▸ h

theorem within_report_warnings {es : List Event} (h : ∀ e ∈ es, e.level = .warning) :
    (Inquiry.report es).Within (quietly asks) := by
  refine within_report fun e he => ?_
  rw [h e he]
  decide

end Asking

theorem within_sliceTable : SliceTable.inquire.Within (quietly SliceSide) := by
  refine .bind (within_query (.inl rfl)) fun a => .bind (within_ofExcept _) fun slices => ?_
  refine .bind (within_query (.inr (.inl rfl))) fun a => .bind (within_ofExcept _) fun tracks => ?_
  exact .bind (within_report_singleton nofun) fun _ => .pure _

theorem within_submissionOrder : SubmissionOrder.inquire.Within (quietly SliceSide) := by
  refine .bind (within_query (.inr (.inr rfl))) fun a => ?_
  refine .bind (within_ofExcept _) fun ids => .bind (within_ofExcept _) fun buffers => ?_
  exact .bind (within_report_warnings fun e he => SubmissionOrder.level_of_mem_warnings he)
    fun _ => .pure _

theorem within_inquireGroups (order : SubmissionOrder Int) (source : RenderPassSource)
    (table : SliceTable Int) : (table.inquireGroups order source).Within (quietly SliceSide) := by
  unfold SliceTable.inquireGroups
  split
  split
  · exact .bind (within_report fun e he => SliceTable.level_of_mem_groupEvents he) fun _ => .pure _
  · next s f =>
    refine .bind (within_report_warnings fun e he => ?_) fun _ => within_ofExcept _
    rcases List.mem_append.mp he with he | he
    · obtain ⟨s, -, he⟩ := List.mem_flatMap.mp he
      exact Slice.level_of_mem_warnings he
    · exact Slice.level_of_mem_warnings (List.mem_append_left _ he)

theorem within_inquireSlices (inputs : Inputs) :
    (inquireSlices inputs).Within (quietly SliceSide) := by
  refine .bind within_sliceTable fun table => .bind within_submissionOrder fun order => ?_
  have hgrouped := within_inquireGroups order inputs.renderPasses
  cases inputs.handles with
  | none => exact .bind (.pure table) hgrouped
  | some m =>
    exact .bind (within_report_warnings fun e he => SliceTable.level_of_mem_mapWarnings he)
      fun _ => .bind (.pure _) hgrouped

theorem within_inquireSamples (c : Counter Int Float) :
    c.inquireSamples.Within (quietly CounterSide) :=
  .after_ofExcept (fun _ _ => trivial) fun _ hsql => within_query (.of_samplesQuery hsql)

theorem within_inquireInTurn (cs : List (Counter Int Float)) :
    (Counter.inquireInTurn cs).Within (quietly CounterSide) := by
  induction cs with
  | nil => exact .pure []
  | cons c cs ih =>
    refine .bind (within_inquireSamples c) fun a => ?_
    exact .bind (within_ofExcept _) fun c => .bind ih fun cs => .pure (c :: cs)

theorem within_inquireAtOnce (cs : List (Counter Int Float)) :
    (Counter.inquireAtOnce cs).Within (quietly CounterSide) := by
  refine ⟨fun sql hsql => ?_, fun as => within_ofExcept _⟩
  obtain ⟨query, hquery, hsql⟩ := List.mem_filterMap.mp hsql
  obtain ⟨c, -, rfl⟩ := List.mem_map.mp hquery
  exact .of_samplesQuery (toOption_eq_some_iff.mp hsql)

theorem within_inquireAll (descriptor : Option Descriptor) (workers : Int) :
    (Counter.inquireAll descriptor workers).Within (quietly CounterSide) := by
  refine .bind (within_query (.inl rfl)) fun a => .bind (within_ofExcept _) fun tracks => ?_
  have hread : ∀ counters : List (Counter Int Float),
      (Inquiry.report [.countersRead counters.length] >>= fun _ =>
        pure counters).Within (quietly CounterSide) := fun counters =>
    .bind (within_report_singleton nofun) fun _ => .pure counters
  dsimp only
  split
  · exact .bind (within_inquireAtOnce _) hread
  · exact .bind (within_inquireInTurn _) hread

/-! ## Stages -/

/-- The event about a step that failed, if it did. -/
def failures (event : Failure → Event) : Except Failure α → List Event
  | .ok _ => []
  | .error f => [event f]

theorem filter_failures {event : Failure → Event} (hevent : ∀ f, (event f).level = .error)
    (r : Except Failure α) : (failures event r).filter (·.level = .error) = failures event r := by
  cases r with
  | ok a => rfl
  | error f => simp [failures, hevent f]

theorem within_orNone {event : Failure → Event} (hevent : ∀ f, (event f).refusal? = none)
    {asks : String → Prop} {x : Inquiry α} (hx : x.Within (quietly asks)) :
    (orNone event x).Within ⟨asks, fun _ => True, fun _ => False⟩ := by
  refine .bind (hx.attempt (fun _ h => h) fun _ _ => trivial) fun r => ?_
  cases r with
  | ok a => exact .pure (some a)
  | error f =>
    refine .bind (.report (fun _ _ => trivial) fun e he g hg => ?_) fun _ => .pure none
    rw [List.mem_singleton.mp he, hevent f] at hg
    exact nomatch hg

theorem run_orNone (serve : String → StateM σ Answer) {event : Failure → Event}
    (hevent : ∀ f, (event f).refusal? = none) (x : Inquiry α) (s : σ) :
    ((orNone event x).run serve).run s =
      (⟨.ok ((x.run serve).run s).1.result.toOption,
        ((x.run serve).run s).1.events ++ failures event ((x.run serve).run s).1.result⟩,
        ((x.run serve).run s).2) := by
  rcases hx : (x.run serve).run s with ⟨⟨r, es⟩, s'⟩
  rw [orNone, Inquiry.run_bind, Inquiry.run_attempt, hx]
  cases r with
  | ok a => rfl
  | error f =>
    have htell : Event.canTell [event f] = true := by
      simp [Event.canTell, hevent f]
    dsimp only
    rw [Inquiry.run_bind, Inquiry.run_report serve htell]
    rfl

theorem evaluate_orNone (store : Store) {event : Failure → Event}
    (hevent : ∀ f, (event f).refusal? = none) (x : Inquiry α) :
    (orNone event x).evaluate store =
      ⟨.ok (x.evaluate store).result.toOption,
        (x.evaluate store).events ++ failures event (x.evaluate store).result⟩ := by
  have hserves := Inquiry.serves_pure (σ := Unit) store
  rw [← (Inquiry.run_eq hserves x (s := ()) trivial).1,
    ← (Inquiry.run_eq hserves (orNone event x) (s := ()) trivial).1, run_orNone _ hevent]

end Profile
end RenderTrace
