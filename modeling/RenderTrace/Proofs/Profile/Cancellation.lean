import RenderTrace.Proofs.Profile.Isolation
import RenderTrace.Proofs.Query.Cancellation

/-!
# Profiles of cancelled requests

With one worker both stages go no further once a query is refused (`halting_inquireSlices`,
`halting_inquireAll`). A request that is cancelled after `n` queries therefore sees the first `n`
queries of the whole run issued, and keeps the parts of the stages whose queries are all among them
(`run_cancelledAfter`).
-/

namespace RenderTrace
namespace Profile

open Inquiry (Halting)

theorem halting_sliceTable : SliceTable.inquire.Halting := by
  refine .bind (.query _) fun a => .bind (.ofExcept _) fun slices => ?_
  refine .bind (.query _) fun a => .bind (.ofExcept _) fun tracks => ?_
  exact .bind (.report _) fun _ => .pure _

theorem halting_submissionOrder : SubmissionOrder.inquire.Halting := by
  refine .bind (.query _) fun a => .bind (.ofExcept _) fun ids => .bind (.ofExcept _) fun bs => ?_
  exact .bind (.report _) fun _ => .pure _

theorem halting_inquireGroups (order : SubmissionOrder Int) (source : RenderPassSource)
    (table : SliceTable Int) : (table.inquireGroups order source).Halting := by
  unfold SliceTable.inquireGroups
  split
  split
  · exact .bind (.report _) fun _ => .pure _
  · exact .bind (.report _) fun _ => .ofExcept _

theorem halting_inquireSlices (inputs : Inputs) : (inquireSlices inputs).Halting := by
  refine .bind halting_sliceTable fun table => .bind halting_submissionOrder fun order => ?_
  have hgrouped := halting_inquireGroups order inputs.renderPasses
  cases inputs.handles with
  | none => exact .bind (.pure table) hgrouped
  | some m => exact .bind (.report _) fun _ => .bind (.pure _) hgrouped

theorem halting_inquireSamples (c : Counter Int Float) : c.inquireSamples.Halting :=
  .bind (.ofExcept _) fun sql => .query sql

theorem halting_inquireInTurn (cs : List (Counter Int Float)) :
    (Counter.inquireInTurn cs).Halting := by
  induction cs with
  | nil => exact .pure []
  | cons c cs ih =>
    refine .bind (halting_inquireSamples c) fun a => ?_
    exact .bind (.ofExcept _) fun c => .bind ih fun cs => .pure (c :: cs)

theorem halting_inquireAll (descriptor : Option Descriptor) {workers : Int} (h : workers ≤ 1) :
    (Counter.inquireAll descriptor workers).Halting := by
  refine .bind (.query _) fun a => .bind (.ofExcept _) fun tracks => ?_
  dsimp only
  rw [if_neg fun hmany => absurd hmany.1 (Int.not_lt.mpr h)]
  exact .bind (halting_inquireInTurn _) fun cs => .bind (.report _) fun _ => .pure cs

variable (store : Store) {p : Progress}

theorem issued_orNone {α : Type} {event : Failure → Event}
    (hevent : ∀ f, (event f).refusal? = none) (x : Inquiry α) (h : p.Lasting) :
    (((orNone event x).run store.serve).run p).2.issued = p.issued ++ x.queries store := by
  rw [run_orNone _ hevent, Inquiry.run_lasting store h]
  exact Progress.issued_issueAll _ _

theorem toOption_countdown {α : Type} {x : Inquiry α} (hx : x.Halting) {left : Nat}
    (h : p.Countdown left) : ((x.run store.serve).run p).1.result.toOption =
      if (x.queries store).length ≤ left then (x.evaluate store).result.toOption else none := by
  obtain ⟨-, hall, hcut⟩ := Inquiry.run_countdown store hx h
  split
  · next hle => rw [hall hle]
  · next hlt =>
    obtain ⟨f, hf⟩ := hcut (Nat.lt_of_not_le hlt)
    rw [hf]
    rfl

/-- The queries of a profile that is made one stage after the other. -/
def queries (inputs : Inputs) (store : Store) : List String :=
  (inquireSlices inputs).queries store ++
    (Counter.inquireAll inputs.descriptor inputs.workers).queries store

theorem run_lasting (inputs : Inputs) (compute : Compute Int Float Float) (h : p.Lasting) :
    (run store.serve inputs compute).run p =
      (((complete compute (slicesPart inputs store) (countersPart inputs store)).1,
        reported inputs compute store), p.issueAll (queries inputs store)) := by
  have hslices := Inquiry.run_lasting store h (inquireSlices inputs)
  have hcounters := Inquiry.run_lasting store
    (h.issueAll ((inquireSlices inputs).queries store))
    (Counter.inquireAll inputs.descriptor inputs.workers)
  rw [run_eq hslices hcounters, queries, Progress.issueAll_append]
  rfl

theorem run_of_inquire {σ : Type} {serve : String → StateM σ Answer} {inputs : Inputs}
    {compute : Compute Int Float Float} {s s' : σ} {profile : Profile Int Float}
    {events : List Event}
    (h : ((inquire inputs compute).run serve).run s = (⟨.ok profile, events⟩, s')) :
    (run serve inputs compute).run s = ((profile, events), s') := by
  rw [run, StateT.run_bind, h]
  rfl

/-- What is left of the two parts when the request is cancelled after `n` queries. -/
def partsWithin (inputs : Inputs) (store : Store) (n : Nat) :
    Option (SliceTable Int) × Option (List (Counter Int Float)) :=
  (if ((inquireSlices inputs).queries store).length ≤ n then slicesPart inputs store else none,
    if (queries inputs store).length ≤ n then countersPart inputs store else none)

theorem run_inquire_countdown {inputs : Inputs} (hworkers : inputs.workers ≤ 1)
    (compute : Compute Int Float Float) {n : Nat} (h : p.Countdown n) :
    ∃ events, ((inquire inputs compute).run store.serve).run p =
      (⟨.ok (complete compute (partsWithin inputs store n).1 (partsWithin inputs store n).2).1,
        events⟩, p.issueAll ((queries inputs store).take n)) := by
  have hhalting := halting_inquireAll inputs.descriptor hworkers
  obtain ⟨slices, p', hslices⟩ : ∃ slices p',
      ((inquireSlices inputs).run store.serve).run p = (slices, p') := ⟨_, _, rfl⟩
  obtain ⟨counters, p'', hcounters⟩ : ∃ counters p'',
      ((Counter.inquireAll inputs.descriptor inputs.workers).run store.serve).run p' =
        (counters, p'') := ⟨_, _, rfl⟩
  have hslicesPart := toOption_countdown store (halting_inquireSlices inputs) h
  have hp' := (Inquiry.run_countdown store (halting_inquireSlices inputs) h).1
  rw [hslices] at hslicesPart hp'
  dsimp only at hslicesPart hp'
  -- the slices stage leaves of the count what it has not issued
  have hleft : p'.Countdown (n - ((inquireSlices inputs).queries store).length) := by
    rw [hp']
    refine Progress.Countdown.issueAll ?_
    convert h using 1
    rw [List.length_take]
    omega
  have hcountersPart := toOption_countdown store hhalting hleft
  have hp'' := (Inquiry.run_countdown store hhalting hleft).1
  rw [hcounters] at hcountersPart hp''
  dsimp only at hcountersPart hp''
  have hasks : 0 < ((Counter.inquireAll inputs.descriptor inputs.workers).queries store).length :=
    Nat.zero_lt_succ _
  have hall : ((Counter.inquireAll inputs.descriptor inputs.workers).queries store).length ≤
      n - ((inquireSlices inputs).queries store).length ↔ (queries inputs store).length ≤ n := by
    rw [queries, List.length_append]
    omega
  rw [run_inquire hslices hcounters, hslicesPart, hcountersPart, hp'', hp', queries,
    List.take_append, Progress.issueAll_append]
  simp only [hall]
  exact ⟨_, rfl⟩

/-- A request that is cancelled after `n` queries sees the first `n` queries of the whole run
issued. A stage whose queries in the whole run are all among them gives what it gives there, the
others give nothing, and the call returns all the same. -/
theorem run_cancelledAfter (inputs : Inputs) (hworkers : inputs.workers ≤ 1)
    (compute : Compute Int Float Float) (store : Store) {r : Request} (hr : r.isOver 0 = false)
    (n : Nat) :
    let start := Progress.start (some r)
    let ofSlices := (((slicesStage inputs).run store.serve).run start).2.issued
    let ofCounters := (((countersStage inputs).run store.serve).run start).2.issued
    let whole := (run store.serve inputs compute).run start
    let cut := (run store.serve inputs compute).run (Progress.cancelledAfter r n)
    -- the queries of the whole run are those of one stage and then those of the other
    whole.2.issued = ofSlices ++ ofCounters ∧ ofSlices ≠ [] ∧ ofCounters ≠ [] ∧
      cut.2.issued = whole.2.issued.take n ∧
      cut.1.1.slices = (if ofSlices.length ≤ n then whole.1.1.slices else none) ∧
      cut.1.1.counters =
        (if (ofSlices ++ ofCounters).length ≤ n then whole.1.1.counters else none) ∧
      (((inquire inputs compute).run store.serve).run (Progress.cancelledAfter r n)).1.result =
        .ok cut.1.1 := by
  have hlasting : (Progress.start (some r)).Lasting :=
    ⟨fun r' hr' => Option.some.inj hr' ▸ hr, rfl⟩
  have hfirst : (((slicesStage inputs).run store.serve).run (.start (some r))).2.issued =
      (inquireSlices inputs).queries store :=
    issued_orNone store (fun _ => rfl) _ hlasting
  have hsecond : (((countersStage inputs).run store.serve).run (.start (some r))).2.issued =
      (Counter.inquireAll inputs.descriptor inputs.workers).queries store :=
    issued_orNone store (fun _ => rfl) _ hlasting
  obtain ⟨events, hinquire⟩ := run_inquire_countdown store hworkers compute
    (Progress.countdown_cancelledAfter hr n)
  have hissued : (Progress.cancelledAfter r n).issued = [] := by
    cases n <;> rfl
  dsimp only
  rw [hfirst, hsecond, run_lasting store inputs compute hlasting, run_of_inquire hinquire, hinquire]
  dsimp only
  rw [Progress.issued_issueAll, Progress.issued_issueAll, hissued, slices_complete,
    slices_complete, counters_complete, counters_complete]
  exact ⟨rfl, List.cons_ne_nil _ _, List.cons_ne_nil _ _, rfl, rfl, rfl, rfl⟩

/-- A store with one slice and no counters. -/
def countlessStore : Store := sampleStore (ResultSet.ofRows ["", "", "", ""] [])

/-- Cancelled after the third of four queries, the slices are kept and the counters are lost. -/
theorem run_cancelledAfter_sample :
    let whole := (run countlessStore.serve sampleInputs traceMetrics).run (.start (some .unlimited))
    let cut :=
      (run countlessStore.serve sampleInputs traceMetrics).run (.cancelledAfter .unlimited 3)
    sampleInputs.workers ≤ 1 ∧ Request.unlimited.isOver 0 = false ∧
      whole.2.issued.length = 4 ∧ whole.1.1.slices.isSome ∧ whole.1.1.counters.isSome ∧
      cut.2.issued = [SliceTable.slicesSql, SliceTable.tracksSql, SubmissionOrder.sql] ∧
      cut.1.1.slices = whole.1.1.slices ∧ cut.1.1.counters = none := by
  dsimp only
  have hworkers : sampleInputs.workers ≤ 1 := by decide
  have hopen : Request.unlimited.isOver 0 = false := by decide
  obtain ⟨hwhole, -, -, hcut, hslices, hcounters, -⟩ :=
    run_cancelledAfter sampleInputs hworkers traceMetrics countlessStore hopen 3
  have hfirst : (((slicesStage sampleInputs).run countlessStore.serve).run
      (.start (some .unlimited))).2.issued =
        [SliceTable.slicesSql, SliceTable.tracksSql, SubmissionOrder.sql] := by decide +kernel
  have hsecond : (((countersStage sampleInputs).run countlessStore.serve).run
      (.start (some .unlimited))).2.issued = [Counter.tracksSql] := by decide +kernel
  rw [hfirst, hsecond] at hwhole
  rw [hwhole, List.take_left' (by decide)] at hcut
  rw [hfirst, if_pos (by decide)] at hslices
  rw [hfirst, hsecond, if_neg (by decide)] at hcounters
  refine ⟨hworkers, hopen, ?_, by decide +kernel, by decide +kernel, hcut, hslices, hcounters⟩
  exact congrArg List.length hwhole

end Profile
end RenderTrace
