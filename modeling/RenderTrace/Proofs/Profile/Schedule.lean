import RenderTrace.Proofs.Profile.Isolation
import RenderTrace.Proofs.Sorting

/-!
# The order of the answers

The samples of the counters may be asked for one after the other or all at once, and the two stages
in turn or side by side. Neither shows in what comes out: `Counter.evaluate_inquireAll` has it for
the workers, `exists_make_eq` for the stages, and `schedule_immaterial` puts them together. Of
several sample queries that fail, the first in order of the ids is the one that is reported, since
answers are looked at in that order whenever they came (`withAnswers_eq_error`).
-/

namespace RenderTrace

namespace Counter

/-- What a store answers to the sample query of a counter. -/
def sampleAnswer (store : Store) (c : Counter Int Float) : Answer := samplesQuery c.id >>= store

def sampled (store : Store) (c : Counter Int Float) : Except Failure (Counter Int Float) :=
  c.sampleAnswer store >>= c.withSamples

/-- What a store answers to the sample queries of some counters. -/
def sampleAnswers (store : Store) (cs : List (Counter Int Float)) : List Answer :=
  cs.map (sampleAnswer store)

variable {store : Store}

theorem withAnswers_cons (c : Counter Int Float) (cs : List (Counter Int Float)) (a : Answer)
    (as : List Answer) : withAnswers (c :: cs) (a :: as) =
      (a >>= c.withSamples) >>= fun d => withAnswers cs as >>= fun ds => .ok (d :: ds) := by
  cases a <;> rfl

/-- The failure of the first counter that has one is what comes out, whatever is answered for those
after it. -/
theorem withAnswers_eq_error {before : List (Counter Int Float)} {c : Counter Int Float}
    {f : Failure} (hbefore : ∀ b ∈ before, ∃ d, b.sampled store = .ok d)
    (hc : c.sampled store = .error f) (after : List (Counter Int Float)) (more : List Answer) :
    withAnswers (before ++ c :: after) (sampleAnswers store (before ++ [c]) ++ more) =
      .error f := by
  induction before with
  | nil =>
    simp only [sampleAnswers, List.nil_append, List.map_cons, List.map_nil, List.cons_append]
    rw [withAnswers_cons, ← sampled, hc]
    rfl
  | cons b before ih =>
    obtain ⟨⟨d, hd⟩, hbefore⟩ := List.forall_mem_cons.mp hbefore
    have hrest := ih hbefore
    simp only [sampleAnswers, List.cons_append, List.map_cons] at hrest ⊢
    rw [withAnswers_cons, ← sampled, hd, hrest]
    rfl

/-! ## In turn or at once -/

theorem answersTo_map (cs : List (Counter Int Float)) :
    answersTo (cs.map fun c => samplesQuery c.id)
      (((cs.map fun c => samplesQuery c.id).filterMap Except.toOption).map store) =
        sampleAnswers store cs := by
  induction cs with
  | nil => rfl
  | cons c cs ih =>
    rw [sampleAnswers, List.map_cons, List.map_cons, sampleAnswer, ← sampleAnswers, ← ih]
    cases samplesQuery c.id <;> rfl

theorem evaluate_inquireAtOnce (cs : List (Counter Int Float)) :
    (inquireAtOnce cs).evaluate store = ⟨withAnswers cs (sampleAnswers store cs), []⟩ := by
  rw [inquireAtOnce, Inquiry.evaluate, answersTo_map, Inquiry.evaluate_ofExcept]

theorem evaluate_inquireSamples (c : Counter Int Float) :
    c.inquireSamples.evaluate store = ⟨c.sampleAnswer store, []⟩ := by
  rw [inquireSamples, sampleAnswer, Inquiry.evaluate_bind, Inquiry.evaluate_ofExcept]
  cases samplesQuery c.id with
  | error f => rfl
  | ok sql => exact Inquiry.evaluate_query store sql

theorem evaluate_inquireInTurn (cs : List (Counter Int Float)) :
    (inquireInTurn cs).evaluate store = ⟨withAnswers cs (sampleAnswers store cs), []⟩ := by
  induction cs with
  | nil => rfl
  | cons c cs ih =>
    rw [inquireInTurn, sampleAnswers, List.map_cons, withAnswers_cons, Inquiry.evaluate_bind,
      evaluate_inquireSamples]
    cases c.sampleAnswer store with
    | error f => rfl
    | ok answer =>
      dsimp only
      rw [Inquiry.evaluate_bind, Inquiry.evaluate_ofExcept]
      change _ = (⟨(c.withSamples answer).bind _, []⟩ : Inquiry.Outcome _)
      cases c.withSamples answer with
      | error f => rfl
      | ok d =>
        dsimp only
        rw [Inquiry.evaluate_bind, ih]
        change _ =
          (⟨(withAnswers cs (sampleAnswers store cs)).map (d :: ·), []⟩ : Inquiry.Outcome _)
        cases withAnswers cs (sampleAnswers store cs) <;> rfl

theorem evaluate_inquireAll (store : Store) (descriptor : Option Descriptor) (workers : Int) :
    (inquireAll descriptor workers).evaluate store = (inquireAll descriptor 1).evaluate store := by
  have hsamples : ∀ (workers : Int) (tracks : List (Counter Int Float))
      (finish : List (Counter Int Float) → Inquiry (List (Counter Int Float))),
      (if 1 < workers ∧ 1 < tracks.length then inquireAtOnce tracks >>= finish
        else inquireInTurn tracks >>= finish).evaluate store =
          (inquireInTurn tracks >>= finish).evaluate store := by
    intro workers tracks finish
    split
    · simp only [Inquiry.evaluate_bind, evaluate_inquireAtOnce, evaluate_inquireInTurn]
    · rfl
  rw [inquireAll, inquireAll]
  simp only [Inquiry.evaluate_bind _ (Inquiry.query _),
    Inquiry.evaluate_bind _ (Inquiry.ofExcept _), hsamples]

/-! ## The failure that is reported -/

theorem mem_sortById {c : Counter Int Float} {cs : List (Counter Int Float)} :
    c ∈ sortById cs ↔ c ∈ cs := List.mem_mergeSort

theorem pairwise_sortById (cs : List (Counter Int Float)) :
    (sortById cs).Pairwise fun a b => a.id ≤ b.id := pairwise_sortBy Counter.id cs

/-- Samples are asked for by id, so counters of one id fail in one way. -/
theorem sampled_eq_error_of_id_eq {b c : Counter Int Float} {f g : Failure} (hid : b.id = c.id)
    (hb : b.sampled store = .error f) (hc : c.sampled store = .error g) : f = g := by
  rw [sampled, sampleAnswer, hid] at hb
  rw [sampled, sampleAnswer] at hc
  cases hanswer : samplesQuery c.id >>= store with
  | error e =>
    rw [hanswer] at hb hc
    exact Except.error.inj (hb.symm.trans hc)
  | ok answer =>
    rw [hanswer] at hb hc
    change b.withSamples answer = .error f at hb
    change c.withSamples answer = .error g at hc
    rw [withSamples, hid] at hb
    rw [withSamples] at hc
    cases hsamples : samplesOf c.id answer with
    | error e =>
      rw [hsamples] at hb hc
      exact Except.error.inj (hb.symm.trans hc)
    | ok samples =>
      rw [hsamples] at hb
      exact nomatch hb

theorem exists_first_failure {cs : List (Counter Int Float)} {c : Counter Int Float} {f : Failure}
    (hmem : c ∈ cs) (hc : c.sampled store = .error f) :
    ∃ before first after g, cs = before ++ first :: after ∧
      (∀ b ∈ before, ∃ d, b.sampled store = .ok d) ∧ first.sampled store = .error g := by
  induction cs with
  | nil => contradiction
  | cons b cs ih =>
    cases hb : b.sampled store with
    | error g => exact ⟨[], b, cs, g, rfl, nofun, hb⟩
    | ok d =>
      rcases List.mem_cons.mp hmem with rfl | hmem
      · rw [hc] at hb
        exact nomatch hb
      obtain ⟨before, first, after, g, rfl, hbefore, hfirst⟩ := ih hmem
      exact ⟨b :: before, first, after, g, rfl, List.forall_mem_cons.mpr ⟨⟨d, hb⟩, hbefore⟩, hfirst⟩

section Failing

variable {tracks : List (Counter Int Float)} {c : Counter Int Float} {f : Failure}
  (hmem : c ∈ tracks) (hc : c.sampled store = .error f)
  (hsmaller : ∀ b ∈ tracks, b.id < c.id → ∃ d, b.sampled store = .ok d)
include hmem hc hsmaller

/-- If the samples of a counter cannot be had and those of every counter with a smaller id can, then
all fails as that counter does. -/
theorem withAnswers_sortById_eq_error :
    withAnswers (sortById tracks) (sampleAnswers store (sortById tracks)) = .error f := by
  have hmem' : c ∈ sortById tracks := mem_sortById.mpr hmem
  obtain ⟨before, first, after, g, hsplit, hbefore, hfirst⟩ := exists_first_failure hmem' hc
  -- the first that fails has the id of `c`, so it fails as `c` does
  have hle : first.id ≤ c.id := by
    have hsorted := pairwise_sortById tracks
    rw [hsplit, List.pairwise_append, List.pairwise_cons] at hsorted
    rcases List.mem_append.mp (hsplit ▸ hmem') with hc' | hc'
    · obtain ⟨d, hd⟩ := hbefore c hc'
      rw [hc] at hd
      exact nomatch hd
    · rcases List.mem_cons.mp hc' with rfl | hc'
      · exact Int.le_refl _
      · exact hsorted.2.1.1 c hc'
  have hnot : ¬ first.id < c.id := by
    intro hlt
    have hfirst' : first ∈ sortById tracks :=
      hsplit ▸ List.mem_append_right before List.mem_cons_self
    obtain ⟨d, hd⟩ := hsmaller first (mem_sortById.mp hfirst') hlt
    rw [hfirst] at hd
    exact nomatch hd
  obtain rfl : g = f := sampled_eq_error_of_id_eq (by omega) hfirst hc
  have hanswers := withAnswers_eq_error hbefore hfirst after (sampleAnswers store after)
  rw [sampleAnswers, sampleAnswers, ← List.map_append, List.append_assoc] at hanswers
  rw [hsplit]
  exact hanswers

theorem evaluate_inquireAll_eq_error {descriptor : Option Descriptor} {answer : ResultSet}
    (hanswer : store tracksSql = .ok answer) (htracks : tracksOf descriptor answer = .ok tracks)
    (workers : Int) : (inquireAll descriptor workers).evaluate store = ⟨.error f, []⟩ := by
  have hanswers := withAnswers_sortById_eq_error hmem hc hsmaller
  rw [evaluate_inquireAll, inquireAll, Inquiry.evaluate_bind, Inquiry.evaluate_query, hanswer]
  dsimp only
  rw [Inquiry.evaluate_bind, Inquiry.evaluate_ofExcept, htracks]
  dsimp only
  rw [if_neg (fun h => absurd h.1 (by decide)), Inquiry.evaluate_bind, evaluate_inquireInTurn,
    hanswers]
  rfl

end Failing

end Counter

namespace Profile

variable {store : Store}

theorem level_of_mem_events {asks : String → Prop} {α : Type} {x : Inquiry α}
    (hx : x.Within (quietly asks)) {e : Event} (he : e ∈ (x.evaluate store).events) :
    e.level ≠ .error := by
  -- what is known of the events of a run holds here, since the store answers for itself
  have hserves := Inquiry.serves_pure (σ := Unit) store
  rw [← (Inquiry.run_eq hserves x (s := ()) trivial).1] at he
  exact (hx.run _ ()).2 e he

theorem mem_failures {α : Type} {event : Failure → Event} {r : Except Failure α} {e : Event} :
    e ∈ failures event r ↔ ∃ f, r = .error f ∧ e = event f := by
  cases r with
  | error f => simp [failures]
  | ok a => simp [failures]

theorem countersFailed_mem_reported {inputs : Inputs} {compute : Compute Int Float Float}
    {g : Failure} : .countersFailed g ∈ reported inputs compute store ↔
      ((Counter.inquireAll inputs.descriptor inputs.workers).evaluate store).result = .error g := by
  have hslices : .countersFailed g ∉ ((inquireSlices inputs).evaluate store).events := fun h =>
    level_of_mem_events (within_inquireSlices inputs) h rfl
  have hcounters : .countersFailed g ∉
      ((Counter.inquireAll inputs.descriptor inputs.workers).evaluate store).events := fun h =>
    level_of_mem_events (within_inquireAll inputs.descriptor inputs.workers) h rfl
  simp [reported, mem_failures, hslices, hcounters]

theorem make_keeps {σ : Type} {serve : String → StateM σ Answer} {I : σ → Prop}
    (hkeeps : ∀ sql s, I s → I ((serve sql).run s).2) (inputs : Inputs)
    (compute : Compute Int Float Float) (mode : Mode) {s : σ} (hs : I s) :
    I ((make serve inputs compute mode).run s).2 := by
  cases mode with
  | inTurn => exact Inquiry.run_keeps hkeeps (inquire inputs compute) hs
  | atOnce schedule =>
    exact Inquiry.runBoth_keeps hkeeps schedule (slicesStage inputs) (countersStage inputs) hs

def Inputs.withWorkers (inputs : Inputs) (workers : Int) : Inputs := { inputs with workers }

/-- A profile does not depend on how the stages are run, in which order the queries are answered and
how many workers ask for the samples, and neither do the events but for their order: both are those
of one stage after the other with a single worker, if no request is over or cancelled on the way. If
the samples of several counters cannot be had, what the counters stage reports is the failure of the
one with the smallest id. -/
theorem schedule_immaterial (inputs : Inputs) (compute : Compute Int Float Float) (store : Store)
    (mode : Mode) (workers : Int) {p p' : Progress} (hp : p.Lasting) (hp' : p'.Lasting) :
    let made := ((make store.serve (inputs.withWorkers workers) compute mode).run p).1
    let plain := ((run store.serve (inputs.withWorkers 1) compute).run p').1
    made.1 = plain.1 ∧ made.2.Perm plain.2 ∧
      ∀ (answer : ResultSet) (tracks : List (Counter Int Float)) (c : Counter Int Float)
        (f : Failure),
        store Counter.tracksSql = .ok answer →
        Counter.tracksOf inputs.descriptor answer = .ok tracks →
        c ∈ tracks → c.sampled store = .error f →
        (∀ b ∈ tracks, b.id < c.id → ∃ d, b.sampled store = .ok d) →
          made.1.counters = none ∧ ∀ g, .countersFailed g ∈ made.2 ↔ g = f := by
  have hlasts : ∀ sql (p : Progress), p.Lasting → ((store.serve sql).run p).2.Lasting :=
    fun sql p h => h.serve store sql
  have hopen := (make_keeps hlasts (inputs.withWorkers workers) compute mode hp).isOpen
  have hopen' := (make_keeps hlasts (inputs.withWorkers 1) compute .inTurn hp').isOpen
  obtain ⟨events, hmade, hevents⟩ :=
    exists_make_eq store.serve (inputs.withWorkers workers) compute store.serves mode hopen
  obtain ⟨events', hplain, hevents'⟩ :=
    exists_make_eq store.serve (inputs.withWorkers 1) compute store.serves .inTurn hopen'
  -- the workers are all that is left of the difference, and only the counters know of them
  have hinquire := Counter.evaluate_inquireAll store inputs.descriptor workers
  have hcounters : countersPart (inputs.withWorkers workers) store =
      countersPart (inputs.withWorkers 1) store := congrArg (fun o => o.result.toOption) hinquire
  have hreported : reported (inputs.withWorkers workers) compute store =
      reported (inputs.withWorkers 1) compute store := by
    simp only [reported, Inputs.withWorkers, hinquire]
    rfl
  intro made plain
  replace hmade : made = _ := hmade
  replace hplain : plain = _ := hplain
  rw [hmade, hplain]
  refine ⟨?_, ?_, fun answer tracks c f hanswer htracks hmem hc hsmaller => ?_⟩
  · rw [hcounters]
    rfl
  · exact (hreported ▸ hevents).trans hevents'.symm
  · have hfails : (Counter.inquireAll (inputs.withWorkers workers).descriptor
        (inputs.withWorkers workers).workers).evaluate store = ⟨.error f, []⟩ :=
      Counter.evaluate_inquireAll_eq_error hmem hc hsmaller hanswer htracks workers
    refine ⟨?_, fun g => ?_⟩
    · rw [counters_complete, countersPart, hfails]
      rfl
    · rw [hevents.mem_iff, countersFailed_mem_reported, hfails]
      exact ⟨fun h => (Except.error.inj h).symm, fun h => h ▸ rfl⟩

/-- Two tracks, the greater id first. -/
def failingTracks : List (Counter Int Float) :=
  [7, 5].map fun id => ⟨id, "load", "", "", none, [], []⟩

/-- A store that has the samples of neither of two tracks, each for a reason of its own. -/
def failingStore : Store := fun sql =>
  if sql = Counter.tracksSql then
    ResultSet.ofRows ["id", "name", "unit", "description"]
      ([7, 5].map fun id => [.number (.whole id), .text "load", .null, .null])
  else if sql = Counter.samplesSql 7 then .error (.query sql "busy")
  else sampleStore (.error .outOfRange) sql

/-- The samples of the greater id are answered first, and yet theirs is not the failure reported. -/
theorem schedule_immaterial_sample :
    let made := ((make failingStore.serve (sampleInputs.withWorkers 2) traceMetrics
      (.atOnce [1, 2, 1])).run (.start none)).1
    let plain := ((run failingStore.serve (sampleInputs.withWorkers 1) traceMetrics).run
      (.start (some .unlimited))).1
    (Progress.start none).Lasting ∧ (Progress.start (some .unlimited)).Lasting ∧
      made.1 = plain.1 ∧ made.2.Perm plain.2 ∧ made.1.counters = none ∧
        ∀ g, .countersFailed g ∈ made.2 ↔ g = .outOfRange := by
  intro made plain
  have hatOnce : (Progress.start none).Lasting := ⟨by decide, rfl⟩
  have hinTurn : (Progress.start (some .unlimited)).Lasting := ⟨by decide, rfl⟩
  obtain ⟨hprofile, hevents, hfailure⟩ := schedule_immaterial sampleInputs traceMetrics
    failingStore (.atOnce [1, 2, 1]) 2 hatOnce hinTurn
  obtain ⟨answer, hanswer, htracks⟩ : ∃ answer, failingStore Counter.tracksSql = .ok answer ∧
      Counter.tracksOf sampleInputs.descriptor answer = .ok failingTracks := ⟨_, rfl, rfl⟩
  have hfails : failingStore (Counter.samplesSql 5) = .error .outOfRange := by
    simp only [failingStore, sampleStore]
    rw [if_neg (by decide +kernel), if_neg (by decide +kernel), if_neg (by decide +kernel),
      if_neg (by decide +kernel)]
  have hsmallest : ∀ b ∈ failingTracks, ¬ b.id < 5 := by decide
  refine ⟨hatOnce, hinTurn, hprofile, hevents, ?_⟩
  refine hfailure answer failingTracks ⟨5, "load", "", "", none, [], []⟩ .outOfRange hanswer htracks
    (.tail _ (.head _)) ?_ fun b hb hlt => absurd hlt (hsmallest b hb)
  have hquery : Counter.samplesQuery 5 = .ok (Counter.samplesSql 5) := rfl
  rw [Counter.sampled, Counter.sampleAnswer, hquery]
  change failingStore (Counter.samplesSql 5) >>= _ = _
  rw [hfails]
  rfl

end Profile
end RenderTrace
