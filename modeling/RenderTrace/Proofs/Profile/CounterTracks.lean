import RenderTrace.Proofs.Profile.Schedule
import RenderTrace.Proofs.Query.Rows

/-!
# Counter tracks and their samples

A counter track is made of a row of the track query and, after the tracks are in order of their
ids, of the answer to the sample query for its id. `Counter.inquireAll_eq_tracks` says when the
counters of a trace can be had at all and what they then are, whatever server the queries are put
to: it fails just if the track query does, a column of its answer cannot be read
(`tracksOf_eq_error_iff`), or one of the sample queries has an answer without samples
(`withAnswers_eq_error_iff`).
-/

namespace RenderTrace
open ResultSet (Unreadable readColumn_eq_ok_iff exists_readColumn_iff)

namespace Counter

/-! ## Tracks -/

def rowId (row : List Cell) : Int :=
  match row[0]?.map Cell.toInteger with
  | some (.ok id) => id
  | _ => 0

/-- A counter is described by a row of the track query, and has the specification that is the last
with its name. -/
structure IsTrack (descriptor : Option Descriptor) (row : List Cell) (c : Counter Int Float) :
    Prop where
  id : row[0]?.map Cell.toInteger = some (.ok c.id)
  name : row[1]?.map Cell.toText = some (.ok c.name)
  unit : row[2]?.map Cell.toText = some (.ok c.unit)
  description : row[3]?.map Cell.toText = some (.ok c.description)
  spec : c.spec = descriptor.bind fun d => (d.specs.filter (·.name = c.name)).getLast?

def Bare (c : Counter Int Float) : Prop := c.timestamps = [] ∧ c.values = []

variable {descriptor : Option Descriptor} {answer : ResultSet}

theorem spec?_eq (d : Descriptor) (name : String) :
    d.spec? name = (d.specs.filter (·.name = name)).getLast? := by
  rw [Descriptor.spec?, ← List.head?_filter, List.filter_reverse, List.head?_reverse]

theorem IsTrack.rowId_eq {row : List Cell} {c : Counter Int Float} (h : IsTrack descriptor row c) :
    rowId row = c.id := by
  rw [rowId, h.id]

theorem rightUnique_isTrack :
    Relator.RightUnique fun row c => IsTrack descriptor row c ∧ Bare c := by
  rintro row ⟨id, name, unit, description, spec, ts, vs⟩
    ⟨id', name', unit', description', spec', ts', vs'⟩ ⟨h, hts, hvs⟩ ⟨h', hts', hvs'⟩
  obtain rfl : id = id' := h.rowId_eq.symm.trans h'.rowId_eq
  have htext : ∀ {o : Option (Except Number.NumberError String)} {a b : String},
      o = some (.ok a) → o = some (.ok b) → a = b := fun ha hb =>
    Except.ok.inj (Option.some.inj (ha.symm.trans hb))
  obtain rfl : name = name' := htext h.name h'.name
  obtain rfl : unit = unit' := htext h.unit h'.unit
  obtain rfl : description = description' := htext h.description h'.description
  obtain rfl : spec = spec' := h.spec.trans h'.spec.symm
  subst hts hvs hts' hvs'
  rfl

theorem forall₂_tracksOf {tracks : List (Counter Int Float)}
    (h : tracksOf descriptor answer = .ok tracks) :
    List.Forall₂ (fun row c => IsTrack descriptor row c ∧ Bare c) answer.rows tracks := by
  simp only [tracksOf, bind_eq_ok, pure, Except.pure, Except.ok.injEq] at h
  obtain ⟨ids, hids, names, hnames, units, hunits, descriptions, hdescriptions, rfl⟩ := h
  replace hids := ((readColumn_eq_ok_iff (j := 0) (by decide)).mp hids).2
  replace hnames := ((readColumn_eq_ok_iff (j := 1) (by decide)).mp hnames).2
  replace hunits := ((readColumn_eq_ok_iff (j := 2) (by decide)).mp hunits).2
  replace hdescriptions := ((readColumn_eq_ok_iff (j := 3) (by decide)).mp hdescriptions).2
  refine ResultSet.forall₂_rows fun i hi => ⟨⟨?_, ?_, ?_, ?_, ?_⟩, rfl, rfl⟩
  · exact ResultSet.getD_of_forall₂ hids hi 0
  · exact ResultSet.getD_of_forall₂ hnames hi ""
  · exact ResultSet.getD_of_forall₂ hunits hi ""
  · exact ResultSet.getD_of_forall₂ hdescriptions hi ""
  · simp only [spec?_eq]

/-- One of the four columns of the track query's answer cannot be read. -/
def Untold (answer : ResultSet) : Prop :=
  Unreadable Cell.toInteger answer 0 ∨ ∃ j ∈ [1, 2, 3], Unreadable Cell.toText answer j

theorem exists_tracksOf_iff :
    (∃ tracks, tracksOf descriptor answer = .ok tracks) ↔ ¬ Untold answer := by
  have hids : (∃ ids, answer.integers 0 = .ok ids) ↔ ¬ Unreadable Cell.toInteger answer 0 :=
    exists_readColumn_iff (by decide)
  have hnames : (∃ names, answer.texts 1 = .ok names) ↔ ¬ Unreadable Cell.toText answer 1 :=
    exists_readColumn_iff (by decide)
  have hunits : (∃ units, answer.texts 2 = .ok units) ↔ ¬ Unreadable Cell.toText answer 2 :=
    exists_readColumn_iff (by decide)
  have hdescriptions : (∃ texts, answer.texts 3 = .ok texts) ↔ ¬ Unreadable Cell.toText answer 3 :=
    exists_readColumn_iff (by decide)
  have hall : ¬ Untold answer ↔ (∃ ids, answer.integers 0 = .ok ids) ∧
      (∃ names, answer.texts 1 = .ok names) ∧ (∃ units, answer.texts 2 = .ok units) ∧
      ∃ descriptions, answer.texts 3 = .ok descriptions := by
    rw [hids, hnames, hunits, hdescriptions]
    simp [Untold]
  rw [hall]
  simp only [tracksOf, bind_eq_ok, pure, Except.pure, Except.ok.injEq]
  constructor
  · rintro ⟨tracks, ids, h0, names, h1, units, h2, descriptions, h3, rfl⟩
    exact ⟨⟨ids, h0⟩, ⟨names, h1⟩, ⟨units, h2⟩, descriptions, h3⟩
  · rintro ⟨⟨ids, h0⟩, ⟨names, h1⟩, ⟨units, h2⟩, descriptions, h3⟩
    exact ⟨_, ids, h0, names, h1, units, h2, descriptions, h3, rfl⟩

theorem tracksOf_eq_error_iff : (∃ f, tracksOf descriptor answer = .error f) ↔ Untold answer := by
  rw [exists_error_iff, exists_tracksOf_iff, not_not]

/-! ## Samples -/

/-- The timestamps and values of a counter are those of an answer, row by row. -/
structure SampledBy (samples : ResultSet) (c : Counter Int Float) : Prop where
  timestamps : List.Forall₂ (fun row t => row[0]?.map Cell.toInteger = some (.ok t)) samples.rows
    c.timestamps
  values : List.Forall₂ (fun row v => row[1]?.map Cell.toDouble = some (.ok v)) samples.rows
    c.values
  nonneg : ∀ t ∈ c.timestamps, 0 ≤ t

theorem SampledBy.length_eq {samples : ResultSet} {c : Counter Int Float}
    (h : SampledBy samples c) : c.timestamps.length = c.values.length :=
  h.timestamps.length_eq.symm.trans h.values.length_eq

/-- The samples of a track cannot be had from an answer to its sample query. -/
def Unsampled : Answer → Prop
  | .error _ => True
  | .ok samples => Unreadable Cell.toInteger samples 0 ∨ Unreadable Cell.toDouble samples 1 ∨
      ∃ row ∈ samples.rows, ∃ t, row[0]?.map Cell.toInteger = some (.ok t) ∧ t < 0

theorem samplesOf_eq_ok_iff {id : Int} {samples : ResultSet} {ts : List Int} {vs : List Float} :
    samplesOf id samples = .ok (ts, vs) ↔
      samples.integers 0 = .ok ts ∧ (∀ t ∈ ts, 0 ≤ t) ∧ samples.doubles 1 = .ok vs := by
  have hnonneg : ∀ ts : List Int, ts.find? (· < 0) = none ↔ ∀ t ∈ ts, 0 ≤ t := fun ts => by simp
  rw [samplesOf, bind_eq_ok]
  constructor
  · rintro ⟨ts', hts, h⟩
    cases hfind : ts'.find? (· < 0) with
    | some t => simp [hfind] at h
    | none =>
      simp only [hfind, bind_eq_ok, pure, Except.pure, Except.ok.injEq, Prod.mk.injEq] at h
      obtain ⟨vs', hvs, rfl, rfl⟩ := h
      exact ⟨hts, (hnonneg _).mp hfind, hvs⟩
  · rintro ⟨hts, hpos, hvs⟩
    refine ⟨ts, hts, ?_⟩
    simp only [(hnonneg ts).mpr hpos, hvs]
    rfl

theorem withSamples_eq_ok_iff {c d : Counter Int Float} {samples : ResultSet} :
    c.withSamples samples = .ok d ↔ ∃ timestamps values,
      samplesOf c.id samples = .ok (timestamps, values) ∧ { c with timestamps, values } = d := by
  rw [withSamples]
  rcases samplesOf c.id samples with f | ⟨ts, vs⟩ <;> simp [Except.map]

theorem sampledBy_of_withSamples {c d : Counter Int Float} {samples : ResultSet}
    (h : c.withSamples samples = .ok d) : SampledBy samples d := by
  obtain ⟨ts, vs, hsamples, rfl⟩ := withSamples_eq_ok_iff.mp h
  obtain ⟨hts, hpos, hvs⟩ := samplesOf_eq_ok_iff.mp hsamples
  refine ⟨?_, ?_, hpos⟩
  · exact ((readColumn_eq_ok_iff (j := 0) (by decide)).mp hts).2
  · exact ((readColumn_eq_ok_iff (j := 1) (by decide)).mp hvs).2

theorem IsTrack.of_withSamples {row : List Cell} {c d : Counter Int Float} {samples : ResultSet}
    (hrow : IsTrack descriptor row c) (h : c.withSamples samples = .ok d) :
    IsTrack descriptor row d := by
  obtain ⟨ts, vs, -, rfl⟩ := withSamples_eq_ok_iff.mp h
  exact ⟨hrow.id, hrow.name, hrow.unit, hrow.description, hrow.spec⟩

theorem withSamples_eq_error_iff {c : Counter Int Float} {a : Answer} :
    (∃ f, a >>= c.withSamples = .error f) ↔ Unsampled a := by
  cases a with
  | error e => simp [Unsampled, bind, Except.bind]
  | ok samples =>
    have hints : (∃ ts, samples.integers 0 = .ok ts) ↔ ¬ Unreadable Cell.toInteger samples 0 :=
      exists_readColumn_iff (by decide)
    have hdoubles : (∃ vs, samples.doubles 1 = .ok vs) ↔ ¬ Unreadable Cell.toDouble samples 1 :=
      exists_readColumn_iff (by decide)
    have hok : (∃ d, c.withSamples samples = .ok d) ↔
        ∃ ts vs, samplesOf c.id samples = .ok (ts, vs) := by
      simp only [withSamples_eq_ok_iff]
      exact ⟨fun ⟨_, ts, vs, h, _⟩ => ⟨ts, vs, h⟩, fun ⟨ts, vs, h⟩ => ⟨_, ts, vs, h, rfl⟩⟩
    change (∃ f, c.withSamples samples = .error f) ↔ _
    rw [exists_error_iff, hok, Unsampled]
    simp only [samplesOf_eq_ok_iff]
    by_cases hread : Unreadable Cell.toInteger samples 0 ∨ Unreadable Cell.toDouble samples 1
    · rw [← or_assoc, iff_true_right (Or.inl hread)]
      rintro ⟨ts, vs, hts, -, hvs⟩
      exact hread.elim (hints.mp ⟨ts, hts⟩) (hdoubles.mp ⟨vs, hvs⟩)
    · obtain ⟨hnints, hndoubles⟩ := not_or.mp hread
      obtain ⟨ts, hts⟩ := hints.mpr hnints
      obtain ⟨vs, hvs⟩ := hdoubles.mpr hndoubles
      have hneg := ResultSet.exists_mem_rows_iff
        ((readColumn_eq_ok_iff (j := 0) (by decide)).mp hts).2 (· < 0)
      rw [hneg]
      simp [hts, hvs, hnints, hndoubles]

theorem withAnswers_eq_error_iff {cs : List (Counter Int Float)} {as : List Answer}
    (hlen : cs.length = as.length) :
    (∃ f, withAnswers cs as = .error f) ↔ ∃ a ∈ as, Unsampled a := by
  induction cs generalizing as with
  | nil =>
    obtain rfl := List.eq_nil_of_length_eq_zero hlen.symm
    simp [withAnswers, pure, Except.pure]
  | cons c cs ih =>
    cases as with
    | nil => contradiction
    | cons a as =>
      have hrest : (∃ f, withAnswers cs as = .error f) ↔ ∃ a ∈ as, Unsampled a :=
        ih (by simpa using hlen)
      have hfirst := withSamples_eq_error_iff (c := c) (a := a)
      rw [withAnswers_cons, bind_eq_error, hfirst, List.exists_mem_cons_iff, ← hrest]
      simp only [bind_eq_error, reduceCtorEq, exists_false, and_false, or_false]
      by_cases ha : Unsampled a
      · simp only [ha, true_or]
      · obtain ⟨d, hd⟩ : ∃ d, a >>= c.withSamples = .ok d := by
          rwa [← hfirst, exists_error_iff, not_not] at ha
        simp only [ha, hd, false_or, Except.ok.injEq, exists_eq_left']

theorem forall₂_withAnswers {rows : List (List Cell)} {cs ds : List (Counter Int Float)}
    (hrows : List.Forall₂ (IsTrack descriptor) rows cs) {as : List Answer}
    (hlen : cs.length = as.length) (h : withAnswers cs as = .ok ds) :
    List.Forall₂ (IsTrack descriptor) rows ds ∧
      List.Forall₂ (fun a d => ∃ samples, a = .ok samples ∧ SampledBy samples d) as ds := by
  induction hrows generalizing as ds with
  | nil =>
    obtain rfl := List.eq_nil_of_length_eq_zero hlen.symm
    obtain rfl : [] = ds := by simpa [withAnswers, pure, Except.pure] using h
    exact ⟨.nil, .nil⟩
  | cons hrow _ ih =>
    cases as with
    | nil => contradiction
    | cons a as =>
      rw [withAnswers_cons] at h
      simp only [bind_eq_ok, Except.ok.injEq] at h
      obtain ⟨d, ⟨samples, rfl, hd⟩, ds, hds, rfl⟩ := h
      obtain ⟨hrest, hanswers⟩ := ih (by simpa using hlen) hds
      exact ⟨.cons (hrow.of_withSamples hd) hrest,
        .cons ⟨samples, rfl, sampledBy_of_withSamples hd⟩ hanswers⟩

/-! ## The whole inquiry -/

variable {σ : Type} (serve : String → StateM σ Answer)

/-- The answer to the sample query for an id; one that cannot be written is not put. -/
def answerFor (id : Int) : StateM σ Answer :=
  match samplesQuery id with
  | .ok sql => serve sql
  | .error f => pure (.error f)

/-- The answers to the sample queries for some ids, put one after the other. -/
def samplesFor (ids : List Int) (s : σ) : List Answer := Inquiry.answers (answerFor serve) ids s

theorem length_samplesFor (cs : List (Counter Int Float)) (s : σ) :
    cs.length = (samplesFor serve (cs.map Counter.id) s).length := by
  rw [samplesFor, Inquiry.length_answers, List.length_map]

theorem run_inquireSamples (c : Counter Int Float) (s : σ) :
    Inquiry.resultOf serve c.inquireSamples s = ((answerFor serve c.id).run s).1 ∧
      Inquiry.after serve c.inquireSamples s = ((answerFor serve c.id).run s).2 := by
  rw [inquireSamples, answerFor]
  cases samplesQuery c.id with
  | error f => exact ⟨rfl, rfl⟩
  | ok sql => exact ⟨Inquiry.resultOf_query serve sql s, Inquiry.after_query serve sql s⟩

theorem resultOf_inquireInTurn (cs : List (Counter Int Float)) (s : σ) :
    Inquiry.resultOf serve (inquireInTurn cs) s =
      withAnswers cs (samplesFor serve (cs.map Counter.id) s) := by
  induction cs generalizing s with
  | nil => rfl
  | cons c cs ih =>
    obtain ⟨hanswer, hafter⟩ := run_inquireSamples serve c s
    rw [inquireInTurn, samplesFor, List.map_cons, Inquiry.answers_cons, withAnswers_cons,
      Inquiry.resultOf_bind, hanswer, hafter]
    simp only [Inquiry.resultOf_bind, Inquiry.resultOf_ofExcept, Inquiry.after_ofExcept,
      Inquiry.resultOf_pure, ih]
    cases ((answerFor serve c.id).run s).1 with
    | error f => rfl
    | ok samples => rfl

theorem resultOf_inquireAll (descriptor : Option Descriptor) (s : σ) :
    Inquiry.resultOf serve (inquireAll descriptor 1) s =
      ((serve tracksSql).run s).1 >>= fun answer => tracksOf descriptor answer >>= fun tracks =>
        withAnswers (sortById tracks)
          (samplesFor serve ((sortById tracks).map Counter.id) ((serve tracksSql).run s).2) := by
  have hreport : ∀ (n : Nat) (s : σ),
      Inquiry.resultOf serve (Inquiry.report [.countersRead n]) s = .ok () := fun n s =>
    Inquiry.resultOf_report serve rfl s
  have hone : ∀ n : Nat, ¬ ((1 : Int) < 1 ∧ 1 < n) := fun n h => absurd h.1 (by decide)
  have hlast : ∀ x : Except Failure (List (Counter Int Float)),
      (x >>= fun cs => (.ok () : Except Failure Unit) >>= fun _ => .ok cs) = x := fun x => by
    cases x <;> rfl
  rw [inquireAll]
  simp only [hone, if_false, Inquiry.resultOf_bind, Inquiry.resultOf_query,
    Inquiry.resultOf_ofExcept, Inquiry.after_query, Inquiry.after_ofExcept, Inquiry.resultOf_pure,
    resultOf_inquireInTurn, hreport, hlast]

theorem forall₂_sortById {tracks : List (Counter Int Float)}
    (h : tracksOf descriptor answer = .ok tracks) :
    List.Forall₂ (fun row c => IsTrack descriptor row c ∧ Bare c) (sortBy rowId answer.rows)
      (sortById tracks) :=
  forall₂_sortBy (fun _ _ hrow => hrow.1.rowId_eq) (forall₂_tracksOf h)

theorem map_rowId {rows : List (List Cell)} {cs : List (Counter Int Float)}
    (h : List.Forall₂ (IsTrack descriptor) rows cs) : rows.map rowId = cs.map Counter.id := by
  induction h with
  | nil => rfl
  | cons hrow _ ih => rw [List.map_cons, List.map_cons, hrow.rowId_eq, ih]

theorem exists_tracksOf_of_perm {answer' : ResultSet} {tracks : List (Counter Int Float)}
    (h : tracksOf descriptor answer = .ok tracks)
    (hcolumns : answer'.columns.length = answer.columns.length)
    (hrows : answer'.rows.Perm answer.rows) (hnodup : ((sortById tracks).map Counter.id).Nodup) :
    ∃ tracks', tracksOf descriptor answer' = .ok tracks' ∧ sortById tracks' = sortById tracks := by
  have hsame : Untold answer' ↔ Untold answer := by
    simp only [Untold, Unreadable, hcolumns, hrows.mem_iff]
  obtain ⟨tracks', h'⟩ : ∃ tracks', tracksOf descriptor answer' = .ok tracks' := by
    rw [exists_tracksOf_iff, hsame, ← exists_tracksOf_iff]
    exact ⟨tracks, h⟩
  have hsorted : sortBy rowId answer'.rows = sortBy rowId answer.rows := by
    refine (stablySorted_sortBy rowId answer.rows).eq_of_perm (stablySorted_sortBy ..) hrows ?_
    rwa [map_rowId ((forall₂_sortById h).imp fun _ _ hrow => hrow.1)]
  have hboth := forall₂_sortById h'
  rw [hsorted] at hboth
  exact ⟨tracks', h', List.right_unique_forall₂' rightUnique_isTrack hboth (forall₂_sortById h)⟩

theorem inquireAll_eq_error_iff (descriptor : Option Descriptor) (s : σ) :
    (∃ f, Inquiry.resultOf serve (inquireAll descriptor 1) s = .error f) ↔
      (∃ f, ((serve tracksSql).run s).1 = .error f) ∨
        ∃ answer, ((serve tracksSql).run s).1 = .ok answer ∧
          (Untold answer ∨ ∃ a ∈ samplesFor serve ((sortBy rowId answer.rows).map rowId)
            ((serve tracksSql).run s).2, Unsampled a) := by
  rw [resultOf_inquireAll, bind_eq_error]
  refine or_congr_right (exists_congr fun answer => and_congr_right fun _ => ?_)
  rw [bind_eq_error, tracksOf_eq_error_iff]
  by_cases hread : Untold answer
  · simp only [hread, true_or]
  · obtain ⟨tracks, htracks⟩ : ∃ tracks, tracksOf descriptor answer = .ok tracks :=
      exists_tracksOf_iff.mpr hread
    have hids := map_rowId ((forall₂_sortById htracks).imp fun _ _ h => h.1)
    simp only [hread, false_or, htracks, Except.ok.injEq, exists_eq_left']
    rw [withAnswers_eq_error_iff (length_samplesFor ..), hids]

theorem inquireAll_eq_ok_iff (descriptor : Option Descriptor) (s : σ)
    {cs : List (Counter Int Float)} :
    Inquiry.resultOf serve (inquireAll descriptor 1) s = .ok cs ↔
      ∃ answer tracks, ((serve tracksSql).run s).1 = .ok answer ∧
        tracksOf descriptor answer = .ok tracks ∧
          withAnswers (sortById tracks) (samplesFor serve ((sortById tracks).map Counter.id)
            ((serve tracksSql).run s).2) = .ok cs := by
  rw [resultOf_inquireAll]
  simp only [bind_eq_ok, ← exists_and_left]

/-- What the counters of a trace are. Asking for them fails just if the track query does, one of its
four columns cannot be read, or a sample query has no samples for an answer. Otherwise they are the
rows of the track query by ascending ids, each with the samples of the query for its id; with
distinct ids the order of the rows does not show. -/
theorem inquireAll_eq_tracks (descriptor : Option Descriptor) (s : σ) :
    let first := (serve tracksSql).run s
    let outcome := Inquiry.resultOf serve (inquireAll descriptor 1) s
    ((∃ f, outcome = .error f) ↔ (∃ f, first.1 = .error f) ∨
      ∃ answer, first.1 = .ok answer ∧
        (Untold answer ∨
          ∃ a ∈ samplesFor serve ((sortBy rowId answer.rows).map rowId) first.2, Unsampled a)) ∧
      ∀ cs, outcome = .ok cs → ∃ answer, first.1 = .ok answer ∧
        (∃ rows, StablySorted rowId answer.rows rows ∧
          List.Forall₂ (IsTrack descriptor) rows cs) ∧
        List.Forall₂ (fun a c => ∃ samples, a = .ok samples ∧ SampledBy samples c ∧
          c.timestamps.length = c.values.length) (samplesFor serve (cs.map Counter.id) first.2) cs ∧
        ((cs.map Counter.id).Nodup → ∀ (serve' : String → StateM σ Answer) (s' : σ)
          (answer' : ResultSet),
          ((serve' tracksSql).run s').1 = .ok answer' →
          answer'.columns.length = answer.columns.length → answer'.rows.Perm answer.rows →
          samplesFor serve' (cs.map Counter.id) ((serve' tracksSql).run s').2 =
            samplesFor serve (cs.map Counter.id) first.2 →
          Inquiry.resultOf serve' (inquireAll descriptor 1) s' = .ok cs) := by
  intro first outcome
  refine ⟨inquireAll_eq_error_iff serve descriptor s, fun cs hcs => ?_⟩
  obtain ⟨answer, tracks, hanswer, htracks, hcs⟩ := (inquireAll_eq_ok_iff ..).mp hcs
  have hrows := (forall₂_sortById htracks).imp fun _ _ h => h.1
  obtain ⟨htrack, hsamples⟩ := forall₂_withAnswers hrows (length_samplesFor ..) hcs
  -- the samples are put in without touching the ids
  have hids : (sortById tracks).map Counter.id = cs.map Counter.id :=
    (map_rowId hrows).symm.trans (map_rowId htrack)
  rw [hids] at hsamples
  refine ⟨answer, hanswer, ⟨_, stablySorted_sortBy rowId answer.rows, htrack⟩,
    hsamples.imp fun a c ⟨samples, ha, h⟩ => ⟨samples, ha, h, h.length_eq⟩,
    fun hnodup serve' s' answer' hanswer' hcolumns hperm hsame => ?_⟩
  obtain ⟨tracks', htracks', hsort⟩ :=
    exists_tracksOf_of_perm htracks hcolumns hperm (hids ▸ hnodup)
  refine (inquireAll_eq_ok_iff serve' descriptor s').mpr ⟨answer', tracks', hanswer', htracks', ?_⟩
  rw [hsort, hids, hsame, ← hids]
  exact hcs

def trackStore (ids : List Int) : Store := fun sql =>
  if sql = tracksSql then
    ResultSet.ofRows ["id", "name", "unit", "description"]
      (ids.map fun id => [.number (.whole id), .text "load", .null, .null])
  else ResultSet.ofRows ["ts", "value"] [[.number (.whole 4), .null]]

def twoTracks (timestamps : List Int) (values : List Float) : List (Counter Int Float) :=
  [5, 7].map fun id => ⟨id, "load", "", "", none, timestamps, values⟩

/-- Two tracks come out by their ids, whichever row is the first. -/
theorem inquireAll_eq_tracks_sample :
    Inquiry.resultOf (trackStore [5, 7]).stateless (inquireAll none 1) () =
        .ok (twoTracks [4] [0.0]) ∧
      ((twoTracks [4] [0.0]).map Counter.id).Nodup ∧
      Inquiry.resultOf (trackStore [7, 5]).stateless (inquireAll none 1) () =
        .ok (twoTracks [4] [0.0]) := by
  obtain ⟨answer, hanswer, hcolumns, hrows, htracks⟩ : ∃ answer,
      trackStore [5, 7] tracksSql = .ok answer ∧ answer.columns.length = 4 ∧
        answer.rows = ([5, 7].map fun id => [.number (.whole id), .text "load", .null, .null]) ∧
        tracksOf none answer = .ok (twoTracks [] []) := ⟨_, rfl, rfl, rfl, rfl⟩
  obtain ⟨answer', hanswer', hcolumns', hrows'⟩ : ∃ answer',
      trackStore [7, 5] tracksSql = .ok answer' ∧ answer'.columns.length = 4 ∧
        answer'.rows = [7, 5].map fun id => [.number (.whole id), .text "load", .null, .null] :=
    ⟨_, rfl, rfl, rfl⟩
  have hsorted : sortById (twoTracks [] []) = twoTracks [] [] :=
    List.mergeSort_of_pairwise (by simp [twoTracks])
  have hcs : Inquiry.resultOf (trackStore [5, 7]).stateless (inquireAll none 1) () =
      .ok (twoTracks [4] [0.0]) := by
    rw [resultOf_inquireAll, bind_eq_ok]
    refine ⟨answer, hanswer, bind_eq_ok.mpr ⟨_, htracks, ?_⟩⟩
    rw [hsorted]
    rfl
  have hnodup : ((twoTracks [4] [0.0]).map Counter.id).Nodup := by decide
  obtain ⟨-, hok⟩ := inquireAll_eq_tracks (trackStore [5, 7]).stateless none ()
  obtain ⟨first, hfirst, -, -, hperm⟩ := hok _ hcs
  obtain rfl : answer = first := Except.ok.inj (hanswer.symm.trans hfirst)
  refine ⟨hcs, hnodup, hperm hnodup (trackStore [7, 5]).stateless () answer' hanswer'
    (hcolumns'.trans hcolumns.symm) ?_ rfl⟩
  rw [hrows, hrows']
  exact List.Perm.swap ..

end Counter
end RenderTrace
