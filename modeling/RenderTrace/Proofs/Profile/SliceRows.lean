import RenderTrace.Proofs.Entries
import RenderTrace.Proofs.Profile.Grouping
import RenderTrace.Proofs.Profile.Isolation
import RenderTrace.Proofs.Query.Rows

/-!
# Slices and the rows they come from

Reading makes one slice of each row of the slice query (`SliceTable.forall₂_slicesOf`), replacing the
handles is a matter of each slice, and so is what a pass does to a slice but for the group it puts
it into (`Grouping.forall₂_pass`). So a slice of the grouped table can be told from its own row, up
to a prefix of its name (`Profile.inquireSlices_eq_rows`).
-/

namespace RenderTrace
open ResultSet (readColumn_eq_ok_iff getD_of_forall₂ forall₂_rows)

/-- Everything that is known of a slice is in its row, where `called` is between a name in a row and
that of a slice, and `uses` between a handle in a row and one of a slice. -/
structure Slice.OfRow (called : String → String → Prop) (uses : Int → Number → Prop)
    (row : List Cell) (s : Slice Int) : Prop where
  id : row[0]?.map Cell.toInteger = some (.ok s.id)
  start : row[1]?.map Cell.toInteger = some (.ok s.start)
  duration : row[2]?.map Cell.toInteger = some (.ok s.duration)
  name : ∃ name, row[3]?.map Cell.toText = some (.ok name) ∧ called name s.name
  depth : row[4]?.map Cell.toInteger = some (.ok s.depth)
  trackId : row[5]?.map Cell.toInteger = some (.ok s.trackId)
  commandBuffer : ∃ h, row[6]?.map Cell.toInteger = some (.ok h) ∧ uses h s.commandBuffer
  renderTarget : ∃ h, row[7]?.map Cell.toInteger = some (.ok h) ∧ uses h s.renderTarget
  renderPass : ∃ h, row[8]?.map Cell.toInteger = some (.ok h) ∧ uses h s.renderPass
  submissionId : row[9]?.map Cell.toInteger = some (.ok s.submissionId)
  hwQueueId : row[10]?.map Cell.toInteger = some (.ok s.hwQueueId)

structure Track.OfRow (row : List Cell) (track : Track Int) : Prop where
  id : row[0]?.map Cell.toInteger = some (.ok track.id)
  name : row[1]?.map Cell.toText = some (.ok track.name)

/-! ## Reading -/

namespace SliceTable

variable {answer : ResultSet}

theorem forall₂_slicesOf {slices : List (Slice Int)} (h : slicesOf answer = .ok slices) :
    List.Forall₂ (Slice.OfRow Eq fun h used => used = .whole h) answer.rows slices := by
  have hcell : ∀ {j : Nat} {ns : List Int}, j < 11 → answer.integers j = .ok ns →
      ∀ i < answer.size, (answer.row i)[j]?.map Cell.toInteger = some (.ok (ns.getD i 0)) := by
    intro j ns hj hns i hi
    have hbound : (11 : Int) < ResultSet.positionBound := by decide
    exact getD_of_forall₂ ((readColumn_eq_ok_iff (by omega)).mp hns).2 hi 0
  simp only [slicesOf, bind_eq_ok, pure, Except.pure, Except.ok.injEq] at h
  obtain ⟨ids, hids, starts, hstarts, durations, hdurations, names, hnames, depths, hdepths,
    trackIds, htrackIds, commandBuffers, hcommandBuffers, renderTargets, hrenderTargets,
    renderPasses, hrenderPasses, submissionIds, hsubmissionIds, hwQueueIds, hhwQueueIds, rfl⟩ := h
  replace hnames := ((readColumn_eq_ok_iff (j := 3) (by decide)).mp hnames).2
  exact forall₂_rows fun i hi => {
    id := hcell (j := 0) (by decide) hids i hi
    start := hcell (j := 1) (by decide) hstarts i hi
    duration := hcell (j := 2) (by decide) hdurations i hi
    name := ⟨_, getD_of_forall₂ hnames hi "", rfl⟩
    depth := hcell (j := 4) (by decide) hdepths i hi
    trackId := hcell (j := 5) (by decide) htrackIds i hi
    commandBuffer := ⟨_, hcell (j := 6) (by decide) hcommandBuffers i hi, rfl⟩
    renderTarget := ⟨_, hcell (j := 7) (by decide) hrenderTargets i hi, rfl⟩
    renderPass := ⟨_, hcell (j := 8) (by decide) hrenderPasses i hi, rfl⟩
    submissionId := hcell (j := 9) (by decide) hsubmissionIds i hi
    hwQueueId := hcell (j := 10) (by decide) hhwQueueIds i hi }

theorem forall₂_zip_right {α β γ : Type} {R : α → β → Prop} {S : α → γ → Prop} {xs : List α}
    {ys : List β} {zs : List γ} (hR : List.Forall₂ R xs ys) (hS : List.Forall₂ S xs zs) :
    List.Forall₂ (fun x p => R x p.1 ∧ S x p.2) xs (ys.zip zs) := by
  induction hR generalizing zs with
  | nil => exact .nil
  | cons hx _ ih =>
    cases hS with
    | cons hx' hS => exact .cons ⟨hx, hx'⟩ (ih hS)

theorem forall₂_tracksOf {tracks : List (Track Int)} (h : tracksOf answer = .ok tracks) :
    List.Forall₂ Track.OfRow answer.rows tracks := by
  simp only [tracksOf, bind_eq_ok, pure, Except.pure, Except.ok.injEq] at h
  obtain ⟨ids, hids, names, hnames, rfl⟩ := h
  replace hids := ((readColumn_eq_ok_iff (j := 0) (by decide)).mp hids).2
  replace hnames := ((readColumn_eq_ok_iff (j := 1) (by decide)).mp hnames).2
  exact List.forall₂_map_right_iff.mpr
    ((forall₂_zip_right hids hnames).imp fun _ _ hrow => ⟨hrow.1, hrow.2⟩)

theorem resultOf_inquire {σ : Type} {serve : String → StateM σ Answer} {s : σ}
    {t : SliceTable Int} (h : Inquiry.resultOf serve inquire s = .ok t) :
    ∃ slices tracks, ((serve slicesSql).run s).1 = .ok slices ∧
      ((serve tracksSql).run ((serve slicesSql).run s).2).1 = .ok tracks ∧
      slicesOf slices = .ok t.slices ∧ tracksOf tracks = .ok t.tracks ∧ t.groups = .empty := by
  simp only [inquire, Inquiry.resultOf_bind, Inquiry.resultOf_query, Inquiry.after_query,
    Inquiry.resultOf_ofExcept, Inquiry.after_ofExcept, Inquiry.resultOf_pure, bind_eq_ok,
    Except.ok.injEq] at h
  obtain ⟨answer, hanswer, slices, hslices, answer', hanswer', tracks, htracks, -, -, rfl⟩ := h
  exact ⟨answer, answer', hanswer, hanswer', hslices, htracks, rfl⟩

end SliceTable

/-! ## Handles -/

/-- What is used for a handle: the handle itself if it is null or there is no trace handle for it,
and the first of its trace handles otherwise. -/
def HandleMap.Uses (m : Option HandleMap) (h : Int) (used : Number) : Prop :=
  used = .whole h ∧ (∀ map ∈ m, h = 0 ∨ map.targets (.whole h) = []) ∨
    h ≠ 0 ∧ ∃ map ∈ m, ∃ target more, map.targets (.whole h) = target :: more ∧
      used = target.value

theorem HandleMap.uses_apply (m : HandleMap) (h : Int) : Uses (some m) h (m.apply (.whole h)) := by
  have hzero : ((.whole h : Number) == 0) = true ↔ h = 0 := Number.whole_beq_whole
  unfold HandleMap.apply
  split
  · next hnull => exact Or.inl ⟨rfl, fun map _ => Or.inl (hzero.mp hnull)⟩
  · next hnull =>
    split
    · next hnone =>
      refine Or.inl ⟨rfl, fun map hmap => Or.inr ?_⟩
      obtain rfl := Option.mem_some_iff.mp hmap
      exact hnone
    · next target more hsome =>
      exact Or.inr ⟨fun h0 => hnull (hzero.mpr h0), m, rfl, target, more, hsome, rfl⟩

/-- With the handles replaced, if there is a map. -/
def Slice.withHandles (m : Option HandleMap) (s : Slice Int) : Slice Int :=
  match m with
  | none => s
  | some map => s.mapHandles map

theorem Slice.OfRow.withHandles {called : String → String → Prop} {row : List Cell} {s : Slice Int}
    (h : OfRow called (fun h used => used = .whole h) row s) (m : Option HandleMap) :
    OfRow called (HandleMap.Uses m) row (s.withHandles m) := by
  have huses : ∀ (h : Int) (used : Number), used = .whole h →
      HandleMap.Uses m h (match m with
        | none => used
        | some map => map.apply used) := by
    rintro h _ rfl
    cases m with
    | none => exact Or.inl ⟨rfl, fun _ hmap => nomatch hmap⟩
    | some map => exact map.uses_apply h
  obtain ⟨cb, hcb, hcb'⟩ := h.commandBuffer
  obtain ⟨rt, hrt, hrt'⟩ := h.renderTarget
  obtain ⟨rp, hrp, hrp'⟩ := h.renderPass
  cases m <;> exact { h with
    commandBuffer := ⟨cb, hcb, huses _ _ hcb'⟩
    renderTarget := ⟨rt, hrt, huses _ _ hrt'⟩
    renderPass := ⟨rp, hrp, huses _ _ hrp'⟩ }

/-! ## Grouping -/

/-- A name may have a range in front, if it is that of a stage. -/
def RenderPassLookup.Calls (lookup : RenderPassLookup) (before after : String) : Prop :=
  after = before ∨ before ∈ stageNames ∧
    ∃ key range, lookup key = some range ∧ after = range.text ++ " " ++ before

namespace Grouping

variable (order : SubmissionOrder Int) (lookup : RenderPassLookup)

theorem step_eq (st : State Int) (s : Slice Int) :
    ∃ name groupId, (step order lookup st s).1 = { s with name, groupId } ∧
      RenderPassLookup.Calls lookup s.name name := by
  unfold step
  cases hb : s.boundary? order lookup with
  | none => exact ⟨_, _, rfl, Or.inl rfl⟩
  | some range =>
    refine ⟨_, _, rfl, Or.inr ?_⟩
    unfold Slice.boundary? at hb
    split at hb
    · next hstage => exact ⟨List.contains_iff_mem.mp hstage, _, range, hb, rfl⟩
    · exact nomatch hb

variable {uses : Int → Number → Prop}

theorem ofRow_step {row : List Cell} {s : Slice Int} (h : Slice.OfRow Eq uses row s)
    (st : State Int) :
    Slice.OfRow (RenderPassLookup.Calls lookup) uses row (step order lookup st s).1 := by
  obtain ⟨name, groupId, hstep, hname⟩ := step_eq order lookup st s
  obtain ⟨before, hbefore, rfl⟩ := h.name
  rw [hstep]
  exact { h with name := ⟨_, hbefore, hname⟩ }

theorem forall₂_pass {rows : List (List Cell)} {slices : List (Slice Int)}
    (h : List.Forall₂ (Slice.OfRow Eq uses) rows slices) (st : State Int) :
    List.Forall₂ (Slice.OfRow (RenderPassLookup.Calls lookup) uses) rows
      (pass order lookup st slices).1 :=
  forall₂_pass_of_step (P := Slice.OfRow Eq uses)
    (Q := Slice.OfRow (RenderPassLookup.Calls lookup) uses)
    (fun _ _ st hrow => ofRow_step order lookup hrow st) h st

end Grouping

/-! ## Look-ups that may fail -/

namespace RenderPassSource

variable {source : RenderPassSource} {key : RenderPass.Key} {range : RenderPass.Range}

theorem ranges_eq_some_iff : source.ranges key = some range ↔ source key = .ok (some range) := by
  unfold ranges
  cases source key <;> simp [Except.toOption]

end RenderPassSource

section Looking

variable {τ : Type} [BEq τ] {order : SubmissionOrder τ} {source : RenderPassSource}
  {slices before after : List (Slice τ)} {s : Slice τ} {f : Failure}

theorem Grouping.lookedUp_of_found (h : ∀ s ∈ slices, ¬ ∃ f, source (s.key order) = .error f) :
    lookedUp order source slices = (slices, none) := by
  induction slices with
  | nil => rfl
  | cons s rest ih =>
    obtain ⟨hs, hrest⟩ := List.forall_mem_cons.mp h
    cases hr : source (s.key order) with
    | error f => exact absurd ⟨f, hr⟩ hs
    | ok r => rw [lookedUp, hr, ih hrest]

theorem Grouping.lookedUp_of_fault (hf : source (s.key order) = .error f)
    (h : ∀ s ∈ before, ¬ ∃ f, source (s.key order) = .error f) :
    lookedUp order source (before ++ s :: after) = (before, some (s, f)) := by
  induction before with
  | nil => rw [List.nil_append, lookedUp, hf]
  | cons b before ih =>
    obtain ⟨hb, hrest⟩ := List.forall_mem_cons.mp h
    cases hr : source (b.key order) with
    | error f => exact absurd ⟨f, hr⟩ hb
    | ok r => rw [List.cons_append, lookedUp, hr, ih hrest]

variable [OfInteger τ] [Numeric τ] {t : SliceTable τ}

theorem SliceTable.inquireGroups_of_found
    (h : ∀ s ∈ t.slices, ¬ ∃ f, source (s.key order) = .error f) :
    t.inquireGroups order source =
      (Inquiry.report ((t.group order source.ranges).groupEvents order) >>= fun _ =>
        pure (t.group order source.ranges)) := by
  rw [inquireGroups, Grouping.lookedUp_of_found h]

/-- The first slice that the look-up fails for ends the grouping, with all told of those before it. -/
theorem SliceTable.inquireGroups_of_fault
    (h : FirstWith (fun s => ∃ f, source (s.key order) = .error f) t.slices before s after)
    (hf : source (s.key order) = .error f) :
    t.inquireGroups order source =
      (Inquiry.report ((group order source.ranges { t with slices := before }).slices.flatMap
          (Slice.warnings order) ++ s.submissionWarnings order) >>= fun _ =>
        Inquiry.ofExcept (.error f)) := by
  rw [inquireGroups, h.parts, Grouping.lookedUp_of_fault hf h.none_before]

theorem SliceTable.inquireGroups_cases (order : SubmissionOrder τ) (source : RenderPassSource)
    (t : SliceTable τ) :
    t.inquireGroups order source =
        (Inquiry.report ((t.group order source.ranges).groupEvents order) >>= fun _ =>
          pure (t.group order source.ranges)) ∨
      ∃ events f, t.inquireGroups order source =
        (Inquiry.report events >>= fun _ => Inquiry.ofExcept (.error f)) := by
  by_cases hfault : ∃ s ∈ t.slices, ∃ f, source (s.key order) = .error f
  · obtain ⟨before, s, after, hfirst⟩ := exists_firstWith_iff.mpr hfault
    obtain ⟨f, hf⟩ := hfirst.here
    exact .inr ⟨_, f, inquireGroups_of_fault hfirst hf⟩
  · exact .inl (inquireGroups_of_found fun s hs hf => hfault ⟨s, hs, hf⟩)

end Looking

variable {σ : Type} {serve : String → StateM σ Answer}

theorem SliceTable.eq_group_of_inquireGroups {order : SubmissionOrder Int} {source : RenderPassSource}
    {t grouped : SliceTable Int} {s : σ}
    (h : Inquiry.resultOf serve (t.inquireGroups order source) s = .ok grouped) :
    grouped = t.group order source.ranges := by
  obtain heq | ⟨events, f, heq⟩ := t.inquireGroups_cases order source
  all_goals
    rw [heq, Inquiry.resultOf_bind, bind_eq_ok] at h
    obtain ⟨-, -, h⟩ := h
  · exact (Except.ok.inj h).symm
  · exact nomatch h

namespace Profile

variable {inputs : Inputs}

theorem exists_inquireSlices_eq {s : σ} {t : SliceTable Int}
    (h : Inquiry.resultOf serve (inquireSlices inputs) s = .ok t) :
    ∃ read order, Inquiry.resultOf serve SliceTable.inquire s = .ok read ∧
      t = SliceTable.group order inputs.renderPasses.ranges
        { read with slices := read.slices.map (Slice.withHandles inputs.handles) } := by
  rw [inquireSlices, Inquiry.resultOf_bind, bind_eq_ok] at h
  obtain ⟨read, hread, h⟩ := h
  rw [Inquiry.resultOf_bind, bind_eq_ok] at h
  obtain ⟨order, -, h⟩ := h
  refine ⟨read, order, hread, ?_⟩
  cases hhandles : inputs.handles with
  | none =>
    simp only [hhandles, Inquiry.resultOf_bind, bind_eq_ok, Inquiry.resultOf_pure, Except.ok.injEq]
      at h
    obtain ⟨_, rfl, h⟩ := h
    have hnone : Slice.withHandles none = id := rfl
    rw [SliceTable.eq_group_of_inquireGroups h, hnone, List.map_id]
  | some m =>
    simp only [hhandles, Inquiry.resultOf_bind, bind_eq_ok, Inquiry.resultOf_pure, Except.ok.injEq]
      at h
    obtain ⟨-, -, _, rfl, h⟩ := h
    exact SliceTable.eq_group_of_inquireGroups h

/-- If the slices of a trace can be had there is one for each row of the slice query, in order, and
everything about it is in its row, but for the group it is in; and the tracks are the rows of the
track query. -/
theorem inquireSlices_eq_rows {s : σ} {t : SliceTable Int}
    (h : Inquiry.resultOf serve (inquireSlices inputs) s = .ok t) :
    ∃ slices tracks, ((serve SliceTable.slicesSql).run s).1 = .ok slices ∧
      ((serve SliceTable.tracksSql).run ((serve SliceTable.slicesSql).run s).2).1 = .ok tracks ∧
      List.Forall₂ (Slice.OfRow (RenderPassLookup.Calls inputs.renderPasses.ranges)
        (HandleMap.Uses inputs.handles)) slices.rows t.slices ∧
      List.Forall₂ Track.OfRow tracks.rows t.tracks := by
  obtain ⟨read, order, hread, rfl⟩ := exists_inquireSlices_eq h
  obtain ⟨slices, tracks, hslices, htracks, hread, hread', -⟩ := SliceTable.resultOf_inquire hread
  refine ⟨slices, tracks, hslices, htracks, ?_, SliceTable.forall₂_tracksOf hread'⟩
  have hmapped : List.Forall₂ (Slice.OfRow Eq (HandleMap.Uses inputs.handles)) slices.rows
      (read.slices.map (Slice.withHandles inputs.handles)) :=
    List.forall₂_map_right_iff.mpr
      ((SliceTable.forall₂_slicesOf hread).imp fun _ _ hrow => hrow.withHandles inputs.handles)
  exact Grouping.forall₂_pass order inputs.renderPasses.ranges hmapped _

/-- The handle `1` of every slice stands for `7`. -/
def mappedInputs : Inputs := { sampleInputs with handles := some ⟨[(1, [⟨"", 7⟩])]⟩ }

def mappedStore : Store := sampleStore (.error .outOfRange)

theorem inquireSlices_eq_rows_sample :
    ∃ t slices tracks,
      Inquiry.resultOf mappedStore.stateless (inquireSlices mappedInputs) () = .ok t ∧
      mappedStore SliceTable.slicesSql = .ok slices ∧
      mappedStore SliceTable.tracksSql = .ok tracks ∧
      (t.slices.map fun s => s.renderPass == 7) = [true] ∧
      List.Forall₂ (Slice.OfRow (RenderPassLookup.Calls mappedInputs.renderPasses.ranges)
        (HandleMap.Uses mappedInputs.handles)) slices.rows t.slices ∧
      List.Forall₂ Track.OfRow tracks.rows t.tracks := by
  have hpass : (Inquiry.resultOf mappedStore.stateless (inquireSlices mappedInputs) ()).toOption.map
      (fun t => t.slices.map fun s => s.renderPass == 7) = some [true] := by decide +kernel
  cases ht : Inquiry.resultOf mappedStore.stateless (inquireSlices mappedInputs) () with
  | error f =>
    rw [ht] at hpass
    exact nomatch hpass
  | ok t =>
    rw [ht] at hpass
    obtain ⟨slices, tracks, hslices, htracks, hrows, hrows'⟩ := inquireSlices_eq_rows ht
    simp only [Store.run_stateless] at hslices htracks
    exact ⟨t, slices, tracks, rfl, hslices, htracks, Option.some.inj hpass, hrows, hrows'⟩

end Profile
end RenderTrace
