import RenderTrace.Proofs.Input.Load
import RenderTrace.Proofs.Profile.EmptyRange
import RenderTrace.Proofs.Profile.Submission

/-!
# Slices of unresolved submissions

Only valid submissions have a place (`get?_resolve_eq_none`), and every key of a table that is loaded
from a file has one (`lookup_eq_none_of_loaded`). So a slice of any other submission is not found by
its key. The pass leaves its name and the groups alone and goes on as if it had not been there, and
the slice is in the group of the last boundary before it (`group_of_unresolved`).
-/

namespace RenderTrace
open RenderPass

variable {τ : Type}

/-! ## Submissions without a place -/

namespace SubmissionOrder

variable [BEq τ]

/-- No submission with an id has a command buffer. -/
def Unresolved (rows : List (Submission τ)) (id : τ) : Prop :=
  ∀ r ∈ rows, (r.id == id) = true → (r.commandBuffer == 0) = true

theorem mem_ids_put {id i : τ} {place : Number} {entries : List (τ × Number)}
    (h : i ∈ (put id place entries).map (·.1)) : i = id ∨ i ∈ entries.map (·.1) := by
  induction entries with
  | nil => exact .inl (List.mem_singleton.mp h)
  | cons e entries ih =>
    obtain ⟨j, p⟩ := e
    rw [put] at h
    split at h
    · exact .inr h
    · rcases List.mem_cons.mp h with rfl | h
      · exact .inr List.mem_cons_self
      · exact (ih h).imp_right (List.mem_cons_of_mem _)

theorem mem_ids_assign {place : Nat} {entries : List (τ × Number)} {rows : List (Submission τ)}
    {i : τ} (h : i ∈ (assign place entries rows).map (·.1)) :
    i ∈ entries.map (·.1) ∨ i ∈ validIds rows := by
  induction rows generalizing place entries with
  | nil => exact .inl h
  | cons r rows ih =>
    rw [assign] at h
    cases hr : r.isSpurious with
    | true =>
      rw [hr, if_pos rfl] at h
      simpa [validIds, hr] using ih h
    | false =>
      rw [hr, if_neg Bool.false_ne_true] at h
      have hids : validIds (r :: rows) = r.id :: validIds rows := by simp [validIds, hr]
      rw [hids, List.mem_cons]
      rcases ih h with h | h
      · rcases mem_ids_put h with h | h
        · exact .inr (.inl h)
        · exact .inl h
      · exact .inr (.inr h)

theorem get?_resolve_eq_none [PartialEquivBEq τ] {rows : List (Submission τ)} {id : τ}
    (h : Unresolved rows id) : (resolve rows).get? id = none := by
  rw [get?, List.lookup_eq_none_iff]
  intro e he
  have hvalid := (mem_ids_assign (List.mem_map_of_mem he)).resolve_left List.not_mem_nil
  obtain ⟨r, hr, hid⟩ := List.mem_map.mp hvalid
  obtain ⟨hmem, hbuffer⟩ := List.mem_filter.mp hr
  rw [bne, Bool.not_eq_true', Bool.eq_false_iff]
  intro heq
  have hspurious : r.isSpurious = true := h r hmem (hid ▸ BEq.symm heq)
  simp [hspurious] at hbuffer

end SubmissionOrder

/-! ## Keys with a place -/

namespace RenderPassTable

theorem mem_keys_put {key k : Key} {range : Range} {entries : List (Key × Range)}
    (h : k ∈ (put key range entries).map (·.1)) : k = key ∨ k ∈ entries.map (·.1) := by
  induction entries with
  | nil => exact .inl (List.mem_singleton.mp h)
  | cons e entries ih =>
    obtain ⟨k', r⟩ := e
    rw [put] at h
    split at h
    · exact .inr h
    · rcases List.mem_cons.mp h with rfl | h
      · exact .inr List.mem_cons_self
      · exact (ih h).imp_right (List.mem_cons_of_mem _)

theorem mem_keys_addAll {t t' : RenderPassTable} {entries : List (Key × Range)}
    (hadd : t.addAll entries = .ok t') {k : Key} (h : k ∈ t'.entries.map (·.1)) :
    k ∈ t.entries.map (·.1) ∨ k ∈ entries.map (·.1) := by
  induction entries generalizing t with
  | nil =>
    obtain rfl := Except.ok.inj hadd
    exact .inl h
  | cons e entries ih =>
    obtain ⟨next, hnext, hrest⟩ := addAll_cons_eq_ok.mp hadd
    obtain ⟨-, rfl⟩ := add_eq_ok hnext
    rcases ih hrest with h | h
    · rcases mem_keys_put h with rfl | h
      · exact .inr List.mem_cons_self
      · exact .inl h
    · exact .inr (List.mem_cons_of_mem _ h)

variable [Zstd.Codec] {files : FileTree} {path : Path} {t : RenderPassTable}

theorem order_of_loaded (h : Input.renderPasses files path = .ok t) :
    ∀ k ∈ t.entries.map (·.1), ∃ place, k.order = some place := by
  obtain ⟨v, hdocument, hlisted⟩ := exists_of_renderPasses h
  obtain ⟨entries, ⟨xs, -, hlists⟩, htable⟩ :=
    Input.exists_listsPasses (Input.shape_of_document_eq_ok hdocument)
  intro k hk
  have hkeys := (mem_keys_addAll (htable ▸ hlisted) hk).resolve_left List.not_mem_nil
  obtain ⟨e, he, rfl⟩ := List.mem_map.mp hkeys
  obtain ⟨x, -, hx⟩ := (Schema.exists_of_mem_forall₂ hlists).2 e he
  obtain ⟨place, hplace, -⟩ := hx.order
  exact ⟨place, hplace⟩

theorem lookup_eq_none_of_loaded (h : Input.renderPasses files path = .ok t) {key : Key}
    (hkey : key.order = none) : t.lookup key = none := by
  rw [lookup, Option.map_eq_none_iff, List.find?_eq_none]
  intro e he heq
  obtain ⟨place, hplace⟩ := order_of_loaded h e.1 (List.mem_map_of_mem he)
  obtain ⟨horder, -⟩ := Key.beq_iff.mp heq
  rw [hplace, hkey] at horder
  exact nomatch horder

end RenderPassTable

/-! ## The pass -/

namespace Grouping

variable [BEq τ] [OfInteger τ] {order : SubmissionOrder τ} {lookup : RenderPassLookup}

theorem step_of_boundary_none {s : Slice τ} (h : s.boundary? order lookup = none) (st : State τ) :
    step order lookup st s = ({ s with groupId := st.current }, st) := by
  simp only [step, h]

theorem current_step (st : State τ) (s : Slice τ) :
    (step order lookup st s).2.current = (step order lookup st s).1.groupId := by
  unfold step
  split <;> rfl

theorem snd_pass_of_boundary_none {slices : List (Slice τ)}
    (h : ∀ s ∈ slices, s.boundary? order lookup = none) (st : State τ) :
    (pass order lookup st slices).2 = st := by
  induction slices with
  | nil => rfl
  | cons s rest ih =>
    obtain ⟨hs, hrest⟩ := List.forall_mem_cons.mp h
    simp only [pass, step_of_boundary_none hs, ih hrest]

theorem length_pass (st : State τ) (slices : List (Slice τ)) :
    (pass order lookup st slices).1.length = slices.length := by
  induction slices generalizing st with
  | nil => rfl
  | cons s rest ih => simp only [pass, List.length_cons, ih]

/-- The id of the last boundary's group among some slices as they come and as they are grouped. -/
structure LastGroup (order : SubmissionOrder τ) (lookup : RenderPassLookup)
    (slices grouped : List (Slice τ)) (id : τ) : Prop where
  unset : (∀ s ∈ slices, s.boundary? order lookup = none) → id = noGroup
  last : ∀ before s after, slices = before ++ s :: after → s.boundary? order lookup ≠ none →
    (∀ s' ∈ after, s'.boundary? order lookup = none) →
      (grouped[before.length]?).map Slice.groupId = some id

theorem lastGroup_pass (groups : Groups τ) (slices : List (Slice τ)) :
    LastGroup order lookup slices (pass order lookup ⟨groups, noGroup⟩ slices).1
      (pass order lookup ⟨groups, noGroup⟩ slices).2.current where
  unset h := by rw [snd_pass_of_boundary_none h]
  last := by
    rintro before s after rfl - hafter
    rw [pass_append]
    simp only [pass, snd_pass_of_boundary_none hafter, current_step]
    rw [List.getElem?_append_right (by rw [length_pass]), length_pass, Nat.sub_self]
    rfl

end Grouping

variable [BEq τ] [OfInteger τ]

/-- A slice that is no boundary is put into the group at hand, and the rest is as it is without it. -/
theorem SliceTable.group_of_boundary_none {order : SubmissionOrder τ} {lookup : RenderPassLookup}
    {s : Slice τ} (h : s.boundary? order lookup = none) (before after : List (Slice τ))
    (tracks : List (Track τ)) (groups : Groups τ) :
    ∃ before' after' groups' id, before'.length = before.length ∧
      group order lookup ⟨before ++ after, tracks, groups⟩ = ⟨before' ++ after', tracks, groups'⟩ ∧
      group order lookup ⟨before ++ s :: after, tracks, groups⟩ =
        ⟨before' ++ { s with groupId := id } :: after', tracks, groups'⟩ ∧
      Grouping.LastGroup order lookup before before' id := by
  let reached := Grouping.pass order lookup ⟨groups, noGroup⟩ before
  let rest := Grouping.pass order lookup reached.2 after
  refine ⟨reached.1, rest.1, rest.2.groups, reached.2.current, Grouping.length_pass _ before, ?_, ?_,
    Grouping.lastGroup_pass groups before⟩
  · simp only [group, Grouping.pass_append]
    rfl
  · simp only [group, Grouping.pass_append, Grouping.pass, Grouping.step_of_boundary_none h]
    rfl

theorem Slice.warnings_of_unresolved [Numeric τ] {order : SubmissionOrder τ} {s : Slice τ}
    (h : order.get? s.submissionId = none) :
    s.warnings order = .unknownSubmission (toNumber s.submissionId) :: s.groupWarnings := by
  simp [warnings, submissionWarnings, h]

/-- A slice whose submission has no command buffer opens no group of a loaded table and keeps its name.
All other slices and the groups are as they are without it, its group is that of the last boundary
before it, and it is warned about once that its submission is unknown. -/
theorem group_of_unresolved [Zstd.Codec] [PartialEquivBEq τ] [Numeric τ] {files : FileTree}
    {path : Path} {t : RenderPassTable} (ht : Input.renderPasses files path = .ok t)
    {rows : List (SubmissionOrder.Submission τ)} {s : Slice τ}
    (hs : SubmissionOrder.Unresolved rows s.submissionId) (before after : List (Slice τ))
    (tracks : List (Track τ)) (groups : Groups τ) :
    let order := SubmissionOrder.resolve rows
    (s.key order).order = none ∧
    ∃ before' after' groups' id, before'.length = before.length ∧
      SliceTable.group order t.lookup ⟨before ++ after, tracks, groups⟩ =
        ⟨before' ++ after', tracks, groups'⟩ ∧
      SliceTable.group order t.lookup ⟨before ++ s :: after, tracks, groups⟩ =
        ⟨before' ++ { s with groupId := id } :: after', tracks, groups'⟩ ∧
      Grouping.LastGroup order t.lookup before before' id ∧
      (SliceTable.group order t.lookup ⟨before ++ s :: after, tracks, groups⟩).groupEvents order =
        before'.flatMap (Slice.warnings order) ++
          .unknownSubmission (toNumber s.submissionId) :: { s with groupId := id }.groupWarnings ++
          after'.flatMap (Slice.warnings order) ++
          [.grouped (before'.length + after'.length + 1) groups'.list.length] := by
  intro order
  have hplace : order.get? s.submissionId = none := SubmissionOrder.get?_resolve_eq_none hs
  have hlookup : t.lookup (s.key order) = none :=
    RenderPassTable.lookup_eq_none_of_loaded ht hplace
  have hboundary : s.boundary? order t.lookup = none := by
    rw [Slice.boundary?, hlookup, ite_self]
  obtain ⟨before', after', groups', id, hlength, hwithout, hwith, hlast⟩ :=
    SliceTable.group_of_boundary_none hboundary before after tracks groups
  refine ⟨hplace, before', after', groups', id, hlength, hwithout, hwith, hlast, ?_⟩
  have hwarnings := Slice.warnings_of_unresolved (s := { s with groupId := id }) hplace
  rw [hwith, SliceTable.groupEvents, List.flatMap_append, List.flatMap_cons, hwarnings]
  simp [Nat.add_assoc]

def sampleSubmissions : List (SubmissionOrder.Submission Int) := [⟨0, 5⟩, ⟨1, 0⟩]

/-- A slice of the second submission that has the handles of a render pass. -/
def unresolvedSlice : Slice Int := { stageSlice Input.passKey with submissionId := 1 }

theorem group_of_unresolved_sample :
    letI := Zstd.Blocks.codec
    ∃ t, Input.renderPasses (Input.sampleFiles (Input.passBytes 1 3)) Input.samplePath = .ok t ∧
      SubmissionOrder.Unresolved sampleSubmissions unresolvedSlice.submissionId ∧
      let order := SubmissionOrder.resolve sampleSubmissions
      let grouped := SliceTable.group order t.lookup
        ⟨[stageSlice Input.passKey, unresolvedSlice], [], .empty⟩
      grouped.slices.map Slice.name = ["1-3 vertex", "vertex"] ∧
        grouped.slices.map Slice.groupId = [0, 0] ∧ grouped.groups.list.length = 1 ∧
        .unknownSubmission (.whole 1) ∈ grouped.groupEvents order := by
  let codec := Zstd.Blocks.codec
  let t : RenderPassTable := ⟨[(Input.passKey, ⟨.whole 1, .whole 3⟩)]⟩
  have hload : Input.renderPasses (Input.sampleFiles (Input.passBytes 1 3)) Input.samplePath =
      .ok t := Input.renderPasses_passBytes (Input.bytes_sampleFiles _) (by decide) (by decide) rfl
  have hunresolved : SubmissionOrder.Unresolved sampleSubmissions unresolvedSlice.submissionId := by
    intro r hr
    simp only [sampleSubmissions, List.mem_cons, List.not_mem_nil, or_false] at hr
    rcases hr with rfl | rfl
    · exact nofun
    · exact fun _ => by decide +kernel
  refine ⟨t, hload, hunresolved, ?_⟩
  intro order grouped
  obtain ⟨-, before, after, groups, id, hlength, hwithout, hwith, hlast, hevents⟩ :=
    group_of_unresolved hload hunresolved [stageSlice Input.passKey] [] [] .empty
  let without := SliceTable.group order t.lookup ⟨[stageSlice Input.passKey], [], .empty⟩
  have hnames : without.slices.map Slice.name = ["1-3 vertex"] := by decide +kernel
  have hids : without.slices.map Slice.groupId = [0] := by decide +kernel
  have hgroups : without.groups.list.length = 1 := by decide +kernel
  have heq : without = ⟨before ++ after, [], groups⟩ := hwithout
  rw [heq] at hnames hids hgroups
  obtain ⟨first, rfl⟩ := List.length_eq_one_iff.mp hlength
  obtain rfl : after = [] := by simpa using congrArg List.length hids
  have hfound : ((stageSlice Input.passKey).boundary? order t.lookup).isSome := by decide +kernel
  have hid : some first.groupId = some id :=
    hlast.last [] (stageSlice Input.passKey) [] rfl (Option.isSome_iff_ne_none.mp hfound)
      (List.forall_mem_nil _)
  have hgrouped : grouped = ⟨[first, { unresolvedSlice with groupId := id }], [], groups⟩ := hwith
  have hfirst : first.name = "1-3 vertex" ∧ first.groupId = 0 :=
    ⟨List.head_eq_of_cons_eq hnames, List.head_eq_of_cons_eq hids⟩
  have htold : grouped.groupEvents order = _ := hevents
  refine ⟨?_, ?_, ?_, ?_⟩
  · rw [hgrouped, ← hfirst.1]
    rfl
  · rw [hgrouped]
    change [first.groupId, id] = [0, 0]
    rw [← Option.some.inj hid, hfirst.2]
  · rw [hgrouped]
    exact hgroups
  · rw [htold]
    simp [unresolvedSlice, toNumber]

end RenderTrace
