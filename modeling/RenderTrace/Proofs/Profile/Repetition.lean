import RenderTrace.Proofs.Profile.Totals
import RenderTrace.Proofs.Profile.Unresolved

/-!
# Repeated passes

A grouping pass renames every slice that it finds after its range, and such a name is not that of a
stage (`Slice.name_rename_notMem`). The key of a slice stays, so a slice that is not found by one pass
is not found by the next one either. A second pass therefore finds nothing (`Grouping.boundary?_pass`):
it takes all slices out of their groups and leaves everything else, and from then on nothing changes
(`SliceTable.group_again`).
-/

namespace RenderTrace
open RenderPass

variable {τ : Type}

/-- The name of a slice that was renamed has a blank in it, and that of a stage has none. -/
theorem Slice.name_rename_notMem (range : Range) (s : Slice τ) :
    (s.rename range).name ∉ stageNames := by
  have hstages : ∀ name ∈ stageNames, ' ' ∉ name.toList := by decide
  intro hmem
  refine hstages _ hmem ?_
  simp [rename, String.toList_append]

section
variable [BEq τ] {order : SubmissionOrder τ} {lookup : RenderPassLookup}

theorem Slice.boundary?_eq_none_of_name {s : Slice τ} (h : s.name ∉ stageNames) :
    s.boundary? order lookup = none := if_neg (by simpa using h)

/-- A slice and what a pass leaves of it: its group may be another, and one that is found has its range
in front of its name. -/
def Slice.Passes (order : SubmissionOrder τ) (lookup : RenderPassLookup) (s grouped : Slice τ) :
    Prop :=
  grouped = { s with
    name := ((s.boundary? order lookup).map fun range => range.text ++ " " ++ s.name).getD s.name
    groupId := grouped.groupId }

theorem Boundary.all_eq_nil_iff {slices : List (Slice τ)} :
    all order lookup slices = [] ↔ ∀ s ∈ slices, s.boundary? order lookup = none := by
  simp [all, List.filterMap_eq_nil_iff, of?_eq]

variable [OfInteger τ]

namespace Grouping

/-- What a pass makes of a slice is not found by its key any more. -/
theorem boundary?_step (st : State τ) (s : Slice τ) :
    (step order lookup st s).1.boundary? order lookup = none := by
  cases hb : s.boundary? order lookup with
  | none =>
    rw [step_of_boundary_none hb]
    exact hb
  | some range =>
    simp only [step, hb]
    exact Slice.boundary?_eq_none_of_name (s.name_rename_notMem range)

theorem boundary?_pass (st : State τ) (slices : List (Slice τ)) :
    ∀ s ∈ (pass order lookup st slices).1, s.boundary? order lookup = none := by
  induction slices generalizing st with
  | nil => exact List.forall_mem_nil _
  | cons s rest ih => exact List.forall_mem_cons.mpr ⟨boundary?_step st s, ih _⟩

theorem passes_step (st : State τ) (s : Slice τ) :
    s.Passes order lookup (step order lookup st s).1 := by
  cases hb : s.boundary? order lookup with
  | none => simp [Slice.Passes, step, hb]
  | some range => simp [Slice.Passes, step, hb, Slice.rename]

theorem forall₂_passes (st : State τ) (slices : List (Slice τ)) :
    List.Forall₂ (Slice.Passes order lookup) slices (pass order lookup st slices).1 := by
  have hsame : List.Forall₂ Eq slices slices := List.forall₂_same.mpr fun _ _ => rfl
  refine forall₂_pass_of_step ?_ hsame st
  rintro s _ st rfl
  exact passes_step st s

theorem pass_of_boundary_none {slices : List (Slice τ)}
    (h : ∀ s ∈ slices, s.boundary? order lookup = none) (st : State τ) :
    pass order lookup st slices =
      (slices.map fun s => { s with groupId := st.current }, st) := by
  induction slices with
  | nil => rfl
  | cons s rest ih =>
    obtain ⟨hs, hrest⟩ := List.forall_mem_cons.mp h
    simp only [pass, step_of_boundary_none hs, ih hrest, List.map_cons]

end Grouping

namespace SliceTable

theorem group_eq_map_ungrouped {t : SliceTable τ}
    (h : ∀ s ∈ t.slices, s.boundary? order lookup = none) :
    t.group order lookup = { t with slices := t.slices.map Slice.ungrouped } := by
  simp only [group, Grouping.pass_of_boundary_none h]
  rfl

end SliceTable
end

namespace SliceTable

theorem filter_groupEvents_of_ungrouped (order : SubmissionOrder Int) {t : SliceTable Int}
    (h : ∀ s ∈ t.slices, s.groupId = noGroup) :
    (t.groupEvents order).filter Event.isUngrouped = t.slices.map fun s =>
      .ungrouped s.name (toNumber s.submissionId) s.commandBuffer s.renderPass s.renderTarget := by
  rw [filter_groupEvents, List.map_eq_flatMap]
  exact List.flatMap_congr fun s hs => if_pos (by simp [h s hs])

/-- The first pass leaves every slice but for its group and the name of one that is found. A pass over
what it leaves finds no slice: it changes no name and no group, takes every slice out of its group and
tells about each of them. A further pass changes nothing at all. -/
theorem group_again (order : SubmissionOrder Int) (lookup : RenderPassLookup)
    (t : SliceTable Int) :
    let once := t.group order lookup
    let twice := once.group order lookup
    List.Forall₂ (Slice.Passes order lookup) t.slices once.slices ∧
      Boundary.all order lookup once.slices = [] ∧
      twice = { once with slices := once.slices.map Slice.ungrouped } ∧
      (twice.groupEvents order).filter Event.isUngrouped = (twice.slices.map fun s =>
        .ungrouped s.name (toNumber s.submissionId) s.commandBuffer s.renderPass
          s.renderTarget) ∧
      twice.group order lookup = twice := by
  intro once twice
  have hfound : ∀ s ∈ once.slices, s.boundary? order lookup = none :=
    Grouping.boundary?_pass ⟨t.groups, noGroup⟩ t.slices
  have htwice : twice = { once with slices := once.slices.map Slice.ungrouped } :=
    group_eq_map_ungrouped hfound
  have hungrouped : ∀ s ∈ twice.slices, s.groupId = noGroup := by
    rw [htwice]
    exact List.forall_mem_map.mpr fun s _ => rfl
  -- the second pass is over what the first one left, the third over what the second left
  have hthrice : twice.group order lookup = { twice with slices := twice.slices.map Slice.ungrouped } :=
    group_eq_map_ungrouped (Grouping.boundary?_pass ⟨once.groups, noGroup⟩ once.slices)
  refine ⟨Grouping.forall₂_passes _ _, Boundary.all_eq_nil_iff.mpr hfound, htwice,
    filter_groupEvents_of_ungrouped order hungrouped, hthrice.trans ?_⟩
  have hsame : twice.slices.map Slice.ungrouped = twice.slices :=
    (List.map_congr_left fun s hs => by rw [Slice.ungrouped, ← hungrouped s hs]; rfl).trans
      twice.slices.map_id
  rw [hsame]

example :
    let once := SliceTable.group .empty sampleLookup ⟨sampleStages, [], .empty⟩
    let twice := once.group .empty sampleLookup
    once.slices.map (fun s => (s.name, s.groupId)) =
        [("barrier", -1), ("7-10 vertex", 0), ("barrier", 0), ("8-10 fragment", 1), ("7-10 vertex", 0)] ∧
      twice.slices.map (fun s => (s.name, s.groupId)) =
        [("barrier", -1), ("7-10 vertex", -1), ("barrier", -1), ("8-10 fragment", -1),
          ("7-10 vertex", -1)] ∧
      twice.groups.list.map Group.id = [0, 1] := by decide +kernel

end SliceTable
end RenderTrace
