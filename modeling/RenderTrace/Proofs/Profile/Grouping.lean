import Mathlib.Data.List.Induction
import RenderTrace.Proofs.Profile.Boundary

/-!
# Grouping by boundaries

The single pass that puts slices into groups gives the table that the boundaries describe
(`group_eq_byBoundaries`). The invariant of the pass: after some slices the groups are those that
their boundaries open, and the current group is that of the last of them (`pass_eq`).
-/

namespace RenderTrace
open RenderPass

variable {τ : Type} [BEq τ] [OfInteger τ]

section byBoundaries
variable (order : SubmissionOrder τ) (lookup : RenderPassLookup)

/-- A slice put into a group, by the slices before it: it is in the group of the last boundary up to
it, and a boundary is renamed after its range. Everything else stays. -/
def Slice.byBoundaries (before : List (Slice τ)) (s : Slice τ) : Slice τ :=
  { s with
    name := match Boundary.of? order lookup s with
      | some b => b.range.start.text ++ "-" ++ b.range.stop.text ++ " " ++ s.name
      | none => s.name
    groupId := Boundary.current (Boundary.all order lookup (before ++ [s])) }

/-- Slices put into groups. -/
def SliceTable.byBoundaries (slices : List (Slice τ)) (tracks : List (Track τ)) : SliceTable τ where
  slices := slices.mapIdx fun i s => s.byBoundaries order lookup (slices.take i)
  tracks := tracks
  groups := Boundary.groups (Boundary.all order lookup slices)

end byBoundaries

namespace Grouping

variable {order : SubmissionOrder τ} {lookup : RenderPassLookup}

theorem pass_append (st : State τ) (slices more : List (Slice τ)) :
    pass order lookup st (slices ++ more) =
      ((pass order lookup st slices).1 ++ (pass order lookup (pass order lookup st slices).2 more).1,
        (pass order lookup (pass order lookup st slices).2 more).2) := by
  induction slices generalizing st with
  | nil => rfl
  | cons s slices ih =>
    simp only [List.cons_append, pass, ih]

/-- What every step keeps between a slice and something it belongs to, the pass keeps. -/
theorem forall₂_pass_of_step {α : Type} {P Q : α → Slice τ → Prop}
    (hstep : ∀ a s st, P a s → Q a (step order lookup st s).1) {as : List α}
    {slices : List (Slice τ)} (h : List.Forall₂ P as slices) (st : State τ) :
    List.Forall₂ Q as (pass order lookup st slices).1 := by
  induction h generalizing st with
  | nil => exact .nil
  | cons ha _ ih => exact .cons (hstep _ _ st ha) (ih _)

/-- The groups and the current group that some slices leave. -/
def stateAfter (order : SubmissionOrder τ) (lookup : RenderPassLookup) (slices : List (Slice τ)) :
    State τ :=
  let bs := Boundary.all order lookup slices
  ⟨Boundary.groups bs, Boundary.current bs⟩

theorem step_stateAfter (before : List (Slice τ)) (s : Slice τ) :
    step order lookup (stateAfter order lookup before) s =
      (s.byBoundaries order lookup before, stateAfter order lookup (before ++ [s])) := by
  have hof := Boundary.of?_eq order lookup s
  have hall : Boundary.all order lookup (before ++ [s]) =
      Boundary.all order lookup before ++ (Boundary.of? order lookup s).toList := by
    rw [Boundary.all_append]
    cases h : Boundary.of? order lookup s <;> simp [Boundary.all, h]
  cases hb : s.boundary? order lookup with
  | none =>
    rw [hb, Option.map_none] at hof
    simp only [hof, Option.toList_none, List.append_nil] at hall
    simp only [step, hb, stateAfter, Slice.byBoundaries, hof, hall]
  | some range =>
    rw [hb, Option.map_some] at hof
    simp only [hof, Option.toList_some] at hall
    have hensure := Boundary.ensure_groups (τ := τ) (Boundary.all order lookup before)
      ⟨s.key order, s.groupName, range⟩
    simp only [step, hb, stateAfter, Slice.byBoundaries, hof, hall, Boundary.current_concat,
      hensure, Slice.rename, Range.text]

theorem pass_eq (slices : List (Slice τ)) :
    pass order lookup ⟨.empty, noGroup⟩ slices =
      (slices.mapIdx fun i s => s.byBoundaries order lookup (slices.take i),
        stateAfter order lookup slices) := by
  induction slices using List.reverseRecOn with
  | nil => rfl
  | append_singleton slices s ih =>
    rw [pass_append, ih]
    simp only [pass, step_stateAfter, List.mapIdx_concat, Prod.mk.injEq, and_true]
    congr 1
    · refine List.mapIdx_eq_mapIdx_iff.mpr fun i hi => ?_
      rw [List.take_append_of_le_length (Nat.le_of_lt hi)]
    · rw [List.take_left]

end Grouping

/-- Putting the slices of a table without groups into groups gives what the boundaries describe:
there is one group for each of the different keys of the boundaries. -/
theorem SliceTable.group_eq_byBoundaries (order : SubmissionOrder τ) (lookup : RenderPassLookup)
    (slices : List (Slice τ)) (tracks : List (Track τ)) :
    SliceTable.group order lookup ⟨slices, tracks, .empty⟩ =
        SliceTable.byBoundaries order lookup slices tracks ∧
      let bs := Boundary.all order lookup slices
      (Boundary.openings bs).Sublist bs ∧
        ((Boundary.openings bs).Pairwise fun a b => (a.key == b.key) = false) ∧
        ∀ b ∈ bs, b ∈ Boundary.openings bs ∨
          ∃ a ∈ Boundary.openings bs, (a.key == b.key) = true := by
  refine ⟨?_, Boundary.openings_sublist _, Boundary.openings_pairwise _,
    fun b => Boundary.mem_openings⟩
  simp only [SliceTable.group, Grouping.pass_eq, Grouping.stateAfter, SliceTable.byBoundaries]

/-- Two render passes, the first of them once more after the second. -/
def sampleStages : List (Slice Int) :=
  [("barrier", 0), ("vertex", 7), ("barrier", 0), ("fragment", 8), ("vertex", 7)].map
    fun (name, renderPass) => ⟨0, 0, 0, name, 0, 0, 5, 9, .whole renderPass, 0, 0, 0⟩

/-- A range for every render pass but `0`. -/
def sampleLookup : RenderPassLookup := fun key =>
  if key.renderPass == 0 then none else some ⟨key.renderPass, 10⟩

theorem group_eq_byBoundaries_sample :
    let t := SliceTable.group .empty sampleLookup ⟨sampleStages, [], .empty⟩
    t.slices.map Slice.name = ["barrier", "7-10 vertex", "barrier", "8-10 fragment", "7-10 vertex"] ∧
      t.slices.map Slice.groupId = [-1, 0, 0, 1, 0] ∧
      ∀ b, (Boundary.all .empty sampleLookup sampleStages)[2]? = some b →
        b ∈ Boundary.openings (Boundary.all .empty sampleLookup sampleStages) ∨
          ∃ a ∈ Boundary.openings (Boundary.all .empty sampleLookup sampleStages),
            (a.key == b.key) = true := by
  obtain ⟨heq, -, -, hcover⟩ :=
    SliceTable.group_eq_byBoundaries .empty sampleLookup sampleStages []
  intro t
  refine ⟨?_, ?_, fun b hb => hcover b (List.mem_of_getElem? hb)⟩
  · change (SliceTable.group .empty sampleLookup ⟨sampleStages, [], .empty⟩).slices.map _ = _
    rw [heq]
    decide +kernel
  · change (SliceTable.group .empty sampleLookup ⟨sampleStages, [], .empty⟩).slices.map _ = _
    rw [heq]
    decide +kernel

end RenderTrace
