import Mathlib.Algebra.BigOperators.Group.List.Basic
import RenderTrace.Proofs.Profile.History

/-!
# Groups as a partition

A pass over slices that are in no group leaves those without a group at the front, since a slice
that opens a group is never followed by one without (`Grouping.exists_split_passBy`). A group is
only ever opened by a slice that goes into it (`Grouping.mem_passBy`), and its id is its place, so
the groups cut the slices behind the front into parts of which none is empty. What is added up part
by part is therefore what those slices add up to (`SliceTable.Parts.sum_groups`).
-/

namespace RenderTrace
open RenderPass

namespace Groups

variable {τ : Type} [OfInteger τ]

theorem mem_ensure {g : Groups τ} {key : Key} {name : String} {range : Range} {x : Group τ}
    (hx : x ∈ (g.ensure key name range).2.list) :
    x ∈ g.list ∨ x.id = (g.ensure key name range).1 := by
  cases hid : g.idOf? key with
  | some id =>
    rw [ensure_of_known hid] at hx
    exact Or.inl hx
  | none =>
    rw [ensure_of_new hid] at hx ⊢
    rcases List.mem_append.mp hx with hx | hx
    · exact Or.inl hx
    · rw [List.mem_singleton.mp hx]
      exact Or.inr rfl

theorem Dense.map_id {g : Groups τ} (h : g.Dense) :
    g.list.map Group.id = (List.range g.list.length).map fun i : Nat => ofInteger i := by
  apply List.ext_getElem
  · simp
  · intro i hi _
    simp only [List.length_map] at hi
    simpa using h.id i g.list[i] (List.getElem?_eq_getElem hi)

theorem ofInteger_ne_noGroup (i : Nat) : (ofInteger i : Int) ≠ noGroup := by
  change (i : Int) ≠ -1
  omega

end Groups

/-! ## One pass -/

namespace Grouping

variable (order : SubmissionOrder Int)

theorem step_ungrouped (lookup : RenderPassLookup) (st : State Int) (s : Slice Int) :
    step order lookup st s.ungrouped = step order lookup st s := rfl

/-- The group that a slice was in before does not show, if the pass reaches it. -/
theorem passBy_ungrouped (lookups : List RenderPassLookup) (st : State Int)
    (slices : List (Slice Int)) (h : lookups.length = slices.length) :
    passBy order st lookups (slices.map Slice.ungrouped) = passBy order st lookups slices := by
  induction slices generalizing st lookups with
  | nil => rfl
  | cons s rest ih =>
    cases lookups with
    | nil => contradiction
    | cons lookup lookups =>
      have hrest := ih lookups (step order lookup st s).2 (by simpa using h)
      simp only [List.map_cons, passBy, step_ungrouped, hrest]

theorem current_step_ne {lookup : RenderPassLookup} {st : State Int} (h : Sound st) (s : Slice Int)
    (hcurrent : st.current ≠ noGroup) : (step order lookup st s).2.current ≠ noGroup := by
  cases hb : s.boundary? order lookup with
  | none =>
    simp only [step, hb]
    exact hcurrent
  | some range =>
    obtain ⟨i, -, hid, -⟩ := h.dense.ensure_spec (s.key order) s.groupName range
    simp only [step, hb, hid]
    exact Groups.ofInteger_ne_noGroup i

theorem exists_split_passBy (lookups : List RenderPassLookup) {st : State Int} (h : Sound st)
    (slices : List (Slice Int)) (hlen : lookups.length = slices.length) :
    ∃ before after, (passBy order st lookups slices).1 = before ++ after ∧
      (∀ s ∈ before, s.groupId = noGroup) ∧ (∀ s ∈ after, s.groupId ≠ noGroup) ∧
      (st.current ≠ noGroup → before = []) := by
  induction slices generalizing st lookups with
  | nil =>
    obtain rfl := List.eq_nil_of_length_eq_zero hlen
    exact ⟨[], [], rfl, by simp, by simp, fun _ => rfl⟩
  | cons s rest ih =>
    cases lookups with
    | nil => contradiction
    | cons lookup lookups =>
      obtain ⟨hnext, -, hid⟩ := sound_step order lookup h s
      obtain ⟨before, after, heq, hbefore, hafter, hnone⟩ :=
        ih lookups hnext (by simpa using hlen)
      by_cases hcurrent : (step order lookup st s).2.current = noGroup
      · refine ⟨(step order lookup st s).1 :: before, after, ?_, ?_, hafter, fun hst => ?_⟩
        · simp only [passBy, heq, List.cons_append]
        · exact List.forall_mem_cons.mpr ⟨hid.trans hcurrent, hbefore⟩
        · exact absurd hcurrent (current_step_ne order h s hst)
      · refine ⟨[], (step order lookup st s).1 :: after, ?_, by simp, ?_, fun _ => rfl⟩
        · simp only [passBy, heq, hnone hcurrent, List.nil_append]
        · exact List.forall_mem_cons.mpr ⟨hid ▸ hcurrent, hafter⟩

theorem mem_passBy (lookups : List RenderPassLookup) {st : State Int} (slices : List (Slice Int))
    {g : Group Int} (hg : g ∈ (passBy order st lookups slices).2.groups.list) :
    g ∈ st.groups.list ∨ ∃ s ∈ (passBy order st lookups slices).1, s.groupId = g.id := by
  induction lookups generalizing st slices with
  | nil => exact Or.inl hg
  | cons lookup lookups ih =>
    cases slices with
    | nil => exact Or.inl hg
    | cons s rest =>
      have hstep : g ∈ (step order lookup st s).2.groups.list →
          g ∈ st.groups.list ∨ (step order lookup st s).1.groupId = g.id := by
        intro hg
        cases hb : s.boundary? order lookup with
        | none =>
          simp only [step, hb] at hg
          exact Or.inl hg
        | some range =>
          simp only [step, hb] at hg ⊢
          exact (Groups.mem_ensure hg).imp_right Eq.symm
      rcases ih rest hg with hg | ⟨x, hx, hid⟩
      · exact (hstep hg).imp_right fun hid => ⟨_, List.mem_cons_self, hid⟩
      · exact Or.inr ⟨x, List.mem_cons_of_mem _ hx, hid⟩

end Grouping

/-! ## Sums over the groups -/

namespace SliceTable

variable {M : Type} [AddCommMonoid M]

theorem sum_range_ite (n i : Nat) (a : M) :
    ((List.range n).map fun j => if i = j then a else 0).sum = if i < n then a else 0 := by
  induction n with
  | zero => rfl
  | succ n ih =>
    rw [List.range_succ, List.map_append, List.sum_append, ih]
    rcases Nat.lt_trichotomy i n with hlt | rfl | hgt
    · simp [hlt, Nat.lt_succ_of_lt hlt, Nat.ne_of_lt hlt]
    · simp
    · simp [Nat.not_lt_of_lt hgt, Nat.ne_of_gt hgt, show ¬ i < n + 1 by omega]

/-- A sum over each group's slices, added up over the groups, is the sum over the slices that are in
a group. -/
theorem sum_groups {t : SliceTable Int} (h : t.Sound) (f : Slice Int → M) :
    (t.groups.list.map fun g => ((t.slices.filter (·.groupId == g.id)).map f).sum).sum =
      ((t.slices.filter (·.groupId ≠ noGroup)).map f).sum := by
  obtain ⟨slices, tracks, groups⟩ := t
  obtain ⟨hdense, hholds⟩ := h
  dsimp only at hdense hholds ⊢
  have hids : (groups.list.map fun g => ((slices.filter (·.groupId == g.id)).map f).sum) =
      (List.range groups.list.length).map fun i : Nat =>
        ((slices.filter (·.groupId == (i : Int))).map f).sum := by
    have hmap := congrArg
      (List.map fun id : Int => ((slices.filter (·.groupId == id)).map f).sum) hdense.map_id
    rw [List.map_map, List.map_map] at hmap
    exact hmap
  rw [hids]
  clear hids
  induction slices with
  | nil => simp
  | cons s slices ih =>
    obtain ⟨hs, hslices⟩ := List.forall_mem_cons.mp hholds
    have hcons : ∀ i : Nat, (((s :: slices).filter (·.groupId == (i : Int))).map f).sum =
        (if s.groupId = i then f s else 0) +
          ((slices.filter (·.groupId == (i : Int))).map f).sum := by
      intro i
      by_cases hi : s.groupId = i
      · simp [hi]
      · simp [hi]
    simp only [hcons, List.sum_map_add, ih hslices]
    rcases hs with hs | ⟨i, hi, hs⟩
    · have hne : ∀ j : Nat, (noGroup : Int) ≠ j := fun j => (Groups.ofInteger_ne_noGroup j).symm
      simp [hs, hne]
    · have hne : s.groupId ≠ noGroup := hs ▸ Groups.ofInteger_ne_noGroup i
      have hid : ∀ j : Nat, s.groupId = j ↔ i = j := fun j => hs ▸ Int.ofNat_inj
      simp only [hid]
      rw [List.filter_cons_of_pos (by simpa using hne), List.map_cons, List.sum_cons,
        sum_range_ite, if_pos hi]

/-- The slices without a group come first, and no group is without a slice. -/
structure Parts (t : SliceTable Int) (ungrouped grouped : List (Slice Int)) : Prop where
  sound : t.Sound
  slices : t.slices = ungrouped ++ grouped
  outside : ∀ s ∈ ungrouped, s.groupId = noGroup
  inside : ∀ s ∈ grouped, s.groupId ≠ noGroup
  used : ∀ g ∈ t.groups.list, ∃ s ∈ grouped, s.groupId = g.id

theorem exists_parts (order : SubmissionOrder Int) (lookups : List RenderPassLookup)
    (slices : List (Slice Int)) (tracks : List (Track Int))
    (hlen : lookups.length = slices.length) :
    ∃ ungrouped grouped,
      Parts (groupBy order lookups ⟨slices, tracks, .empty⟩) ungrouped grouped := by
  have hsound : (groupBy order lookups ⟨slices, tracks, .empty⟩).Sound := by
    have hfresh := ((sound_fresh slices tracks).groupBy order lookups).1
    simp only [groupBy, fresh, Grouping.passBy_ungrouped order _ _ _ hlen] at hfresh
    exact hfresh
  have hstart : Grouping.Sound (⟨.empty, noGroup⟩ : Grouping.State Int) :=
    ⟨Groups.Dense.empty, Or.inl rfl⟩
  obtain ⟨ungrouped, grouped, hsplit, hungrouped, hgrouped, -⟩ :=
    Grouping.exists_split_passBy order lookups hstart slices hlen
  refine ⟨ungrouped, grouped, hsound, hsplit, hungrouped, hgrouped, fun g hg => ?_⟩
  obtain ⟨s, hs, hid⟩ := (Grouping.mem_passBy order lookups slices hg).resolve_left List.not_mem_nil
  obtain ⟨i, hi⟩ := List.mem_iff_getElem?.mp hg
  have hne : s.groupId ≠ noGroup := by
    rw [hid, hsound.dense.id i g hi]
    exact Groups.ofInteger_ne_noGroup i
  rw [hsplit] at hs
  rcases List.mem_append.mp hs with hs | hs
  · exact absurd (hungrouped s hs) hne
  · exact ⟨s, hs, hid⟩

namespace Parts

variable {t : SliceTable Int} {ungrouped grouped : List (Slice Int)} (h : Parts t ungrouped grouped)
include h

theorem filter_ne_noGroup : t.slices.filter (·.groupId ≠ noGroup) = grouped := by
  have hfront : ungrouped.filter (·.groupId ≠ noGroup) = [] :=
    List.filter_eq_nil_iff.mpr fun s hs => by simp [h.outside s hs]
  have hback : grouped.filter (·.groupId ≠ noGroup) = grouped :=
    List.filter_eq_self.mpr fun s hs => by simpa using h.inside s hs
  rw [h.slices, List.filter_append, hfront, hback, List.nil_append]

theorem sum_groups (f : Slice Int → M) :
    (t.groups.list.map fun g => ((t.slices.filter (·.groupId == g.id)).map f).sum).sum =
      (grouped.map f).sum := by
  rw [SliceTable.sum_groups h.sound, h.filter_ne_noGroup]

theorem mem_slices_of_mem_groups {g : Group Int} (hg : g ∈ t.groups.list) :
    ∃ s ∈ t.slices, s.groupId = g.id := by
  obtain ⟨s, hs, hid⟩ := h.used g hg
  exact ⟨s, h.slices ▸ List.mem_append_right _ hs, hid⟩

end Parts
end SliceTable
end RenderTrace
