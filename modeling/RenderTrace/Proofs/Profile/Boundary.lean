import Mathlib.Data.List.TakeWhile
import RenderTrace.Profile.Grouping
import RenderTrace.Proofs.Profile.Groups

/-!
# Boundaries

What a grouping pass does, said without a pass. A `Boundary` is a slice that is found by its key.
The first boundary of each key opens a group (`openings`), so the groups are the different keys in
the order they come up; a boundary is in the group that the first boundary of its key opened, whose
number is that of the keys before (`place`); every slice is in the group of the last boundary up to
it (`current`). `SliceTable.byBoundaries` is the table put together from this.
-/

namespace RenderTrace
open RenderPass

/-- A slice that is found by its key: the key, the display name of a group it opens, the range. -/
structure Boundary where
  key : Key
  name : String
  range : Range

namespace Boundary

variable {τ : Type}

section of
variable [BEq τ] (order : SubmissionOrder τ) (lookup : RenderPassLookup)

/-- The boundary that a slice is: its name is that of a stage and its key has a range. -/
def of? (s : Slice τ) : Option Boundary :=
  let key : Key :=
    { order := order.get? s.submissionId
      commandBuffer := s.commandBuffer
      renderPass := s.renderPass
      renderTarget := s.renderTarget }
  let name := "RenderPass " ++ s.renderPass.text ++ ", RenderTarget " ++ s.renderTarget.text
  if s.name = "vertex" ∨ s.name = "fragment" then (lookup key).map fun range => ⟨key, name, range⟩
  else none

/-- The boundaries among some slices, in order. -/
def all (slices : List (Slice τ)) : List Boundary := slices.filterMap (of? order lookup)

theorem of?_eq (s : Slice τ) : of? order lookup s =
    (s.boundary? order lookup).map fun range => ⟨s.key order, s.groupName, range⟩ := by
  have hname : stageNames.contains s.name = true ↔ s.name = "vertex" ∨ s.name = "fragment" := by
    simp [stageNames]
  by_cases h : s.name = "vertex" ∨ s.name = "fragment"
  · rw [of?, Slice.boundary?, if_pos h, if_pos (hname.mpr h)]
    rfl
  · rw [of?, Slice.boundary?, if_neg h, if_neg (mt hname.mp h)]
    rfl

theorem all_append (slices more : List (Slice τ)) :
    all order lookup (slices ++ more) = all order lookup slices ++ all order lookup more :=
  List.filterMap_append

end of

/-! ## Groups -/

/-- The first boundary of every key. -/
def openings : List Boundary → List Boundary
  | [] => []
  | b :: bs => b :: (openings bs).filter fun c => !(b.key == c.key)

/-- The number of the group of a boundary, by the boundaries before: that of the groups opened
before the first boundary of its key. -/
def place (before : List Boundary) (b : Boundary) : Nat :=
  (openings (before.takeWhile fun c => !(c.key == b.key))).length

/-- The groups that some boundaries open, and their keys. -/
def groups [OfInteger τ] (bs : List Boundary) : Groups τ where
  list := (openings bs).mapIdx fun i b => ⟨ofInteger i, b.name, b.range⟩
  ids := (openings bs).mapIdx fun i b => (b.key, ofInteger i)

/-- The id of the group of the last of some boundaries. -/
def current [OfInteger τ] (bs : List Boundary) : τ :=
  match bs.getLast? with
  | none => noGroup
  | some b => ofInteger (place bs.dropLast b)

@[simp] theorem current_nil [OfInteger τ] : current [] = (noGroup : τ) := rfl

@[simp] theorem current_concat [OfInteger τ] (bs : List Boundary) (b : Boundary) :
    current (bs ++ [b]) = (ofInteger (place bs b) : τ) := by
  simp [current]

theorem openings_append (bs cs : List Boundary) : openings (bs ++ cs) =
    openings bs ++ (openings cs).filter fun c => !bs.any fun b => b.key == c.key := by
  induction bs with
  | nil => exact (List.filter_eq_self.mpr fun _ _ => rfl).symm
  | cons b bs ih =>
    rw [List.cons_append, openings, openings, ih, List.filter_append, List.filter_filter,
      List.cons_append]
    simp only [List.any_cons, Bool.not_or]

theorem openings_sublist (bs : List Boundary) : (openings bs).Sublist bs := by
  induction bs with
  | nil => exact List.Sublist.slnil
  | cons b bs ih => exact (List.filter_sublist.trans ih).cons_cons b

theorem openings_pairwise (bs : List Boundary) :
    (openings bs).Pairwise fun a b => (a.key == b.key) = false := by
  induction bs with
  | nil => exact List.Pairwise.nil
  | cons b bs ih =>
    refine List.pairwise_cons.mpr ⟨fun c hc => ?_, ih.filter _⟩
    simpa using (List.mem_filter.mp hc).2

theorem mem_openings {bs : List Boundary} {b : Boundary} (h : b ∈ bs) :
    b ∈ openings bs ∨ ∃ a ∈ openings bs, (a.key == b.key) = true := by
  induction bs with
  | nil => contradiction
  | cons c bs ih =>
    rcases List.mem_cons.mp h with rfl | h
    · exact Or.inl List.mem_cons_self
    by_cases hkey : (c.key == b.key) = true
    · exact Or.inr ⟨c, List.mem_cons_self, hkey⟩
    have kept : ∀ a ∈ openings bs, (c.key == a.key) = false → a ∈ openings (c :: bs) :=
      fun a ha hne => List.mem_cons_of_mem _ (List.mem_filter.mpr ⟨ha, by simp [hne]⟩)
    rcases ih h with hmem | ⟨a, ha, heq⟩
    · exact Or.inl (kept b hmem (Bool.eq_false_iff.mpr hkey))
    · refine Or.inr ⟨a, kept a ha (Bool.eq_false_iff.mpr fun hca => hkey ?_), heq⟩
      exact BEq.trans hca heq

/-! ## The next boundary -/

theorem openings_concat_of_new {bs : List Boundary} {b : Boundary}
    (h : ∀ c ∈ bs, (c.key == b.key) = false) : openings (bs ++ [b]) = openings bs ++ [b] := by
  have hany : (bs.any fun c => c.key == b.key) = false := by simpa using h
  simp [openings_append, openings, hany]

theorem openings_concat_of_known {bs : List Boundary} {b c : Boundary} (hc : c ∈ bs)
    (h : (c.key == b.key) = true) : openings (bs ++ [b]) = openings bs := by
  have hany : (bs.any fun c => c.key == b.key) = true := List.any_eq_true.mpr ⟨c, hc, h⟩
  simp [openings_append, openings, hany]

theorem place_of_new {bs : List Boundary} {b : Boundary} (h : ∀ c ∈ bs, (c.key == b.key) = false) :
    place bs b = (openings bs).length := by
  rw [place, List.takeWhile_eq_self_iff.mpr fun c hc => by simp [h c hc]]

/-- The groups opened before the first boundary of a key come first, then that boundary's. -/
theorem openings_split {before : List Boundary} {key : Key} {first : Boundary}
    (hbefore : ∀ c ∈ before, (c.key == key) = false) (hfirst : (first.key == key) = true)
    (rest : List Boundary) :
    ∃ more, openings (before ++ first :: rest) = openings before ++ first :: more := by
  have hany : (before.any fun c => c.key == first.key) = false := by
    refine List.any_eq_false.mpr fun c hc hkey => ?_
    exact Bool.eq_false_iff.mp (hbefore c hc) (BEq.trans hkey hfirst)
  rw [openings_append, openings, List.filter_cons_of_pos (by simp [hany])]
  exact ⟨_, rfl⟩

theorem place_of_split {before rest : List Boundary} {b first : Boundary}
    (hbefore : ∀ c ∈ before, (c.key == b.key) = false) (hfirst : (first.key == b.key) = true) :
    place (before ++ first :: rest) b = (openings before).length := by
  rw [place, List.takeWhile_append_of_pos fun c hc => by simp [hbefore c hc],
    List.takeWhile_cons_of_neg (by simp [hfirst]), List.append_nil]

variable [OfInteger τ]

theorem idOf?_groups_of_new {bs : List Boundary} {key : Key}
    (h : ∀ c ∈ bs, (c.key == key) = false) : (groups bs : Groups τ).idOf? key = none := by
  rw [Groups.idOf?, Option.map_eq_none_iff, List.find?_eq_none]
  intro entry hentry
  obtain ⟨i, hi, rfl⟩ := List.mem_mapIdx.mp hentry
  exact Bool.eq_false_iff.mp (h _ ((openings_sublist bs).subset (List.getElem_mem hi)))

theorem idOf?_groups_of_split {before rest : List Boundary} {key : Key} {first : Boundary}
    (hbefore : ∀ c ∈ before, (c.key == key) = false) (hfirst : (first.key == key) = true) :
    (groups (before ++ first :: rest) : Groups τ).idOf? key =
      some (ofInteger (openings before).length) := by
  obtain ⟨more, hmore⟩ := openings_split hbefore hfirst rest
  have hnone := idOf?_groups_of_new (τ := τ) hbefore
  rw [Groups.idOf?, Option.map_eq_none_iff, groups] at hnone
  simp [Groups.idOf?, groups, hmore, List.mapIdx_append, List.find?_append, hnone, hfirst]

theorem ensure_groups (bs : List Boundary) (b : Boundary) :
    (groups bs : Groups τ).ensure b.key b.name b.range =
      (ofInteger (place bs b), groups (bs ++ [b])) := by
  cases hfind : bs.find? fun c => c.key == b.key with
  | none =>
    have hnew : ∀ c ∈ bs, (c.key == b.key) = false := by simpa using hfind
    rw [Groups.ensure_of_new (idOf?_groups_of_new hnew), place_of_new hnew]
    simp [groups, openings_concat_of_new hnew, List.mapIdx_append]
  | some first =>
    obtain ⟨hfirst, before, rest, rfl, hbefore⟩ := List.find?_eq_some_iff_append.mp hfind
    replace hbefore : ∀ c ∈ before, (c.key == b.key) = false := by simpa using hbefore
    rw [Groups.ensure_of_known (idOf?_groups_of_split hbefore hfirst),
      place_of_split hbefore hfirst, groups, groups,
      openings_concat_of_known (List.mem_append_right before List.mem_cons_self) hfirst]

end Boundary
end RenderTrace
