import RenderTrace.Profile.Slice
import RenderTrace.Proofs.Number.Equality

/-!
# Groups and their keys

The list of groups and the table of their keys are kept in step by `Groups.ensure`, the only
operation that touches either. `Groups.Dense` is what it keeps: the group at place `i` has the id
`i`, the keys stand for the ids in order, and no two of them are equal. `Groups.Extends` is how it
changes them: by adding at the end, so whatever a key stands for once it stands for ever.
-/

namespace RenderTrace.Groups
open RenderPass

variable {τ : Type}

/-- The group at place `i` has the id `i`; the keys stand for these ids in order and differ. -/
structure Dense [OfInteger τ] (g : Groups τ) : Prop where
  id : ∀ (i : Nat) (x : Group τ), g.list[i]? = some x → x.id = ofInteger i
  ids : g.ids.map (·.2) = (List.range g.list.length).map fun i : Nat => ofInteger i
  keys : (g.ids.map (·.1)).Pairwise fun a b => (a == b) = false

/-- Some groups with further groups and keys at the end. -/
structure Extends (g g' : Groups τ) : Prop where
  list : g.list <+: g'.list
  ids : g.ids <+: g'.ids

namespace Extends

variable {g g' g'' : Groups τ}

theorem refl (g : Groups τ) : Extends g g := ⟨List.prefix_refl _, List.prefix_refl _⟩

theorem trans (h : Extends g g') (h' : Extends g' g'') : Extends g g'' :=
  ⟨h.list.trans h'.list, h.ids.trans h'.ids⟩

theorem getElem? (h : Extends g g') {i : Nat} {x : Group τ} (hx : g.list[i]? = some x) :
    g'.list[i]? = some x := by
  obtain ⟨more, hmore⟩ := h.list
  rw [← hmore, List.getElem?_append_left (List.getElem?_eq_some_iff.mp hx).1]
  exact hx

theorem idOf? (h : Extends g g') {key : Key} {id : τ} (hid : g.idOf? key = some id) :
    g'.idOf? key = some id := by
  obtain ⟨more, hmore⟩ := h.ids
  rw [Groups.idOf?, Option.map_eq_some_iff] at hid ⊢
  obtain ⟨entry, hfind, hentry⟩ := hid
  refine ⟨entry, ?_, hentry⟩
  rw [← hmore, List.find?_append, hfind, Option.some_or]

end Extends

/-! ## Looking up a key -/

theorem idOf?_congr (g : Groups τ) {key key' : Key} (h : (key' == key) = true) :
    g.idOf? key' = g.idOf? key := by
  have hpred : (fun entry : Key × τ => entry.1 == key') = fun entry => entry.1 == key :=
    funext fun _ => BEq.congr_right h
  exact congrArg (fun p => (g.ids.find? p).map (·.2)) hpred

theorem beq_eq_false_of_idOf?_eq_none {g : Groups τ} {key : Key} (h : g.idOf? key = none) :
    ∀ k ∈ g.ids.map (·.1), (k == key) = false := by
  intro k hk
  obtain ⟨entry, hentry, rfl⟩ := List.mem_map.mp hk
  rw [idOf?, Option.map_eq_none_iff, List.find?_eq_none] at h
  exact Bool.eq_false_iff.mpr (h entry hentry)

/-! ## The group of a key -/

section ensure
variable [OfInteger τ]

theorem ensure_of_known {g : Groups τ} {key : Key} {id : τ} (h : g.idOf? key = some id)
    (name : String) (range : Range) : g.ensure key name range = (id, g) := by
  rw [ensure, h]

theorem ensure_of_new {g : Groups τ} {key : Key} (h : g.idOf? key = none) (name : String)
    (range : Range) : g.ensure key name range =
      (ofInteger g.list.length, ⟨g.list ++ [⟨ofInteger g.list.length, name, range⟩],
        g.ids ++ [(key, ofInteger g.list.length)]⟩) := by
  rw [ensure, h]

theorem extends_ensure (g : Groups τ) (key : Key) (name : String) (range : Range) :
    Extends g (g.ensure key name range).2 := by
  cases h : g.idOf? key with
  | some id =>
    rw [ensure_of_known h]
    exact .refl g
  | none =>
    rw [ensure_of_new h]
    exact ⟨List.prefix_append _ _, List.prefix_append _ _⟩

theorem idOf?_ensure (g : Groups τ) {key key' : Key} (heq : (key' == key) = true) (name : String)
    (range : Range) :
    (g.ensure key name range).2.idOf? key' = some (g.ensure key name range).1 := by
  cases h : g.idOf? key with
  | some id =>
    rw [ensure_of_known h, idOf?_congr g heq, h]
  | none =>
    rw [ensure_of_new h]
    have hfind : g.ids.find? (fun entry => entry.1 == key') = none := by
      rw [← idOf?_congr g heq, idOf?, Option.map_eq_none_iff] at h
      exact h
    simp [idOf?, List.find?_append, hfind, BEq.symm heq]

theorem Dense.empty : Dense (Groups.empty : Groups τ) :=
  ⟨fun _ _ h => by simp [Groups.empty] at h, rfl, List.Pairwise.nil⟩

theorem Dense.ensure {g : Groups τ} (h : g.Dense) (key : Key) (name : String) (range : Range) :
    (g.ensure key name range).2.Dense := by
  cases hid : g.idOf? key with
  | some id =>
    rw [ensure_of_known hid]
    exact h
  | none =>
    rw [ensure_of_new hid]
    refine ⟨fun i x hx => ?_, ?_, ?_⟩
    · rcases Nat.lt_trichotomy i g.list.length with hlt | rfl | hgt
      · exact h.id i x (by rwa [List.getElem?_append_left hlt] at hx)
      · simp only [List.getElem?_concat_length, Option.some.injEq] at hx
        rw [← hx]
      · rw [List.getElem?_eq_none (by simp; omega)] at hx
        contradiction
    · simp [h.ids, List.range_succ]
    · rw [List.map_append, List.pairwise_append]
      refine ⟨h.keys, List.pairwise_singleton _ _, fun k hk k' hk' => ?_⟩
      obtain rfl : k' = key := by simpa using hk'
      exact beq_eq_false_of_idOf?_eq_none hid k hk

theorem Dense.idOf?_lt {g : Groups τ} (h : g.Dense) {key : Key} {id : τ}
    (hid : g.idOf? key = some id) : ∃ i < g.list.length, id = ofInteger i := by
  rw [idOf?, Option.map_eq_some_iff] at hid
  obtain ⟨entry, hfind, rfl⟩ := hid
  have hmem : entry.2 ∈ g.ids.map (·.2) := List.mem_map_of_mem (List.mem_of_find?_eq_some hfind)
  rw [h.ids, List.mem_map] at hmem
  obtain ⟨i, hi, heq⟩ := hmem
  exact ⟨i, List.mem_range.mp hi, heq.symm⟩

/-! ## Ids of groups -/

/-- An id that marks a slice without a group or is that of a group. -/
def Holds (g : Groups τ) (id : τ) : Prop := id = noGroup ∨ ∃ i < g.list.length, id = ofInteger i

theorem Holds.mono {g g' : Groups τ} {id : τ} (h : g.Holds id) (hext : g.Extends g') :
    g'.Holds id := by
  rcases h with h | ⟨i, hi, h⟩
  · exact Or.inl h
  · exact Or.inr ⟨i, Nat.lt_of_lt_of_le hi hext.list.length_le, h⟩

theorem Dense.ensure_spec {g : Groups τ} (h : g.Dense) (key : Key) (name : String)
    (range : Range) : ∃ (i : Nat) (x : Group τ), (g.ensure key name range).1 = ofInteger i ∧
      (g.ensure key name range).2.list[i]? = some x ∧
      (g.idOf? key = none → x.name = name ∧ x.range = range) := by
  cases hid : g.idOf? key with
  | some id =>
    obtain ⟨i, hi, rfl⟩ := h.idOf?_lt hid
    rw [ensure_of_known hid]
    exact ⟨i, g.list[i], rfl, List.getElem?_eq_getElem hi, fun hnone => nomatch hnone⟩
  | none =>
    rw [ensure_of_new hid]
    exact ⟨g.list.length, _, rfl, List.getElem?_concat_length, fun _ => ⟨rfl, rfl⟩⟩

theorem Dense.holds_ensure {g : Groups τ} (h : g.Dense) (key : Key) (name : String)
    (range : Range) : (g.ensure key name range).2.Holds (g.ensure key name range).1 := by
  obtain ⟨i, x, hid, hx, -⟩ := h.ensure_spec key name range
  exact Or.inr ⟨i, (List.getElem?_eq_some_iff.mp hx).1, hid⟩

end ensure

end RenderTrace.Groups
