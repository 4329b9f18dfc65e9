import RenderTrace.Input.Load
import RenderTrace.Proofs.Profile.Grouping
import RenderTrace.Proofs.Query.Outcome

/-!
# Empty ranges

A table of render passes refuses ranges that end before they start (`Built.lookup`), but not those
that end where they start. A slice of a stage opens a group and is renamed for whatever range its
key has, so that only ranges with commands are covered just if no such slice has an empty one
(`coversCommands_iff`), for all slices just if the table has none (`coversCommands_group_iff`).
-/

namespace RenderTrace
open RenderPass

namespace RenderPassTable

/-- The tables that adding entries leads to. -/
inductive Built : RenderPassTable → Prop
  | empty : Built .empty
  | add {t t' : RenderPassTable} {key : Key} {range : Range} (h : Built t)
      (hadd : t.add key range = .ok t') : Built t'

theorem mem_put {key : Key} {range : Range} {entries : List (Key × Range)} {e : Key × Range}
    (h : e ∈ put key range entries) : e.2 = range ∨ e ∈ entries := by
  induction entries with
  | nil => exact .inl (congrArg Prod.snd (List.mem_singleton.mp h))
  | cons e' entries ih =>
    obtain ⟨k, r⟩ := e'
    rw [put] at h
    split at h
    · rcases List.mem_cons.mp h with rfl | h
      · exact .inl rfl
      · exact .inr (List.mem_cons_of_mem _ h)
    · rcases List.mem_cons.mp h with rfl | h
      · exact .inr List.mem_cons_self
      · exact (ih h).imp_right (List.mem_cons_of_mem _)

theorem add_eq_ok {t t' : RenderPassTable} {key : Key} {range : Range}
    (h : t.add key range = .ok t') :
    ¬ range.stop < range.start ∧ t' = ⟨put key range t.entries⟩ := by
  unfold add at h
  split at h
  · exact nomatch h
  · next hrange => exact ⟨hrange, (Except.ok.inj h).symm⟩

theorem addAll_cons_eq_ok {t t' : RenderPassTable} {e : Key × Range} {entries : List (Key × Range)} :
    t.addAll (e :: entries) = .ok t' ↔
      ∃ next, t.add e.1 e.2 = .ok next ∧ next.addAll entries = .ok t' := by
  rw [addAll, List.foldlM_cons]
  exact bind_eq_ok

theorem exists_addAll_iff {t : RenderPassTable} {entries : List (Key × Range)} :
    (∃ t', t.addAll entries = .ok t') ↔ ∀ e ∈ entries, ¬ e.2.stop < e.2.start := by
  induction entries generalizing t with
  | nil => exact iff_of_true ⟨t, rfl⟩ fun e he => nomatch he
  | cons e entries ih =>
    simp only [addAll_cons_eq_ok, List.forall_mem_cons]
    constructor
    · rintro ⟨t', next, hnext, hrest⟩
      exact ⟨(add_eq_ok hnext).1, ih.mp ⟨t', hrest⟩⟩
    · rintro ⟨hrange, hranges⟩
      obtain ⟨t', hrest⟩ := ih.mpr hranges
      exact ⟨t', _, if_neg hrange, hrest⟩

theorem exists_mem_of_lookup {t : RenderPassTable} {key : Key} {range : Range}
    (h : t.lookup key = some range) : ∃ e ∈ t.entries, e.2 = range := by
  obtain ⟨e, he, hrange⟩ := Option.map_eq_some_iff.mp h
  exact ⟨e, List.mem_of_find?_eq_some he, hrange⟩

namespace Built

variable {t : RenderPassTable}

theorem not_inverted (h : t.Built) : ∀ e ∈ t.entries, ¬ e.2.stop < e.2.start := by
  induction h with
  | empty => exact fun e he => absurd he List.not_mem_nil
  | add h hadd ih =>
    obtain ⟨hrange, rfl⟩ := add_eq_ok hadd
    intro e he
    rcases mem_put he with rfl | he
    · exact hrange
    · exact ih e he

theorem lookup (h : t.Built) {key : Key} {range : Range} (hrange : t.lookup key = some range) :
    ¬ range.stop < range.start := by
  obtain ⟨e, he, rfl⟩ := exists_mem_of_lookup hrange
  exact h.not_inverted e he

theorem addAll (h : t.Built) {entries : List (Key × Range)} {t' : RenderPassTable}
    (hadd : t.addAll entries = .ok t') : t'.Built := by
  induction entries generalizing t with
  | nil => exact Except.ok.inj hadd ▸ h
  | cons e entries ih =>
    obtain ⟨next, hnext, hrest⟩ := addAll_cons_eq_ok.mp hadd
    exact ih (h.add hnext) hrest

end Built

theorem exists_of_renderPasses [Zstd.Codec] {files : FileTree} {path : Path} {t : RenderPassTable}
    (h : Input.renderPasses files path = .ok t) :
    ∃ v, Input.document files path .renderPasses = .ok v ∧ Input.renderPassesOf v = .ok t := by
  obtain ⟨v, hdocument, htable⟩ := bind_eq_ok.mp h
  refine ⟨v, hdocument, ?_⟩
  cases hlisted : Input.renderPassesOf v with
  | error e =>
    rw [hlisted] at htable
    exact nomatch htable
  | ok listed =>
    rw [hlisted] at htable
    exact congrArg Except.ok (Except.ok.inj htable)

theorem Built.of_renderPasses [Zstd.Codec] {files : FileTree} {path : Path} {t : RenderPassTable}
    (h : Input.renderPasses files path = .ok t) : t.Built := by
  obtain ⟨v, -, hlisted⟩ := exists_of_renderPasses h
  exact Built.empty.addAll hlisted

end RenderPassTable

/-! ## Groups and names -/

section Pass

variable (order : SubmissionOrder Int) (lookup : RenderPassLookup) (slices : List (Slice Int))
  (tracks : List (Track Int))

/-- Groups are opened and slices renamed only for ranges that have commands. -/
structure CoversCommands : Prop where
  group : ∀ g ∈ (SliceTable.group order lookup ⟨slices, tracks, .empty⟩).groups.list,
    g.range.start < g.range.stop
  renamed : ∀ (i : Nat) (s s' : Slice Int), slices[i]? = some s →
    (SliceTable.group order lookup ⟨slices, tracks, .empty⟩).slices[i]? = some s' →
      s'.name ≠ s.name → ∃ range, lookup (s.key order) = some range ∧
        range.start < range.stop ∧ s'.name = range.text ++ " " ++ s.name

variable {order lookup slices tracks}

theorem exists_boundary_of_mem_groups {g : Group Int}
    (hg : g ∈ (SliceTable.group order lookup ⟨slices, tracks, .empty⟩).groups.list) :
    ∃ s ∈ slices, s.boundary? order lookup = some g.range := by
  simp only [SliceTable.group, Grouping.pass_eq, Grouping.stateAfter, Boundary.groups] at hg
  obtain ⟨i, hi, rfl⟩ := List.mem_mapIdx.mp hg
  have hmem := (Boundary.openings_sublist _).subset (List.getElem_mem hi)
  obtain ⟨s, hs, hof⟩ := List.mem_filterMap.mp hmem
  rw [Boundary.of?_eq] at hof
  obtain ⟨range, hrange, hboundary⟩ := Option.map_eq_some_iff.mp hof
  rw [← hboundary]
  exact ⟨s, hs, hrange⟩

theorem lookup_of_boundary {s : Slice Int} {range : Range}
    (h : s.boundary? order lookup = some range) : lookup (s.key order) = some range := by
  unfold Slice.boundary? at h
  split at h
  · exact h
  · exact nomatch h

theorem name_of_group {i : Nat} {s s' : Slice Int} (hs : slices[i]? = some s)
    (hs' : (SliceTable.group order lookup ⟨slices, tracks, .empty⟩).slices[i]? = some s') :
    s'.name = match s.boundary? order lookup with
      | some range => range.text ++ " " ++ s.name
      | none => s.name := by
  simp only [SliceTable.group, Grouping.pass_eq, List.getElem?_mapIdx, hs, Option.map_some] at hs'
  rw [← Option.some.inj hs', Slice.byBoundaries, Boundary.of?_eq]
  cases s.boundary? order lookup <;> rfl

theorem prefixed_ne (before name : String) : before ++ " " ++ name ≠ name := by
  intro h
  have hlength := congrArg String.length h
  rw [String.length_append, String.length_append] at hlength
  have hblank : " ".length = 1 := rfl
  omega

theorem coversCommands_iff : CoversCommands order lookup slices tracks ↔
    ∀ s ∈ slices, ∀ range, s.boundary? order lookup = some range → range.start < range.stop := by
  constructor
  · intro h s hs range hrange
    obtain ⟨i, hi⟩ := List.mem_iff_getElem?.mp hs
    obtain ⟨s', hs'⟩ : ∃ s',
        (SliceTable.group order lookup ⟨slices, tracks, .empty⟩).slices[i]? = some s' := by
      simp only [SliceTable.group, Grouping.pass_eq, List.getElem?_mapIdx, hi, Option.map_some]
      exact ⟨_, rfl⟩
    have hname := name_of_group hi hs'
    rw [hrange] at hname
    obtain ⟨range', hrange', hcommands, -⟩ :=
      h.renamed i s s' hi hs' fun heq => prefixed_ne range.text s.name (hname.symm.trans heq)
    rw [lookup_of_boundary hrange] at hrange'
    exact Option.some.inj hrange' ▸ hcommands
  · intro h
    refine ⟨fun g hg => ?_, fun i s s' hs hs' hname => ?_⟩
    · obtain ⟨s, hs, hrange⟩ := exists_boundary_of_mem_groups hg
      exact h s hs _ hrange
    · have hs'name := name_of_group hs hs'
      cases hrange : s.boundary? order lookup with
      | none =>
        rw [hrange] at hs'name
        exact absurd hs'name hname
      | some range =>
        rw [hrange] at hs'name
        have hcommands := h s (List.mem_of_getElem? hs) range hrange
        exact ⟨range, lookup_of_boundary hrange, hcommands, hs'name⟩

end Pass

def stageSlice (key : Key) : Slice Int :=
  ⟨0, 0, 0, "vertex", 0, 0, key.commandBuffer, key.renderTarget, key.renderPass, 0, 0, noGroup⟩

/-- The order of submissions that gives the submission of a slice its place in a key. -/
def stageOrder (key : Key) : SubmissionOrder Int := ⟨key.order.toList.map fun place => (0, place)⟩

theorem boundary_stageSlice (key : Key) (lookup : RenderPassLookup) :
    (stageSlice key).boundary? (stageOrder key) lookup = lookup key := by
  obtain ⟨order, commandBuffer, renderPass, renderTarget⟩ := key
  have hname : stageNames.contains "vertex" = true := by decide
  unfold Slice.boundary?
  rw [stageSlice, if_pos hname]
  cases order <;> rfl

/-- A table of render passes has no range that ends before it starts, but it may have empty ones. A
pass covers only ranges with commands just if no slice of a stage has a key with an empty range, and
whatever the slices are just if the table has no empty range. -/
theorem coversCommands_group_iff {t : RenderPassTable}
    (ht : t.Built ∨
      ∃ (_ : Zstd.Codec) (files : FileTree) (path : Path), Input.renderPasses files path = .ok t) :
    (∀ key range, t.lookup key = some range → ¬ range.stop < range.start) ∧
      (∀ order slices tracks, CoversCommands order t.lookup slices tracks ↔
        ∀ s ∈ slices, ∀ range, s.boundary? order t.lookup = some range →
          range.start < range.stop) ∧
      ((∀ order slices tracks, CoversCommands order t.lookup slices tracks) ↔
        ∀ key range, t.lookup key = some range → range.start < range.stop) := by
  have hbuilt : t.Built := by
    rcases ht with ht | ⟨_, files, path, hload⟩
    · exact ht
    · exact .of_renderPasses hload
  refine ⟨fun key range => hbuilt.lookup, fun order slices tracks => coversCommands_iff,
    fun h key range hrange => ?_, fun h order slices tracks => ?_⟩
  · have hstage := coversCommands_iff.mp (h (stageOrder key) [stageSlice key] [])
    refine hstage _ List.mem_cons_self range ?_
    rw [boundary_stageSlice, hrange]
  · exact coversCommands_iff.mpr fun s _ range hrange => h _ range (lookup_of_boundary hrange)

def sampleKey : Key := ⟨some 0, 5, 7, 9⟩

theorem add_sampleKey {range : Range} (h : ¬ range.stop < range.start) :
    RenderPassTable.empty.add sampleKey range = .ok ⟨[(sampleKey, range)]⟩ := if_neg h

theorem coversCommands_group_iff_sample :
    let t : RenderPassTable := ⟨[(sampleKey, ⟨3, 4⟩)]⟩
    t.Built ∧ CoversCommands (stageOrder sampleKey) t.lookup [stageSlice sampleKey] [] := by
  intro t
  have ht : t.Built := .add .empty (add_sampleKey (by decide +kernel))
  refine ⟨ht, ((coversCommands_group_iff (.inl ht)).2.1 _ _ _).mpr fun s hs range hrange => ?_⟩
  obtain rfl := List.mem_singleton.mp hs
  rw [boundary_stageSlice] at hrange
  have hlookup : t.lookup sampleKey = some ⟨3, 4⟩ := rfl
  obtain rfl := Option.some.inj (hlookup.symm.trans hrange)
  decide +kernel

/-- A table takes an empty range, and a slice of a stage opens a group for it and is renamed. -/
theorem not_coversCommands_of_empty :
    let t : RenderPassTable := ⟨[(sampleKey, ⟨3, 3⟩)]⟩
    let grouped := SliceTable.group (stageOrder sampleKey) t.lookup
      ⟨[stageSlice sampleKey], [], .empty⟩
    t.Built ∧ grouped.groups.list.length = 1 ∧ grouped.slices.map Slice.name = ["3-3 vertex"] ∧
      ¬ CoversCommands (stageOrder sampleKey) t.lookup [stageSlice sampleKey] [] := by
  intro t grouped
  have hone : grouped.groups.list.length = 1 := by decide +kernel
  have hempty : ∀ g ∈ grouped.groups.list, ¬ g.range.start < g.range.stop := by decide +kernel
  refine ⟨.add .empty (add_sampleKey (by decide +kernel)), hone, by decide +kernel, fun h => ?_⟩
  obtain ⟨g, hg⟩ := List.exists_mem_of_length_pos (hone ▸ Nat.one_pos)
  exact hempty g hg (h.group g hg)

end RenderTrace
