import Mathlib.Data.List.Forall2
import RenderTrace.Profile.Grouping
import RenderTrace.Proofs.Profile.Groups

/-!
# Renaming handles

Handles are only ever compared with handles, so it does not matter what they are. If all handles of
some slices and of a table of render passes are replaced in a way that keeps equal ones equal and
different ones different, then each lookup finds what it found before (`RenderPassTable.lookup_rename`),
each key has the group it had before (`Groups.Renamed.idOf?`), and a pass goes from related states to
related states (`Grouping.renamed_step`, `renamed_pass`).
-/

namespace RenderTrace
open RenderPass

/-! ## What is renamed -/

section Renaming

variable {τ : Type} (f : Number → Number)

def RenderPass.Key.handles (key : Key) : List Number :=
  [key.commandBuffer, key.renderPass, key.renderTarget]

def RenderPass.Key.rename (key : Key) : Key :=
  { key with
    commandBuffer := f key.commandBuffer
    renderPass := f key.renderPass
    renderTarget := f key.renderTarget }

def RenderPassTable.handles (t : RenderPassTable) : List Number :=
  t.entries.flatMap fun (key, _) => key.handles

def RenderPassTable.rename (t : RenderPassTable) : RenderPassTable :=
  ⟨t.entries.map fun (key, range) => (key.rename f, range)⟩

def Slice.handles (s : Slice τ) : List Number := [s.commandBuffer, s.renderPass, s.renderTarget]

def Slice.renameHandles (s : Slice τ) : Slice τ :=
  { s with
    commandBuffer := f s.commandBuffer
    renderTarget := f s.renderTarget
    renderPass := f s.renderPass }

/-- Among some handles equal ones stay equal and different ones different. -/
def Number.RenamesOn (hs : List Number) : Prop := ∀ a ∈ hs, ∀ b ∈ hs, (f a == f b) = (a == b)

end Renaming

/-! ## Lookups -/

variable {f : Number → Number} {hs : List Number}

section Lookups

variable (hf : Number.RenamesOn f hs)
include hf

theorem RenderPass.Key.rename_beq_rename {a b : Key} (ha : a.handles ⊆ hs) (hb : b.handles ⊆ hs) :
    (a.rename f == b.rename f) = (a == b) := by
  have hbuffer := hf a.commandBuffer (ha (by simp [handles])) b.commandBuffer
    (hb (by simp [handles]))
  have hpass := hf a.renderPass (ha (by simp [handles])) b.renderPass (hb (by simp [handles]))
  have htarget := hf a.renderTarget (ha (by simp [handles])) b.renderTarget
    (hb (by simp [handles]))
  change (a.order == b.order && f a.commandBuffer == f b.commandBuffer &&
    f a.renderPass == f b.renderPass && f a.renderTarget == f b.renderTarget) = _
  rw [hbuffer, hpass, htarget]
  rfl

theorem find?_rename {β : Type} {entries : List (Key × β)}
    (hentries : ∀ entry ∈ entries, entry.1.handles ⊆ hs) {key : Key} (hkey : key.handles ⊆ hs) :
    (((entries.map fun (k, b) => (k.rename f, b)).find? fun (k, _) => k == key.rename f).map
      (·.2)) = (entries.find? fun (k, _) => k == key).map (·.2) := by
  induction entries with
  | nil => rfl
  | cons entry entries ih =>
    obtain ⟨hentry, hentries⟩ := List.forall_mem_cons.mp hentries
    rw [List.map_cons, List.find?_cons, List.find?_cons]
    simp only [Key.rename_beq_rename hf hentry hkey]
    cases entry.1 == key with
    | true => rfl
    | false => exact ih hentries

theorem RenderPassTable.lookup_rename {t : RenderPassTable} (ht : t.handles ⊆ hs) {key : Key}
    (hkey : key.handles ⊆ hs) : (t.rename f).lookup (key.rename f) = t.lookup key := by
  refine find?_rename hf (fun entry hentry h hh => ht ?_) hkey
  exact List.mem_flatMap.mpr ⟨entry, hentry, hh⟩

end Lookups

/-! ## Groups -/

variable {τ : Type} {slices : List (Slice τ)}

/-- A group made from a slice, and one made from the slice with its handles renamed. -/
structure Group.Renamed (f : Number → Number) (slices : List (Slice τ)) (g g' : Group τ) : Prop where
  id : g'.id = g.id
  range : g'.range = g.range
  name : ∃ s ∈ slices, g.name = s.groupName ∧ g'.name = (s.renameHandles f).groupName

namespace Groups

/-- Groups made from slices, and groups made from the slices with their handles renamed. -/
structure Renamed (f : Number → Number) (hs : List Number) (slices : List (Slice τ))
    (g g' : Groups τ) : Prop where
  list : List.Forall₂ (Group.Renamed f slices) g.list g'.list
  ids : g'.ids = g.ids.map fun (key, id) => (key.rename f, id)
  handles : ∀ entry ∈ g.ids, entry.1.handles ⊆ hs

theorem Renamed.empty : Renamed f hs slices .empty .empty := ⟨.nil, rfl, fun _ h => nomatch h⟩

variable (hf : Number.RenamesOn f hs) {g g' : Groups τ} (h : Renamed f hs slices g g')
include hf h

theorem Renamed.idOf? {key : Key} (hkey : key.handles ⊆ hs) :
    g'.idOf? (key.rename f) = g.idOf? key := by
  rw [Groups.idOf?, h.ids]
  exact find?_rename hf h.handles hkey

theorem Renamed.ensure [OfInteger τ] {key : Key} (hkey : key.handles ⊆ hs) {s : Slice τ}
    (hmem : s ∈ slices) (range : Range) :
    (g'.ensure (key.rename f) (s.renameHandles f).groupName range).1 =
        (g.ensure key s.groupName range).1 ∧
      Renamed f hs slices (g.ensure key s.groupName range).2
        (g'.ensure (key.rename f) (s.renameHandles f).groupName range).2 := by
  cases hid : g.idOf? key with
  | some id =>
    rw [ensure_of_known hid, ensure_of_known ((h.idOf? hf hkey).trans hid)]
    exact ⟨rfl, h⟩
  | none =>
    have hlen : g'.list.length = g.list.length := h.list.length_eq.symm
    rw [ensure_of_new hid, ensure_of_new ((h.idOf? hf hkey).trans hid), hlen]
    refine ⟨rfl, ?_, ?_, ?_⟩
    · exact List.rel_append h.list (.cons ⟨rfl, rfl, s, hmem, rfl, rfl⟩ .nil)
    · rw [h.ids, List.map_append]
      rfl
    · intro entry hentry
      rcases List.mem_append.mp hentry with hentry | hentry
      · exact h.handles entry hentry
      · rw [List.mem_singleton.mp hentry]
        exact hkey

end Groups

/-! ## Passes -/

namespace Grouping

/-- States of two passes over the same slices, the second with their handles renamed. -/
structure Renamed (f : Number → Number) (hs : List Number) (slices : List (Slice τ))
    (st st' : State τ) : Prop where
  groups : st.groups.Renamed f hs slices st'.groups
  current : st'.current = st.current

variable (hf : Number.RenamesOn f hs) [BEq τ] (order : SubmissionOrder τ) {t : RenderPassTable}
  (ht : t.handles ⊆ hs)
include hf ht

theorem boundary?_renameHandles {s : Slice τ} (hsub : s.handles ⊆ hs) :
    (s.renameHandles f).boundary? order (t.rename f).lookup = s.boundary? order t.lookup := by
  have hlookup : (t.rename f).lookup ((s.key order).rename f) = t.lookup (s.key order) :=
    RenderPassTable.lookup_rename hf ht hsub
  rw [Slice.boundary?, Slice.boundary?, ← hlookup]
  rfl

variable [OfInteger τ]

theorem renamed_step {st st' : State τ} (h : Renamed f hs slices st st') {s : Slice τ}
    (hmem : s ∈ slices) (hsub : s.handles ⊆ hs) :
    (step order (t.rename f).lookup st' (s.renameHandles f)).1 =
        (step order t.lookup st s).1.renameHandles f ∧
      Renamed f hs slices (step order t.lookup st s).2
        (step order (t.rename f).lookup st' (s.renameHandles f)).2 := by
  have hb := boundary?_renameHandles hf order ht hsub
  cases hrange : s.boundary? order t.lookup with
  | none =>
    rw [hrange] at hb
    simp only [step, hb, hrange, h.current]
    exact ⟨rfl, h⟩
  | some range =>
    have hkey : (s.key order).handles ⊆ hs := hsub
    obtain ⟨hid, hgroups⟩ := h.groups.ensure hf hkey hmem range
    have hrenamed : (s.renameHandles f).key order = (s.key order).rename f := rfl
    rw [hrange] at hb
    simp only [step, hb, hrange, hrenamed, hid]
    exact ⟨rfl, hgroups, rfl⟩

theorem renamed_pass {rest : List (Slice τ)} (hrest : ∀ s ∈ rest, s ∈ slices ∧ s.handles ⊆ hs)
    {st st' : State τ} (h : Renamed f hs slices st st') :
    (pass order (t.rename f).lookup st' (rest.map (Slice.renameHandles f))).1 =
        (pass order t.lookup st rest).1.map (Slice.renameHandles f) ∧
      Renamed f hs slices (pass order t.lookup st rest).2
        (pass order (t.rename f).lookup st' (rest.map (Slice.renameHandles f))).2 := by
  induction rest generalizing st st' with
  | nil => exact ⟨rfl, h⟩
  | cons s rest ih =>
    obtain ⟨⟨hmem, hsub⟩, hrest⟩ := List.forall_mem_cons.mp hrest
    obtain ⟨hslice, hnext⟩ := renamed_step hf order ht h hmem hsub
    obtain ⟨hslices, hlast⟩ := ih hrest hnext
    refine ⟨?_, hlast⟩
    simp only [List.map_cons, pass, hslice, hslices]

end Grouping

/-! ## Replacing the handles -/

/-- A function of integers, on handles. -/
def Number.onWhole (f : Int → Int) : Number → Number
  | .whole n => .whole (f n)
  | h => h

theorem Number.renamesOn_onWhole {f : Int → Int} (hinj : Function.Injective f) {hs : List Number}
    (hwhole : ∀ h ∈ hs, ∃ n, h = .whole n) : RenamesOn (onWhole f) hs := by
  intro a ha b hb
  obtain ⟨m, rfl⟩ := hwhole a ha
  obtain ⟨n, rfl⟩ := hwhole b hb
  rw [Bool.eq_iff_iff, onWhole, onWhole, whole_beq_whole, whole_beq_whole, hinj.eq_iff]

theorem HandleMap.apply_eq {m : HandleMap} {h : Number} (hnull : (h == 0) = true → f h = h)
    (htarget : (h == 0) = false → ∃ type, m.targets h = [⟨type, f h⟩]) : m.apply h = f h := by
  cases hzero : h == 0 with
  | true => rw [HandleMap.apply, if_pos hzero, hnull hzero]
  | false =>
    obtain ⟨type, hone⟩ := htarget hzero
    rw [HandleMap.apply, hzero, hone]
    rfl

namespace SliceTable

variable [BEq τ] [OfInteger τ]

/-- If every handle of some slices stands for one trace handle, and they keep apart what they kept
apart before, then replacing the handles of the slices and of the table of render passes changes
nothing about the groups, and of the slices and the names of the groups only the handles. -/
theorem group_rename (order : SubmissionOrder τ) (t : RenderPassTable) (m : HandleMap)
    (slices : List (Slice τ)) (tracks : List (Track τ))
    (hinj : Number.RenamesOn f (slices.flatMap Slice.handles ++ t.handles))
    (hnull : ∀ h, (h == 0) = true → f h = h)
    (htarget : ∀ h ∈ slices.flatMap Slice.handles, (h == 0) = false →
      ∃ type, m.targets h = [⟨type, f h⟩]) :
    let plain := group order t.lookup ⟨slices, tracks, .empty⟩
    let renamed := group order (t.rename f).lookup (mapHandles m ⟨slices, tracks, .empty⟩)
    renamed.slices = plain.slices.map (Slice.renameHandles f) ∧ renamed.tracks = plain.tracks ∧
      List.Forall₂ (Group.Renamed f slices) plain.groups.list renamed.groups.list := by
  intro plain renamed
  have hhandles : ∀ s ∈ slices, ∀ h ∈ s.handles, h ∈ slices.flatMap Slice.handles :=
    fun s hs h hh => List.mem_flatMap.mpr ⟨s, hs, hh⟩
  have hmapped : slices.map (Slice.mapHandles m) = slices.map (Slice.renameHandles f) := by
    refine List.map_congr_left fun s hs => ?_
    have happly : ∀ h ∈ s.handles, m.apply h = f h := fun h hh =>
      HandleMap.apply_eq (hnull h) (htarget h (hhandles s hs h hh))
    rw [Slice.mapHandles, Slice.renameHandles, happly _ (by simp [Slice.handles]),
      happly _ (by simp [Slice.handles]), happly _ (by simp [Slice.handles])]
  have hslices : ∀ s ∈ slices, s ∈ slices ∧
      s.handles ⊆ slices.flatMap Slice.handles ++ t.handles := fun s hs =>
    ⟨hs, fun h hh => List.mem_append_left _ (hhandles s hs h hh)⟩
  have hstart : Grouping.Renamed f (slices.flatMap Slice.handles ++ t.handles) slices
      ⟨.empty, noGroup⟩ ⟨.empty, noGroup⟩ := ⟨.empty, rfl⟩
  obtain ⟨hpass, hlast⟩ :=
    Grouping.renamed_pass hinj order (List.subset_append_right _ _) hslices hstart
  rw [← hmapped] at hpass hlast
  exact ⟨hpass, rfl, hlast.groups.list⟩

def renamedStages : List (Slice Int) :=
  [("vertex", 7), ("barrier", 0)].map fun (name, renderPass) =>
    ⟨0, 0, 0, name, 0, 0, 5, 9, .whole renderPass, 0, 0, 0⟩

def renamedPasses : RenderPassTable := ⟨[(⟨none, 5, 7, 9⟩, ⟨1, 2⟩)]⟩

def renamedHandles : HandleMap := ⟨[5, 7, 9].map fun h => (.whole h, [⟨"", .whole (10 * h)⟩])⟩

theorem group_rename_sample :
    let f := Number.onWhole (10 * ·)
    let plain := group .empty renamedPasses.lookup ⟨renamedStages, [], .empty⟩
    let renamed := group .empty (renamedPasses.rename f).lookup
      (mapHandles renamedHandles ⟨renamedStages, [], .empty⟩)
    Number.RenamesOn f (renamedStages.flatMap Slice.handles ++ renamedPasses.handles) ∧
      plain.groups.list.map Group.name = ["RenderPass 7, RenderTarget 9"] ∧
      renamed.groups.list.map Group.name = ["RenderPass 70, RenderTarget 90"] ∧
      renamed.slices = plain.slices.map (Slice.renameHandles f) := by
  have hinj : Number.RenamesOn (Number.onWhole (10 * ·))
      (renamedStages.flatMap Slice.handles ++ renamedPasses.handles) := by
    have hten : Function.Injective fun n : Int => 10 * n := fun m n h => by
      dsimp only at h
      omega
    refine Number.renamesOn_onWhole hten fun h hh => ?_
    obtain ⟨n, -, rfl⟩ : ∃ n ∈ [5, 7, 9, 5, 0, 9, 5, 7, 9], Number.whole n = h := List.mem_map.mp hh
    exact ⟨n, rfl⟩
  have hnull : ∀ h, (h == 0) = true → Number.onWhole (10 * ·) h = h := by
    intro h hzero
    cases h with
    | whole n =>
      obtain rfl : n = 0 := Number.whole_beq_whole.mp hzero
      rfl
    | double x => rfl
  have htarget : ∀ h ∈ renamedStages.flatMap Slice.handles, (h == 0) = false →
      ∃ type, renamedHandles.targets h = [⟨type, Number.onWhole (10 * ·) h⟩] := by
    intro h hh hzero
    obtain ⟨n, hn, rfl⟩ : ∃ n ∈ [5, 7, 9, 5, 0, 9], Number.whole n = h := List.mem_map.mp hh
    have hn' : n = 5 ∨ n = 7 ∨ n = 9 ∨ n = 0 := by
      simp only [List.mem_cons, List.not_mem_nil, or_false] at hn
      omega
    rcases hn' with rfl | rfl | rfl | rfl
    · exact ⟨"", rfl⟩
    · exact ⟨"", rfl⟩
    · exact ⟨"", rfl⟩
    · exact absurd hzero (by decide)
  exact ⟨hinj, by decide +kernel, by decide +kernel,
    (group_rename .empty renamedPasses renamedHandles renamedStages [] hinj hnull htarget).1⟩

end SliceTable
end RenderTrace
