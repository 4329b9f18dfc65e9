import Mathlib.Tactic.SplitIfs
import RenderTrace.Profile.Grouping
import RenderTrace.Proofs.Profile.Groups

/-!
# The history of a table

Whatever is done to a table that starts without groups, in whatever order: its groups stay dense,
every slice stays without a group or in one that exists, and a group that is there stays as it is
(`SliceTable.run_fresh`). `SliceTable.Sound` is the invariant of one change, and groups only ever
grow. A grouping pass is followed slice by slice (`Grouping.sound_step`), with a lookup that may
answer otherwise at every slice and may stop the pass at any of them (`Grouping.passBy`).
-/

namespace RenderTrace
open RenderPass

variable {τ : Type}

/-! ## One pass -/

namespace Grouping
variable [BEq τ] [OfInteger τ]

/-- Puts slices into groups, each by a lookup of its own; slices beyond the lookups are left as they
are. -/
def passBy (order : SubmissionOrder τ) : State τ → List RenderPassLookup → List (Slice τ) →
    List (Slice τ) × State τ
  | st, lookup :: lookups, s :: rest =>
    let (s, st) := step order lookup st s
    let (rest, st) := passBy order st lookups rest
    (s :: rest, st)
  | st, _, rest => (rest, st)

theorem pass_eq_passBy (order : SubmissionOrder τ) (lookup : RenderPassLookup) (st : State τ)
    (slices : List (Slice τ)) :
    pass order lookup st slices =
      passBy order st (List.replicate slices.length lookup) slices := by
  induction slices generalizing st with
  | nil => rfl
  | cons s rest ih => simp only [pass, List.length_cons, List.replicate_succ, passBy, ih]

/-- A pass in which every id at hand is one of a group leaves such ids only. -/
structure Sound (st : State τ) : Prop where
  dense : st.groups.Dense
  current : st.groups.Holds st.current

theorem sound_step (order : SubmissionOrder τ) (lookup : RenderPassLookup) {st : State τ}
    (h : Sound st) (s : Slice τ) :
    Sound (step order lookup st s).2 ∧ st.groups.Extends (step order lookup st s).2.groups ∧
      (step order lookup st s).1.groupId = (step order lookup st s).2.current := by
  cases hb : s.boundary? order lookup with
  | none =>
    simp only [step, hb]
    exact ⟨h, .refl _, trivial⟩
  | some range =>
    simp only [step, hb]
    exact ⟨⟨h.dense.ensure _ _ _, h.dense.holds_ensure _ _ _⟩, Groups.extends_ensure _ _ _ _,
      trivial⟩

theorem sound_passBy (order : SubmissionOrder τ) (lookups : List RenderPassLookup) {st : State τ}
    (h : Sound st) (slices : List (Slice τ)) (hslices : ∀ s ∈ slices, st.groups.Holds s.groupId) :
    Sound (passBy order st lookups slices).2 ∧
      st.groups.Extends (passBy order st lookups slices).2.groups ∧
      ∀ s ∈ (passBy order st lookups slices).1,
        (passBy order st lookups slices).2.groups.Holds s.groupId := by
  -- ids that are held stay held as the groups grow
  induction lookups generalizing st slices with
  | nil => exact ⟨h, .refl _, hslices⟩
  | cons lookup lookups ih =>
    cases slices with
    | nil => exact ⟨h, .refl _, hslices⟩
    | cons s rest =>
      obtain ⟨hnext, hext, hid⟩ := sound_step order lookup h s
      obtain ⟨hlast, hext', hrest⟩ := ih hnext rest fun x hx =>
        (hslices x (List.mem_cons_of_mem _ hx)).mono hext
      refine ⟨hlast, hext.trans hext', fun x hx => ?_⟩
      rcases List.mem_cons.mp hx with rfl | hx
      · exact (hid ▸ hnext.current : Groups.Holds _ _).mono hext'
      · exact hrest x hx

theorem exists_passWhileTold_eq [Numeric τ] (order : SubmissionOrder τ) (lookup : RenderPassLookup)
    (st : State τ) (slices : List (Slice τ)) :
    ∃ lookups, passWhileTold order lookup st slices = passBy order st lookups slices := by
  induction slices generalizing st with
  | nil => exact ⟨[], rfl⟩
  | cons s rest ih =>
    cases htell : Event.canTell ((step order lookup st s).1.warnings order) with
    | true =>
      obtain ⟨lookups, hrest⟩ := ih (step order lookup st s).2
      refine ⟨lookup :: lookups, ?_⟩
      simp only [passWhileTold, passBy, htell, if_true, hrest]
    | false =>
      refine ⟨[], ?_⟩
      simp only [passWhileTold, passBy, htell, Bool.false_eq_true, if_false]

end Grouping

/-! ## Changes -/

/-- What can be done to a table. -/
inductive Change (τ : Type) where
  /-- Asks for the group of a key. -/
  | ensure (key : Key) (name : String) (range : Range)
  | group (order : SubmissionOrder τ) (lookup : RenderPassLookup)
  /-- Puts slices into groups, up to the first about which something cannot be told. -/
  | groupWhileTold (order : SubmissionOrder τ) (lookup : RenderPassLookup)
  /-- Puts slices into groups, each by a lookup of its own, as many as there are lookups. -/
  | groupBy (order : SubmissionOrder τ) (lookups : List RenderPassLookup)
  | mapHandles (m : HandleMap)
  /-- Replaces handles, up to the first about which something cannot be told. -/
  | mapWhileTold (m : HandleMap)
  /-- Adds slices without a group at the end. -/
  | append (more : List (Slice τ))

/-- A slice taken out of its group. -/
def Slice.ungrouped [OfInteger τ] (s : Slice τ) : Slice τ := { s with groupId := noGroup }

namespace SliceTable
variable [BEq τ] [OfInteger τ]

/-- Puts slices into groups, each by a lookup of its own. -/
def groupBy (order : SubmissionOrder τ) (lookups : List RenderPassLookup) (t : SliceTable τ) :
    SliceTable τ :=
  let (slices, st) := Grouping.passBy order ⟨t.groups, noGroup⟩ lookups t.slices
  { t with slices, groups := st.groups }

theorem group_eq_groupBy (order : SubmissionOrder τ) (lookup : RenderPassLookup)
    (t : SliceTable τ) :
    t.group order lookup = t.groupBy order (List.replicate t.slices.length lookup) := by
  simp only [group, groupBy, Grouping.pass_eq_passBy]

/-- The groups are dense, and every slice is without a group or in one that is there. -/
structure Sound (t : SliceTable τ) : Prop where
  dense : t.groups.Dense
  holds : ∀ s ∈ t.slices, t.groups.Holds s.groupId

/-- A table of slices that are in no group. -/
def fresh (slices : List (Slice τ)) (tracks : List (Track τ)) : SliceTable τ :=
  ⟨slices.map Slice.ungrouped, tracks, .empty⟩

variable [Numeric τ]

theorem exists_groupWhileTold_eq (order : SubmissionOrder τ) (lookup : RenderPassLookup)
    (t : SliceTable τ) : ∃ lookups, t.groupWhileTold order lookup = t.groupBy order lookups := by
  obtain ⟨lookups, h⟩ := Grouping.exists_passWhileTold_eq order lookup ⟨t.groups, noGroup⟩
    t.slices
  refine ⟨lookups, ?_⟩
  simp only [groupWhileTold, groupBy, h]

def apply (t : SliceTable τ) : Change τ → SliceTable τ
  | .ensure key name range => { t with groups := (t.groups.ensure key name range).2 }
  | .group order lookup => t.group order lookup
  | .groupWhileTold order lookup => t.groupWhileTold order lookup
  | .groupBy order lookups => t.groupBy order lookups
  | .mapHandles m => t.mapHandles m
  | .mapWhileTold m => t.mapWhileTold m
  | .append more => { t with slices := t.slices ++ more.map Slice.ungrouped }

def run (t : SliceTable τ) (changes : List (Change τ)) : SliceTable τ := changes.foldl apply t

omit [BEq τ] [OfInteger τ] [Numeric τ] in
theorem groupId_mapWhileTold (m : HandleMap) (s : Slice τ) :
    (s.mapWhileTold m).groupId = s.groupId := by
  unfold Slice.mapWhileTold
  split_ifs <;> rfl

omit [BEq τ] [OfInteger τ] [Numeric τ] in
theorem map_groupId_mapSlicesWhileTold (m : HandleMap) (slices : List (Slice τ)) :
    (mapSlicesWhileTold m slices).map Slice.groupId = slices.map Slice.groupId := by
  induction slices with
  | nil => rfl
  | cons s rest ih =>
    rw [mapSlicesWhileTold, List.map_cons, List.map_cons, groupId_mapWhileTold]
    split_ifs
    · rw [ih]
    · rfl

omit [BEq τ] [Numeric τ] in
theorem Sound.of_map_groupId {t : SliceTable τ} (h : t.Sound) {slices : List (Slice τ)}
    (hids : slices.map Slice.groupId = t.slices.map Slice.groupId) :
    Sound { t with slices } := by
  refine ⟨h.dense, fun s hs => ?_⟩
  have hmem : s.groupId ∈ t.slices.map Slice.groupId := hids ▸ List.mem_map_of_mem hs
  obtain ⟨x, hx, hid⟩ := List.mem_map.mp hmem
  exact hid ▸ h.holds x hx

omit [Numeric τ] in
theorem Sound.groupBy {t : SliceTable τ} (h : t.Sound) (order : SubmissionOrder τ)
    (lookups : List RenderPassLookup) :
    (t.groupBy order lookups).Sound ∧ t.groups.Extends (t.groupBy order lookups).groups := by
  have hstart : Grouping.Sound ⟨t.groups, noGroup⟩ := ⟨h.dense, Or.inl rfl⟩
  obtain ⟨hlast, hext, hslices⟩ := Grouping.sound_passBy order lookups hstart t.slices h.holds
  exact ⟨⟨hlast.dense, hslices⟩, hext⟩

theorem Sound.apply {t : SliceTable τ} (h : t.Sound) (change : Change τ) :
    (t.apply change).Sound ∧ t.groups.Extends (t.apply change).groups := by
  cases change with
  | ensure key name range =>
    have hext := Groups.extends_ensure t.groups key name range
    exact ⟨⟨h.dense.ensure key name range, fun s hs => (h.holds s hs).mono hext⟩, hext⟩
  | group order lookup =>
    rw [SliceTable.apply, group_eq_groupBy]
    exact h.groupBy order _
  | groupWhileTold order lookup =>
    obtain ⟨lookups, heq⟩ := exists_groupWhileTold_eq order lookup t
    rw [SliceTable.apply, heq]
    exact h.groupBy order lookups
  | groupBy order lookups => exact h.groupBy order lookups
  | mapHandles m => exact ⟨h.of_map_groupId (by simp [Slice.mapHandles]), .refl _⟩
  | mapWhileTold m => exact ⟨h.of_map_groupId (map_groupId_mapSlicesWhileTold m _), .refl _⟩
  | append more =>
    refine ⟨⟨h.dense, fun s hs => ?_⟩, .refl _⟩
    rcases List.mem_append.mp hs with hs | hs
    · exact h.holds s hs
    · obtain ⟨x, -, rfl⟩ := List.mem_map.mp hs
      exact Or.inl rfl

theorem Sound.run {t : SliceTable τ} (h : t.Sound) (changes : List (Change τ)) :
    (t.run changes).Sound ∧ t.groups.Extends (t.run changes).groups := by
  induction changes generalizing t with
  | nil => exact ⟨h, .refl _⟩
  | cons change changes ih =>
    obtain ⟨hnext, hext⟩ := h.apply change
    obtain ⟨hlast, hext'⟩ := ih hnext
    exact ⟨hlast, hext.trans hext'⟩

omit [BEq τ] [Numeric τ] in
theorem sound_fresh (slices : List (Slice τ)) (tracks : List (Track τ)) :
    (fresh slices tracks).Sound := by
  refine ⟨Groups.Dense.empty, fun s hs => ?_⟩
  obtain ⟨x, -, rfl⟩ := List.mem_map.mp hs
  exact Or.inl rfl

/-- After any changes of a table that started without groups: the group at place `i` has the id `i`;
the keys differ and stand for these ids one by one; every slice is without a group or in one that is
there; whatever is changed after that, the groups and keys that are there stay; and the id given
for a key is given for every equal key for ever, with the name and range that the group was opened
with. -/
theorem run_fresh (slices : List (Slice τ)) (tracks : List (Track τ)) (changes : List (Change τ)) :
    let t := (fresh slices tracks).run changes
    (∀ (i : Nat) (x : Group τ), t.groups.list[i]? = some x → x.id = ofInteger i) ∧
      (t.groups.ids.map (·.2) = (List.range t.groups.list.length).map (fun i : Nat => ofInteger i) ∧
        (t.groups.ids.map (·.1)).Pairwise fun a b => (a == b) = false) ∧
      (∀ s ∈ t.slices, s.groupId = noGroup ∨
        ∃ i < t.groups.list.length, s.groupId = ofInteger i) ∧
      (∀ more, t.groups.list <+: (t.run more).groups.list ∧
        t.groups.ids <+: (t.run more).groups.ids) ∧
      ∀ key name range, ∃ (i : Nat) (x : Group τ),
        (t.groups.ensure key name range).1 = ofInteger i ∧
        (t.groups.ensure key name range).2.list[i]? = some x ∧
        (t.groups.idOf? key = none → x.name = name ∧ x.range = range) ∧
        ∀ more key' name' range', (key' == key) = true →
          let later := (t.run (.ensure key name range :: more)).groups
          (later.ensure key' name' range').1 = ofInteger i ∧ later.list[i]? = some x := by
  intro t
  obtain ⟨hsound, -⟩ := (sound_fresh slices tracks).run changes
  change t.Sound at hsound
  refine ⟨hsound.dense.id, ⟨hsound.dense.ids, hsound.dense.keys⟩, hsound.holds, fun more => ?_,
    fun key name range => ?_⟩
  · obtain ⟨-, hext⟩ := hsound.run more
    exact ⟨hext.list, hext.ids⟩
  · obtain ⟨i, x, hid, hx, hnew⟩ := hsound.dense.ensure_spec key name range
    refine ⟨i, x, hid, hx, hnew, fun more key' name' range' hkey => ?_⟩
    obtain ⟨hnext, -⟩ := hsound.apply (.ensure key name range)
    obtain ⟨-, hext⟩ := hnext.run more
    have hknown := hext.idOf? (Groups.idOf?_ensure t.groups hkey name range)
    have hlater := congrArg Prod.fst (Groups.ensure_of_known hknown name' range')
    exact ⟨hlater.trans hid, hext.getElem? hx⟩

/-- A key that is asked for again, with another name and range. -/
def sampleKey : Key := ⟨none, 5, 7, 9⟩

theorem run_fresh_sample : ∃ (i : Nat) (x : Group Int), x.name = "first" ∧ x.range = ⟨1, 2⟩ ∧
    let later := ((fresh [] []).run
      [.ensure sampleKey "first" ⟨1, 2⟩, .ensure sampleKey "second" ⟨3, 4⟩]).groups
    (later.ensure sampleKey "third" ⟨5, 6⟩).1 = ofInteger i ∧ later.list[i]? = some x := by
  obtain ⟨-, -, -, -, hkeys⟩ := run_fresh (τ := Int) [] [] []
  obtain ⟨i, x, -, -, hnew, hlater⟩ := hkeys sampleKey "first" ⟨1, 2⟩
  obtain ⟨hname, hrange⟩ := hnew rfl
  exact ⟨i, x, hname, hrange,
    hlater [.ensure sampleKey "second" ⟨3, 4⟩] sampleKey "third" ⟨5, 6⟩ (by decide)⟩

end SliceTable
end RenderTrace
