import RenderTrace.Proofs.Entries
import RenderTrace.Proofs.Input.Grammar
import RenderTrace.Proofs.Input.Validate
import RenderTrace.Proofs.Profile.EmptyRange

/-!
# Tables of render passes that are loaded

Entries are added to a table up to the first whose range ends before it starts, which is what adding
them fails with (`RenderPassTable.addAll_eq_error_iff`). If there is none, the range of a key is that
of the last entry for it (`RenderPassTable.lookup_addAll`). The entries come from a document of the
right shape, where no number is undefined, so the entries for a key are those with the same values
(`Key.beq_iff_same`). `Input.renderPasses_finds_last` says so of a file.
-/

namespace RenderTrace
open RenderPass

/-! ## Keys by the values of their numbers -/

theorem Number.beq_iff_value {m n : Number} (hm : (m == m) = true) :
    (m == n) = true ↔ m.value = n.value := by
  have hdefined : m.value ≠ .undefined := (beq_iff.mp hm).2
  rw [beq_iff, and_iff_left hdefined]

theorem beq_iff_map_value {m n : Option Number} (hm : (m == m) = true) :
    (m == n) = true ↔ m.map Number.value = n.map Number.value := by
  cases m with
  | none => cases n <;> simp
  | some m =>
    cases n with
    | none => simp
    | some n =>
      have hself : (m == m) = true := hm
      show (m == n) = true ↔ _
      simp [Number.beq_iff_value hself]

namespace RenderPass

/-- The numbers of two keys have the same values, however they are written. -/
structure Key.Same (a b : Key) : Prop where
  order : a.order.map Number.value = b.order.map Number.value
  commandBuffer : a.commandBuffer.value = b.commandBuffer.value
  renderPass : a.renderPass.value = b.renderPass.value
  renderTarget : a.renderTarget.value = b.renderTarget.value

theorem Key.beq_iff_same {a b : Key} (ha : (a == a) = true) : (a == b) = true ↔ a.Same b := by
  obtain ⟨horder, hbuffer, hpass, htarget⟩ := Key.beq_iff.mp ha
  rw [Key.beq_iff, beq_iff_map_value horder, Number.beq_iff_value hbuffer,
    Number.beq_iff_value hpass, Number.beq_iff_value htarget]
  constructor
  · rintro ⟨ho, hb, hp, ht⟩
    exact ⟨ho, hb, hp, ht⟩
  · rintro ⟨ho, hb, hp, ht⟩
    exact ⟨ho, hb, hp, ht⟩

end RenderPass

/-! ## Adding entries -/

namespace RenderPassTable

/-- The range of an entry ends before it starts. -/
def Inverts (e : Key × Range) : Prop := e.2.stop < e.2.start

instance : DecidablePred Inverts := fun e => inferInstanceAs (Decidable (e.2.stop < e.2.start))

theorem addAll_cons_of_inverts {t : RenderPassTable} {e : Key × Range} (h : Inverts e)
    (entries : List (Key × Range)) : t.addAll (e :: entries) = .error ⟨e.1, e.2⟩ := by
  have hadd : t.add e.1 e.2 = .error ⟨e.1, e.2⟩ := if_pos h
  rw [addAll, List.foldlM_cons]
  show (t.add e.1 e.2 >>= _) = _
  rw [hadd]
  rfl

theorem addAll_cons_of_not {t : RenderPassTable} {e : Key × Range} (h : ¬ Inverts e)
    (entries : List (Key × Range)) :
    t.addAll (e :: entries) = addAll ⟨put e.1 e.2 t.entries⟩ entries := by
  have hadd : t.add e.1 e.2 = .ok ⟨put e.1 e.2 t.entries⟩ := if_neg h
  rw [addAll, List.foldlM_cons]
  show (t.add e.1 e.2 >>= _) = _
  rw [hadd]
  rfl

/-- Adding entries fails just with the first one whose range ends before it starts. -/
theorem addAll_eq_error_iff {t : RenderPassTable} {entries : List (Key × Range)} {i : Inverted} :
    t.addAll entries = .error i ↔
      ∃ before after, FirstWith Inverts entries before (i.key, i.range) after := by
  induction entries generalizing t with
  | nil =>
    constructor
    · intro h
      exact nomatch h
    · rintro ⟨before, after, h⟩
      exact nomatch h.mem
  | cons e entries ih =>
    by_cases he : Inverts e
    · rw [addAll_cons_of_inverts he]
      simp only [firstWith_cons_self he]
      constructor
      · intro h
        obtain rfl := Except.error.inj h
        exact ⟨[], entries, rfl, rfl, rfl⟩
      · rintro ⟨-, -, -, rfl, -⟩
        rfl
    · rw [addAll_cons_of_not he, ih]
      simp only [firstWith_cons_of_not he]
      constructor
      · rintro ⟨before, after, h⟩
        exact ⟨_, after, before, rfl, h⟩
      · rintro ⟨-, after, before, -, h⟩
        exact ⟨before, after, h⟩

theorem entries_addAll {t t' : RenderPassTable} {entries : List (Key × Range)}
    (h : t.addAll entries = .ok t') :
    t'.entries = entries.foldl (fun acc e => put e.1 e.2 acc) t.entries := by
  induction entries generalizing t with
  | nil =>
    obtain rfl := Except.ok.inj h
    rfl
  | cons e entries ih =>
    obtain ⟨next, hnext, hrest⟩ := addAll_cons_eq_ok.mp h
    obtain ⟨-, rfl⟩ := add_eq_ok hnext
    exact ih hrest

theorem putsEntries : PutsEntries put := ⟨fun _ _ => rfl, fun _ _ _ _ => rfl⟩

/-- Of the entries that are added for a key the last one is found. -/
theorem lookup_addAll {t : RenderPassTable} {entries : List (Key × Range)}
    (h : empty.addAll entries = .ok t) (key : Key) :
    t.lookup key = (entries.reverse.find? fun e => e.1 == key).map (·.2) := by
  have hentries : t.entries = entries.foldl (fun acc e => put e.1 e.2 acc) [] := entries_addAll h
  rw [← putsEntries.find?_foldl, ← hentries]
  rfl

section Lookup

variable {t : RenderPassTable} {entries : List (Key × Range)} (h : empty.addAll entries = .ok t)
  (hself : ∀ e ∈ entries, (e.1 == e.1) = true)
include h hself

theorem lookup_eq_some_iff_last {key : Key} {range : Range} : t.lookup key = some range ↔
    ∃ before k after, LastWith (·.1.Same key) entries before (k, range) after := by
  have hsame : ∀ e ∈ entries, (e.1 == key) = true ↔ e.1.Same key := fun e he =>
    Key.beq_iff_same (hself e he)
  rw [lookup_addAll h, value_find?_reverse_eq_some_iff]
  simp only [lastWith_congr hsame]

theorem lookup_eq_none_iff_same {key : Key} :
    t.lookup key = none ↔ ∀ e ∈ entries, ¬ e.1.Same key := by
  rw [lookup_addAll h, Option.map_eq_none_iff, List.find?_eq_none]
  simp only [List.mem_reverse]
  apply forall₂_congr
  intro e he
  rw [Key.beq_iff_same (hself e he)]

end Lookup
end RenderPassTable

/-! ## Files -/

namespace Input
open RenderPassTable

variable {t : FileTree} {p : Path} {cs : List Char} {v : Json}

theorem beq_self_of_unsigned {n : Number} (h : Schema.unsigned (.number n) = []) :
    (n == n) = true := by
  obtain ⟨m, k, hm, hk⟩ := (Schema.decides_unsigned _).mp h
  obtain rfl := Json.number.inj hm
  exact BEq.trans hk (BEq.symm hk)

theorem beq_self_of_listsPass {x : Json} (hshape : renderPassShape x = []) {e : Key × Range}
    (h : ListsPass x e) : (e.1 == e.1) = true := by
  have hself : ∀ {name : String} {n : Number}, name ∈ InputKind.renderPassFields →
      x.field? name = some (.number n) → (n == n) = true := fun hname hn =>
    beq_self_of_unsigned (Schema.check_of_record hshape (List.mem_map_of_mem hname) hn)
  obtain ⟨n, hn, horder⟩ := h.order
  apply Key.beq_iff.mpr
  refine ⟨?_, hself (by decide) h.commandBuffer, hself (by decide) h.renderPass,
    hself (by decide) h.renderTarget⟩
  rw [hn]
  exact hself (by decide) horder

theorem beq_self_of_listsPasses (hshape : InputKind.renderPassesShape v = [])
    {entries : List (Key × Range)} (h : ListsPasses v entries) :
    ∀ e ∈ entries, (e.1 == e.1) = true := by
  obtain ⟨xs, hxs, hlists⟩ := h
  obtain ⟨ys, hys, hshapes⟩ := Schema.listOf_eq_nil.mp
    (Schema.check_of_record hshape List.mem_cons_self hxs)
  obtain rfl := Json.array.inj hys
  intro e he
  obtain ⟨x, hx, hlisted⟩ := (Schema.exists_of_mem_forall₂ hlists).2 e he
  exact beq_self_of_listsPass (hshapes x hx) hlisted

theorem exists_renderPasses_addAll [Zstd.Codec] (htext : TextFile.read t p = .ok cs)
    (hread : Json.read cs = .ok v) (hshape : InputKind.renderPassesShape v = []) :
    ∃ entries, ListsPasses v entries ∧
      renderPasses t p = (RenderPassTable.empty.addAll entries).mapError
        fun i => .invalid p [.inverted i] := by
  obtain ⟨entries, hlists, htable⟩ := exists_listsPasses hshape
  refine ⟨entries, hlists, ?_⟩
  rw [renderPasses_of_document (document_of_shape htext hread hshape), htable]

section Added

variable [Zstd.Codec] {entries : List (Key × Range)} (hload : renderPasses t p =
  (RenderPassTable.empty.addAll entries).mapError fun i => .invalid p [.inverted i])
include hload

theorem renderPasses_of_firstWith {before after : List (Key × Range)} {e : Key × Range}
    (hfirst : FirstWith Inverts entries before e after) :
    renderPasses t p = .error (.invalid p [.inverted ⟨e.1, e.2⟩]) := by
  have hrefused : RenderPassTable.empty.addAll entries = .error ⟨e.1, e.2⟩ :=
    addAll_eq_error_iff.mpr ⟨before, after, hfirst⟩
  rw [hload, hrefused]
  rfl

theorem exists_table_of_not_inverts (hranges : ∀ e ∈ entries, ¬ Inverts e) : ∃ table,
    RenderPassTable.empty.addAll entries = .ok table ∧ renderPasses t p = .ok table := by
  obtain ⟨table, hadd⟩ := exists_addAll_iff.mpr hranges
  refine ⟨table, hadd, ?_⟩
  rw [hload, hadd]
  rfl

/-- Just a range that ends before it starts is in the way, wherever it stands. -/
theorem renderPasses_eq_invalid_iff : (∃ faults, renderPasses t p = .error (.invalid p faults)) ↔
    ∃ e ∈ entries, Inverts e := by
  constructor
  · rintro ⟨faults, herror⟩
    by_contra hnone
    obtain ⟨table, -, hok⟩ := exists_table_of_not_inverts hload fun e he hinv => hnone ⟨e, he, hinv⟩
    exact nomatch herror.symm.trans hok
  · intro hany
    obtain ⟨before, e, after, hfirst⟩ := exists_firstWith_iff.mpr hany
    exact ⟨_, renderPasses_of_firstWith hload hfirst⟩

end Added

/-- A document is refused as a table of render passes just if it has not the right form or lists a
range that ends before it starts, wherever it stands, and then for the first such range and nothing
else. Otherwise the range of a key is that of the last entry whose numbers have the same values, and
there is none if there is no such entry. -/
theorem renderPasses_finds_last [Zstd.Codec] (htext : TextFile.read t p = .ok cs)
    (hread : Json.read cs = .ok v) :
    ((∃ faults, renderPasses t p = .error (.invalid p faults)) ↔
      ¬ InputKind.renderPasses.Grammar v ∨
        ∃ entries, ListsPasses v entries ∧ ∃ e ∈ entries, Inverts e) ∧
    (¬ InputKind.renderPasses.Grammar v → renderPasses t p = .error
      (.invalid p ((InputKind.renderPasses.violations v InputKind.defaultMost).map .shape))) ∧
    (InputKind.renderPasses.Grammar v → ∃ entries, ListsPasses v entries ∧
      (∀ before e after, FirstWith Inverts entries before e after →
        renderPasses t p = .error (.invalid p [.inverted ⟨e.1, e.2⟩])) ∧
      ((∀ e ∈ entries, ¬ Inverts e) → ∃ table, renderPasses t p = .ok table ∧ ∀ key,
        (∀ range, table.lookup key = some range ↔
          ∃ before k after, LastWith (·.1.Same key) entries before (k, range) after) ∧
        (table.lookup key = none ↔ ∀ e ∈ entries, ¬ e.1.Same key))) := by
  have hdecides : InputKind.renderPassesShape v = [] ↔ InputKind.renderPasses.Grammar v :=
    InputKind.decides_renderPassesShape v
  have hviolations : ¬ InputKind.renderPasses.Grammar v → renderPasses t p = .error
      (.invalid p ((InputKind.renderPasses.violations v InputKind.defaultMost).map .shape)) := by
    intro hform
    have hshape : InputKind.renderPasses.shape v ≠ [] := mt hdecides.mp hform
    rw [renderPasses, document_of_violations htext hread hshape]
    rfl
  by_cases hform : InputKind.renderPasses.Grammar v
  · have hshape := hdecides.mpr hform
    obtain ⟨entries, hlists, hload⟩ := exists_renderPasses_addAll htext hread hshape
    have hrefused := renderPasses_eq_invalid_iff hload
    refine ⟨⟨fun herror => .inr ⟨entries, hlists, hrefused.mp herror⟩, fun hwrong => ?_⟩, hviolations,
      fun _ => ⟨entries, hlists, fun _ _ _ => renderPasses_of_firstWith hload, fun hranges => ?_⟩⟩
    · obtain hnot | ⟨entries', hlists', hany⟩ := hwrong
      · exact absurd hform hnot
      · obtain rfl := hlists.unique hlists'
        exact hrefused.mpr hany
    · obtain ⟨table, hadd, hok⟩ := exists_table_of_not_inverts hload hranges
      have hself := beq_self_of_listsPasses hshape hlists
      exact ⟨table, hok, fun key => ⟨fun range => lookup_eq_some_iff_last hadd hself,
        lookup_eq_none_iff_same hadd hself⟩⟩
  · exact ⟨iff_of_true ⟨_, hviolations hform⟩ (.inl hform), hviolations, fun h => absurd h hform⟩

/-- A document that lists two command ranges of one render pass. -/
def sampleRanges : Json := .object [("render_passes",
  .array (list "render_passes" (passDocument 1 2) ++ list "render_passes" (passDocument 3 4)))]

theorem shaped_sampleRanges (depth : Nat) : Json.Shaped (depth + 3) sampleRanges := by
  have hpass : ∀ start stop : Int,
      ∀ x ∈ list "render_passes" (passDocument start stop), Json.Shaped (depth + 1) x := by
    intro start stop
    have hfields : InputKind.renderPassFields.Nodup := by decide
    refine List.forall_mem_singleton.mpr (.object hfields ?_)
    simp [InputKind.renderPassFields, Json.Shaped.number]
  refine .object (by simp) (List.forall_mem_singleton.mpr (.array ?_))
  exact List.forall_mem_append.mpr ⟨hpass 1 2, hpass 3 4⟩

theorem read_sampleRanges : Json.read sampleRanges.write.toList = .ok sampleRanges := by
  have hnumbers : sampleRanges.numbers = [0, 5, 7, 9, 1, 2, 0, 5, 7, 9, 3, 4].map .whole := rfl
  exact Json.read_write_of_digits (shaped_sampleRanges 988) hnumbers (by decide)

theorem listsPasses_sampleRanges :
    ListsPasses sampleRanges [(passKey, ⟨1, 2⟩), (passKey, ⟨3, 4⟩)] := by
  have hlists : ∀ start stop : Int, List.Forall₂ ListsPass
      (list "render_passes" (passDocument start stop)) [(passKey, ⟨.whole start, .whole stop⟩)] := by
    intro start stop
    exact .cons ⟨⟨_, rfl, rfl⟩, rfl, rfl, rfl, rfl, rfl⟩ .nil
  exact ⟨_, rfl, List.rel_append (hlists 1 2) (hlists 3 4)⟩

/-- The later range is found, also for a key with the double `5.0` in place of `5`. -/
theorem renderPasses_finds_last_sample :
    letI := Zstd.Blocks.codec
    let files := sampleFiles (Text.Utf8.encode sampleRanges.write.toList)
    let five : Number := .double (Number.Binary64.assemble false 0x4014000000000000)
    TextFile.read files samplePath = .ok sampleRanges.write.toList ∧
      Json.read sampleRanges.write.toList = .ok sampleRanges ∧
      ∃ table, renderPasses files samplePath = .ok table ∧
        table.lookup ⟨some 0, five, 7, 9⟩ = some ⟨3, 4⟩ ∧ table.lookup ⟨none, five, 7, 9⟩ = none := by
  let codec := Zstd.Blocks.codec
  intro files five
  have htext := read_encode (bytes_sampleFiles (Text.Utf8.encode sampleRanges.write.toList))
  have hform : InputKind.renderPasses.Grammar sampleRanges :=
    (InputKind.decides_renderPassesShape _).mp rfl
  obtain ⟨-, -, hloaded⟩ := renderPasses_finds_last htext read_sampleRanges
  obtain ⟨entries, hlists, -, htable⟩ := hloaded hform
  obtain rfl := hlists.unique listsPasses_sampleRanges
  obtain ⟨table, hload, hlookup⟩ := htable (by decide +kernel)
  have hsame : passKey.Same ⟨some 0, five, 7, 9⟩ := ⟨rfl, by decide +kernel, rfl, rfl⟩
  refine ⟨htext, read_sampleRanges, table, hload, ?_, ?_⟩
  · exact ((hlookup _).1 ⟨3, 4⟩).mpr ⟨[_], passKey, [], rfl, hsame, List.forall_mem_nil _⟩
  · refine (hlookup _).2.mpr ?_
    intro e he hsame
    have horder : e.1.order = some 0 := by
      rcases List.mem_pair.mp he with rfl | rfl <;> rfl
    have hplaces := hsame.order
    rw [horder] at hplaces
    exact nomatch hplaces

end Input
end RenderTrace
