import RenderTrace.Proofs.Input.RenderPasses

/-!
# Entries that are added, some of them in vain

Entries are added one after the other to a table that is kept (`RenderPassTable.insert`). An entry is
refused for nothing but a range that ends before it starts, and the table is then as it was
(`run_insert_of_inverts`); so what is left is the table of the entries that were not refused
(`run_insertAll`). `RenderPassTable.insertAll_finds_last` says what a key finds in it, in terms of the
values of the numbers.
-/

namespace RenderTrace
open RenderPass

/-! ## Numbers that have values -/

namespace Number

theorem Value.less_or_eq_of_not_less {a b : Value} (ha : a ≠ .undefined) (hb : b ≠ .undefined)
    (h : ¬ b.less a = true) : a.less b = true ∨ a = b := by
  cases a with
  | undefined => exact absurd rfl ha
  | finite p =>
    cases b with
    | undefined => exact absurd rfl hb
    | finite q =>
      rcases lt_trichotomy p q with hlt | heq | hgt
      · exact .inl (decide_eq_true hlt)
      · exact .inr (congrArg Value.finite heq)
      · exact absurd (decide_eq_true hgt) h
    | infinite n => cases n <;> simp_all [Value.less]
  | infinite m =>
    cases b with
    | undefined => exact absurd rfl hb
    | finite q => cases m <;> simp_all [Value.less]
    | infinite n => cases m <;> cases n <;> simp_all [Value.less]

/-- A number is less than another one or equal to it; a number without a value is neither. -/
def AtMost (m n : Number) : Prop := m < n ∨ (m == n) = true

theorem atMost_of_not_lt {m n : Number} (hm : m.value ≠ .undefined) (hn : n.value ≠ .undefined)
    (h : ¬ n < m) : m.AtMost n := by
  obtain hless | hsame := Value.less_or_eq_of_not_less hm hn h
  · exact .inl hless
  · exact .inr (beq_iff.mpr ⟨hsame, hm⟩)

theorem beq_self_iff {n : Number} : (n == n) = true ↔ n.value ≠ .undefined := by
  rw [beq_iff, eq_self, true_and]

end Number

namespace RenderPass

structure Range.Defined (r : Range) : Prop where
  start : r.start.value ≠ .undefined
  stop : r.stop.value ≠ .undefined

structure Key.Defined (k : Key) : Prop where
  order : ∀ n, k.order = some n → n.value ≠ .undefined
  commandBuffer : k.commandBuffer.value ≠ .undefined
  renderPass : k.renderPass.value ≠ .undefined
  renderTarget : k.renderTarget.value ≠ .undefined

/-- Two keys have the same numbers, however they are written. -/
structure Key.Equals (a b : Key) : Prop where
  defined : a.Defined
  same : a.Same b

theorem Key.beq_self_iff {k : Key} : (k == k) = true ↔ k.Defined := by
  have horder : (k.order == k.order) = true ↔ ∀ n, k.order = some n → n.value ≠ .undefined := by
    cases k.order with
    | none => simp
    | some n =>
      show (n == n) = true ↔ _
      simp [Number.beq_self_iff]
  rw [Key.beq_iff, horder, Number.beq_self_iff, Number.beq_self_iff, Number.beq_self_iff]
  constructor
  · rintro ⟨ho, hb, hp, ht⟩
    exact ⟨ho, hb, hp, ht⟩
  · rintro ⟨ho, hb, hp, ht⟩
    exact ⟨ho, hb, hp, ht⟩

theorem Key.beq_iff_equals {a b : Key} : (a == b) = true ↔ a.Equals b := by
  constructor
  · intro h
    have hself : (a == a) = true := BEq.trans h (BEq.symm h)
    exact ⟨beq_self_iff.mp hself, (beq_iff_same hself).mp h⟩
  · rintro ⟨hdefined, hsame⟩
    exact (beq_iff_same (beq_self_iff.mpr hdefined)).mpr hsame

instance (a b : Key) : Decidable (a.Equals b) := decidable_of_iff _ Key.beq_iff_equals

end RenderPass

namespace RenderPassTable

variable {t : RenderPassTable} {e : Key × Range} {entries : List (Key × Range)}

/-! ## Adding to a table that is kept -/

/-- Adds an entry to the table at hand. -/
def insert (e : Key × Range) : ExceptT Inverted (StateM RenderPassTable) Unit := do
  set (← (← get).add e.1 e.2)

/-- Adds entries one after the other, also behind one that is refused; gives what came of each. -/
def insertAll (entries : List (Key × Range)) : StateM RenderPassTable (List (Except Inverted Unit)) :=
  entries.mapM fun e => (insert e).run

theorem run_insert : (insert e).run.run t = match t.add e.1 e.2 with
    | .ok t' => (.ok (), t')
    | .error i => (.error i, t) := by
  show StateT.run (ExceptT.bindCont _ (t.add e.1 e.2)) t = _
  cases t.add e.1 e.2 <;> rfl

theorem run_insert_of_inverts (h : Inverts e) : (insert e).run.run t = (.error ⟨e.1, e.2⟩, t) := by
  have hadd : t.add e.1 e.2 = .error ⟨e.1, e.2⟩ := if_pos h
  rw [run_insert, hadd]

theorem run_insert_of_not (h : ¬ Inverts e) :
    (insert e).run.run t = (.ok (), ⟨put e.1 e.2 t.entries⟩) := by
  have hadd : t.add e.1 e.2 = .ok ⟨put e.1 e.2 t.entries⟩ := if_neg h
  rw [run_insert, hadd]

theorem Built.run_insert (h : t.Built) : ((insert e).run.run t).2.Built := by
  rw [RenderPassTable.run_insert]
  cases hadd : t.add e.1 e.2 with
  | error i => exact h
  | ok t' => exact h.add hadd

theorem run_insertAll_cons : (insertAll (e :: entries)).run t =
    ((((insert e).run.run t).1 :: ((insertAll entries).run ((insert e).run.run t).2).1),
      ((insertAll entries).run ((insert e).run.run t).2).2) := by
  rw [insertAll, List.mapM_cons]
  rfl

theorem run_insertAll : (insertAll entries).run t =
    (entries.map fun e => if Inverts e then .error ⟨e.1, e.2⟩ else .ok (),
      ⟨(entries.filter fun e => ¬ Inverts e).foldl (fun acc e => put e.1 e.2 acc) t.entries⟩) := by
  induction entries generalizing t with
  | nil => rfl
  | cons e entries ih =>
    rw [run_insertAll_cons]
    by_cases h : Inverts e
    · rw [run_insert_of_inverts h, ih]
      simp [h]
    · rw [run_insert_of_not h, ih]
      simp [h]

theorem Built.run_insertAll (h : t.Built) : ((insertAll entries).run t).2.Built := by
  induction entries generalizing t with
  | nil => exact h
  | cons e entries ih =>
    rw [run_insertAll_cons]
    exact ih h.run_insert

/-! ## What a key finds -/

/-- What came of each of some entries that are added to an empty table. -/
def replies (entries : List (Key × Range)) : List (Except Inverted Unit) :=
  ((insertAll entries).run empty).1

/-- The table that is left when some entries were added to an empty one. -/
def tableAfter (entries : List (Key × Range)) : RenderPassTable := ((insertAll entries).run empty).2

theorem built_tableAfter : (tableAfter entries).Built := Built.empty.run_insertAll

theorem tableAfter_concat_of_inverts (h : Inverts e) :
    tableAfter (entries ++ [e]) = tableAfter entries := by
  simp [tableAfter, run_insertAll, List.filter_append, h]

theorem lookup_tableAfter (key : Key) : (tableAfter entries).lookup key =
    (entries.reverse.find? fun e => ¬ Inverts e ∧ e.1 == key).map (·.2) := by
  have hentries : (tableAfter entries).entries =
      (entries.filter fun e => ¬ Inverts e).foldl (fun acc e => put e.1 e.2 acc) [] := by
    rw [tableAfter, run_insertAll]
    rfl
  have hfind := putsEntries.find?_foldl (entries.filter fun e => ¬ Inverts e) key
  rw [← hentries, ← List.filter_reverse, List.find?_filter] at hfind
  show ((tableAfter entries).entries.find? fun e => e.1 == key).map (·.2) = _
  simpa using hfind

theorem lookup_tableAfter_eq_some_iff {key : Key} {range : Range} :
    (tableAfter entries).lookup key = some range ↔ ∃ before k after,
      LastWith (fun e => ¬ Inverts e ∧ e.1.Equals key) entries before (k, range) after := by
  rw [lookup_tableAfter, value_find?_reverse_eq_some_iff]
  simp only [decide_eq_true_eq, Key.beq_iff_equals]

theorem lookup_tableAfter_eq_none_iff {key : Key} :
    (tableAfter entries).lookup key = none ↔ ∀ e ∈ entries, ¬ Inverts e → ¬ e.1.Equals key := by
  rw [lookup_tableAfter, Option.map_eq_none_iff, List.find?_eq_none]
  simp only [List.mem_reverse, decide_eq_true_eq, Key.beq_iff_equals, not_and]

theorem atMost_of_lookup {key : Key} {range : Range} (h : (tableAfter entries).lookup key = some range)
    (hdefined : range.Defined) : range.start.AtMost range.stop :=
  Number.atMost_of_not_lt hdefined.start hdefined.stop (built_tableAfter.lookup h)

/-- Entries are added one after the other to a table that is empty at first, also behind one that is
refused. An entry is refused just if its range ends before it starts, and every key then finds what it
found before. At the end a key finds the range of the last entry that was not refused and has the same
numbers, however they are written, and nothing if there is no such entry. No range that is found ends
before it starts, so that it starts at most where it ends, unless a bound has no value to compare. -/
theorem insertAll_finds_last (entries : List (Key × Range)) :
    replies entries = (entries.map fun e => if Inverts e then .error ⟨e.1, e.2⟩ else .ok ()) ∧
    (∀ e, Inverts e → ∀ key,
      (tableAfter (entries ++ [e])).lookup key = (tableAfter entries).lookup key) ∧
    ∀ key,
      (∀ range, (tableAfter entries).lookup key = some range ↔ ∃ before k after,
        LastWith (fun e => ¬ Inverts e ∧ e.1.Equals key) entries before (k, range) after) ∧
      ((tableAfter entries).lookup key = none ↔
        ∀ e ∈ entries, ¬ Inverts e → ¬ e.1.Equals key) ∧
      ∀ range, (tableAfter entries).lookup key = some range →
        ¬ range.stop < range.start ∧ (range.Defined → range.start.AtMost range.stop) := by
  refine ⟨?_, fun e he key => ?_, fun key => ⟨fun range => lookup_tableAfter_eq_some_iff,
    lookup_tableAfter_eq_none_iff, fun range h => ⟨built_tableAfter.lookup h, atMost_of_lookup h⟩⟩⟩
  · rw [replies, run_insertAll]
  · rw [tableAfter_concat_of_inverts he]

/-- A key that is written with the double `5.0`. -/
def doubleKey : Key := ⟨some 0, .double (Number.Binary64.assemble false 0x4014000000000000), 7, 9⟩

/-- Four entries, the second of which is refused. The first three have the same key, and that of the
last has no order. -/
def sampleEntries : List (Key × Range) :=
  [(⟨some 0, 5, 7, 9⟩, ⟨1, 2⟩), (doubleKey, ⟨6, 4⟩), (doubleKey, ⟨3, 4⟩), (⟨none, 5, 7, 9⟩, ⟨8, 8⟩)]

/-- The range that was added last is found and not the one that was refused, and the key without an
order finds its own, which is empty. -/
theorem insertAll_finds_last_sample :
    Inverts (doubleKey, ⟨6, 4⟩) ∧
      replies sampleEntries = [.ok (), .error ⟨doubleKey, ⟨6, 4⟩⟩, .ok (), .ok ()] ∧
      (tableAfter (sampleEntries ++ [(doubleKey, ⟨6, 4⟩)])).lookup ⟨some 0, 5, 7, 9⟩ =
        (tableAfter sampleEntries).lookup ⟨some 0, 5, 7, 9⟩ ∧
      (tableAfter sampleEntries).lookup ⟨some 0, 5, 7, 9⟩ = some ⟨3, 4⟩ ∧
      (tableAfter sampleEntries).lookup { doubleKey with order := none } = some ⟨8, 8⟩ ∧
      (tableAfter sampleEntries).lookup ⟨some 1, 5, 7, 9⟩ = none ∧
      Range.Defined ⟨8, 8⟩ ∧ Number.AtMost 8 8 := by
  obtain ⟨hreplies, hrefused, hfinds⟩ := insertAll_finds_last sampleEntries
  have hinverts : Inverts (doubleKey, ⟨6, 4⟩) := by decide +kernel
  have hdefined : Range.Defined ⟨8, 8⟩ := ⟨by decide +kernel, by decide +kernel⟩
  have hlater : (tableAfter sampleEntries).lookup ⟨some 0, 5, 7, 9⟩ = some ⟨3, 4⟩ :=
    ((hfinds _).1 _).mpr ⟨sampleEntries.take 2, doubleKey, sampleEntries.drop 3,
      rfl, by decide +kernel, by decide +kernel⟩
  have hempty : (tableAfter sampleEntries).lookup { doubleKey with order := none } = some ⟨8, 8⟩ :=
    ((hfinds _).1 _).mpr ⟨sampleEntries.take 3, ⟨none, 5, 7, 9⟩, [],
      rfl, by decide +kernel, List.forall_mem_nil _⟩
  have hnone : (tableAfter sampleEntries).lookup ⟨some 1, 5, 7, 9⟩ = none :=
    (hfinds _).2.1.mpr (by decide +kernel)
  refine ⟨hinverts, ?_, hrefused _ hinverts _, hlater, hempty, hnone, hdefined,
    ((hfinds _).2.2 _ hempty).2 hdefined⟩
  rw [hreplies]
  rfl

end RenderPassTable
end RenderTrace
