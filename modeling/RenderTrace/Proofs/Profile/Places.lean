import RenderTrace.Proofs.Entries
import RenderTrace.Proofs.Profile.Submission

/-!
# The place of a submission

The place of an id is the number of valid submissions before the last one of that id (`PlaceOf`), which
is where the id stands last among those of the valid submissions (`isLast_validIds_iff`). Spurious
submissions can be left out, as they take no place (`resolve_filter`) and only warn. `resolve_places`
puts this together for rows in any order and with any repetitions.
-/

namespace RenderTrace.SubmissionOrder

variable {τ : Type} {rows : List (Submission τ)} {s : Submission τ} {id : τ} {n : Nat}

/-- A valid submission of an id. -/
structure Submission.ValidOf (id : τ) (s : Submission τ) : Prop where
  same : s.id = id
  valid : s.isSpurious = false

def countValid (rows : List (Submission τ)) : Nat := rows.countP fun s => !s.isSpurious

/-- So many valid submissions are before the last valid one of an id. -/
def PlaceOf (rows : List (Submission τ)) (id : τ) (n : Nat) : Prop :=
  ∃ before s after, LastWith (Submission.ValidOf id) rows before s after ∧ n = countValid before

theorem not_placeOf_nil : ¬ PlaceOf [] id n := by
  rintro ⟨before, s, after, h, -⟩
  exact nomatch h.mem

theorem placeOf_concat_self (hs : s.ValidOf id) :
    PlaceOf (rows ++ [s]) id n ↔ n = countValid rows := by
  simp only [PlaceOf, lastWith_concat_self hs]
  constructor
  · rintro ⟨_, _, _, ⟨rfl, -, -⟩, hn⟩
    exact hn
  · intro hn
    exact ⟨rows, s, [], ⟨rfl, rfl, rfl⟩, hn⟩

theorem placeOf_concat_of_not (hs : ¬ s.ValidOf id) :
    PlaceOf (rows ++ [s]) id n ↔ PlaceOf rows id n := by
  simp only [PlaceOf, lastWith_concat_of_not hs]
  constructor
  · rintro ⟨before, last, -, ⟨after, -, h⟩, hn⟩
    exact ⟨before, last, after, h, hn⟩
  · rintro ⟨before, last, after, h, hn⟩
    exact ⟨before, last, _, ⟨after, rfl, h⟩, hn⟩

theorem length_validIds (rows : List (Submission τ)) :
    (validIds rows).length = countValid rows := by
  rw [validIds, List.length_map, countValid, List.countP_eq_length_filter]

theorem isLast_validIds_iff : IsLast (validIds rows) id n ↔ PlaceOf rows id n := by
  induction rows using List.reverseRecOn with
  | nil =>
    refine iff_of_false ?_ not_placeOf_nil
    rintro ⟨hget, -⟩
    exact nomatch hget
  | append_singleton rows s ih =>
    rw [validIds_concat]
    by_cases hspurious : s.isSpurious = true
    · have hs : ¬ s.ValidOf id := fun h => Bool.false_ne_true (h.valid.symm.trans hspurious)
      rw [if_pos hspurious, placeOf_concat_of_not hs, ih]
    rw [if_neg hspurious]
    by_cases hid : s.id = id
    · subst hid
      rw [isLast_concat_self, placeOf_concat_self ⟨rfl, Bool.eq_false_iff.mpr hspurious⟩,
        length_validIds]
    · rw [isLast_concat_of_ne hid, placeOf_concat_of_not fun h => hid h.same, ih]

theorem exists_placeOf_iff :
    (∃ n, PlaceOf rows id n) ↔ ∃ s ∈ rows, s.ValidOf id := by
  rw [← exists_lastWith_iff]
  constructor
  · rintro ⟨n, before, s, after, h, -⟩
    exact ⟨before, s, after, h⟩
  · rintro ⟨before, s, after, h⟩
    exact ⟨_, before, s, after, h, rfl⟩

/-! ## Spurious submissions -/

theorem assign_filter [BEq τ] (place : Nat) (entries : List (τ × Number))
    (rows : List (Submission τ)) :
    assign place entries (rows.filter fun s => !s.isSpurious) = assign place entries rows := by
  induction rows generalizing place entries with
  | nil => rfl
  | cons s rows ih =>
    cases h : s.isSpurious with
    | true =>
      rw [List.filter_cons_of_neg (by simp [h]), ih]
      simp [assign, h]
    | false =>
      rw [List.filter_cons_of_pos (by simp [h])]
      simp [assign, h, ih]

theorem resolve_filter [BEq τ] (rows : List (Submission τ)) :
    resolve (rows.filter fun s => !s.isSpurious) = resolve rows :=
  congrArg mk (assign_filter 0 [] rows)

theorem warnings_insert [Numeric τ] {s : Submission τ} (h : s.isSpurious = true)
    (before after : List (Submission τ)) : warnings (before ++ s :: after) =
      warnings before ++ .spuriousSubmission (toNumber s.id) :: warnings after := by
  simp [warnings, h]

theorem forall₂_warnings [Numeric τ] (rows : List (Submission τ)) : List.Forall₂
    (fun s warning => warning = .spuriousSubmission (toNumber s.id))
    (rows.filter Submission.isSpurious) (warnings rows) := by
  rw [warnings, List.forall₂_map_right_iff, List.forall₂_same]
  exact fun s _ => rfl

section Places

variable [BEq τ] [LawfulBEq τ]

theorem exists_place_iff : (∃ p, (resolve rows).get? id = some p) ↔ ∃ s ∈ rows, s.ValidOf id := by
  rw [← exists_placeOf_iff]
  simp only [get?_resolve_eq_some_iff, isLast_validIds_iff]
  constructor
  · rintro ⟨-, n, -, hn⟩
    exact ⟨n, hn⟩
  · rintro ⟨n, hn⟩
    exact ⟨_, n, rfl, hn⟩

theorem eq_of_place_beq {a b : τ} {p q : Number} (ha : (resolve rows).get? a = some p)
    (hb : (resolve rows).get? b = some q) (hpq : (p == q) = true) : a = b := by
  obtain ⟨m, rfl, hm, -⟩ := get?_resolve_eq_some_iff.mp ha
  obtain ⟨n, rfl, hn, -⟩ := get?_resolve_eq_some_iff.mp hb
  obtain rfl : m = n := Int.ofNat.inj (Number.whole_beq_whole.mp hpq)
  exact Option.some.inj (hm.symm.trans hn)

variable [Numeric τ] [LinearOrder τ]

/-- Just the ids with a valid submission have a place, the number of valid submissions before the last
one of the id, and so different ids have different places. Spurious rows, wherever they stand, change
nothing but the warnings, one for each. In rows of ascending ids a smaller id has a smaller place. -/
theorem resolve_places (rows : List (Submission τ)) :
    (∀ id, (∃ p, (resolve rows).get? id = some p) ↔ ∃ s ∈ rows, s.ValidOf id) ∧
    (∀ id p, (resolve rows).get? id = some p ↔ ∃ n : Nat, p = .whole n ∧ PlaceOf rows id n) ∧
    (∀ a b p q, (resolve rows).get? a = some p → (resolve rows).get? b = some q →
      (p == q) = true → a = b) ∧
    (∀ rows', (rows'.filter fun s => !s.isSpurious) = (rows.filter fun s => !s.isSpurious) →
      resolve rows' = resolve rows) ∧
    (∀ before s after, rows = before ++ s :: after → s.isSpurious = true →
      resolve (before ++ after) = resolve rows ∧ warnings rows =
        warnings before ++ .spuriousSubmission (toNumber s.id) :: warnings after) ∧
    List.Forall₂ (fun s warning => warning = .spuriousSubmission (toNumber s.id))
      (rows.filter Submission.isSpurious) (warnings rows) ∧
    ((rows.Pairwise fun a b => a.id ≤ b.id) → ∀ a b p q, a < b → (resolve rows).get? a = some p →
      (resolve rows).get? b = some q → p < q) := by
  have hplaces : ∀ rows', (rows'.filter fun s => !s.isSpurious) =
      (rows.filter fun s => !s.isSpurious) → resolve rows' = resolve rows := by
    intro rows' hrows
    rw [← resolve_filter rows', hrows, resolve_filter]
  refine ⟨fun id => exists_place_iff, fun id p => ?_, fun _ _ _ _ => eq_of_place_beq, hplaces,
    fun before s after hrows hs => ?_, forall₂_warnings rows, fun h _ _ _ _ => place_lt_place h⟩
  · rw [get?_resolve_eq_some_iff]
    simp only [isLast_validIds_iff]
  · have hvalid : ((before ++ after).filter fun s => !s.isSpurious) =
        (rows.filter fun s => !s.isSpurious) := by
      rw [hrows]
      simp [hs]
    exact ⟨hplaces _ hvalid, hrows ▸ warnings_insert hs before after⟩

/-- Two submissions of one id, a spurious one and one of a further id. -/
def sampleRows : List (Submission Int) := [⟨5, 1⟩, ⟨5, 2⟩, ⟨6, 0⟩, ⟨8, 1⟩]

theorem resolve_places_sample :
    (sampleRows.Pairwise fun a b => a.id ≤ b.id) ∧
      (resolve sampleRows).get? 5 = some (.whole 1) ∧ (resolve sampleRows).get? 6 = none ∧
      (resolve sampleRows).get? 8 = some (.whole 2) ∧
      warnings sampleRows = [.spuriousSubmission (.whole 6)] ∧
      resolve [⟨5, 1⟩, ⟨5, 2⟩, ⟨8, 1⟩] = resolve sampleRows ∧
      Number.whole 1 < Number.whole 2 := by
  have hsorted : sampleRows.Pairwise fun a b => a.id ≤ b.id := by decide
  obtain ⟨hmapped, hplace, -, -, hdrop, -, hascending⟩ := resolve_places sampleRows
  have hafter : ∀ s ∈ ([⟨6, 0⟩, ⟨8, 1⟩] : List (Submission Int)), s.id ≠ 5 := by decide
  have hfive : (resolve sampleRows).get? 5 = some (.whole 1) := (hplace 5 _).mpr
    ⟨1, rfl, [⟨5, 1⟩], ⟨5, 2⟩, _, ⟨rfl, ⟨rfl, rfl⟩, fun s hs h => hafter s hs h.same⟩, rfl⟩
  have height : (resolve sampleRows).get? 8 = some (.whole 2) := (hplace 8 _).mpr
    ⟨2, rfl, [⟨5, 1⟩, ⟨5, 2⟩, ⟨6, 0⟩], ⟨8, 1⟩, [], ⟨rfl, ⟨rfl, rfl⟩, List.forall_mem_nil _⟩, rfl⟩
  have hsix : (resolve sampleRows).get? 6 = none := by
    rw [Option.eq_none_iff_forall_ne_some]
    intro p hp
    obtain ⟨s, hs, hid, hvalid⟩ := (hmapped 6).mp ⟨p, hp⟩
    revert s
    decide +kernel
  obtain ⟨hsame, hwarned⟩ := hdrop [⟨5, 1⟩, ⟨5, 2⟩] ⟨6, 0⟩ [⟨8, 1⟩] rfl rfl
  have hless := hascending hsorted 5 8 _ _ (by decide) hfive height
  exact ⟨hsorted, hfive, hsix, height, hwarned, hsame, hless⟩

end Places

end RenderTrace.SubmissionOrder
