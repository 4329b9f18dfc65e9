import Mathlib.Data.Int.Order.Basic
import Mathlib.Data.List.Dedup
import Mathlib.Data.List.Induction
import Mathlib.Order.Lattice
import RenderTrace.Profile.Submission

/-!
# Places of submissions

Among the ids of the valid submissions (`validIds`) the place of an id is the index of its last
occurrence (`get?_resolve_eq_some_iff`). For rows in ascending order the places are therefore
ascending too, but they are dense only if no id comes twice (`dense_resolve_iff`): a repeated id
takes a further place and leaves the one before it to nobody.
-/

namespace RenderTrace

theorem Number.whole_lt_whole {m n : Int} : (Number.whole m < Number.whole n) ↔ m < n := by
  change decide ((m : Rat) < n) = true ↔ m < n
  rw [decide_eq_true_iff, Rat.intCast_lt_intCast]

namespace SubmissionOrder

variable {τ : Type}

def validIds (rows : List (Submission τ)) : List τ :=
  (rows.filter fun s => !s.isSpurious).map Submission.id

theorem validIds_concat (rows : List (Submission τ)) (s : Submission τ) :
    validIds (rows ++ [s]) = if s.isSpurious then validIds rows else validIds rows ++ [s.id] := by
  cases h : s.isSpurious <;> simp [validIds, h]

/-- The last occurrence of an id is at an index. -/
def IsLast (ids : List τ) (id : τ) (n : Nat) : Prop :=
  ids[n]? = some id ∧ id ∉ ids.drop (n + 1)

theorem isLast_concat_self {ids : List τ} {id : τ} {n : Nat} :
    IsLast (ids ++ [id]) id n ↔ n = ids.length := by
  refine ⟨fun ⟨hget, hdrop⟩ => ?_, fun h => ?_⟩
  · by_contra hne
    have hlt : n < (ids ++ [id]).length := (List.getElem?_eq_some_iff.mp hget).1
    rw [List.length_append, List.length_singleton] at hlt
    rw [List.drop_append_of_le_length (by omega)] at hdrop
    exact hdrop (List.mem_append_right _ List.mem_cons_self)
  · subst h
    exact ⟨List.getElem?_concat_length, by simp⟩

theorem isLast_concat_of_ne {ids : List τ} {a id : τ} (h : a ≠ id) {n : Nat} :
    IsLast (ids ++ [a]) id n ↔ IsLast ids id n := by
  by_cases hn : n < ids.length
  · rw [IsLast, IsLast, List.getElem?_append_left hn, List.drop_append_of_le_length hn,
      List.mem_append, List.mem_singleton, or_iff_left (Ne.symm h)]
  · have hleft : ¬ IsLast (ids ++ [a]) id n := by
      rintro ⟨hget, -⟩
      rw [List.getElem?_append_right (Nat.le_of_not_lt hn)] at hget
      exact h (List.mem_singleton.mp (List.mem_of_getElem? hget)).symm
    have hright : ¬ IsLast ids id n := fun hlast =>
      hn (List.getElem?_eq_some_iff.mp hlast.1).1
    exact iff_of_false hleft hright

/-! ## Resolving -/

section Resolve

variable [BEq τ]

theorem assign_append (place : Nat) (entries : List (τ × Number))
    (rows more : List (Submission τ)) : assign place entries (rows ++ more) =
      assign (place + (validIds rows).length) (assign place entries rows) more := by
  induction rows generalizing place entries with
  | nil => rfl
  | cons s rows ih =>
    cases h : s.isSpurious
    · simp [assign, validIds, h, ih, Nat.add_comm 1, Nat.add_assoc]
    · simp [assign, validIds, h, ih]

theorem entries_resolve_concat (rows : List (Submission τ)) (s : Submission τ) :
    (resolve (rows ++ [s])).entries = if s.isSpurious then (resolve rows).entries
      else put s.id (.whole (validIds rows).length) (resolve rows).entries := by
  simp only [resolve, assign_append, assign, Nat.zero_add]

variable [LawfulBEq τ]

theorem lookup_put_self (id : τ) (place : Number) (entries : List (τ × Number)) :
    (put id place entries).lookup id = some place := by
  induction entries with
  | nil => simp [put]
  | cons e entries ih =>
    obtain ⟨i, p⟩ := e
    by_cases h : i = id
    · simp [put, h]
    · have h' : (id == i) = false := beq_eq_false_iff_ne.mpr (Ne.symm h)
      simp [put, h, List.lookup_cons, h', ih]

theorem lookup_put_of_ne {id other : τ} (h : id ≠ other) (place : Number)
    (entries : List (τ × Number)) :
    (put id place entries).lookup other = entries.lookup other := by
  have hother : (other == id) = false := beq_eq_false_iff_ne.mpr (Ne.symm h)
  induction entries with
  | nil => simp [put, List.lookup_cons, hother]
  | cons e entries ih =>
    obtain ⟨i, p⟩ := e
    by_cases hi : i = id
    · simp [put, hi, List.lookup_cons, hother]
    · simp [put, hi, List.lookup_cons, ih]

theorem get?_resolve_eq_some_iff {rows : List (Submission τ)} {id : τ} {p : Number} :
    (resolve rows).get? id = some p ↔ ∃ n : Nat, p = .whole n ∧ IsLast (validIds rows) id n := by
  induction rows using List.reverseRecOn with
  | nil => simp [resolve, assign, get?, validIds, IsLast]
  | append_singleton rows s ih =>
    rw [get?] at ih ⊢
    rw [entries_resolve_concat, validIds_concat]
    by_cases hspurious : s.isSpurious = true
    · rw [if_pos hspurious, if_pos hspurious, ih]
    rw [if_neg hspurious, if_neg hspurious]
    by_cases hid : s.id = id
    · subst hid
      rw [lookup_put_self, Option.some.injEq]
      simp only [isLast_concat_self, exists_eq_right]
      exact eq_comm
    · rw [lookup_put_of_ne hid, ih]
      simp only [isLast_concat_of_ne hid]

end Resolve

/-! ## Dense places -/

theorem isLast_of_nodup {ids : List τ} (h : ids.Nodup) {n : Nat} (hn : n < ids.length) :
    IsLast ids ids[n] n := by
  refine ⟨List.getElem?_eq_getElem hn, ?_⟩
  have hrest : (ids.drop n).Nodup := h.sublist (List.drop_sublist n ids)
  rw [List.drop_eq_getElem_cons hn] at hrest
  exact (List.nodup_cons.mp hrest).1

theorem pairwise_validIds [LE τ] {rows : List (Submission τ)}
    (h : rows.Pairwise fun a b => a.id ≤ b.id) : (validIds rows).Pairwise (· ≤ ·) :=
  List.pairwise_map.mpr (h.filter _)

section Dense

variable [BEq τ] [LawfulBEq τ] [LinearOrder τ]

/-- The places are the numbers from zero up to the number of different ids. -/
def Dense (rows : List (Submission τ)) : Prop :=
  ∀ p, (∃ id, (resolve rows).get? id = some p) ↔
    ∃ n : Nat, n < (validIds rows).dedup.length ∧ p = .whole n

theorem dense_of_nodup {rows : List (Submission τ)} (h : (validIds rows).Nodup) : Dense rows := by
  intro p
  rw [h.dedup]
  constructor
  · rintro ⟨id, hid⟩
    obtain ⟨n, rfl, hlast⟩ := get?_resolve_eq_some_iff.mp hid
    exact ⟨n, (List.getElem?_eq_some_iff.mp hlast.1).1, rfl⟩
  · rintro ⟨n, hn, rfl⟩
    exact ⟨_, get?_resolve_eq_some_iff.mpr ⟨n, rfl, isLast_of_nodup h hn⟩⟩

theorem Dense.nodup {rows : List (Submission τ)} (h : Dense rows) : (validIds rows).Nodup := by
  rcases List.eq_nil_or_concat' (validIds rows) with hnil | ⟨ids, id, hconcat⟩
  · rw [hnil]
    exact List.nodup_nil
  have hlast : (resolve rows).get? id = some (.whole ids.length) := by
    refine get?_resolve_eq_some_iff.mpr ⟨ids.length, rfl, ?_⟩
    rw [hconcat]
    exact isLast_concat_self.mpr rfl
  obtain ⟨n, hn, hplace⟩ := (h _).mp ⟨id, hlast⟩
  have hids : ids.length = n := Int.ofNat.inj (Number.whole.inj hplace)
  have hlength : (validIds rows).length = ids.length + 1 := by
    rw [hconcat, List.length_append, List.length_singleton]
  have hsublist := List.dedup_sublist (validIds rows)
  have hdedup : (validIds rows).dedup = validIds rows :=
    hsublist.eq_of_length (Nat.le_antisymm hsublist.length_le (by omega))
  exact List.dedup_eq_self.mp hdedup

theorem place_lt_place {rows : List (Submission τ)} (hsorted : rows.Pairwise fun a b => a.id ≤ b.id)
    {a b : τ} {p q : Number} (hab : a < b) (ha : (resolve rows).get? a = some p)
    (hb : (resolve rows).get? b = some q) : p < q := by
  obtain ⟨m, rfl, hm, -⟩ := get?_resolve_eq_some_iff.mp ha
  obtain ⟨n, rfl, hn, -⟩ := get?_resolve_eq_some_iff.mp hb
  obtain ⟨hm', rfl⟩ := List.getElem?_eq_some_iff.mp hm
  obtain ⟨hn', rfl⟩ := List.getElem?_eq_some_iff.mp hn
  rw [Number.whole_lt_whole, Int.ofNat_lt]
  by_contra hle
  -- ids do not descend, so the greater id cannot stand first
  rcases Nat.lt_or_eq_of_le (Nat.le_of_not_lt hle) with hlt | rfl
  · have hids := List.pairwise_iff_getElem.mp (pairwise_validIds hsorted) n m hn' hm' hlt
    exact absurd hab (not_lt.mpr hids)
  · exact lt_irrefl _ hab

/-- In rows of ascending ids a smaller id has a smaller place, but the places are dense just if no
id has two valid submissions. -/
theorem dense_resolve_iff {rows : List (Submission τ)}
    (hsorted : rows.Pairwise fun a b => a.id ≤ b.id) :
    (∀ a b p q, a < b → (resolve rows).get? a = some p → (resolve rows).get? b = some q → p < q) ∧
      (Dense rows ↔ (validIds rows).Nodup) :=
  ⟨fun _ _ _ _ => place_lt_place hsorted, Dense.nodup, dense_of_nodup⟩

theorem dense_resolve_iff_sample :
    let rows : List (Submission Int) := [⟨100, 5⟩, ⟨101, 0⟩, ⟨102, 6⟩]
    (rows.Pairwise fun a b => a.id ≤ b.id) ∧ (validIds rows).Nodup ∧ Dense rows ∧
      (resolve rows).get? 100 = some (.whole 0) ∧ (resolve rows).get? 102 = some (.whole 1) := by
  intro rows
  have hsorted : rows.Pairwise fun a b => a.id ≤ b.id := by decide
  have hnodup : (validIds rows).Nodup := by decide +kernel
  exact ⟨hsorted, hnodup, (dense_resolve_iff hsorted).2.mpr hnodup, rfl, rfl⟩

/-- Two valid submissions of one id leave the first place to nobody. -/
theorem not_dense_resolve_of_repeated :
    let rows : List (Submission Int) := [⟨5, 1⟩, ⟨5, 2⟩, ⟨8, 1⟩]
    (rows.Pairwise fun a b => a.id ≤ b.id) ∧ (validIds rows).dedup.length = 2 ∧
      (resolve rows).get? 5 = some (.whole 1) ∧ (resolve rows).get? 8 = some (.whole 2) ∧
        ¬ Dense rows := by
  intro rows
  have hdistinct : (validIds rows).dedup.length = 2 := by decide +kernel
  refine ⟨by decide, hdistinct, rfl, rfl, fun h => ?_⟩
  obtain ⟨n, hn, hplace⟩ := (h (.whole 2)).mp ⟨8, rfl⟩
  have htwo : 2 = n := Int.ofNat.inj (Number.whole.inj hplace)
  rw [hdistinct] at hn
  omega

end Dense

end SubmissionOrder
end RenderTrace
