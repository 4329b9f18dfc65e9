import Mathlib.Data.List.Basic
import Mathlib.Data.List.Induction
import RenderTrace.Proofs.Number.Equality

/-!
# Entries that are set one after the other

A list has a first and a last element with a property just if it has any (`FirstWith`, `LastWith`). An
entry that is set takes the place of one with an equal key, or the last place (`PutsEntries`). So of the
entries that are set for a key the last one is found (`PutsEntries.find?_foldl`).
-/

namespace RenderTrace

variable {α : Type} {P : α → Prop} {l before after : List α} {a b : α}

/-! ## The first and the last element with a property -/

/-- A list at its first element with a property: what is before it, the element, what is behind it. -/
structure FirstWith (P : α → Prop) (l before : List α) (a : α) (after : List α) : Prop where
  parts : l = before ++ a :: after
  here : P a
  none_before : ∀ b ∈ before, ¬ P b

/-- A list at its last element with a property: what is before it, the element, what is behind it. -/
structure LastWith (P : α → Prop) (l before : List α) (a : α) (after : List α) : Prop where
  parts : l = before ++ a :: after
  here : P a
  none_after : ∀ b ∈ after, ¬ P b

theorem FirstWith.mem (h : FirstWith P l before a after) : a ∈ l := by
  rw [h.parts]
  simp

theorem LastWith.mem (h : LastWith P l before a after) : a ∈ l := by
  rw [h.parts]
  simp

theorem lastWith_congr {Q : α → Prop} (h : ∀ b ∈ l, P b ↔ Q b) :
    LastWith P l before a after ↔ LastWith Q l before a after := by
  constructor
  · intro hlast
    obtain ⟨rfl, ha, hafter⟩ := hlast
    exact ⟨rfl, (h a (by simp)).mp ha, fun b hb => mt (h b (by simp [hb])).mpr (hafter b hb)⟩
  · intro hlast
    obtain ⟨rfl, ha, hafter⟩ := hlast
    exact ⟨rfl, (h a (by simp)).mpr ha, fun b hb => mt (h b (by simp [hb])).mp (hafter b hb)⟩

theorem firstWith_cons_self (hb : P b) :
    FirstWith P (b :: l) before a after ↔ before = [] ∧ a = b ∧ after = l := by
  constructor
  · rintro ⟨hl, ha, hbefore⟩
    cases before with
    | nil =>
      obtain ⟨rfl, rfl⟩ := List.cons.inj hl
      exact ⟨rfl, rfl, rfl⟩
    | cons c before =>
      obtain ⟨rfl, -⟩ := List.cons.inj hl
      exact absurd hb (hbefore b List.mem_cons_self)
  · rintro ⟨rfl, rfl, rfl⟩
    exact ⟨rfl, hb, List.forall_mem_nil _⟩

theorem firstWith_cons_of_not (hb : ¬ P b) : FirstWith P (b :: l) before a after ↔
    ∃ rest, before = b :: rest ∧ FirstWith P l rest a after := by
  constructor
  · rintro ⟨hl, ha, hbefore⟩
    cases before with
    | nil =>
      obtain ⟨rfl, -⟩ := List.cons.inj hl
      exact absurd ha hb
    | cons c rest =>
      obtain ⟨rfl, hrest⟩ := List.cons.inj hl
      exact ⟨rest, rfl, hrest, ha, (List.forall_mem_cons.mp hbefore).2⟩
  · rintro ⟨rest, rfl, rfl, ha, hrest⟩
    exact ⟨rfl, ha, List.forall_mem_cons.mpr ⟨hb, hrest⟩⟩

theorem exists_firstWith_iff :
    (∃ before a after, FirstWith P l before a after) ↔ ∃ a ∈ l, P a := by
  constructor
  · rintro ⟨before, a, after, h⟩
    exact ⟨a, h.mem, h.here⟩
  · induction l with
    | nil => exact fun ⟨_, hmem, _⟩ => nomatch hmem
    | cons b l ih =>
      intro hany
      by_cases hb : P b
      · exact ⟨[], b, l, (firstWith_cons_self hb).mpr ⟨rfl, rfl, rfl⟩⟩
      · rw [List.exists_mem_cons_iff, or_iff_right hb] at hany
        obtain ⟨before, a, after, h⟩ := ih hany
        exact ⟨_, _, _, (firstWith_cons_of_not hb).mpr ⟨before, rfl, h⟩⟩

theorem lastWith_iff_reverse : LastWith P l before a after ↔
    FirstWith P l.reverse after.reverse a before.reverse := by
  constructor
  · rintro ⟨rfl, ha, hafter⟩
    exact ⟨by simp, ha, by simpa using hafter⟩
  · rintro ⟨hl, ha, hafter⟩
    exact ⟨by simpa using congrArg List.reverse hl, ha, by simpa using hafter⟩

theorem firstWith_reverse_iff : FirstWith P l.reverse before a after ↔
    LastWith P l after.reverse a before.reverse := by
  rw [lastWith_iff_reverse, List.reverse_reverse, List.reverse_reverse]

theorem exists_lastWith_iff : (∃ before a after, LastWith P l before a after) ↔ ∃ a ∈ l, P a := by
  constructor
  · rintro ⟨before, a, after, h⟩
    exact ⟨a, h.mem, h.here⟩
  · rintro ⟨a, hmem, ha⟩
    obtain ⟨before, c, after, h⟩ := exists_firstWith_iff.mpr ⟨a, List.mem_reverse.mpr hmem, ha⟩
    exact ⟨_, _, _, firstWith_reverse_iff.mp h⟩

theorem lastWith_concat_self (hb : P b) :
    LastWith P (l ++ [b]) before a after ↔ before = l ∧ a = b ∧ after = [] := by
  rw [lastWith_iff_reverse, List.reverse_concat, firstWith_cons_self hb, List.reverse_inj,
    List.reverse_eq_nil_iff]
  exact ⟨fun ⟨hafter, ha, hbefore⟩ => ⟨hbefore, ha, hafter⟩,
    fun ⟨hbefore, ha, hafter⟩ => ⟨hafter, ha, hbefore⟩⟩

theorem lastWith_concat_of_not (hb : ¬ P b) : LastWith P (l ++ [b]) before a after ↔
    ∃ rest, after = rest ++ [b] ∧ LastWith P l before a rest := by
  rw [lastWith_iff_reverse, List.reverse_concat, firstWith_cons_of_not hb]
  constructor
  · rintro ⟨rest, hafter, h⟩
    refine ⟨rest.reverse, by simpa using congrArg List.reverse hafter, ?_⟩
    rwa [lastWith_iff_reverse, List.reverse_reverse]
  · rintro ⟨rest, rfl, h⟩
    exact ⟨rest.reverse, by simp, lastWith_iff_reverse.mp h⟩

theorem find?_eq_some_iff_firstWith {test : α → Bool} : l.find? test = some a ↔
    ∃ before after, FirstWith (test · = true) l before a after := by
  rw [List.find?_eq_some_iff_append]
  constructor
  · rintro ⟨ha, before, after, hl, hbefore⟩
    exact ⟨before, after, hl, ha, by simpa using hbefore⟩
  · rintro ⟨before, after, hl, ha, hbefore⟩
    exact ⟨ha, before, after, hl, by simpa using hbefore⟩

theorem find?_reverse_eq_some_iff {test : α → Bool} : l.reverse.find? test = some a ↔
    ∃ before after, LastWith (test · = true) l before a after := by
  rw [find?_eq_some_iff_firstWith]
  constructor
  · rintro ⟨before, after, h⟩
    exact ⟨_, _, firstWith_reverse_iff.mp h⟩
  · rintro ⟨before, after, h⟩
    exact ⟨_, _, lastWith_iff_reverse.mp h⟩

theorem value_find?_reverse_eq_some_iff {κ β : Type} {test : κ × β → Bool} {entries : List (κ × β)}
    {value : β} : (entries.reverse.find? test).map (·.2) = some value ↔
      ∃ before k after, LastWith (test · = true) entries before (k, value) after := by
  rw [Option.map_eq_some_iff]
  simp only [find?_reverse_eq_some_iff]
  constructor
  · rintro ⟨⟨k, value⟩, ⟨before, after, hlast⟩, rfl⟩
    exact ⟨before, k, after, hlast⟩
  · rintro ⟨before, k, after, hlast⟩
    exact ⟨(k, value), ⟨before, after, hlast⟩, rfl⟩

/-! ## Setting entries -/

section Put

variable {κ β : Type} [BEq κ] {put : κ → β → List (κ × β) → List (κ × β)}

/-- An entry is set in place of the first one with an equal key, at the end if there is none. -/
structure PutsEntries (put : κ → β → List (κ × β) → List (κ × β)) : Prop where
  nil : ∀ key value, put key value [] = [(key, value)]
  cons : ∀ key value e rest, put key value (e :: rest) =
    if e.1 == key then (e.1, value) :: rest else e :: put key value rest

variable [PartialEquivBEq κ] (h : PutsEntries put)
include h

theorem PutsEntries.find? (key other : κ) (value : β) (entries : List (κ × β)) :
    ((put key value entries).find? fun e => e.1 == other).map (·.2) =
      if key == other then some value else (entries.find? fun e => e.1 == other).map (·.2) := by
  induction entries with
  | nil => cases hother : key == other <;> simp [h.nil, hother]
  | cons e entries ih =>
    rw [h.cons]
    cases hsame : e.1 == key with
    | true =>
      -- equal keys are found alike
      have halike : (e.1 == other) = (key == other) := BEq.congr_left hsame
      cases hother : key == other <;> simp [halike, hother]
    | false =>
      rw [if_neg Bool.false_ne_true]
      cases hfirst : e.1 == other with
      | true =>
        have hnot : (key == other) = false := by
          rw [Bool.eq_false_iff]
          intro hother
          rw [BEq.trans hfirst (BEq.symm hother)] at hsame
          exact nomatch hsame
        simp [hfirst, hnot]
      | false => simpa [hfirst] using ih

theorem PutsEntries.find?_foldl (entries : List (κ × β)) (key : κ) :
    ((entries.foldl (fun acc e => put e.1 e.2 acc) []).find? fun e => e.1 == key).map (·.2) =
      (entries.reverse.find? fun e => e.1 == key).map (·.2) := by
  induction entries using List.reverseRecOn with
  | nil => rfl
  | append_singleton entries e ih =>
    rw [List.foldl_concat, h.find?, ih, List.reverse_concat, List.find?_cons]
    cases e.1 == key <;> rfl

end Put

end RenderTrace
