import RenderTrace.Text.Newline

/-!
# Line feeds only

Reading a text replaces every carriage return with a line feed after it by that line feed, and then
every carriage return that is left by a line feed (`unifyNewlines_eq`). No carriage return is left, so
that doing it once more changes nothing (`unifyNewlines_unifyNewlines`).
-/

namespace RenderTrace.Text

/-- Drops each carriage return that a line feed follows. -/
def replacePairs : List Char → List Char
  | '\r' :: '\n' :: cs => '\n' :: replacePairs cs
  | c :: cs => c :: replacePairs cs
  | [] => []

/-- Replaces a carriage return by a line feed. -/
def replaceReturn (c : Char) : Char := if c = '\r' then '\n' else c

theorem snd_foldr_unifyStep (cs : List Char) :
    (cs.foldr unifyStep ([], false)).2 = decide (cs.head? = some '\n') := by
  cases cs with
  | nil => rfl
  | cons c cs =>
    rw [List.foldr_cons, unifyStep, List.head?_cons]
    by_cases hc : c = '\r'
    · rw [if_pos hc, hc]
      rfl
    · rw [if_neg hc]
      simp

theorem unifyNewlines_cons (c : Char) (cs : List Char) :
    unifyNewlines (c :: cs) =
      if c = '\r' ∧ cs.head? = some '\n' then unifyNewlines cs
      else replaceReturn c :: unifyNewlines cs := by
  rw [unifyNewlines, List.foldr_cons, unifyStep, snd_foldr_unifyStep]
  by_cases hc : c = '\r' <;> by_cases hnext : cs.head? = some '\n' <;>
    simp [hc, hnext, replaceReturn, unifyNewlines]

theorem unifyNewlines_eq (cs : List Char) :
    unifyNewlines cs = (replacePairs cs).map replaceReturn := by
  induction cs using replacePairs.induct with
  | case1 cs ih =>
    have hfeed : ¬ ('\n' = '\r' ∧ cs.head? = some '\n') := fun h => absurd h.1 (by decide)
    rw [unifyNewlines_cons, if_pos ⟨rfl, rfl⟩, unifyNewlines_cons, if_neg hfeed, ih]
    rfl
  | case2 c cs hpair ih =>
    have hsingle : ¬ (c = '\r' ∧ cs.head? = some '\n') := by
      rintro ⟨hc, hhead⟩
      obtain ⟨rest, rfl⟩ := List.head?_eq_some_iff.mp hhead
      exact hpair rest hc rfl
    rw [unifyNewlines_cons, if_neg hsingle, ih, replacePairs, List.map_cons]
    exact hpair
  | case3 => rfl

theorem return_notMem_unifyNewlines (cs : List Char) : '\r' ∉ unifyNewlines cs := by
  rw [unifyNewlines_eq, List.mem_map]
  rintro ⟨c, -, hc⟩
  unfold replaceReturn at hc
  split at hc
  · exact absurd hc (by decide)
  · next h => exact h hc

theorem unifyNewlines_of_notMem {cs : List Char} (h : '\r' ∉ cs) : unifyNewlines cs = cs := by
  induction cs with
  | nil => rfl
  | cons c cs ih =>
    obtain ⟨hc, hcs⟩ := not_or.mp (mt List.mem_cons.mpr h)
    have hne : c ≠ '\r' := fun heq => hc heq.symm
    rw [unifyNewlines_cons, if_neg fun hpair => hne hpair.1, ih hcs, replaceReturn, if_neg hne]

theorem unifyNewlines_unifyNewlines (cs : List Char) :
    unifyNewlines (unifyNewlines cs) = unifyNewlines cs :=
  unifyNewlines_of_notMem (return_notMem_unifyNewlines cs)

end RenderTrace.Text
