import Mathlib.Data.List.Basic
import Mathlib.Data.List.Infix
import Mathlib.Data.List.TakeWhile
import RenderTrace.Json.Reader

/-!
# Limits

A text is refused for an integer that is too long only if so many digits stand in it one after the
other, and for its nesting only if it has more opening brackets than may be open
(`exceeds_of_read`). Neither happens to a short text (`read_ne_excess`).
-/

namespace RenderTrace.Json

/-- The opening brackets in a text. -/
def openings (cs : List Char) : Nat := cs.countP fun c => c == '[' || c == '{'

/-- A text has what an excess is about. -/
inductive Exceeds (most depth : Nat) (cs : List Char) : Excess → Prop where
  | integer {ds : List Char} (run : ds <:+: cs) (digits : ∀ d ∈ ds, d.isDigit)
    (long : most < ds.length) : Exceeds most depth cs (.integer (.tooManyDigits ds.length))
  | depth (container : Container) (deep : depth < openings cs) :
    Exceeds most depth cs (.depth container)

/-- A reader stops within a text: what it leaves is an end of the text, and an excess is one that the
text has. -/
structure StopsWithin {α : Type} (most depth : Nat) (cs : List Char) (result : Read α) : Prop where
  leaves : ∀ a rest, result = .ok (a, rest) → rest <:+ cs
  exceeds : ∀ e, result = .error (.excess e) → Exceeds most depth cs e

variable {α β : Type} {most depth fuel : Nat} {cs rest start : List Char}

namespace StopsWithin

theorem ok {a : α} (h : rest <:+ cs) : StopsWithin most depth cs (.ok (a, rest)) where
  leaves a' rest' hok := by
    obtain ⟨rfl, rfl⟩ := Prod.mk.inj (Except.ok.inj hok)
    exact h
  exceeds _ herror := nomatch herror

theorem fault (f : Fault) (rest : List Char) :
    StopsWithin (α := α) most depth cs (.error (.fault f rest)) where
  leaves _ _ hok := nomatch hok
  exceeds _ herror := nomatch herror

theorem excess {e : Excess} (h : Exceeds most depth cs e) :
    StopsWithin (α := α) most depth cs (.error (.excess e)) where
  leaves _ _ hok := nomatch hok
  exceeds e' herror := by
    obtain rfl := Stop.excess.inj (Except.error.inj herror)
    exact h

theorem bind {result : Except Stop (α × List Char)}
    {f : α × List Char → Except Stop (β × List Char)} (h : StopsWithin most depth cs result)
    (hf : ∀ a rest, rest <:+ cs → StopsWithin most depth cs (f (a, rest))) :
    StopsWithin most depth cs (result >>= f : Except Stop (β × List Char)) := by
  rcases hresult : result with (⟨g, r⟩ | e) | ⟨a, rest⟩
  · exact .fault g r
  · exact .excess (h.exceeds e hresult)
  · exact hf a rest (h.leaves a rest hresult)

theorem map {result : Read α} (h : StopsWithin most depth cs result) (f : α → β) :
    StopsWithin most depth cs (result.map fun (a, rest) => (f a, rest)) := by
  rcases hresult : result with (⟨g, r⟩ | e) | ⟨a, rest⟩
  · exact .fault g r
  · exact .excess (h.exceeds e hresult)
  · exact .ok (h.leaves a rest hresult)

end StopsWithin

theorem Exceeds.of_suffix {e : Excess} (h : Exceeds most depth rest e) (hrest : rest <:+ cs) :
    Exceeds most depth cs e := by
  cases h with
  | integer run digits long => exact .integer (run.trans hrest.isInfix) digits long
  | depth container deep =>
    exact .depth container (deep.trans_le hrest.sublist.countP_le)

theorem StopsWithin.of_suffix {result : Read α} (h : StopsWithin most depth rest result)
    (hrest : rest <:+ cs) : StopsWithin most depth cs result where
  leaves a r hok := (h.leaves a r hok).trans hrest
  exceeds e herror := (h.exceeds e herror).of_suffix hrest

theorem openings_cons {c : Char} (hc : c = '[' ∨ c = '{') (cs : List Char) :
    openings (c :: cs) = openings cs + 1 := by
  refine List.countP_cons_of_pos ?_
  rcases hc with rfl | rfl <;> rfl

/-- Inside a container one opening bracket less is left to come. -/
theorem StopsWithin.nested {result : Read α} (h : StopsWithin most depth cs result) {c : Char}
    (hc : c = '[' ∨ c = '{') : StopsWithin most (depth + 1) (c :: cs) result where
  leaves a r hok := (h.leaves a r hok).trans (List.suffix_cons c cs)
  exceeds e herror := by
    have hopenings := openings_cons hc cs
    cases h.exceeds e herror with
    | integer run digits long =>
      exact .integer (run.trans (List.suffix_cons c cs).isInfix) digits long
    | depth container deep => exact .depth container (by omega)

theorem StopsWithin.too_deep {container : Container} {c : Char} (hc : c = '[' ∨ c = '{')
    (cs : List Char) :
    StopsWithin (α := α) most 0 (c :: cs) (.error (.excess (.depth container))) := by
  have hopenings := openings_cons hc cs
  exact .excess (.depth container (by omega))

theorem skip_suffix (cs : List Char) : skip cs <:+ cs := List.dropWhile_suffix _

theorem suffix_of_skip {c : Char} {after : List Char} (h : skip rest = c :: after)
    (hrest : rest <:+ cs) : after <:+ cs :=
  ((h ▸ List.suffix_cons c after).trans (skip_suffix rest)).trans hrest

/-! ## Atoms and texts -/

theorem stopsWithin_textBody (p : Partial) (cs : List Char) :
    StopsWithin most depth cs (textBody start p cs) := by
  fun_induction textBody start p cs with
  | case1 | case3 => exact .fault ..
  | case2 p cs => exact .ok (List.suffix_cons _ cs)
  | case4 p a b c d u e cs hunit ih =>
    exact ih.of_suffix (List.suffix_append ['\\', 'u', a, b, c, d] (e :: cs))
  | case7 p e cs hcode hu c hescape ih => exact ih.of_suffix (List.suffix_append ['\\', e] cs)
  | case10 p c cs _ _ _ _ hcontrol ih => exact ih.of_suffix (List.suffix_cons c cs)
  | case5 | case6 | case8 | case9 => exact .fault ..

theorem stopsWithin_readText (f : Fault) (cs : List Char) :
    StopsWithin most depth cs (readText f cs) := by
  unfold readText
  split
  · next cs => exact (stopsWithin_textBody _ cs).of_suffix (List.suffix_cons _ cs)
  · exact .fault ..

theorem digits_append_eq (cs : List Char) : (digits cs).1 ++ (digits cs).2 = cs :=
  List.takeWhile_append_dropWhile

theorem digits_suffix (cs : List Char) : (digits cs).2 <:+ cs := List.dropWhile_suffix _

theorem all_isDigit_digits (cs : List Char) : ∀ d ∈ (digits cs).1, d.isDigit := fun _ hd =>
  List.mem_takeWhile_imp hd

theorem of_integerPart? {ds : List Char} (h : integerPart? cs = some (ds, rest)) :
    cs = ds ++ rest ∧ ∀ d ∈ ds, d.isDigit := by
  unfold integerPart? at h
  split at h
  · next tail =>
    obtain ⟨rfl, rfl⟩ := Prod.mk.inj (Option.some.inj h)
    exact ⟨rfl, List.forall_mem_singleton.mpr rfl⟩
  · next c tail _ =>
    split at h
    · obtain ⟨rfl, rfl⟩ := Prod.mk.inj (Option.some.inj h)
      exact ⟨(digits_append_eq (c :: tail)).symm, all_isDigit_digits (c :: tail)⟩
    · exact nomatch h
  · exact nomatch h

theorem fractionPart_suffix (cs : List Char) : (fractionPart cs).2 <:+ cs := by
  unfold fractionPart
  split
  · next tail =>
    split
    · exact List.suffix_refl _
    · next ds rest _ hdigits =>
      have hrest := digits_suffix tail
      rw [hdigits] at hrest
      exact hrest.trans (List.suffix_cons _ tail)
  · exact List.suffix_refl _

theorem takeSign_suffix (cs : List Char) : (Number.takeSign cs).2 <:+ cs := by
  unfold Number.takeSign
  split
  · exact List.suffix_cons _ _
  · exact List.suffix_cons _ _
  · exact List.suffix_refl _

theorem exponentPart?_suffix {e : Int} (h : exponentPart? cs = some (e, rest)) : rest <:+ cs := by
  unfold exponentPart? at h
  split at h
  · next c more =>
    split at h
    · dsimp only at h
      split at h
      · exact nomatch h
      · next ds after _ hdigits =>
        obtain ⟨-, rfl⟩ := Prod.mk.inj (Option.some.inj h)
        have hafter := digits_suffix (Number.takeSign more).2
        rw [hdigits] at hafter
        exact (hafter.trans (takeSign_suffix more)).trans (List.suffix_cons c more)
    · exact nomatch h
  · exact nomatch h

theorem takeMinus_suffix (cs : List Char) : (takeMinus cs).2 <:+ cs := by
  unfold takeMinus
  split
  · exact List.suffix_cons _ _
  · exact List.suffix_refl _

theorem stopsWithin_readNumber? {result : Read Number} (h : readNumber? most cs = some result) :
    StopsWithin most depth cs result := by
  unfold readNumber? at h
  obtain ⟨⟨ds, rest⟩, hinteger, h⟩ := Option.bind_eq_some_iff.mp h
  obtain ⟨hbody, hds⟩ := of_integerPart? hinteger
  have hbodySuffix := takeMinus_suffix cs
  have hrest : rest <:+ cs := (hbody ▸ List.suffix_append ds rest).trans hbodySuffix
  have hfraction : (fractionPart rest).2 <:+ cs := (fractionPart_suffix rest).trans hrest
  dsimp only at h
  split at h
  · next e after hexponent =>
    obtain rfl := Option.some.inj h
    exact .ok ((exponentPart?_suffix hexponent).trans hfraction)
  split at h
  · split at h
    · next hlong =>
      obtain rfl := Option.some.inj h
      have hrun : ds <:+: cs :=
        (hbody ▸ (List.prefix_append ds rest).isInfix).trans hbodySuffix.isInfix
      exact .excess (.integer hrun hds hlong)
    · obtain rfl := Option.some.inj h
      exact .ok hrest
  · obtain rfl := Option.some.inj h
    exact .ok hfraction

theorem stopsWithin_readAtom (cs : List Char) : StopsWithin most depth cs (readAtom most cs) := by
  unfold readAtom
  split
  · next r hword =>
    obtain ⟨⟨w, v⟩, -, hprefix⟩ := List.exists_of_findSome?_eq_some hword
    obtain ⟨rest, hrest, rfl⟩ := Option.map_eq_some_iff.mp hprefix
    have hcs : w.toList ++ rest = cs := List.append_eq_of_isPrefixOf?_eq_some hrest
    exact .ok (hcs ▸ List.suffix_append _ rest)
  split
  · next r hnumber => exact (stopsWithin_readNumber? hnumber).map _
  · exact .fault ..

/-! ## Values -/

/-- A reader stops within every text at every depth. -/
def AllWithin {α : Type} (most : Nat) (reader : Nat → List Char → Read α) : Prop :=
  ∀ depth cs, StopsWithin most depth cs (reader depth cs)

theorem stopsWithin_readItems_succ (hvalue : AllWithin most (readValue most fuel))
    (hitems : AllWithin most (readItems most fuel)) :
    AllWithin most (readItems most (fuel + 1)) := by
  intro depth cs
  rw [readItems]
  refine (hvalue depth cs).bind fun x rest hrest => ?_
  dsimp only
  split
  · next after heq => exact .ok (suffix_of_skip heq hrest)
  · next after heq =>
    have hafter := (skip_suffix after).trans (suffix_of_skip heq hrest)
    have hmore := (hitems depth (skip after)).of_suffix hafter
    exact hmore.bind fun xs rest hrest => .ok hrest
  · exact .fault ..

theorem of_readColon (cs : List Char) : (∃ f r, readColon cs = .error (.fault f r)) ∨
    ∃ rest, readColon cs = .ok rest ∧ rest <:+ cs := by
  unfold readColon
  split
  · next after heq =>
    have hafter := suffix_of_skip heq (List.suffix_refl cs)
    exact .inr ⟨_, rfl, (skip_suffix after).trans hafter⟩
  · exact .inl ⟨_, _, rfl⟩

theorem stopsWithin_readMembers_succ (hvalue : AllWithin most (readValue most fuel))
    (hmembers : AllWithin most (readMembers most fuel)) :
    AllWithin most (readMembers most (fuel + 1)) := by
  intro depth cs
  rw [readMembers]
  refine (stopsWithin_readText .name cs).bind fun name rest hrest => ?_
  dsimp only
  obtain ⟨f, r, hcolon⟩ | ⟨rest', hcolon, hrest'⟩ := of_readColon rest
  · rw [hcolon]
    exact .fault f r
  rw [hcolon]
  have hread := (hvalue depth rest').of_suffix (hrest'.trans hrest)
  refine hread.bind fun v rest hrest => ?_
  dsimp only
  split
  · next after heq => exact .ok (suffix_of_skip heq hrest)
  · next after heq =>
    have hafter := (skip_suffix after).trans (suffix_of_skip heq hrest)
    have hmore := (hmembers depth (skip after)).of_suffix hafter
    exact hmore.bind fun ms rest hrest => .ok hrest
  · exact .fault ..

theorem stopsWithin_readValue_succ (hitems : AllWithin most (readItems most fuel))
    (hmembers : AllWithin most (readMembers most fuel)) :
    AllWithin most (readValue most (fuel + 1)) := by
  intro depth cs
  unfold readValue
  split
  · exact .fault ..
  · exact (stopsWithin_readText .value _).map _
  · next cs _ => exact .too_deep (.inl rfl) cs
  · next depth cs hfuel =>
    obtain rfl := Nat.succ.inj hfuel
    refine StopsWithin.nested ?_ (.inl rfl)
    split
    · next after heq => exact .ok (suffix_of_skip heq (List.suffix_refl cs))
    · exact ((hitems depth _).of_suffix (skip_suffix cs)).map _
  · next cs _ => exact .too_deep (.inr rfl) cs
  · next depth cs hfuel =>
    obtain rfl := Nat.succ.inj hfuel
    refine StopsWithin.nested ?_ (.inr rfl)
    split
    · next after heq => exact .ok (suffix_of_skip heq (List.suffix_refl cs))
    · exact ((hmembers depth _).of_suffix (skip_suffix cs)).map fun ms => object (ofMembers ms)
  · exact stopsWithin_readAtom _

theorem stopsWithin_readers (fuel : Nat) : AllWithin most (readValue most fuel) ∧
    AllWithin most (readItems most fuel) ∧ AllWithin most (readMembers most fuel) := by
  -- The three readers call each other with one step of fuel less.
  induction fuel with
  | zero =>
    refine ⟨fun depth cs => ?_, fun depth cs => ?_, fun depth cs => ?_⟩
    · rw [readValue]
      exact .fault ..
    · rw [readItems]
      exact .fault ..
    · rw [readMembers]
      exact .fault ..
  | succ fuel ih =>
    obtain ⟨hvalue, hitems, hmembers⟩ := ih
    exact ⟨stopsWithin_readValue_succ hitems hmembers, stopsWithin_readItems_succ hvalue hitems,
      stopsWithin_readMembers_succ hvalue hmembers⟩

theorem exceeds_of_readAll {e : Excess} (h : readAll most cs = .error (.excess e)) :
    Exceeds most maxDepth cs e := by
  obtain ⟨hvalue, -, -⟩ := @stopsWithin_readers most (2 * cs.length + 2)
  have hread := (hvalue maxDepth (skip cs)).of_suffix (skip_suffix cs)
  unfold readAll at h
  rcases hresult : readValue most (2 * cs.length + 2) maxDepth (skip cs) with stop | ⟨v, rest⟩
  · rw [hresult] at h
    obtain rfl : stop = .excess e := Except.error.inj h
    exact hread.exceeds e hresult
  · rw [hresult] at h
    dsimp only [bind, Except.bind] at h
    split at h <;> exact nomatch h

theorem exceeds_of_read {e : Excess} (h : read cs = .error (.excess e)) :
    Exceeds Number.maxIntegerDigits maxDepth cs e := by
  unfold read readWithin at h
  split at h
  · exact nomatch h
  cases hresult : readAll Number.maxIntegerDigits cs with
  | ok v =>
    rw [hresult] at h
    exact nomatch h
  | error stop =>
    rw [hresult] at h
    cases stop with
    | fault f rest => exact nomatch h
    | excess e' =>
      obtain rfl : e' = e := ReadError.excess.inj (Except.error.inj h)
      exact exceeds_of_readAll hresult

/-- A text that is shorter than what may stand inside one another is not refused for an excess. -/
theorem read_ne_excess (h : cs.length ≤ maxDepth) (e : Excess) : read cs ≠ .error (.excess e) := by
  intro hread
  cases exceeds_of_read hread with
  | integer run digits long =>
    have hrun := run.length_le
    have hlimit : maxDepth < Number.maxIntegerDigits := by decide
    omega
  | depth container deep =>
    have hopenings : openings cs ≤ cs.length := List.countP_le_length
    omega

end RenderTrace.Json
