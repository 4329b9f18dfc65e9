import Mathlib.Data.List.Basic
import Mathlib.Data.List.TakeWhile
import Mathlib.Tactic.IntervalCases
import RenderTrace.Json.Reader
import RenderTrace.Json.Writer

/-!
# Numbers in documents read back

A number or word is read the same whether the text ends with it or a comma or line feed follows
(`readAtom_append`). An integer reads back if the limit admits its digits (`readAtom_whole`). That a
double does is a property of its shortest digits, `Json.ReadsBack`, which does not depend on the limit.
-/

namespace RenderTrace.Json
open Number (ofDigits takeSign)

/-- The characters that may follow a value as documents are written: none, a comma, a line feed. -/
def Delimited (rest : List Char) : Prop := ∀ c ∈ rest.head?, c = ',' ∨ c = '\n'

/-- What a value is read as, when nothing follows it. -/
def ReadsBack (x : Float) : Prop :=
  readAtom Number.maxIntegerDigits (writeNumber (.double x)) = .ok (.number (.double x), [])

variable {most : Nat} {cs rest ds r : List Char}

theorem Delimited.head_ne {c : Char} (h : Delimited (c :: rest)) {d : Char} (hcomma : d ≠ ',')
    (hfeed : d ≠ '\n') : c ≠ d := by
  rintro rfl
  rcases h c rfl with hc | hc
  · exact hcomma hc
  · exact hfeed hc

theorem Delimited.not_isDigit {c : Char} (h : Delimited (c :: rest)) : ¬ c.isDigit := by
  rcases h c rfl with rfl | rfl <;> decide

/-! ## What follows is left over -/

theorem digits_append (h : Delimited rest) (cs : List Char) :
    digits (cs ++ rest) = ((digits cs).1, (digits cs).2 ++ rest) := by
  induction cs with
  | nil =>
    cases rest with
    | nil => rfl
    | cons c rest => simp [digits, h.not_isDigit]
  | cons c cs ih =>
    simp only [digits, Prod.mk.injEq] at ih
    by_cases hc : c.isDigit <;> simp [digits, hc, ih]

theorem integerPart?_append (h : Delimited rest) (cs : List Char) :
    integerPart? (cs ++ rest) = (integerPart? cs).map fun (ds, r) => (ds, r ++ rest) := by
  match cs with
  | [] =>
    match rest with
    | [] => rfl
    | c :: rest =>
      have hzero : c ≠ '0' := h.head_ne (by decide) (by decide)
      simp [integerPart?, h.not_isDigit]
  | c :: cs =>
    by_cases hzero : c = '0'
    · subst hzero; rfl
    by_cases hdigit : c.isDigit
    · have hdigits := digits_append h (c :: cs)
      rw [List.cons_append] at hdigits
      simp [integerPart?, hdigit, hdigits]
    · simp [integerPart?, hdigit]

theorem fractionPart_append (h : Delimited rest) (cs : List Char) :
    fractionPart (cs ++ rest) = ((fractionPart cs).1, (fractionPart cs).2 ++ rest) := by
  match cs with
  | [] =>
    match rest with
    | [] => rfl
    | c :: rest =>
      have hpoint : c ≠ '.' := h.head_ne (by decide) (by decide)
      simp [fractionPart, hpoint]
  | c :: cs =>
    by_cases hpoint : c = '.'
    · subst hpoint
      have hdigits := digits_append h cs
      simp only [List.cons_append, fractionPart, hdigits]
      rcases hsplit : digits cs with ⟨_ | ⟨d, ds⟩, r⟩
      · rw [hsplit] at hdigits
        simp
      · simp
    · simp [fractionPart, hpoint]

theorem takeSign_append (h : Delimited rest) (cs : List Char) :
    takeSign (cs ++ rest) = ((takeSign cs).1, (takeSign cs).2 ++ rest) := by
  match cs with
  | [] =>
    match rest with
    | [] => rfl
    | c :: rest =>
      have hminus : c ≠ '-' := h.head_ne (by decide) (by decide)
      have hplus : c ≠ '+' := h.head_ne (by decide) (by decide)
      simp [takeSign, hminus, hplus]
  | c :: cs =>
    by_cases hminus : c = '-'
    · subst hminus; rfl
    by_cases hplus : c = '+'
    · subst hplus; rfl
    · simp [takeSign, hminus, hplus]

theorem exponentPart?_append (h : Delimited rest) (cs : List Char) :
    exponentPart? (cs ++ rest) = (exponentPart? cs).map fun (e, r) => (e, r ++ rest) := by
  match cs with
  | [] =>
    match rest with
    | [] => rfl
    | c :: rest =>
      have hlower : c ≠ 'e' := h.head_ne (by decide) (by decide)
      have hupper : c ≠ 'E' := h.head_ne (by decide) (by decide)
      simp [exponentPart?, hlower, hupper]
  | c :: cs =>
    by_cases hmark : c = 'e' ∨ c = 'E'
    · simp only [List.cons_append, exponentPart?, if_pos hmark, takeSign_append h,
        digits_append h]
      rcases digits (takeSign cs).2 with ⟨_ | ⟨d, ds⟩, r⟩ <;> rfl
    · simp [exponentPart?, hmark]

theorem takeMinus_append (h : Delimited rest) (cs : List Char) :
    takeMinus (cs ++ rest) = ((takeMinus cs).1, (takeMinus cs).2 ++ rest) := by
  match cs with
  | [] =>
    match rest with
    | [] => rfl
    | c :: rest =>
      have hminus : c ≠ '-' := h.head_ne (by decide) (by decide)
      simp [takeMinus, hminus]
  | c :: cs =>
    by_cases hminus : c = '-'
    · subst hminus; rfl
    · simp [takeMinus, hminus]

/-- What a reader gives when `rest` follows. -/
def followedBy {α : Type} (rest : List Char) (result : Read α) : Read α :=
  result.map fun (a, r) => (a, r ++ rest)

theorem readNumber?_append (h : Delimited rest) (cs : List Char) :
    readNumber? most (cs ++ rest) = (readNumber? most cs).map (followedBy rest) := by
  simp only [readNumber?, takeMinus_append h, integerPart?_append h]
  rcases integerPart? (takeMinus cs).2 with _ | ⟨ds, r⟩
  · rfl
  simp only [Option.map_some, Option.bind_eq_bind, Option.bind_some, fractionPart_append h,
    exponentPart?_append h]
  rcases exponentPart? (fractionPart r).2 with _ | ⟨e, r'⟩
  · dsimp only [Option.map_none]
    split_ifs <;> rfl
  · rfl

theorem isPrefixOf?_append (h : Delimited rest) {w : List Char}
    (hw : ∀ c ∈ w, c ≠ ',' ∧ c ≠ '\n') (cs : List Char) :
    w.isPrefixOf? (cs ++ rest) = (w.isPrefixOf? cs).map (· ++ rest) := by
  induction w generalizing cs with
  | nil => rfl
  | cons a w ih =>
    obtain ⟨ha, hw⟩ := List.forall_mem_cons.mp hw
    match cs with
    | [] =>
      match rest with
      | [] => rfl
      | c :: rest =>
        have hne : a ≠ c := (h.head_ne ha.1 ha.2).symm
        simp [List.isPrefixOf?, hne]
    | c :: cs =>
      by_cases hc : a = c
      · simp [List.isPrefixOf?, hc, ih hw]
      · simp [List.isPrefixOf?, hc]

theorem words_undelimited : ∀ w ∈ words, ∀ c ∈ w.1.toList, c ≠ ',' ∧ c ≠ '\n' := by
  have hall : ∀ s ∈ words.map (·.1), (s.toList.all fun c => c ≠ ',' ∧ c ≠ '\n') = true := by decide
  intro w hw c hc
  exact of_decide_eq_true (List.all_eq_true.mp (hall _ (List.mem_map_of_mem hw)) c hc)

theorem readWord?_append (h : Delimited rest) (cs : List Char) :
    readWord? (cs ++ rest) = (readWord? cs).map fun (v, r) => (v, r ++ rest) := by
  have hwords := words_undelimited
  unfold readWord?
  generalize words = ws at hwords
  induction ws with
  | nil => rfl
  | cons w ws ih =>
    obtain ⟨w, v⟩ := w
    obtain ⟨hw, hwords⟩ := List.forall_mem_cons.mp hwords
    simp only [List.findSome?_cons, isPrefixOf?_append h hw, ih hwords]
    cases w.toList.isPrefixOf? cs <;> rfl

theorem readAtom_append (h : Delimited rest) {v : Json} (hread : readAtom most cs = .ok (v, r)) :
    readAtom most (cs ++ rest) = .ok (v, r ++ rest) := by
  unfold readAtom at hread ⊢
  rw [readWord?_append h, readNumber?_append h]
  cases hword : readWord? cs with
  | some result =>
    rw [hword] at hread
    obtain rfl : result = (v, r) := Except.ok.inj hread
    rfl
  | none =>
    rw [hword] at hread
    match hnumber : readNumber? most cs with
    | none =>
      rw [hnumber] at hread
      exact nomatch hread
    | some (.error _) =>
      rw [hnumber] at hread
      exact nomatch hread
    | some (.ok (n, r')) =>
      rw [hnumber] at hread
      obtain ⟨rfl, rfl⟩ : number n = v ∧ r' = r := by simpa [Except.map] using hread
      rfl

theorem readAtom_double {x : Float} {limit : Nat}
    (hread : readAtom limit cs = .ok (.number (.double x), r)) :
    readAtom most cs = .ok (.number (.double x), r) := by
  unfold readAtom at hread ⊢
  cases hword : readWord? cs with
  | some result =>
    rw [hword] at hread
    exact hread
  | none =>
    rw [hword] at hread
    cases hpart : integerPart? (takeMinus cs).2 with
    | none =>
      simp only [readNumber?, hpart] at hread
      exact nomatch hread
    | some part =>
      cases hexponent : exponentPart? (fractionPart part.2).2 with
      | some exponent =>
        simp only [readNumber?, hpart, hexponent, Option.bind_eq_bind, Option.bind_some] at hread ⊢
        exact hread
      | none =>
        simp only [readNumber?, hpart, hexponent, Option.bind_eq_bind, Option.bind_some] at hread ⊢
        by_cases hfraction : (fractionPart part.2).1.isEmpty
        · rw [if_pos hfraction] at hread
          by_cases hlimit : limit < part.1.length
          · rw [if_pos hlimit] at hread
            exact nomatch hread
          · rw [if_neg hlimit] at hread
            exact nomatch hread
        · rw [if_neg hfraction] at hread ⊢
          exact hread

/-! ## Integers -/

theorem exists_toDigits {n : Nat} (h : 0 < n) : ∃ c cs, Nat.toDigits 10 n = c :: cs ∧ c ≠ '0' := by
  induction n using Nat.strongRecOn with
  | ind n ih =>
    by_cases hsmall : n < 10
    · rw [Nat.toDigits_of_lt_base hsmall]
      refine ⟨_, _, rfl, ?_⟩
      interval_cases n <;> decide
    · obtain ⟨c, cs, hdigits, hc⟩ := ih (n / 10) (by omega) (by omega)
      rw [Nat.toDigits_of_base_le (by omega) (by omega), hdigits]
      exact ⟨c, _, rfl, hc⟩

theorem isDigit_of_mem {n : Nat} {c : Char} (h : c ∈ Nat.toDigits 10 n) : c.isDigit = true :=
  Nat.isDigit_of_mem_toDigits (by decide) (by decide) h

theorem digits_toDigits (n : Nat) : digits (Nat.toDigits 10 n) = (Nat.toDigits 10 n, []) := by
  have hdigit : ∀ c ∈ Nat.toDigits 10 n, c.isDigit = true := fun _ => isDigit_of_mem
  rw [digits, List.takeWhile_eq_self_iff.mpr hdigit, List.dropWhile_eq_nil_iff.mpr hdigit]

theorem integerPart?_toDigits (n : Nat) :
    integerPart? (Nat.toDigits 10 n) = some (Nat.toDigits 10 n, []) := by
  rcases Nat.eq_zero_or_pos n with rfl | hn
  · rfl
  · obtain ⟨c, cs, hdigits, hc⟩ := exists_toDigits hn
    have hsplit := digits_toDigits n
    have hdigit : c.isDigit = true := isDigit_of_mem (hdigits ▸ List.mem_cons_self)
    rw [hdigits] at hsplit ⊢
    simp [integerPart?, hdigit, hsplit]

theorem ofDigits_toDigits (n : Nat) : ofDigits (Nat.toDigits 10 n) = n := by
  have hvalue : Nat.ofDigitChars 10 (Nat.toDigits 10 n) 0 = n :=
    Nat.ofDigitChars_toDigits (by decide) (by decide)
  rw [Nat.ofDigitChars_eq_foldl] at hvalue
  simpa only [ofDigits, Nat.mul_comm] using hvalue

theorem writeNumber_whole (n : Int) :
    writeNumber (.whole n) =
      if n < 0 then '-' :: Nat.toDigits 10 n.natAbs else Nat.toDigits 10 n.natAbs := by
  match n with
  | .ofNat m =>
    have hsign : ¬ Int.ofNat m < 0 := Int.not_lt.mpr (Int.natCast_nonneg m)
    rw [if_neg hsign]
    exact Nat.toList_repr
  | .negSucc m =>
    rw [if_pos (Int.negSucc_lt_zero m)]
    change ("-" ++ (m + 1).repr).toList = _
    rw [String.toList_append, Nat.toList_repr]
    rfl

/-- The words start with two characters that are no digits. -/
theorem readWord?_eq_none {c : Char} (hmem : c ∈ cs.take 2) (hdigit : c.isDigit) :
    readWord? cs = none := by
  have hwords : ∀ w ∈ words.map (·.1.toList), 2 ≤ w.length ∧ (w.take 2).any Char.isDigit = false := by
    decide
  rw [readWord?, List.findSome?_eq_none_iff]
  rintro ⟨w, v⟩ hw
  obtain ⟨hlength, hletters⟩ := hwords _ (List.mem_map_of_mem hw)
  rw [Option.map_eq_none_iff, Option.eq_none_iff_forall_ne_some]
  intro r hr
  rw [← List.append_eq_of_isPrefixOf?_eq_some hr, List.take_append_of_le_length hlength] at hmem
  exact List.any_eq_false.mp hletters c hmem hdigit

theorem readAtom_whole {n : Int} (h : (Nat.toDigits 10 n.natAbs).length ≤ most) :
    readAtom most (writeNumber (.whole n)) = .ok (.number (.whole n), []) := by
  have hne : Nat.toDigits 10 n.natAbs ≠ [] := Nat.toDigits_ne_nil
  obtain ⟨c, cs, hdigits⟩ := List.exists_cons_of_ne_nil hne
  have hdigit : c.isDigit = true := isDigit_of_mem (hdigits ▸ List.mem_cons_self)
  have hlimit : ¬ most < (Nat.toDigits 10 n.natAbs).length := Nat.not_lt.mpr h
  rw [writeNumber_whole]
  by_cases hnegative : n < 0
  · have hvalue : -(n.natAbs : Int) = n := by omega
    have hword : readWord? ('-' :: Nat.toDigits 10 n.natAbs) = none :=
      readWord?_eq_none (by simp [hdigits]) hdigit
    rw [if_pos hnegative, readAtom, hword]
    simp only [readNumber?, takeMinus, integerPart?_toDigits, fractionPart, exponentPart?,
      Option.bind_eq_bind, Option.bind_some, List.isEmpty_nil, if_true, if_neg hlimit,
      ofDigits_toDigits, hvalue]
    rfl
  · have hvalue : (n.natAbs : Int) = n := by omega
    have hword : readWord? (Nat.toDigits 10 n.natAbs) = none :=
      readWord?_eq_none (by simp [hdigits]) hdigit
    have hminus : takeMinus (Nat.toDigits 10 n.natAbs) = (false, Nat.toDigits 10 n.natAbs) := by
      have hne : c ≠ '-' := by
        rintro rfl
        exact absurd hdigit (by decide)
      rw [hdigits]
      simp [takeMinus, hne]
    rw [if_neg hnegative, readAtom, hword]
    simp only [readNumber?, hminus, integerPart?_toDigits, fractionPart, exponentPart?,
      Option.bind_eq_bind, Option.bind_some, List.isEmpty_nil, if_true, if_neg hlimit,
      ofDigits_toDigits, if_neg Bool.false_ne_true, hvalue]
    rfl

end RenderTrace.Json
