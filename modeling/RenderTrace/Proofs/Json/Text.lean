import Mathlib.Data.List.Basic
import Mathlib.Tactic.IntervalCases
import RenderTrace.Json.Reader
import RenderTrace.Json.Writer

/-!
# Texts in documents read back

A character is written as itself, with a backslash, or by one or two UTF-16 units, and each of these is
taken in as that character (`textBody_writeChar`). So a text in quotes reads back, with what follows
it left over (`readText_writeText`).
-/

namespace RenderTrace.Text

theorem hexValue?_digitChar {d : Nat} (h : d < 16) : hexValue? (Nat.digitChar d) = some d := by
  interval_cases d <;> decide

theorem hexText_zero (width : Nat) : hexText (width + 1) 0 = List.replicate (width + 1) '0' := by
  have hdigits : Nat.toDigits 16 0 = ['0'] := by decide
  rw [hexText, hdigits, List.length_singleton, Nat.add_sub_cancel, List.replicate_succ']

theorem hexText_succ (width n : Nat) :
    hexText (width + 2) n = hexText (width + 1) (n / 16) ++ [Nat.digitChar (n % 16)] := by
  by_cases hsmall : n < 16
  · have hdigits : Nat.toDigits 16 n = [Nat.digitChar n] := Nat.toDigits_of_lt_base hsmall
    have hquotient : n / 16 = 0 := by omega
    have hremainder : n % 16 = n := by omega
    rw [hquotient, hexText_zero, hremainder, hexText, hdigits]
    rfl
  · have hdigits : Nat.toDigits 16 n = Nat.toDigits 16 (n / 16) ++ [Nat.digitChar (n % 16)] :=
      Nat.toDigits_of_base_le (by omega) (by omega)
    have hpadding : width + 2 - ((Nat.toDigits 16 (n / 16)).length + 1) =
        width + 1 - (Nat.toDigits 16 (n / 16)).length := by omega
    rw [hexText, hexText, hdigits, List.length_append, List.length_singleton, hpadding,
      List.append_assoc]

theorem hexText_one {n : Nat} (h : n < 16) : hexText 1 n = [Nat.digitChar n] := by
  rw [hexText, Nat.toDigits_of_lt_base h]
  rfl

theorem hexText_four {n : Nat} (h : n < 0x10000) :
    hexText 4 n = [Nat.digitChar (n / 16 / 16 / 16), Nat.digitChar (n / 16 / 16 % 16),
      Nat.digitChar (n / 16 % 16), Nat.digitChar (n % 16)] := by
  have hfirst : n / 16 / 16 / 16 < 16 := by omega
  rw [hexText_succ, hexText_succ, hexText_succ, hexText_one hfirst]
  rfl

end RenderTrace.Text

namespace RenderTrace.Json
open Text

theorem unit?_hexText {n : Nat} (h : n < 0x10000) :
    ∃ a b c d, hexText 4 n = [a, b, c, d] ∧ unit? a b c d = some n := by
  refine ⟨_, _, _, _, hexText_four h, ?_⟩
  have hfirst : n / 16 / 16 / 16 < 16 := by omega
  have hsecond : n / 16 / 16 % 16 < 16 := by omega
  have hthird : n / 16 % 16 < 16 := by omega
  have hfourth : n % 16 < 16 := by omega
  have hvalue : ((n / 16 / 16 / 16 * 16 + n / 16 / 16 % 16) * 16 + n / 16 % 16) * 16 + n % 16 = n := by
    omega
  rw [unit?, hexValue?_digitChar hfirst, hexValue?_digitChar hsecond, hexValue?_digitChar hthird,
    hexValue?_digitChar hfourth]
  exact congrArg some hvalue

variable {start rest cs : List Char} {p : Partial} {c next : Char}

theorem textBody_unitEscape {n : Nat} (h : n < 0x10000) (p : Partial) :
    textBody start p (unitEscape n ++ next :: rest) = textBody start (p.pushUnit n) (next :: rest) := by
  obtain ⟨a, b, c, d, htext, hunit⟩ := unit?_hexText h
  rw [unitEscape, htext]
  exact textBody.eq_4 start p a b c d n next rest hunit

theorem textBody_escaped {e : Char} (hescaped : escaped? e = some c) (p : Partial) :
    textBody start p ('\\' :: e :: rest) = textBody start (p.push c) rest := by
  have hunit : e ≠ 'u' := by
    rintro rfl
    exact nomatch hescaped
  rw [textBody.eq_6 _ _ _ _ fun _ _ _ _ _ heq => absurd heq hunit, if_neg hunit, hescaped]

theorem textBody_plain (hquote : c ≠ '"') (hbackslash : c ≠ '\\') (hprintable : ' ' ≤ c)
    (p : Partial) : textBody start p (c :: rest) = textBody start (p.push c) rest := by
  have hcontrol : ¬ c ≤ '\x1f' := by
    intro hle
    exact absurd (Char.le_trans hprintable hle) (by decide)
  rw [textBody.eq_7 _ _ _ _ hquote (fun heq => absurd heq hbackslash)
    (fun _ _ _ _ _ heq => absurd heq hbackslash) (fun _ _ heq => absurd heq hbackslash),
    if_neg hcontrol]

theorem pushUnit_of_char {read : List Char} (h : c.toNat < 0x10000) :
    Partial.pushUnit ⟨read, none⟩ c.toNat = ⟨c :: read, none⟩ := by
  have hvalid : c.toNat < 0xd800 ∨ 0xdfff < c.toNat ∧ c.toNat < 0x110000 := c.valid
  rw [Partial.pushUnit, if_neg (by omega), if_neg (by omega), Char.ofNat_toNat]
  rfl

theorem pushUnit_pair {read : List Char} (h : 0x10000 ≤ c.toNat) :
    ((Partial.pushUnit ⟨read, none⟩ (0xd800 + (c.toNat - 0x10000) / 0x400)).pushUnit
      (0xdc00 + (c.toNat - 0x10000) % 0x400)) = ⟨c :: read, none⟩ := by
  have hvalid : c.toNat < 0xd800 ∨ 0xdfff < c.toNat ∧ c.toNat < 0x110000 := c.valid
  have hchar : 0x10000 + (0xd800 + (c.toNat - 0x10000) / 0x400 - 0xd800) * 0x400
      + (0xdc00 + (c.toNat - 0x10000) % 0x400 - 0xdc00) = c.toNat := by omega
  have hhigh : Partial.pushUnit ⟨read, none⟩ (0xd800 + (c.toNat - 0x10000) / 0x400) =
      ⟨read, some (0xd800 + (c.toNat - 0x10000) / 0x400)⟩ := by
    rw [Partial.pushUnit, if_pos (by omega)]
    rfl
  rw [hhigh, Partial.pushUnit, if_neg (by omega), if_pos (by omega)]
  dsimp only
  rw [hchar, Char.ofNat_toNat]

inductive Written (c : Char) : List Char → Prop where
  | escaped {e : Char} (stands : escaped? e = some c) : Written c ['\\', e]
  | plain (quote : c ≠ '"') (backslash : c ≠ '\\') (printable : ' ' ≤ c ∧ c ≤ '~') : Written c [c]
  | unit (h : c.toNat < 0x10000) : Written c (unitEscape c.toNat)
  | pair (h : 0x10000 ≤ c.toNat) : Written c
    (unitEscape (0xd800 + (c.toNat - 0x10000) / 0x400) ++
      unitEscape (0xdc00 + (c.toNat - 0x10000) % 0x400))

theorem written_writeChar (c : Char) : Written c (writeChar c) := by
  unfold writeChar
  by_cases hquote : c = '"'
  · rw [if_pos hquote]
    exact .escaped (by rw [hquote]; rfl)
  by_cases hbackslash : c = '\\'
  · rw [if_neg hquote, if_pos hbackslash]
    exact .escaped (by rw [hbackslash]; rfl)
  rw [if_neg hquote, if_neg hbackslash]
  split
  · next h => exact .escaped (by rw [h]; rfl)
  split
  · next h => exact .escaped (by rw [h]; rfl)
  split
  · next h => exact .escaped (by rw [h]; rfl)
  split
  · next h => exact .escaped (by rw [h]; rfl)
  split
  · next h => exact .escaped (by rw [h]; rfl)
  split
  · next hprintable => exact .plain hquote hbackslash hprintable
  split
  · next hunit => exact .unit hunit
  · next hunit => exact .pair (Nat.not_lt.mp hunit)

theorem textBody_writeChar (c : Char) (read : List Char) :
    textBody start ⟨read, none⟩ (writeChar c ++ next :: rest) =
      textBody start ⟨c :: read, none⟩ (next :: rest) := by
  have hwritten := written_writeChar c
  generalize writeChar c = cs at hwritten
  cases hwritten with
  | escaped stands => exact textBody_escaped stands _
  | plain quote backslash printable => exact textBody_plain quote backslash printable.1 _
  | unit hunit => rw [textBody_unitEscape hunit, pushUnit_of_char hunit]
  | pair hpair =>
    have hvalid : c.toNat < 0xd800 ∨ 0xdfff < c.toNat ∧ c.toNat < 0x110000 := c.valid
    have hlow : unitEscape (0xdc00 + (c.toNat - 0x10000) % 0x400) =
        '\\' :: 'u' :: hexText 4 (0xdc00 + (c.toNat - 0x10000) % 0x400) := rfl
    rw [List.append_assoc, hlow, List.cons_append, textBody_unitEscape (by omega),
      ← List.cons_append, ← hlow, textBody_unitEscape (by omega), pushUnit_pair hpair]

theorem textBody_flatMap_writeChar (cs read : List Char) :
    textBody start ⟨read, none⟩ (cs.flatMap writeChar ++ '"' :: rest) =
      .ok (String.ofList (read.reverse ++ cs), rest) := by
  induction cs generalizing read with
  | nil => rw [List.append_nil]; rfl
  | cons c cs ih =>
    obtain ⟨next, more, hnext⟩ := List.exists_cons_of_ne_nil
      (List.append_ne_nil_of_right_ne_nil (cs.flatMap writeChar) (List.cons_ne_nil '"' rest))
    rw [List.flatMap_cons, List.append_assoc, hnext, textBody_writeChar, ← hnext, ih,
      List.reverse_cons, List.append_assoc]
    rfl

theorem readText_writeText (fault : Fault) (s : String) (rest : List Char) :
    readText fault (writeText s ++ rest) = .ok (s, rest) := by
  rw [writeText, List.cons_append, readText, List.append_assoc, List.singleton_append,
    textBody_flatMap_writeChar]
  exact congrArg (fun s => Except.ok (s, rest)) (String.ofList_toList)

end RenderTrace.Json
