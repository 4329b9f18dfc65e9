import Mathlib.Data.List.TakeWhile
import RenderTrace.Input.Handle

/-!
# Handles as they are written

A text that has the form of a handle is read as the number that its digits denote, a line feed at its end
or not (`read_of_isHandle`). Only the length of a decimal handle can stand in the way.
-/

namespace RenderTrace
open Text (isAsciiBlank dropEnd)

namespace Number

theorem isHexDigit_range {c : Char} (h : isHexDigit c) : 0x30 ≤ c.toNat ∧ c.toNat ≤ 0x66 := by
  unfold isHexDigit Text.hexValue? at h
  split at h
  · next hdigit =>
    simp only [Char.isDigit, Bool.and_eq_true, decide_eq_true_eq] at hdigit
    have hlow : 0x30 ≤ c.toNat := hdigit.1
    have hhigh : c.toNat ≤ 0x39 := hdigit.2
    omega
  split at h
  · next hlower =>
    have hlow : 0x61 ≤ c.toNat := hlower.1
    have hhigh : c.toNat ≤ 0x66 := hlower.2
    omega
  split at h
  · next hupper =>
    have hlow : 0x41 ≤ c.toNat := hupper.1
    have hhigh : c.toNat ≤ 0x46 := hupper.2
    omega
  · exact nomatch h

theorem isHexDigit_of_isDigit {c : Char} (h : c.isDigit) : isHexDigit c := by
  rw [isHexDigit, Text.hexValue?, if_pos h]
  rfl

theorem plain_of_lt {c : Char} (h : c.toNat < 128) : plain c = c := if_pos h

theorem isAsciiBlank_of_lt {c : Char} (h : 0x20 < c.toNat) : isAsciiBlank c = false := by
  rw [Bool.eq_false_iff]
  intro hblank
  simp only [isAsciiBlank, Bool.or_eq_true, beq_iff_eq, Bool.and_eq_true, decide_eq_true_eq] at hblank
  rcases hblank with rfl | ⟨-, hhigh⟩
  · exact absurd h (by decide)
  · have hreturn : c.toNat ≤ 0xd := hhigh
    omega

/-- The characters that are left as they are when a number is read. -/
def Kept (c : Char) : Prop := 0x20 < c.toNat ∧ c.toNat < 128

theorem kept_of_isHexDigit {c : Char} (h : isHexDigit c) : Kept c := by
  obtain ⟨hlow, hhigh⟩ := isHexDigit_range h
  exact ⟨by omega, by omega⟩

theorem dropEnd_of_kept {ds : List Char} (hds : ∀ c ∈ ds, Kept c) : dropEnd isAsciiBlank ds = ds := by
  have hkept : ds.reverse.dropWhile isAsciiBlank = ds.reverse := by
    cases hlast : ds.reverse with
    | nil => rfl
    | cons c cs =>
      have hc : c ∈ ds := List.mem_reverse.mp (hlast ▸ List.mem_cons_self)
      exact List.dropWhile_cons_of_neg (Bool.eq_false_iff.mp (isAsciiBlank_of_lt (hds c hc).1))
  rw [dropEnd, hkept, List.reverse_reverse]

theorem prepare_of_kept {s : String} {ds : List Char} (hds : ∀ c ∈ ds, Kept c)
    (hs : s.toList = ds ∨ s.toList = ds ++ ['\n']) : prepare s = ds := by
  have hplain : ds.map plain = ds :=
    (List.map_congr_left fun c hc => plain_of_lt (hds c hc).2).trans ds.map_id
  have hstart : ∀ cs, ds ≠ [] → (ds ++ cs).dropWhile isAsciiBlank = ds ++ cs := by
    intro cs hne
    obtain ⟨d, ds, rfl⟩ := List.exists_cons_of_ne_nil hne
    have hd : isAsciiBlank d = false := isAsciiBlank_of_lt (hds d List.mem_cons_self).1
    exact List.dropWhile_cons_of_neg (Bool.eq_false_iff.mp hd)
  by_cases hne : ds = []
  · subst hne
    rcases hs with hs | hs <;> rw [prepare, hs] <;> rfl
  rcases hs with hs | hs
  · have hfront := hstart [] hne
    rw [List.append_nil] at hfront
    rw [prepare, hs, hplain, hfront, dropEnd_of_kept hds]
  · have hfeed : dropEnd isAsciiBlank (ds ++ ['\n']) = dropEnd isAsciiBlank ds := by
      rw [dropEnd, dropEnd, List.reverse_append]
      rfl
    have hline : ['\n'].map plain = ['\n'] := rfl
    rw [prepare, hs, List.map_append, hplain, hline, hstart _ hne, hfeed, dropEnd_of_kept hds]

theorem takeDigitsOf_eq {isDigit : Char → Bool} (hunderscore : isDigit '_' = false) {ds : List Char}
    (h : ∀ c ∈ ds, isDigit c) (after : Bool) : takeDigitsOf isDigit after ds = some (ds, []) := by
  induction ds generalizing after with
  | nil => rw [takeDigitsOf]
  | cons d ds ih =>
    obtain ⟨hd, hds⟩ := List.forall_mem_cons.mp h
    have hne : d ≠ '_' := by
      rintro rfl
      rw [hunderscore] at hd
      exact nomatch hd
    rw [takeDigitsOf, if_pos hd, ih hds]
    · rfl
    · exact hne

end Number

namespace Handle
open Number (maxIntegerDigits ofDigits ofHexDigits isHexDigit)

theorem toList_withoutLineFeed (cs : List Char) :
    cs = withoutLineFeed cs ∨ cs = withoutLineFeed cs ++ ['\n'] := by
  unfold withoutLineFeed
  split
  · next hlast =>
    obtain ⟨front, rfl⟩ := List.getLast?_eq_some_iff.mp hlast
    rw [List.dropLast_concat]
    exact .inr rfl
  · exact .inl rfl

/-- The number that the text of a handle denotes. -/
def value (s : String) : Nat :=
  match withoutLineFeed s.toList with
  | '0' :: 'x' :: ds => ofHexDigits ds
  | ds => ofDigits ds

def decimalDigits (s : String) : List Char :=
  match withoutLineFeed s.toList with
  | '0' :: 'x' :: _ => []
  | ds => ds

theorem hexadecimal_eq {s : String} {ds : List Char} (h : withoutLineFeed s.toList = '0' :: 'x' :: ds) :
    decimalDigits s = [] ∧ value s = ofHexDigits ds := by
  rw [decimalDigits, value, h]
  exact ⟨rfl, rfl⟩

theorem decimal_eq {s : String} (h : ∀ ds, withoutLineFeed s.toList ≠ '0' :: 'x' :: ds) :
    decimalDigits s = withoutLineFeed s.toList ∧ value s = ofDigits (withoutLineFeed s.toList) := by
  unfold decimalDigits value
  constructor <;> split
  · next hds => exact absurd hds (h _)
  · rfl
  · next hds => exact absurd hds (h _)
  · rfl

theorem takeHexMark_of_digits {ds : List Char} (h : ∀ c ∈ ds, c.isDigit) {s : List Char}
    (hs : s = ds ∨ s = ds ++ ['\n']) : (Number.takeHexMark s).1 = false := by
  have hsecond : ∀ c ∈ (s.drop 1).head?, c ≠ 'x' ∧ c ≠ 'X' := by
    intro c hc
    have hmem : c ∈ s := List.mem_of_mem_drop (List.mem_of_mem_head? hc)
    have hclass : c.isDigit ∨ c = '\n' := by
      rcases hs with rfl | rfl
      · exact .inl (h c hmem)
      · exact (List.mem_append.mp hmem).imp (h c) List.mem_singleton.mp
    constructor <;> rintro rfl <;> exact absurd hclass (by decide)
  unfold Number.takeHexMark
  split
  · next c cs =>
    obtain ⟨hlower, hupper⟩ := hsecond c rfl
    rw [if_neg (not_or.mpr ⟨hlower, hupper⟩)]
  · rfl

theorem readHexadecimal_of_handle {s : String} {ds : List Char} (hne : ds ≠ [])
    (hds : ∀ c ∈ ds, isHexDigit c)
    (hs : s.toList = '0' :: 'x' :: ds ∨ s.toList = '0' :: 'x' :: ds ++ ['\n']) :
    Number.readHexadecimal s = .ok (ofHexDigits ds) := by
  have hkept : ∀ c ∈ '0' :: 'x' :: ds, Number.Kept c :=
    List.forall_mem_cons.mpr ⟨⟨by decide, by decide⟩, List.forall_mem_cons.mpr
      ⟨⟨by decide, by decide⟩, fun c hc => Number.kept_of_isHexDigit (hds c hc)⟩⟩
  obtain ⟨d, ds, rfl⟩ := List.exists_cons_of_ne_nil hne
  have hdigits := Number.takeDigitsOf_eq (by decide) hds true
  have hsign : Number.takeSign ('0' :: 'x' :: d :: ds) = (false, '0' :: 'x' :: d :: ds) := rfl
  have hmark : Number.takeHexMark ('0' :: 'x' :: d :: ds) = (true, d :: ds) := rfl
  unfold Number.readHexadecimal
  rw [Number.prepare_of_kept hkept hs]
  simp only [hsign, hmark, hdigits]
  rfl

theorem readInteger_of_handle {s : String} {ds : List Char} (hne : ds ≠ [])
    (hds : ∀ c ∈ ds, c.isDigit) (hs : s.toList = ds ∨ s.toList = ds ++ ['\n']) :
    Number.readInteger s = if maxIntegerDigits < ds.length then .error (.tooManyDigits ds.length)
      else .ok (ofDigits ds) := by
  have hkept : ∀ c ∈ ds, Number.Kept c := fun c hc =>
    Number.kept_of_isHexDigit (Number.isHexDigit_of_isDigit (hds c hc))
  have hsign : Number.takeSign ds = (false, ds) := by
    obtain ⟨d, ds, rfl⟩ := List.exists_cons_of_ne_nil hne
    have hd : d.isDigit := hds d List.mem_cons_self
    have hminus : d ≠ '-' := by
      rintro rfl
      exact absurd hd (by decide)
    have hplus : d ≠ '+' := by
      rintro rfl
      exact absurd hd (by decide)
    simp [Number.takeSign, hminus, hplus]
  have hdigits : Number.takeDigits false ds = some (ds, []) :=
    Number.takeDigitsOf_eq (by decide) hds false
  unfold Number.readInteger
  rw [Number.prepare_of_kept hkept hs, hsign]
  simp only [hdigits, List.isEmpty_eq_false_iff.mpr hne]
  rfl

/-- A text of the form of a handle is read as the number that it denotes, unless it has too many decimal
digits. -/
theorem read_of_isHandle {s : String} (h : isHandle s) :
    read s = if maxIntegerDigits < (decimalDigits s).length
      then .error (.tooManyDigits (decimalDigits s).length) else .ok (value s) := by
  have hline := toList_withoutLineFeed s.toList
  unfold isHandle at h
  split at h <;> simp only [Bool.and_eq_true, Bool.not_eq_true', List.isEmpty_eq_false_iff,
    List.all_eq_true] at h
  · next ds hds =>
    rw [hds] at hline
    have hmark : (Number.takeHexMark s.toList).1 = true := by
      rcases hline with hline | hline <;> rw [hline] <;> rfl
    obtain ⟨hdigits, hvalue⟩ := hexadecimal_eq hds
    rw [read, if_pos hmark, readHexadecimal_of_handle h.1 h.2 hline, hdigits, hvalue]
    rfl
  · next hhex =>
    obtain ⟨hdigits, hvalue⟩ := decimal_eq hhex
    have hmark := takeHexMark_of_digits h.2 hline
    rw [read, if_neg (Bool.eq_false_iff.mp hmark), readInteger_of_handle h.1 h.2 hline, hdigits,
      hvalue]

end Handle
end RenderTrace
