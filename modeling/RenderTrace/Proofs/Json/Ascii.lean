import RenderTrace.Proofs.Json.Number
import RenderTrace.Proofs.Json.Text

/-!
# The characters of documents

The text of a document has no characters but line feeds and those that ASCII prints
(`allPlain_writeValue`): whatever else a text or name has is written by its code.
-/

namespace RenderTrace.Json

/-- A line feed, or a character that ASCII prints. -/
def Plain (c : Char) : Prop := c = '\n' ∨ 0x20 ≤ c.toNat ∧ c.toNat ≤ 0x7e

instance (c : Char) : Decidable (Plain c) :=
  inferInstanceAs (Decidable (c = '\n' ∨ 0x20 ≤ c.toNat ∧ c.toNat ≤ 0x7e))

def AllPlain (cs : List Char) : Prop := ∀ c ∈ cs, Plain c

instance (cs : List Char) : Decidable (AllPlain cs) := List.decidableBAll Plain cs

theorem AllPlain.append {cs ds : List Char} (hcs : AllPlain cs) (hds : AllPlain ds) :
    AllPlain (cs ++ ds) := fun c hc => (List.mem_append.mp hc).elim (hcs c) (hds c)

theorem AllPlain.cons {c : Char} {cs : List Char} (hc : Plain c) (hcs : AllPlain cs) :
    AllPlain (c :: cs) := List.forall_mem_cons.mpr ⟨hc, hcs⟩

theorem allPlain_replicate {c : Char} (hc : Plain c) (n : Nat) : AllPlain (List.replicate n c) := by
  intro d hd
  rwa [List.eq_of_mem_replicate hd]

theorem plain_of_isDigit {c : Char} (h : c.isDigit) : Plain c := by
  simp only [Char.isDigit, Bool.and_eq_true, decide_eq_true_eq] at h
  have hlow : 0x30 ≤ c.toNat := h.1
  have hhigh : c.toNat ≤ 0x39 := h.2
  exact .inr ⟨by omega, by omega⟩

theorem allPlain_toDigits (n : Nat) : AllPlain (Nat.toDigits 10 n) := fun _ hc =>
  plain_of_isDigit (isDigit_of_mem hc)

/-! ## Doubles -/

open Number (Decimal Style)

theorem mem_trim {d : Decimal} {c : Char} (h : c ∈ d.trim.digits) : c ∈ d.digits := by
  rw [Decimal.trim, List.mem_reverse] at h
  exact List.mem_reverse.mp ((List.dropWhile_sublist _).mem h)

theorem allPlain_rounded (num den n : Nat) : AllPlain (Decimal.rounded num den n).digits := by
  unfold Decimal.rounded
  split
  · decide
  · exact allPlain_toDigits _

theorem allPlain_shortest (mantissa : Nat) (exponent : Int) :
    AllPlain (Decimal.shortest mantissa exponent).digits := by
  unfold Decimal.shortest
  split
  · decide
  dsimp only
  split
  · next d hd =>
    obtain ⟨k, -, hk⟩ := List.exists_of_findSome?_eq_some hd
    obtain ⟨q, -, rfl⟩ := Option.map_eq_some_iff.mp hk
    exact fun c hc => allPlain_toDigits q c (mem_trim hc)
  · exact allPlain_rounded _ _ _

def PlainText (s : String) : Prop := AllPlain s.toList

instance (s : String) : Decidable (PlainText s) := inferInstanceAs (Decidable (AllPlain s.toList))

theorem PlainText.append {s t : String} (hs : PlainText s) (ht : PlainText t) :
    PlainText (s ++ t) := by
  rw [PlainText, String.toList_append]
  exact AllPlain.append hs ht

theorem AllPlain.ofList {cs : List Char} (h : AllPlain cs) : PlainText (String.ofList cs) := by
  rwa [PlainText, String.toList_ofList]

theorem AllPlain.take {cs : List Char} (h : AllPlain cs) (n : Nat) : AllPlain (cs.take n) :=
  fun c hc => h c (List.mem_of_mem_take hc)

theorem AllPlain.drop {cs : List Char} (h : AllPlain cs) (n : Nat) : AllPlain (cs.drop n) :=
  fun c hc => h c (List.mem_of_mem_drop hc)

theorem plainText_exponentText (e : Int) : PlainText (Style.exponentText e) := by
  refine AllPlain.ofList (.cons ?_ ((allPlain_replicate (by decide) _).append (allPlain_toDigits _)))
  split <;> decide

theorem plainText_layout (style : Style) {d : Decimal} (h : AllPlain d.digits) :
    PlainText (style.layout d) := by
  have hzeros : ∀ n, AllPlain (List.replicate n '0') := allPlain_replicate (by decide)
  have hpoint : PlainText "." := by decide
  unfold Style.layout
  dsimp only
  split
  · split
    · exact PlainText.append (by decide) ((hzeros _).append h).ofList
    split
    · refine (h.append (hzeros _)).ofList.append ?_
      split <;> decide
    · exact ((h.take _).ofList.append hpoint).append (h.drop _).ofList
  · refine (((h.take 1).ofList.append ?_).append (by decide)).append (plainText_exponentText _)
    split
    · decide
    · exact hpoint.append (h.drop 1).ofList

theorem plainText_magnitude {style : Style} (hstyle : style.precision = none) (mantissa : Nat)
    (exponent : Int) : PlainText (style.magnitude mantissa exponent) := by
  unfold Style.magnitude
  split
  · split <;> decide
  · rw [hstyle]
    exact plainText_layout style (allPlain_shortest mantissa exponent)

theorem plainText_document (x : Float) : PlainText (Style.document.write x) := by
  have hsign : ∀ negative : Bool, PlainText (if negative then "-" else "") := by decide
  unfold Style.write
  split
  · decide
  · exact (hsign _).append (by decide)
  · exact (hsign _).append (plainText_magnitude rfl _ _)

theorem allPlain_writeNumber (n : Number) : AllPlain (writeNumber n) := by
  cases n with
  | whole n =>
    rw [writeNumber_whole]
    split
    · exact .cons (by decide) (allPlain_toDigits _)
    · exact allPlain_toDigits _
  | double x => exact plainText_document x

/-! ## Texts -/

theorem plain_digitChar {d : Nat} (h : d < 16) : Plain (Nat.digitChar d) := by
  interval_cases d <;> decide

theorem allPlain_unitEscape {n : Nat} (h : n < 0x10000) : AllPlain (unitEscape n) := by
  have hdigit : ∀ k, Plain (Nat.digitChar (k % 16)) := fun k =>
    plain_digitChar (Nat.mod_lt k (by decide))
  rw [unitEscape, Text.hexText_four h]
  refine .cons (by decide) (.cons (by decide) (.cons (plain_digitChar (by omega)) ?_))
  exact .cons (hdigit _) (.cons (hdigit _) (.cons (hdigit _) (List.forall_mem_nil _)))

theorem plain_of_escaped {c e : Char} (h : escaped? e = some c) : Plain e := by
  unfold escaped? at h
  split at h
  all_goals first | decide | exact nomatch h

theorem allPlain_writeChar (c : Char) : AllPlain (writeChar c) := by
  have hwritten := written_writeChar c
  generalize writeChar c = cs at hwritten
  cases hwritten with
  | escaped stands => exact .cons (by decide) (.cons (plain_of_escaped stands) nofun)
  | plain _ _ printable =>
    have hlow : 0x20 ≤ c.toNat := printable.1
    have hhigh : c.toNat ≤ 0x7e := printable.2
    exact .cons (.inr ⟨hlow, hhigh⟩) nofun
  | unit hunit => exact allPlain_unitEscape hunit
  | pair hpair =>
    have hvalid : c.toNat < 0xd800 ∨ 0xdfff < c.toNat ∧ c.toNat < 0x110000 := c.valid
    exact (allPlain_unitEscape (by omega)).append (allPlain_unitEscape (by omega))

theorem allPlain_writeText (s : String) : AllPlain (writeText s) := by
  have hbody : AllPlain (s.toList.flatMap writeChar) := by
    intro c hc
    obtain ⟨d, -, hd⟩ := List.mem_flatMap.mp hc
    exact allPlain_writeChar d c hd
  exact .cons (by decide) (hbody.append (by decide))

/-! ## Documents -/

theorem allPlain_newline (level : Nat) : AllPlain (newline level) :=
  .cons (by decide) (allPlain_replicate (by decide) _)

theorem allPlain_intercalate {sep : List Char} (hsep : AllPlain sep) {parts : List (List Char)}
    (h : ∀ part ∈ parts, AllPlain part) : AllPlain (List.intercalate sep parts) := by
  induction parts with
  | nil => exact nofun
  | cons part parts ih =>
    obtain ⟨hpart, hparts⟩ := List.forall_mem_cons.mp h
    match parts with
    | [] => rwa [List.intercalate_singleton]
    | next :: parts =>
      rw [List.intercalate_cons_cons]
      exact (hpart.append hsep).append (ih hparts)

theorem allPlain_block {opening closing : Char} (hopening : Plain opening) (hclosing : Plain closing)
    (level : Nat) {parts : List (List Char)} (h : ∀ part ∈ parts, AllPlain part) :
    AllPlain (block opening closing level parts) := by
  have hend : AllPlain [closing] := .cons hclosing nofun
  match parts with
  | [] => exact .cons hopening hend
  | part :: parts =>
    have hsep : AllPlain (',' :: newline (level + 1)) := .cons (by decide) (allPlain_newline _)
    have hlines := allPlain_intercalate hsep h
    exact .cons hopening
      ((((allPlain_newline _).append hlines).append (allPlain_newline level)).append hend)

mutual

theorem allPlain_writeValue (level : Nat) : ∀ v : Json, AllPlain (writeValue level v)
  | .null => by rw [writeValue]; decide
  | .bool b => by cases b <;> rw [writeValue] <;> decide
  | .number n => allPlain_writeNumber n
  | .text s => allPlain_writeText s
  | .array xs => allPlain_block (by decide) (by decide) level (allPlain_writeItems (level + 1) xs)
  | .object ms => allPlain_block (by decide) (by decide) level (allPlain_writeMembers (level + 1) ms)

theorem allPlain_writeItems (level : Nat) :
    ∀ xs : List Json, ∀ part ∈ writeItems level xs, AllPlain part
  | [] => fun _ hpart => nomatch hpart
  | x :: xs => List.forall_mem_cons.mpr ⟨allPlain_writeValue level x, allPlain_writeItems level xs⟩

theorem allPlain_writeMembers (level : Nat) :
    ∀ ms : List (String × Json), ∀ part ∈ writeMembers level ms, AllPlain part
  | [] => fun _ hpart => nomatch hpart
  | (name, v) :: ms => by
    have hvalue : AllPlain (':' :: ' ' :: writeValue level v) :=
      .cons (by decide) (.cons (by decide) (allPlain_writeValue level v))
    exact List.forall_mem_cons.mpr
      ⟨(allPlain_writeText name).append hvalue, allPlain_writeMembers level ms⟩

end

end RenderTrace.Json
