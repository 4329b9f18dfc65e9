import Mathlib.Data.List.Basic
import Mathlib.Data.List.Forall2
import RenderTrace.Number.Reader

/-!
# The grammar of documents

`Json.Conforms` is the standard grammar of a document, one definition or constructor for each of its
rules. No rule has a word for a number that is infinite or undefined. A reader that minds the quotes can
tell: outside of them no letter of a conforming text begins such a word (`Conforms.scans`).
-/

namespace RenderTrace.Json
namespace Grammar

/-! ## Rules -/

/-- White space, or nothing. -/
def Blank (cs : List Char) : Prop := ∀ c ∈ cs, c = ' ' ∨ c = '\t' ∨ c = '\n' ∨ c = '\r'

def Digits (cs : List Char) : Prop := cs ≠ [] ∧ ∀ c ∈ cs, c.isDigit

/-- The integer part of a number: no zero stands before other digits. -/
def Whole (cs : List Char) : Prop := Digits cs ∧ (cs.head? = some '0' → cs = ['0'])

def Fraction (cs : List Char) : Prop := cs = [] ∨ ∃ ds, Digits ds ∧ cs = '.' :: ds

/-- A mark, a sign or none, and digits, or nothing of that. -/
def Exponent (cs : List Char) : Prop := cs = [] ∨ ∃ mark sign ds, (mark = 'e' ∨ mark = 'E') ∧
  (sign = [] ∨ sign = ['+'] ∨ sign = ['-']) ∧ Digits ds ∧ cs = mark :: (sign ++ ds)

/-- A number without its sign. -/
inductive Unsigned : List Char → Prop where
  | intro {whole fraction exponent : List Char} (hwhole : Whole whole)
    (hfraction : Fraction fraction) (hexponent : Exponent exponent) :
    Unsigned (whole ++ (fraction ++ exponent))

inductive Numeral : List Char → Prop where
  | positive {cs : List Char} (h : Unsigned cs) : Numeral cs
  | negative {cs : List Char} (h : Unsigned cs) : Numeral ('-' :: cs)

/-- A character of a quoted text, by itself or escaped. -/
inductive Quotable : List Char → Prop where
  | plain {c : Char} (control : 0x20 ≤ c.toNat) (quote : c ≠ '"') (backslash : c ≠ '\\') : Quotable [c]
  | escaped {c : Char} (h : c ∈ ['"', '\\', '/', 'b', 'f', 'n', 'r', 't']) : Quotable ['\\', c]
  | unit {a b c d : Char} (h : ∀ digit ∈ [a, b, c, d], Number.isHexDigit digit) :
    Quotable ['\\', 'u', a, b, c, d]

inductive Quoted : List Char → Prop where
  | intro {parts : List (List Char)} (h : ∀ part ∈ parts, Quotable part) :
    Quoted ('"' :: (parts.flatten ++ ['"']))

structure Item where
  before : List Char
  value : List Char
  after : List Char

def Item.chars (i : Item) : List Char := i.before ++ (i.value ++ i.after)

/-- A member of an object, its name in quotes, with what stands around both. -/
structure Member extends Item where
  preface : List Char
  name : List Char
  gap : List Char

def Member.chars (m : Member) : List Char :=
  m.preface ++ (m.name ++ (m.gap ++ ':' :: m.toItem.chars))

/-- A value without white space around it. -/
inductive Value : List Char → Prop where
  | word {s : String} (h : s ∈ ["null", "true", "false"]) : Value s.toList
  | number {cs : List Char} (h : Numeral cs) : Value cs
  | text {cs : List Char} (h : Quoted cs) : Value cs
  | array {items : List Item} {blank : List Char}
    (blanks : ∀ i ∈ items, Blank i.before ∧ Blank i.after) (values : ∀ i ∈ items, Value i.value)
    (hblank : Blank blank) :
    Value ('[' :: (List.intercalate [','] (items.map Item.chars) ++ (blank ++ [']'])))
  | object {members : List Member} {blank : List Char}
    (blanks : ∀ m ∈ members, Blank m.before ∧ Blank m.after ∧ Blank m.preface ∧ Blank m.gap)
    (names : ∀ m ∈ members, Quoted m.name) (values : ∀ m ∈ members, Value m.value)
    (hblank : Blank blank) :
    Value ('\x7b' :: (List.intercalate [','] (members.map Member.chars) ++ (blank ++ ['\x7d'])))

end Grammar

open Grammar

/-- The text of one value, white space around it or not. -/
def Conforms (cs : List Char) : Prop :=
  ∃ i : Item, Blank i.before ∧ Blank i.after ∧ Value i.value ∧ cs = i.chars

/-! ## Reading with an eye on the quotes -/

/-- Where a reader stands. -/
inductive Quoting where
  | outside
  | inside
  /-- Behind a backslash in a quoted text. -/
  | escaped
  deriving DecidableEq

/-- Where a reader stands after one more character. -/
def Quoting.next : Quoting → Char → Quoting
  | outside, c => if c = '"' then inside else outside
  | inside, c => if c = '"' then outside else if c = '\\' then escaped else inside
  | escaped, _ => inside

/-- The letters that begin the words for what is no finite number. -/
def namesNonFinite (c : Char) : Bool := c = 'N' || c = 'I'

/-- Takes in a character: where the reader stands and whether it has seen such a letter outside of
quotes. -/
def look (state : Quoting × Bool) (c : Char) : Quoting × Bool :=
  (state.1.next c, state.2 || (state.1 = .outside && namesNonFinite c))

/-- From one standing a text leads to another one, and `seen` is whether there is such a letter. -/
def Scans (start stop : Quoting) (seen : Bool) (cs : List Char) : Prop :=
  ∀ before, cs.foldl look (start, before) = (stop, before || seen)

/-- What a text that leaves no quotes open shows outside of them. -/
abbrev Shows : Bool → List Char → Prop := Scans .outside .outside

variable {p q r : Quoting} {a b : Bool} {cs ds : List Char} {c : Char}

theorem Scans.nil : Scans p p false [] := fun before => by rw [List.foldl_nil, Bool.or_false]

theorem Scans.append (hcs : Scans p q a cs) (hds : Scans q r b ds) : Scans p r (a || b) (cs ++ ds) := by
  intro before
  rw [List.foldl_append, hcs, hds, Bool.or_assoc]

/-- Where nothing is seen in a part, the rest decides. -/
theorem Scans.after (hcs : Scans p q false cs) (hds : Scans q r b ds) : Scans p r b (cs ++ ds) :=
  hcs.append hds

theorem Scans.before (hcs : Scans p q a cs) (hds : Scans q r false ds) : Scans p r a (cs ++ ds) :=
  Bool.or_false a ▸ hcs.append hds

theorem Scans.unique (h : Scans p q a cs) (h' : Scans p r b cs) : a = b := by
  have hscan := (h false).symm.trans (h' false)
  simpa using congrArg Prod.snd hscan

theorem scans_char (hc : p = .outside → namesNonFinite c = false) : Scans p (p.next c) false [c] := by
  intro before
  have hseen : (p = .outside && namesNonFinite c) = false := by
    simpa using hc
  rw [List.foldl_cons, look, hseen]
  rfl

theorem scans_inside (hquote : c ≠ '"') (hbackslash : c ≠ '\\') : Scans .inside .inside false [c] := by
  have hscan := scans_char (p := .inside) (c := c) nofun
  rwa [Quoting.next, if_neg hquote, if_neg hbackslash] at hscan

theorem scans_plain (h : ∀ c ∈ cs, c ≠ '"' ∧ namesNonFinite c = false) :
    Shows false cs := by
  induction cs with
  | nil => exact .nil
  | cons c cs ih =>
    obtain ⟨⟨hquote, hletter⟩, hcs⟩ := List.forall_mem_cons.mp h
    have hscan := scans_char (p := .outside) fun _ => hletter
    rw [Quoting.next, if_neg hquote] at hscan
    exact hscan.after (ih hcs)

theorem scans_mark (h : c ≠ '"' ∧ namesNonFinite c = false) : Shows false [c] :=
  scans_plain (List.forall_mem_singleton.mpr h)

theorem scans_intercalate {α : Type} {f : α → Bool} {xs : List α} {parts : List (List Char)}
    {sep : List Char} (hsep : Shows false sep)
    (h : List.Forall₂ (fun x part => Shows (f x) part) xs parts) :
    Shows (xs.any f) (List.intercalate sep parts) := by
  induction h with
  | nil => exact .nil
  | @cons x part xs parts hx hxs ih =>
    cases hxs with
    | nil =>
      rw [List.intercalate_singleton, List.any_cons, List.any_nil, Bool.or_false]
      exact hx
    | cons hy hxs =>
      rw [List.intercalate_cons_cons, List.any_cons]
      exact (hx.before hsep).append ih

/-! ## What conforms -/

namespace Grammar

theorem Blank.scans (h : Blank cs) : Shows false cs := by
  refine scans_plain fun c hc => ?_
  rcases h c hc with rfl | rfl | rfl | rfl <;> decide

theorem Digits.scans (h : Digits cs) : Shows false cs := by
  refine scans_plain fun c hc => ⟨?_, ?_⟩
  · rintro rfl
    exact absurd (h.2 _ hc) (by decide)
  · rw [namesNonFinite, Bool.or_eq_false_iff, decide_eq_false_iff_not, decide_eq_false_iff_not]
    constructor <;> rintro rfl <;> exact absurd (h.2 _ hc) (by decide)

theorem Fraction.scans (h : Fraction cs) : Shows false cs := by
  obtain rfl | ⟨ds, hds, rfl⟩ := h
  · exact .nil
  · exact Scans.after (scans_mark (by decide)) hds.scans

theorem Exponent.scans (h : Exponent cs) : Shows false cs := by
  obtain rfl | ⟨mark, sign, ds, hmark, hsign, hds, rfl⟩ := h
  · exact .nil
  · have hfront : Shows false (mark :: sign) := by
      rcases hmark with rfl | rfl <;> rcases hsign with rfl | rfl | rfl <;>
        exact fun before => by cases before <;> rfl
    exact hfront.after hds.scans

theorem Unsigned.scans (h : Unsigned cs) : Shows false cs := by
  obtain ⟨hwhole, hfraction, hexponent⟩ := h
  exact hwhole.1.scans.after (hfraction.scans.after hexponent.scans)

theorem Numeral.scans (h : Numeral cs) : Shows false cs := by
  cases h with
  | positive h => exact h.scans
  | negative h => exact Scans.after (scans_mark (by decide)) h.scans

theorem Quotable.scans (h : Quotable cs) : Scans .inside .inside false cs := by
  cases h with
  | plain _ quote backslash => exact scans_inside quote backslash
  | escaped h => exact fun before => by simp [look, Quoting.next]
  | @unit a b c d h =>
    have hdigit : ∀ x ∈ [a, b, c, d], Scans .inside .inside false [x] := fun x hx =>
      scans_inside (by rintro rfl; exact absurd (h _ hx) (by decide))
        (by rintro rfl; exact absurd (h _ hx) (by decide))
    simp only [List.forall_mem_cons] at hdigit
    obtain ⟨ha, hb, hc, hd, -⟩ := hdigit
    have hmark : Scans .inside .inside false ['\\', 'u'] := fun before => by simp [look, Quoting.next]
    exact hmark.after (ha.after (hb.after (hc.after hd)))

theorem Quoted.scans (h : Quoted cs) : Shows false cs := by
  obtain @⟨parts, h⟩ := h
  have hopen : Scans .outside .inside false ['"'] := scans_char fun _ => rfl
  have hclose : Scans .inside .outside false ['"'] := scans_char nofun
  have hparts : Scans .inside .inside false parts.flatten := by
    induction parts with
    | nil => exact .nil
    | cons part parts ih =>
      obtain ⟨hpart, hparts⟩ := List.forall_mem_cons.mp h
      exact hpart.scans.after (ih hparts)
  exact hopen.after (hparts.after hclose)

theorem Item.scans {i : Item} (hblanks : Blank i.before ∧ Blank i.after)
    (hvalue : Shows b i.value) : Shows b i.chars :=
  hblanks.1.scans.after (hvalue.before hblanks.2.scans)

theorem scans_bracketed {α : Type} {xs : List α} {f : α → List Char} {blank : List Char}
    {opening closing : Char} (hopening : Shows false [opening])
    (hclosing : Shows false [closing]) (hblank : Blank blank)
    (h : ∀ x ∈ xs, Shows false (f x)) :
    Shows false
      (opening :: (List.intercalate [','] (xs.map f) ++ (blank ++ [closing]))) := by
  have hcomma : Shows false [','] := scans_mark (by decide)
  have hparts : Shows (xs.any fun _ => false)
      (List.intercalate [','] (xs.map f)) :=
    scans_intercalate hcomma (List.forall₂_map_right_iff.mpr (List.forall₂_same.mpr h))
  have hnone : (xs.any fun _ => false) = false := by simp
  rw [hnone] at hparts
  exact hopening.after (hparts.after (hblank.scans.after hclosing))

theorem Value.scans (h : Value cs) : Shows false cs := by
  induction h with
  | word h =>
    simp only [List.mem_cons, List.not_mem_nil, or_false] at h
    rcases h with rfl | rfl | rfl <;> exact fun before => by cases before <;> rfl
  | number h => exact h.scans
  | text h => exact h.scans
  | array blanks _ hblank ih =>
    exact scans_bracketed (scans_mark (by decide)) (scans_mark (by decide)) hblank
      fun i hi => Item.scans (blanks i hi) (ih i hi)
  | object blanks names _ hblank ih =>
    refine scans_bracketed (scans_mark (by decide)) (scans_mark (by decide)) hblank fun m hm => ?_
    obtain ⟨hbefore, hafter, hpreface, hgap⟩ := blanks m hm
    have hcolon : Shows false [':'] := scans_mark (by decide)
    exact hpreface.scans.after ((names m hm).scans.after (hgap.scans.after
      (hcolon.after (Item.scans ⟨hbefore, hafter⟩ (ih m hm)))))

end Grammar

/-- In a conforming text no letter outside of quotes begins a word for what is no finite number. -/
theorem Conforms.scans (h : Conforms cs) : Shows false cs := by
  obtain ⟨i, hbefore, hafter, hvalue, rfl⟩ := h
  exact Item.scans ⟨hbefore, hafter⟩ hvalue.scans

end RenderTrace.Json
