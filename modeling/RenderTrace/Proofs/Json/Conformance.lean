import RenderTrace.Proofs.Json.Document
import RenderTrace.Proofs.Json.Numeral

/-!
# Documents by the grammar

A document is written by the grammar if its numbers are finite (`value_writeValue`). What its text shows
outside of quotes tells whether they are (`shows_writeValue`), so the grammar has no text of any other
document (`conforms_write_iff`).
-/

namespace RenderTrace.Json
open Grammar

/-! ## Texts -/

theorem isHexDigit_digitChar {d : Nat} (h : d < 16) : Number.isHexDigit (Nat.digitChar d) := by
  rw [Number.isHexDigit, Text.hexValue?_digitChar h]
  rfl

theorem quotable_unitEscape {n : Nat} (h : n < 0x10000) : Quotable (unitEscape n) := by
  have hdigit : ∀ k, Number.isHexDigit (Nat.digitChar (k % 16)) := fun k =>
    isHexDigit_digitChar (Nat.mod_lt k (by decide))
  rw [unitEscape, Text.hexText_four h]
  refine .unit ?_
  simp only [List.forall_mem_cons]
  exact ⟨isHexDigit_digitChar (by omega), hdigit _, hdigit _, hdigit _, List.forall_mem_nil _⟩

theorem mem_of_escaped? {c e : Char} (h : escaped? e = some c) :
    e ∈ ['"', '\\', '/', 'b', 'f', 'n', 'r', 't'] := by
  unfold escaped? at h
  split at h
  all_goals first | decide | exact nomatch h

theorem exists_quotable_writeChar (c : Char) :
    ∃ parts : List (List Char), (∀ part ∈ parts, Quotable part) ∧ parts.flatten = writeChar c := by
  have hwritten := written_writeChar c
  generalize writeChar c = cs at hwritten
  cases hwritten with
  | escaped stands =>
    exact ⟨[_], List.forall_mem_singleton.mpr (.escaped (mem_of_escaped? stands)), rfl⟩
  | plain quote backslash printable =>
    exact ⟨[_], List.forall_mem_singleton.mpr (.plain printable.1 quote backslash), rfl⟩
  | unit hunit =>
    exact ⟨[_], List.forall_mem_singleton.mpr (quotable_unitEscape hunit), List.append_nil _⟩
  | pair hpair =>
    have hvalid : c.toNat < 0xd800 ∨ 0xdfff < c.toNat ∧ c.toNat < 0x110000 := c.valid
    have hhigh : Quotable (unitEscape (0xd800 + (c.toNat - 0x10000) / 0x400)) :=
      quotable_unitEscape (by omega)
    have hlow : Quotable (unitEscape (0xdc00 + (c.toNat - 0x10000) % 0x400)) :=
      quotable_unitEscape (by omega)
    exact ⟨[_, _], List.forall_mem_cons.mpr ⟨hhigh, List.forall_mem_singleton.mpr hlow⟩, by simp⟩

theorem quoted_writeText (s : String) : Quoted (writeText s) := by
  choose parts hparts hflatten using exists_quotable_writeChar
  have hbody : (s.toList.flatMap parts).flatten = s.toList.flatMap writeChar := by
    induction s.toList with
    | nil => rfl
    | cons c cs ih => rw [List.flatMap_cons, List.flatten_append, hflatten, ih, List.flatMap_cons]
  have hquotable : ∀ part ∈ s.toList.flatMap parts, Quotable part := fun part hpart =>
    have ⟨c, _, hc⟩ := List.mem_flatMap.mp hpart
    hparts c part hc
  rw [writeText, ← hbody]
  exact .intro hquotable

theorem numeral_writeNumber {n : Number} (h : n.isFinite = true) : Numeral (writeNumber n) :=
  match n with
  | .whole n => numeral_whole n
  | .double _ => numeral_double h

/-! ## Conforming documents -/

theorem blank_newline (level : Nat) : Blank (newline level) := by
  intro c hc
  rcases List.mem_cons.mp hc with rfl | hc
  · exact .inr (.inr (.inl rfl))
  · exact .inl (List.eq_of_mem_replicate hc)

theorem blank_nil : Blank [] := List.forall_mem_nil _

theorem blank_space : Blank [' '] := List.forall_mem_singleton.mpr (.inl rfl)

/-- A line end stands before each part, not only between two. -/
theorem newline_append_lines (level : Nat) (part : List Char) (parts : List (List Char)) :
    newline level ++ lines level (part :: parts) =
      List.intercalate [','] ((part :: parts).map (newline level ++ ·)) := by
  induction parts generalizing part with
  | nil => rw [lines, List.intercalate_singleton, List.map_singleton, List.intercalate_singleton]
  | cons next parts ih =>
    rw [lines_cons_cons, List.map_cons, List.map_cons, List.intercalate_cons_cons, ← List.map_cons,
      ← ih]
    simp

theorem exists_block_eq (opening closing : Char) (level : Nat) (parts : List (List Char)) :
    ∃ blank, Blank blank ∧ block opening closing level parts =
      opening :: (List.intercalate [','] (parts.map (newline (level + 1) ++ ·)) ++
        (blank ++ [closing])) := by
  match parts with
  | [] => exact ⟨[], nofun, rfl⟩
  | part :: parts =>
    refine ⟨newline level, blank_newline level, ?_⟩
    rw [← newline_append_lines, block, lines]
    · simp
    · exact List.cons_ne_nil _ _

theorem writeItems_eq (level : Nat) (xs : List Json) :
    writeItems level xs = xs.map (writeValue level) := by
  induction xs with
  | nil => rfl
  | cons x xs ih => rw [writeItems, ih, List.map_cons]

theorem writeMembers_eq (level : Nat) (ms : List (String × Json)) : writeMembers level ms =
    ms.map fun m => writeText m.1 ++ ':' :: ' ' :: writeValue level m.2 := by
  induction ms with
  | nil => rfl
  | cons m ms ih => rw [writeMembers, ih, List.map_cons]

def itemOf (level : Nat) (x : Json) : Item where
  before := newline level
  value := writeValue level x
  after := []

def memberOf (level : Nat) (m : String × Json) : Member where
  preface := newline level
  name := writeText m.1
  gap := []
  before := [' ']
  value := writeValue level m.2
  after := []

theorem value_array {level : Nat} {xs : List Json}
    (h : ∀ x ∈ xs, Value (writeValue (level + 1) x)) : Value (writeValue level (.array xs)) := by
  obtain ⟨blank, hblank, hblock⟩ :=
    exists_block_eq '[' ']' level (writeItems (level + 1) xs)
  have hitems : (writeItems (level + 1) xs).map (newline (level + 1) ++ ·) =
      (xs.map (itemOf (level + 1))).map Item.chars := by
    simp [writeItems_eq, itemOf, Item.chars]
  rw [writeValue, hblock, hitems]
  refine .array ?_ ?_ hblank
  · exact List.forall_mem_map.mpr fun x _ => ⟨blank_newline _, blank_nil⟩
  · exact List.forall_mem_map.mpr h

theorem value_object {level : Nat} {ms : List (String × Json)}
    (h : ∀ m ∈ ms, Value (writeValue (level + 1) m.2)) : Value (writeValue level (.object ms)) := by
  obtain ⟨blank, hblank, hblock⟩ :=
    exists_block_eq '\x7b' '\x7d' level (writeMembers (level + 1) ms)
  have hmembers : (writeMembers (level + 1) ms).map (newline (level + 1) ++ ·) =
      (ms.map (memberOf (level + 1))).map Member.chars := by
    simp [writeMembers_eq, memberOf, Member.chars, Item.chars]
  rw [writeValue, hblock, hmembers]
  refine .object ?_ ?_ ?_ hblank
  · exact List.forall_mem_map.mpr fun m _ => ⟨blank_space, blank_nil, blank_newline _, blank_nil⟩
  · exact List.forall_mem_map.mpr fun m _ => quoted_writeText m.1
  · exact List.forall_mem_map.mpr h

mutual

theorem value_writeValue (level : Nat) :
    ∀ v : Json, (∀ n ∈ v.numbers, n.isFinite = true) → Value (writeValue level v)
  | .null, _ => .word (by simp)
  | .bool true, _ => .word (by simp)
  | .bool false, _ => .word (by simp)
  | .number _, h => .number (numeral_writeNumber (h _ List.mem_cons_self))
  | .text s, _ => .text (quoted_writeText s)
  | .array xs, h => value_array (values_items (level + 1) xs h)
  | .object ms, h => value_object (values_members (level + 1) ms h)

theorem values_items (level : Nat) : ∀ xs : List Json,
    (∀ n ∈ itemNumbers xs, n.isFinite = true) → ∀ x ∈ xs, Value (writeValue level x)
  | [], _ => nofun
  | x :: xs, h =>
    have ⟨hx, hxs⟩ := List.forall_mem_append.mp h
    List.forall_mem_cons.mpr ⟨value_writeValue level x hx, values_items level xs hxs⟩

theorem values_members (level : Nat) : ∀ ms : List (String × Json),
    (∀ n ∈ memberNumbers ms, n.isFinite = true) → ∀ m ∈ ms, Value (writeValue level m.2)
  | [], _ => nofun
  | (_, v) :: ms, h =>
    have ⟨hv, hms⟩ := List.forall_mem_append.mp h
    List.forall_mem_cons.mpr ⟨value_writeValue level v hv, values_members level ms hms⟩

end

/-! ## What documents show -/

/-- Some number is neither an integer nor a finite double. -/
def someNonFinite (ns : List Number) : Bool := ns.any fun n => !n.isFinite

theorem someNonFinite_append (ms ns : List Number) :
    someNonFinite (ms ++ ns) = (someNonFinite ms || someNonFinite ns) := List.any_append

theorem someNonFinite_eq_false_iff {ns : List Number} :
    someNonFinite ns = false ↔ ∀ n ∈ ns, n.isFinite = true := by
  simp [someNonFinite]

theorem shows_newline (level : Nat) : Shows false (newline level) := (blank_newline level).scans

theorem shows_word {s : String} (h : s ∈ ["null", "true", "false"]) : Shows false s.toList :=
  (Value.word h).scans

theorem shows_writeNumber (n : Number) : Shows (!n.isFinite) (writeNumber n) := by
  cases hn : n.isFinite with
  | true => exact (numeral_writeNumber hn).scans
  | false =>
    cases n with
    | whole n => exact nomatch hn
    | double x => exact shows_double (Bool.eq_false_iff.mp hn)

theorem shows_block {α : Type} {f : α → Bool} {xs : List α} {parts : List (List Char)}
    {opening closing : Char} (hopening : Shows false [opening]) (hclosing : Shows false [closing])
    (level : Nat) (h : List.Forall₂ (fun x part => Shows (f x) part) xs parts) :
    Shows (xs.any f) (block opening closing level parts) := by
  cases h with
  | nil => exact hopening.after hclosing
  | @cons x part xs parts hx hxs =>
    have hcomma : Shows false (',' :: newline (level + 1)) :=
      Scans.after (scans_mark (by decide)) (shows_newline _)
    have hlines := scans_intercalate hcomma (.cons hx hxs)
    have hbody := ((shows_newline (level + 1)).after hlines).before (shows_newline level)
    exact hopening.after (hbody.before hclosing)

theorem any_itemNumbers (xs : List Json) :
    someNonFinite (itemNumbers xs) = xs.any fun x => someNonFinite x.numbers := by
  induction xs with
  | nil => rfl
  | cons x xs ih => rw [itemNumbers, someNonFinite_append, ih, List.any_cons]

theorem any_memberNumbers (ms : List (String × Json)) :
    someNonFinite (memberNumbers ms) = ms.any fun m => someNonFinite m.2.numbers := by
  induction ms with
  | nil => rfl
  | cons m ms ih => rw [memberNumbers, someNonFinite_append, ih, List.any_cons]

mutual

theorem shows_writeValue (level : Nat) :
    ∀ v : Json, Shows (someNonFinite v.numbers) (writeValue level v)
  | .null => shows_word (by simp)
  | .bool true => shows_word (by simp)
  | .bool false => shows_word (by simp)
  | .number n => by
    have hone : someNonFinite [n] = !n.isFinite := Bool.or_false _
    exact hone ▸ shows_writeNumber n
  | .text s => (quoted_writeText s).scans
  | .array xs => by
    rw [numbers, any_itemNumbers]
    exact shows_block (scans_mark (by decide)) (scans_mark (by decide)) level
      (shows_writeItems (level + 1) xs)
  | .object ms => by
    rw [numbers, any_memberNumbers]
    exact shows_block (scans_mark (by decide)) (scans_mark (by decide)) level
      (shows_writeMembers (level + 1) ms)

theorem shows_writeItems (level : Nat) : ∀ xs : List Json,
    List.Forall₂ (fun x part => Shows (someNonFinite x.numbers) part) xs (writeItems level xs)
  | [] => .nil
  | x :: xs => .cons (shows_writeValue level x) (shows_writeItems level xs)

theorem shows_writeMembers (level : Nat) : ∀ ms : List (String × Json),
    List.Forall₂ (fun m part => Shows (someNonFinite m.2.numbers) part) ms (writeMembers level ms)
  | [] => .nil
  | (name, v) :: ms => by
    have hcolon : Shows false [':'] := scans_mark (by decide)
    have hvalue := hcolon.after (blank_space.scans.after (shows_writeValue level v))
    exact .cons ((quoted_writeText name).scans.after hvalue) (shows_writeMembers level ms)

end

/-- The text of a document conforms to the grammar just if the document has finite numbers only. -/
theorem conforms_write_iff (v : Json) :
    Conforms v.write.toList ↔ ∀ n ∈ v.numbers, n.isFinite = true := by
  have hshows := shows_writeValue 0 v
  rw [write, String.toList_ofList, ← someNonFinite_eq_false_iff]
  constructor
  · exact fun h => hshows.unique h.scans
  · intro h
    have hvalue := value_writeValue 0 v (someNonFinite_eq_false_iff.mp h)
    exact ⟨⟨[], _, []⟩, blank_nil, blank_nil, hvalue, (List.append_nil _).symm⟩

end Json
end RenderTrace
