import Mathlib.Data.List.Induction
import RenderTrace.Proofs.Entries
import RenderTrace.Proofs.Input.Grammar
import RenderTrace.Proofs.Json.Text

/-!
# Spellings of handles

A number may be written in many ways as a handle: in decimal or hexadecimal digits, in either case, with
zeros before them, with a line feed after them (`Handle.Denotes`). Every text of the form of a handle
denotes one number, the one that it is read as (`Handle.denotes_iff`). So several names of a mapping may
stand for one handle. Loading sets their entries one after the other, and the last one stays
(`HandleMap.targets?_ofList`); `Input.handleMap_finds_last` says so of a file.
-/

namespace RenderTrace

/-! ## Digits -/

namespace Text

theorem forall_ascii {P : Char → Prop} (h : ∀ n : Nat, n < 128 → P (Char.ofNat n)) {c : Char}
    (hc : c.toNat < 128) : P c := Char.ofNat_toNat c ▸ h c.toNat hc

theorem hexValue?_toLower (c : Char) : hexValue? c.toLower = hexValue? c := by
  by_cases hupper : 'A' ≤ c ∧ c ≤ 'Z'
  · have hhigh : c.toNat ≤ 90 := hupper.2
    exact forall_ascii (P := fun c => hexValue? c.toLower = hexValue? c) (by decide) (by omega)
  · have hlower : c.toLower = c := dif_neg fun h => hupper h
    rw [hlower]

theorem hexValue?_spec {c : Char} {d : Nat} (h : hexValue? c = some d) :
    d < 16 ∧ c.toLower = Nat.digitChar d := by
  have hdigit : Number.isHexDigit c := by rw [Number.isHexDigit, h]; rfl
  have hall : (hexValue? c).all (fun d => d < 16 && c.toLower == Nat.digitChar d) = true :=
    forall_ascii (P := fun c => (hexValue? c).all
      (fun d => d < 16 && c.toLower == Nat.digitChar d) = true) (by decide)
      (by have := (Number.isHexDigit_range hdigit).2; omega)
  rw [h] at hall
  simpa using hall

theorem hexValue?_of_isDigit {c : Char} (h : c.isDigit) :
    hexValue? c = some (c.toNat - '0'.toNat) := if_pos h

theorem isDigit_of_hexValue? {c : Char} {d : Nat} (h : hexValue? c = some d) (hd : d < 10) :
    c.isDigit := by
  unfold hexValue? at h
  split at h
  · assumption
  split at h
  · obtain rfl := Option.some.inj h
    omega
  split at h
  · obtain rfl := Option.some.inj h
    omega
  · exact nomatch h

end Text

namespace Handle
open Text (hexValue? hexValue?_toLower hexValue?_spec)

variable {base n : Nat} {ds : List Char}

/-! ## Spellings -/

/-- The digits of a number in a base, in either case, zeros before them or not. -/
def Spells (base n : Nat) (ds : List Char) : Prop :=
  ∃ zeros, ds.map Char.toLower = List.replicate zeros '0' ++ Nat.toDigits base n

/-- A text writes a number: by hexadecimal digits behind their mark or by decimal ones, and with at most
one line feed after them. -/
def Denotes (s : String) (n : Nat) : Prop :=
  ∃ cs, (s.toList = cs ∨ s.toList = cs ++ ['\n']) ∧
    ((∃ ds, cs = '0' :: 'x' :: ds ∧ Spells 16 n ds) ∨ Spells 10 n cs)

/-- The number that digits denote in a base. -/
def ofDigitsIn (base : Nat) (ds : List Char) : Nat :=
  ds.foldl (fun n c => n * base + (hexValue? c).getD 0) 0

theorem ofDigitsIn_concat (ds : List Char) (d : Char) :
    ofDigitsIn base (ds ++ [d]) = ofDigitsIn base ds * base + (hexValue? d).getD 0 :=
  List.foldl_concat ..

theorem ofDigitsIn_map_toLower (ds : List Char) :
    ofDigitsIn base (ds.map Char.toLower) = ofDigitsIn base ds := by
  rw [ofDigitsIn, List.foldl_map]
  simp only [hexValue?_toLower]
  rfl

theorem ofDigitsIn_zeros (zeros : Nat) (ds : List Char) :
    ofDigitsIn base (List.replicate zeros '0' ++ ds) = ofDigitsIn base ds := by
  induction zeros with
  | zero => rfl
  | succ zeros ih =>
    rw [← ih, List.replicate_succ, List.cons_append, ofDigitsIn, List.foldl_cons, Nat.zero_mul]
    rfl

theorem ofDigitsIn_toDigits (hlow : 1 < base) (hhigh : base ≤ 16) (n : Nat) :
    ofDigitsIn base (Nat.toDigits base n) = n := by
  have hdigit : ∀ d, d < base → (hexValue? (Nat.digitChar d)).getD 0 = d := fun d hd => by
    rw [Text.hexValue?_digitChar (by omega)]
    rfl
  induction n using Nat.strongRecOn with
  | ind n ih =>
    by_cases hsmall : n < base
    · rw [Nat.toDigits_of_lt_base hsmall]
      have hone : ofDigitsIn base ([] ++ [Nat.digitChar n]) = _ := ofDigitsIn_concat [] (Nat.digitChar n)
      rw [hdigit n hsmall] at hone
      exact hone.trans (by simp [ofDigitsIn])
    · have hmod : n % base < base := Nat.mod_lt n (by omega)
      rw [Nat.toDigits_of_base_le hlow (by omega), ofDigitsIn_concat, hdigit _ hmod,
        ih _ (Nat.div_lt_self (by omega) hlow), Nat.mul_comm, Nat.div_add_mod]

theorem Spells.ofDigitsIn_eq (h : Spells base n ds) (hlow : 1 < base) (hhigh : base ≤ 16) :
    ofDigitsIn base ds = n := by
  obtain ⟨zeros, hds⟩ := h
  rw [← ofDigitsIn_map_toLower, hds, ofDigitsIn_zeros, ofDigitsIn_toDigits hlow hhigh]

theorem Spells.ne_nil (h : Spells base n ds) : ds ≠ [] := by
  rintro rfl
  obtain ⟨zeros, hds⟩ := h
  exact absurd (List.append_eq_nil_iff.mp hds.symm).2 Nat.toDigits_ne_nil

theorem Spells.exists_hexValue? (h : Spells base n ds) (hlow : 1 < base) (hhigh : base ≤ 16) :
    ∀ c ∈ ds, ∃ d < base, hexValue? c = some d := by
  have hdigits : ∀ n, ∀ c ∈ Nat.toDigits base n, ∃ d < base, hexValue? c = some d := by
    intro n
    induction n using Nat.strongRecOn with
    | ind n ih =>
      by_cases hsmall : n < base
      · rw [Nat.toDigits_of_lt_base hsmall]
        exact List.forall_mem_singleton.mpr ⟨n, hsmall, Text.hexValue?_digitChar (by omega)⟩
      · have hmod : n % base < base := Nat.mod_lt n (by omega)
        rw [Nat.toDigits_of_base_le hlow (by omega)]
        exact List.forall_mem_append.mpr ⟨ih _ (Nat.div_lt_self (by omega) hlow),
          List.forall_mem_singleton.mpr ⟨_, hmod, Text.hexValue?_digitChar (by omega)⟩⟩
  obtain ⟨zeros, hds⟩ := h
  intro c hc
  have hlower : c.toLower ∈ List.replicate zeros '0' ++ Nat.toDigits base n :=
    hds ▸ List.mem_map_of_mem hc
  rw [← hexValue?_toLower]
  rcases List.mem_append.mp hlower with hzero | hdigit
  · rw [List.eq_of_mem_replicate hzero]
    exact ⟨0, by omega, rfl⟩
  · exact hdigits n _ hdigit

theorem spells_ofDigitsIn (hlow : 1 < base) (hne : ds ≠ [])
    (hds : ∀ c ∈ ds, ∃ d < base, hexValue? c = some d) : Spells base (ofDigitsIn base ds) ds := by
  induction ds using List.reverseRecOn with
  | nil => exact absurd rfl hne
  | append_singleton ds c ih =>
    obtain ⟨hds, hc⟩ := List.forall_mem_append.mp hds
    obtain ⟨d, hd, hvalue⟩ := List.forall_mem_singleton.mp hc
    have hlower : c.toLower = Nat.digitChar d := (hexValue?_spec hvalue).2
    have hone : Nat.toDigits base d = [Nat.digitChar d] := Nat.toDigits_of_lt_base hd
    rw [ofDigitsIn_concat, hvalue, Option.getD_some, Spells, List.map_append, List.map_singleton,
      hlower]
    rcases eq_or_ne ds [] with rfl | hne
    · exact ⟨0, by simp [ofDigitsIn, hone]⟩
    obtain ⟨zeros, hzeros⟩ := ih hne hds
    rw [hzeros]
    rcases Nat.eq_zero_or_pos (ofDigitsIn base ds) with hzero | hpos
    · -- nothing but zeros so far
      have hdigits : Nat.toDigits base 0 = ['0'] := Nat.toDigits_of_lt_base (by omega)
      refine ⟨zeros + 1, ?_⟩
      rw [hzero, hdigits, Nat.zero_mul, Nat.zero_add, hone, List.replicate_succ']
    · refine ⟨zeros, ?_⟩
      rw [List.append_assoc, Nat.mul_comm, ← hone, Nat.toDigits_append_toDigits hlow hpos hd]

/-! ## Texts of handles -/

theorem ofDigits_eq_ofDigitsIn {ds : List Char} (h : ∀ c ∈ ds, c.isDigit) :
    Number.ofDigits ds = ofDigitsIn 10 ds := by
  rw [Number.ofDigits, ofDigitsIn]
  refine List.foldl_ext _ _ _ fun n c hc => ?_
  rw [Text.hexValue?_of_isDigit (h c hc)]
  rfl

theorem spells_sixteen_iff : Spells 16 n ds ↔
    (ds ≠ [] ∧ ∀ c ∈ ds, HexDigit c) ∧ Number.ofHexDigits ds = n := by
  have hdigit : ∀ c, HexDigit c ↔ ∃ d < 16, hexValue? c = some d := fun c => by
    rw [← isHexDigit_iff, Number.isHexDigit, Option.isSome_iff_exists]
    exact exists_congr fun d => ⟨fun h => ⟨(hexValue?_spec h).1, h⟩, And.right⟩
  simp only [hdigit]
  constructor
  · intro h
    exact ⟨⟨h.ne_nil, h.exists_hexValue? (by decide) (by decide)⟩,
      h.ofDigitsIn_eq (by decide) (by decide)⟩
  · rintro ⟨⟨hne, hds⟩, rfl⟩
    exact spells_ofDigitsIn (by decide) hne hds

theorem spells_ten_iff : Spells 10 n ds ↔
    (ds ≠ [] ∧ ∀ c ∈ ds, c.isDigit) ∧ Number.ofDigits ds = n := by
  constructor
  · intro h
    have hds : ∀ c ∈ ds, c.isDigit := fun c hc =>
      have ⟨d, hd, hvalue⟩ := h.exists_hexValue? (by decide) (by decide) c hc
      Text.isDigit_of_hexValue? hvalue hd
    exact ⟨⟨h.ne_nil, hds⟩,
      (ofDigits_eq_ofDigitsIn hds).trans (h.ofDigitsIn_eq (by decide) (by decide))⟩
  · rintro ⟨⟨hne, hds⟩, rfl⟩
    rw [ofDigits_eq_ofDigitsIn hds]
    refine spells_ofDigitsIn (by decide) hne fun c hc => ⟨_, ?_, Text.hexValue?_of_isDigit (hds c hc)⟩
    have hrange := hds c hc
    simp only [Char.isDigit, Bool.and_eq_true, decide_eq_true_eq] at hrange
    have hhigh : c.toNat ≤ 57 := hrange.2
    change c.toNat - 48 < 10
    omega

theorem withoutLineFeed_of_digits {s : String} {cs : List Char} (hcs : Digits cs)
    (hs : s.toList = cs ∨ s.toList = cs ++ ['\n']) : withoutLineFeed s.toList = cs := by
  rcases hs with hs | hs
  · have hlast : cs.getLast? ≠ some '\n' := fun hlast =>
      lineFeed_notMem_digits hcs (List.mem_of_getLast? hlast)
    rw [hs, withoutLineFeed, if_neg hlast]
  · rw [hs, withoutLineFeed, if_pos List.getLast?_concat, List.dropLast_concat]

theorem mark_ne_of_isDigit {cs : List Char} (h : ∀ c ∈ cs, c.isDigit) (ds : List Char) :
    cs ≠ '0' :: 'x' :: ds := by
  rintro rfl
  exact absurd (h 'x' (by simp)) (by decide)

/-- A text denotes a number just if it has the form of a handle and that is its value. -/
theorem denotes_iff {s : String} : Denotes s n ↔ Written s ∧ value s = n := by
  have hvalue : ∀ cs, Digits cs → s.toList = cs ∨ s.toList = cs ++ ['\n'] →
      ((∃ ds, cs = '0' :: 'x' :: ds ∧ Spells 16 n ds) ∨ Spells 10 n cs ↔ value s = n) := by
    intro cs hcs hs
    have hline := withoutLineFeed_of_digits hcs hs
    rcases hcs with ⟨ds, rfl, hds⟩ | hcs
    · rw [(hexadecimal_eq hline).2]
      constructor
      · rintro (⟨ds', heq, h⟩ | h)
        · obtain rfl : ds = ds' := by simpa using heq
          exact (spells_sixteen_iff.mp h).2
        · exact absurd rfl (mark_ne_of_isDigit (spells_ten_iff.mp h).1.2 ds)
      · exact fun h => .inl ⟨ds, rfl, spells_sixteen_iff.mpr ⟨hds, h⟩⟩
    · have hmark := mark_ne_of_isDigit hcs.2
      rw [(decimal_eq (hline ▸ hmark)).2, hline]
      constructor
      · rintro (⟨ds, rfl, -⟩ | h)
        · exact absurd rfl (hmark ds)
        · exact (spells_ten_iff.mp h).2
      · exact fun h => .inr (spells_ten_iff.mpr ⟨hcs, h⟩)
  constructor
  · rintro ⟨cs, hs, h⟩
    have hcs : Digits cs := by
      rcases h with ⟨ds, rfl, h⟩ | h
      · exact .inl ⟨ds, rfl, (spells_sixteen_iff.mp h).1⟩
      · exact .inr (spells_ten_iff.mp h).1
    exact ⟨⟨cs, hcs, hs⟩, (hvalue cs hcs hs).mp h⟩
  · rintro ⟨⟨cs, hcs, hs⟩, h⟩
    exact ⟨cs, hs, (hvalue cs hcs hs).mpr h⟩

end Handle

/-! ## Entries -/

namespace HandleMap

/-- The trace handles that the entry of a handle has, none if there is no entry. -/
def targets? (m : HandleMap) (handle : Number) : Option (List TraceHandle) :=
  (m.entries.find? fun e => e.1 == handle).map (·.2)

theorem targets_eq (m : HandleMap) (handle : Number) :
    m.targets handle = (m.targets? handle).getD [] := rfl

theorem putsEntries : PutsEntries put := ⟨fun _ _ => rfl, fun _ _ _ _ => rfl⟩

theorem targets?_ofList (entries : List (Number × List TraceHandle)) (handle : Number) :
    (ofList entries).targets? handle =
      (entries.reverse.find? fun e => e.1 == handle).map (·.2) :=
  putsEntries.find?_foldl entries handle

end HandleMap

namespace Input
open Handle (Denotes)

variable {t : FileTree} {p : Path} {cs : List Char} {v : Json}

/-- A member of a mapping as an entry of a map. -/
def entryOf (m : String × Json) : Number × List TraceHandle :=
  (.whole (Handle.value m.1), m.2.items.map traceHandleOf)

theorem handleMapOf_eq {ms : List (String × Json)} (hwithin : HandlesWithin (.object ms))
    (hshape : InputKind.handleMappingShape (.object ms) = []) :
    handleMapOf (.object ms) = .ok (.ofList (ms.map entryOf)) := by
  have hentries : ms.mapM mappingEntryOf = .ok (ms.map entryOf) := by
    rw [mapM_eq_ok_iff, List.forall₂_map_right_iff, List.forall₂_same]
    intro m hm
    have hname := (member_of_shape hshape hm).1
    rw [mappingEntryOf, read_of_within hname (hwithin ms rfl m hm hname)]
    rfl
  rw [handleMapOf, hentries]
  rfl

/-- The name of a member stands for a handle. -/
def StandsFor (m : String × Json) (h : Int) : Prop := ∃ n : Nat, Denotes m.1 n ∧ h = n

/-- A member of a mapping is the last one whose name stands for a handle. -/
def LastFor (ms : List (String × Json)) (h : Int) (m : String × Json) : Prop :=
  ∃ before after, ms = before ++ m :: after ∧ StandsFor m h ∧ ∀ m' ∈ after, ¬ StandsFor m' h

theorem lastFor_iff {ms : List (String × Json)} {h : Int} {m : String × Json} :
    LastFor ms h m ↔ ∃ before after, LastWith (StandsFor · h) ms before m after :=
  exists₂_congr fun _ _ => ⟨fun ⟨hms, hm, hafter⟩ => ⟨hms, hm, hafter⟩,
    fun ⟨hms, hm, hafter⟩ => ⟨hms, hm, hafter⟩⟩

theorem exists_lastFor_iff {ms : List (String × Json)} {h : Int} :
    (∃ m, LastFor ms h m) ↔ ∃ m ∈ ms, StandsFor m h := by
  simp only [lastFor_iff]
  rw [exists_comm]
  exact exists_lastWith_iff

theorem entryOf_beq {m : String × Json} (hname : Handle.isHandle m.1) (h : Int) :
    ((entryOf m).1 == .whole h) = true ↔ StandsFor m h := by
  have hwritten : Handle.Written m.1 := Handle.isHandle_iff.mp hname
  simp only [entryOf, Number.whole_beq_whole, StandsFor, Handle.denotes_iff, hwritten, true_and]
  constructor
  · rintro rfl
    exact ⟨_, rfl, rfl⟩
  · rintro ⟨n, hvalue, rfl⟩
    rw [hvalue]

theorem targets?_map_entryOf {ms : List (String × Json)} (hnames : ∀ m ∈ ms, Handle.isHandle m.1)
    (h : Int) (targets : List TraceHandle) :
    (HandleMap.ofList (ms.map entryOf)).targets? (.whole h) = some targets ↔
      ∃ m, LastFor ms h m ∧ m.2.items.map traceHandleOf = targets := by
  rw [HandleMap.targets?_ofList, ← List.map_reverse, List.find?_map, Option.map_map,
    Option.map_eq_some_iff]
  refine exists_congr fun m => and_congr_left fun _ => ?_
  rw [find?_reverse_eq_some_iff, lastFor_iff]
  refine exists₂_congr fun before after => lastWith_congr fun m' hm' => ?_
  exact entryOf_beq (hnames m' hm') h

theorem traceHandleOf_of_tells {v : Json} {target : TraceHandle} (h : TellsHandle v target) :
    traceHandleOf v = target := by
  rw [traceHandleOf, text, h.type, number, h.value]

theorem forall₂_tellsHandle_iff {m : String × Json} (hshape : traceHandlesShape m.2 = [])
    (targets : List TraceHandle) : m.2.items.map traceHandleOf = targets ↔
      ∃ xs, m.2 = .array xs ∧ List.Forall₂ TellsHandle xs targets := by
  obtain ⟨xs, hxs, hitems⟩ := items_of_traceHandlesShape hshape
  rw [hxs]
  constructor
  · rintro rfl
    refine ⟨xs, rfl, ?_⟩
    rw [Json.items, List.forall₂_map_right_iff, List.forall₂_same]
    exact fun x hx => tellsHandle_traceHandleOf (hitems x hx)
  · rintro ⟨_, ⟨⟩, htargets⟩
    rw [← List.forall₂_eq_eq_eq, List.forall₂_map_left_iff]
    exact htargets.imp fun _ _ => traceHandleOf_of_tells

/-- Loading a mapping gives a handle an entry just if some name stands for it, the entry that the last
such member lists. Each text that denotes a number is read as that number. -/
theorem handleMap_finds_last [Zstd.Codec] (htext : TextFile.read t p = .ok cs)
    (hread : Json.read cs = .ok v) (hshape : InputKind.handleMappingShape v = [])
    (hwithin : HandlesWithin v) :
    (∃ ms m, v = .object ms ∧ handleMap t p = .ok m ∧ ∀ h : Int,
      ((∃ targets, m.targets? (.whole h) = some targets) ↔ ∃ e ∈ ms, StandsFor e h) ∧
      ∀ targets, m.targets? (.whole h) = some targets ↔
        ∃ e xs, LastFor ms h e ∧ e.2 = .array xs ∧ List.Forall₂ TellsHandle xs targets) ∧
    ∀ s n, Denotes s n → (Handle.decimalDigits s).length ≤ Number.maxIntegerDigits →
      Handle.read s = .ok n := by
  obtain ⟨ms, rfl⟩ : Schema.JsonType.object.Form v := Schema.form_of_allOf hshape List.mem_cons_self
  have hnames : ∀ m ∈ ms, Handle.isHandle m.1 := fun m hm => (member_of_shape hshape hm).1
  have hload := (handleMap_of_document (document_of_shape htext hread hshape)).trans
    (handleMapOf_eq hwithin hshape)
  refine ⟨⟨ms, _, rfl, hload, fun h => ⟨?_, fun targets => ?_⟩⟩, fun s n hs hdigits => ?_⟩
  · simp only [targets?_map_entryOf hnames]
    rw [exists_comm, ← exists_lastFor_iff]
    exact exists_congr fun e => by simp
  · rw [targets?_map_entryOf hnames]
    refine exists_congr fun e => ?_
    rw [exists_and_left]
    refine and_congr_right fun hlast => forall₂_tellsHandle_iff (member_of_shape hshape ?_).2 targets
    obtain ⟨before, after, rfl, -⟩ := hlast
    simp
  · obtain ⟨hwritten, rfl⟩ := Handle.denotes_iff.mp hs
    exact read_of_within (Handle.isHandle_iff.mpr hwritten) hdigits

/-- A mapping of one handle under three names. -/
def sampleSpellings : Json := .object <| [("10", 5), ("0xA", 6), ("010\n", 7)].map fun (name, n) =>
  (name, .array [.object [("handle_type", .text "b"), ("trace_value", .number (.whole n))]])

theorem shaped_sampleSpellings (depth : Nat) : Json.Shaped (depth + 3) sampleSpellings := by
  refine .object (by decide) fun m hm => ?_
  obtain ⟨⟨name, n⟩, -, rfl⟩ := List.mem_map.mp hm
  refine .array (List.forall_mem_singleton.mpr (.object (by simp) ?_))
  simp [Json.Shaped.text, Json.Shaped.number]

theorem read_sampleSpellings : Json.read sampleSpellings.write.toList = .ok sampleSpellings := by
  have hnumbers : sampleSpellings.numbers = [5, 6, 7].map .whole := rfl
  exact Json.read_write_of_digits (shaped_sampleSpellings 988) hnumbers (by decide)

theorem handleMap_finds_last_sample :
    letI := Zstd.Blocks.codec
    (Denotes "10" 10 ∧ Denotes "0xA" 10 ∧ Denotes "010\n" 10) ∧
      Json.read sampleSpellings.write.toList = .ok sampleSpellings ∧
      InputKind.handleMappingShape sampleSpellings = [] ∧ HandlesWithin sampleSpellings ∧
      Handle.read "010\n" = .ok 10 ∧
      ∃ m, handleMap (sampleFiles (Text.Utf8.encode sampleSpellings.write.toList)) samplePath =
        .ok m ∧ m.targets? 10 = some [⟨"b", .whole 7⟩] := by
  let codec := Zstd.Blocks.codec
  have hdenotes : Denotes "10" 10 ∧ Denotes "0xA" 10 ∧ Denotes "010\n" 10 := by
    refine ⟨⟨['1', '0'], .inl rfl, .inr ⟨0, ?_⟩⟩, ⟨['0', 'x', 'A'], .inl rfl, .inl ⟨_, rfl, 0, ?_⟩⟩,
      ⟨['0', '1', '0'], .inr rfl, .inr ⟨1, ?_⟩⟩⟩ <;> decide
  have htext := read_encode (bytes_sampleFiles (Text.Utf8.encode sampleSpellings.write.toList))
  have hwithin : HandlesWithin sampleSpellings := by
    rintro _ ⟨⟩ m hm -
    revert m
    decide
  obtain ⟨⟨ms, m, hms, hload, hentries⟩, hnames⟩ :=
    handleMap_finds_last htext read_sampleSpellings rfl hwithin
  have hlast : LastFor ms 10 ("010\n", .array [.object [
      ("handle_type", .text "b"), ("trace_value", .number (.whole 7))]]) := by
    obtain rfl := Json.object.inj hms
    exact ⟨[_, _], [], rfl, ⟨10, hdenotes.2.2, rfl⟩, nofun⟩
  have hentry : m.targets? 10 = some [⟨"b", .whole 7⟩] :=
    ((hentries 10).2 _).mpr ⟨_, _, hlast, rfl, .cons ⟨rfl, rfl⟩ .nil⟩
  exact ⟨hdenotes, read_sampleSpellings, rfl, hwithin, hnames _ _ hdenotes.2.2 (by decide), m, hload,
    hentry⟩

end Input
end RenderTrace
