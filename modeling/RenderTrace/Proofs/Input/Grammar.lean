import RenderTrace.Proofs.Input.Load
import RenderTrace.Proofs.Number.Equality

/-!
# Grammars of input files

The documents of each kind, said without checks (`InputKind.Grammar`). A check `Decides` a form if it has
nothing to say about just the values of that form; small checks and the ways to put them together decide
small forms and what is put together from them. So a document has no violations, whatever the cap on their
number, just if it is in the grammar of its kind (`violations_eq_nil_iff_grammar`).
-/

namespace RenderTrace

/-! ## Unsigned integers -/

namespace Number

theorem scaled_snd_ne_zero (num : Nat) (exponent : Int) : (scaled num 1 2 exponent).2 ≠ 0 := by
  unfold scaled
  split
  · exact Nat.one_ne_zero
  · simp

theorem mkRat_eq_intCast_iff {num : Int} {den : Nat} (hden : den ≠ 0) (k : Int) :
    mkRat num den = k ↔ num = k * den := by
  rw [← Rat.mkRat_one, Rat.mkRat_eq_iff hden Nat.one_ne_zero]
  simp

theorem isIntegral_iff {x : Float} : isIntegral x ↔ ∃ k : Int, Value.ofFloat x = .finite k := by
  unfold isIntegral Value.ofFloat
  cases Binary64.ofFloat x with
  | nan => simp
  | infinite negative => simp
  | finite negative m e =>
    have hden := scaled_snd_ne_zero m e
    simp only [decide_eq_true_eq, Value.finite.injEq, mkRat_eq_intCast_iff hden]
    rw [← Nat.dvd_iff_mod_eq_zero, ← Int.natCast_dvd_natCast]
    cases negative
    · simp only [Dvd.dvd, Int.mul_comm, Bool.false_eq_true, if_false]
    · rw [← Int.dvd_neg]
      simp only [Dvd.dvd, Int.mul_comm, if_true]

theorem natural_iff {m : Number} : (∃ n : Nat, (m == whole n) = true) ↔
    (∃ k : Int, m.value = .finite k) ∧ ¬ m < 0 := by
  have hless : m < 0 ↔ m.value.less (.finite ((0 : Int) : Rat)) = true := Iff.rfl
  constructor
  · rintro ⟨n, hn⟩
    have hvalue := (beq_iff.mp hn).1
    refine ⟨⟨n, hvalue⟩, ?_⟩
    rw [hless, hvalue]
    simp only [value, Value.less, decide_eq_true_eq, Rat.intCast_lt_intCast]
    omega
  · rintro ⟨⟨k, hk⟩, hnot⟩
    rw [hless, hk] at hnot
    simp only [Value.less, decide_eq_true_eq, Rat.intCast_lt_intCast] at hnot
    have hpositive : 0 ≤ k := by omega
    refine ⟨k.toNat, beq_iff.mpr ⟨?_, ?_⟩⟩
    · rw [hk, Int.toNat_of_nonneg hpositive]
      rfl
    · simp [hk]

end Number

/-! ## Texts of handles -/

namespace Handle

def HexDigit (c : Char) : Prop := c.isDigit ∨ 'a' ≤ c ∧ c ≤ 'f' ∨ 'A' ≤ c ∧ c ≤ 'F'

/-- Digits with or without the mark of hexadecimal ones before them. -/
def Digits (cs : List Char) : Prop :=
  (∃ ds, cs = '0' :: 'x' :: ds ∧ ds ≠ [] ∧ ∀ c ∈ ds, HexDigit c) ∨
    cs ≠ [] ∧ ∀ c ∈ cs, c.isDigit

/-- The text of a handle: digits, and at most one line feed after them. -/
def Written (s : String) : Prop :=
  ∃ cs, Digits cs ∧ (s.toList = cs ∨ s.toList = cs ++ ['\n'])

theorem isHexDigit_iff {c : Char} : Number.isHexDigit c ↔ HexDigit c := by
  unfold Number.isHexDigit Text.hexValue? HexDigit
  by_cases hdigit : c.isDigit
  · simp [hdigit]
  by_cases hlower : 'a' ≤ c ∧ c ≤ 'f'
  · simp [hdigit, hlower]
  by_cases hupper : 'A' ≤ c ∧ c ≤ 'F'
  · simp [hdigit, hlower, hupper]
  · simp [hdigit, hlower, hupper]

theorem lineFeed_notMem_digits {cs : List Char} (h : Digits cs) : '\n' ∉ cs := by
  intro hmem
  rcases h with ⟨ds, rfl, -, hds⟩ | ⟨-, hds⟩
  · simp only [List.mem_cons, Char.reduceEq, false_or] at hmem
    exact absurd (isHexDigit_iff.mpr (hds _ hmem)) (by decide)
  · exact absurd (hds _ hmem) (by decide)

theorem written_iff_withoutLineFeed {s : String} :
    Written s ↔ Digits (withoutLineFeed s.toList) := by
  constructor
  · rintro ⟨cs, hcs, hs | hs⟩
    · have hlast : cs.getLast? ≠ some '\n' := fun hlast =>
        lineFeed_notMem_digits hcs (List.mem_of_getLast? hlast)
      rw [hs, withoutLineFeed, if_neg hlast]
      exact hcs
    · rw [hs, withoutLineFeed, if_pos List.getLast?_concat, List.dropLast_concat]
      exact hcs
  · intro h
    exact ⟨_, h, toList_withoutLineFeed _⟩

theorem isHandle_iff {s : String} : isHandle s ↔ Written s := by
  rw [written_iff_withoutLineFeed, isHandle, Digits]
  split
  · next ds hds =>
    simp [hds, isHexDigit_iff]
  · next hmark =>
    have hnot : ¬ ∃ ds, withoutLineFeed s.toList = '0' :: 'x' :: ds ∧ ds ≠ [] ∧
        ∀ c ∈ ds, HexDigit c := fun ⟨ds, hds, _⟩ => hmark ds hds
    simp [hnot]

end Handle

/-! ## Forms -/

namespace Schema

/-- A number, written with a fraction or without, that is a natural one. -/
def IsUnsigned (v : Json) : Prop := ∃ (m : Number) (n : Nat), v = .number m ∧ (m == .whole n) = true

def IsName (v : Json) : Prop := ∃ s, v = .text s ∧ s ≠ ""

def IsListOf (form : Json → Prop) (v : Json) : Prop := ∃ xs, v = .array xs ∧ ∀ x ∈ xs, form x

/-- An object of which some members are needed, others may be there, and there are no more. -/
structure IsRecord (needed optional : List (String × (Json → Prop))) (v : Json) : Prop where
  only : ∃ ms, v = .object ms ∧ ∀ m ∈ ms, m.1 ∈ (needed ++ optional).map (·.1)
  there : ∀ e ∈ needed, ∃ w, v.field? e.1 = some w ∧ e.2 w
  formed : ∀ e ∈ optional, ∀ w, v.field? e.1 = some w → e.2 w

/-- A check has nothing to say about just the values of a form. -/
def Decides (check : Check) (form : Json → Prop) : Prop := ∀ v, check v = [] ↔ form v

theorem decides_isType {t : JsonType} (ht : t ≠ .integer) : Decides (isType t) t.Form := by
  intro v
  rw [isType_eq_nil, JsonType.accepts_iff_form ht]

theorem nonNegative_eq_nil {m : Number} : nonNegative (.number m) = [] ↔ ¬ m < 0 := by
  unfold nonNegative
  by_cases h : m < 0
  · simp [h, complain]
  · simp [h]

theorem accepts_integer_iff {m : Number} :
    JsonType.integer.accepts (.number m) ↔ ∃ k : Int, m.value = .finite k := by
  cases m with
  | whole k => exact iff_of_true rfl ⟨k, rfl⟩
  | double x => exact Number.isIntegral_iff

theorem decides_unsigned : Decides unsigned IsUnsigned := by
  intro v
  simp only [unsigned, allOf_eq_nil, List.forall_mem_cons, List.not_mem_nil, false_imp_iff,
    forall_const, and_true, isType_eq_nil]
  constructor
  · rintro ⟨htype, hpositive⟩
    obtain ⟨m, rfl⟩ : JsonType.integer.Form v := JsonType.form_of_accepts htype
    obtain ⟨n, hn⟩ := Number.natural_iff.mpr
      ⟨accepts_integer_iff.mp htype, nonNegative_eq_nil.mp hpositive⟩
    exact ⟨m, n, rfl, hn⟩
  · rintro ⟨m, n, rfl, hn⟩
    obtain ⟨hinteger, hpositive⟩ := Number.natural_iff.mp ⟨n, hn⟩
    exact ⟨accepts_integer_iff.mpr hinteger, nonNegative_eq_nil.mpr hpositive⟩

theorem nonEmptyText_eq_nil {s : String} : nonEmptyText (.text s) = [] ↔ s ≠ "" := by
  by_cases h : s = ""
  · simp [h, nonEmptyText, complain]
  · simp [h, nonEmptyText]

theorem decides_name : Decides (allOf [isType .string, nonEmptyText]) IsName := by
  intro v
  rw [allOf_eq_nil]
  constructor
  · intro h
    obtain ⟨s, rfl⟩ : JsonType.string.Form v := form_of_isType (h _ (by simp))
    exact ⟨s, rfl, nonEmptyText_eq_nil.mp (h nonEmptyText (by simp))⟩
  · rintro ⟨s, rfl, hs⟩ c hc
    simp only [List.mem_cons, List.not_mem_nil, or_false] at hc
    rcases hc with rfl | rfl
    · rfl
    · exact nonEmptyText_eq_nil.mpr hs

theorem decides_listOf {check : Check} {form : Json → Prop} (h : Decides check form) :
    Decides (listOf check) (IsListOf form) := by
  intro v
  simp only [listOf_eq_nil, IsListOf, h _]

/-- The members of a record are told by a check each, in the order of the forms. -/
def Tells (c : String × Check) (e : String × (Json → Prop)) : Prop := c.1 = e.1 ∧ Decides c.2 e.2

theorem decides_record {names : List String} {needed optional : List (String × (Json → Prop))}
    {checks : List (String × Check)} (hneeded : needed.map (·.1) = names)
    (h : List.Forall₂ Tells checks (needed ++ optional)) :
    Decides (record names checks) (IsRecord needed optional) := by
  subst hneeded
  intro v
  obtain ⟨hchecks, hforms⟩ := exists_of_mem_forall₂ h
  have hnames : ∀ name, name ∈ checks.map (·.1) ↔ name ∈ (needed ++ optional).map (·.1) := by
    intro name
    simp only [List.mem_map]
    constructor
    · rintro ⟨c, hc, rfl⟩
      obtain ⟨e, he, hname, -⟩ := hchecks c hc
      exact ⟨e, he, hname.symm⟩
    · rintro ⟨e, he, rfl⟩
      obtain ⟨c, hc, hname, -⟩ := hforms e he
      exact ⟨c, hc, hname⟩
  rw [record_eq_nil]
  constructor
  · rintro ⟨ms, rfl, hrequired, hmembers, hclosed⟩
    have hformed : ∀ e ∈ needed ++ optional, ∀ w, (Json.object ms).field? e.1 = some w → e.2 w := by
      intro e he w hw
      obtain ⟨c, hc, hname, hdecides⟩ := hforms e he
      exact (hdecides w).mp (hmembers c hc w (hname ▸ hw))
    refine ⟨⟨ms, rfl, fun m hm => (hnames _).mp (hclosed m hm)⟩, fun e he => ?_, fun e he => ?_⟩
    · obtain ⟨w, hw⟩ := hrequired _ (List.mem_map_of_mem he)
      exact ⟨w, hw, hformed e (List.mem_append_left _ he) w hw⟩
    · exact hformed e (List.mem_append_right _ he)
  · rintro ⟨⟨ms, rfl, honly⟩, hthere, hformed⟩
    refine ⟨ms, rfl, fun name hname => ?_, fun c hc w hw => ?_,
      fun m hm => (hnames _).mpr (honly m hm)⟩
    · obtain ⟨e, he, rfl⟩ := List.mem_map.mp hname
      obtain ⟨w, hw, -⟩ := hthere e he
      exact ⟨w, hw⟩
    · obtain ⟨e, he, hname, hdecides⟩ := hchecks c hc
      rw [hname] at hw
      apply (hdecides w).mpr
      rcases List.mem_append.mp he with he | he
      · obtain ⟨w', hw', hform⟩ := hthere e he
        rwa [Option.some.inj (hw.symm.trans hw')]
      · exact hformed e he w hw

/-! ## Caps -/

/-- Takes in violations one by one, after those found before, until there are as many as are asked
for. -/
def gather (most : Int) (found : List Violation) : List Violation → List Violation
  | [] => found
  | v :: vs =>
    if most ≤ (found ++ [v]).length then found ++ [v] else gather most (found ++ [v]) vs

theorem gather_eq_append_take (most : Int) (found vs : List Violation) :
    gather most found vs = found ++ vs.take (max 1 (most - found.length)).toNat := by
  induction vs generalizing found with
  | nil => simp [gather]
  | cons v vs ih =>
    rw [gather]
    by_cases h : most ≤ (found ++ [v]).length
    · have hone : (max 1 (most - found.length)).toNat = 1 := by
        simp at h
        omega
      rw [if_pos h, hone]
      rfl
    · have hnext : (max 1 (most - found.length)).toNat =
          (max 1 (most - (found ++ [v]).length)).toNat + 1 := by
        simp at h ⊢
        omega
      rw [if_neg h, ih, hnext, List.take_succ_cons, List.append_assoc]
      rfl

theorem capped_eq_gather (most : Int) (vs : List Violation) : capped most vs = gather most [] vs := by
  simp [gather_eq_append_take, capped]

end Schema

/-! ## Kinds -/

namespace InputKind
open Schema Input

def IsCounter : Json → Prop := IsRecord
  [("counter_id", IsUnsigned), ("name", IsName)]
  [("description", JsonType.string.Form), ("numerator_units", IsListOf JsonType.string.Form),
    ("denominator_units", IsListOf JsonType.string.Form),
    ("select_by_default", JsonType.boolean.Form)]

def IsTraceHandle : Json → Prop :=
  IsRecord [("handle_type", JsonType.string.Form), ("trace_value", IsUnsigned)] []

def IsRenderPass : Json → Prop := IsRecord
  [("submission_order", IsUnsigned), ("command_buffer", IsUnsigned), ("render_pass", IsUnsigned),
    ("render_target", IsUnsigned), ("from", IsUnsigned), ("to", IsUnsigned)] []

/-- The documents of a kind. -/
def Grammar : InputKind → Json → Prop
  | descriptor, v => IsRecord [("specs", IsListOf IsCounter)] [] v
  | handleMapping, v => ∃ ms, v = .object ms ∧ ∀ m ∈ ms, Handle.Written m.1 ∧
      ∃ xs, m.2 = .array xs ∧ xs ≠ [] ∧ ∀ x ∈ xs, IsTraceHandle x
  | renderPasses, v => IsRecord [("render_passes", IsListOf IsRenderPass)] [] v

theorem decides_descriptorShape : Decides descriptorShape (Grammar descriptor) := by
  have htext : Decides (isType .string) JsonType.string.Form := decides_isType (by decide)
  have hflag : Decides (isType .boolean) JsonType.boolean.Form := decides_isType (by decide)
  have hcounter : Decides counterShape IsCounter := by
    apply decides_record
    · rfl
    · exact .cons ⟨rfl, decides_unsigned⟩ (.cons ⟨rfl, decides_name⟩ (.cons ⟨rfl, htext⟩
        (.cons ⟨rfl, decides_listOf htext⟩ (.cons ⟨rfl, decides_listOf htext⟩
          (.cons ⟨rfl, hflag⟩ .nil)))))
  apply decides_record
  · rfl
  · exact .cons ⟨rfl, decides_listOf hcounter⟩ .nil

theorem decides_renderPassesShape : Decides renderPassesShape (Grammar renderPasses) := by
  have hfield : ∀ name, Tells (name, unsigned) (name, IsUnsigned) := fun _ => ⟨rfl, decides_unsigned⟩
  have hpass : Decides renderPassShape IsRenderPass := by
    apply decides_record
    · rfl
    · exact .cons (hfield _) (.cons (hfield _) (.cons (hfield _) (.cons (hfield _)
        (.cons (hfield _) (.cons (hfield _) .nil)))))
  apply decides_record
  · rfl
  · exact .cons ⟨rfl, decides_listOf hpass⟩ .nil

theorem nonEmptyArray_eq_nil {xs : List Json} : nonEmptyArray (.array xs) = [] ↔ xs ≠ [] := by
  cases xs <;> simp [nonEmptyArray, complain]

theorem traceHandles_eq_nil {check : Check} {v : Json} :
    allOf [isType .array, nonEmptyArray, items check] v = [] ↔
      ∃ xs, v = .array xs ∧ xs ≠ [] ∧ ∀ x ∈ xs, check x = [] := by
  rw [allOf_eq_nil]
  constructor
  · intro h
    obtain ⟨xs, rfl⟩ : JsonType.array.Form v := form_of_isType (h _ (by simp))
    exact ⟨xs, rfl, nonEmptyArray_eq_nil.mp (h nonEmptyArray (by simp)),
      items_eq_nil.mp (h _ (by simp))⟩
  · rintro ⟨xs, rfl, hne, hitems⟩ c hc
    simp only [List.mem_cons, List.not_mem_nil, or_false] at hc
    rcases hc with rfl | rfl | rfl
    · rfl
    · exact nonEmptyArray_eq_nil.mpr hne
    · exact items_eq_nil.mpr hitems

theorem decides_handleMappingShape : Decides handleMappingShape (Grammar handleMapping) := by
  intro v
  have htext : Decides (isType .string) JsonType.string.Form := decides_isType (by decide)
  have hhandle : Decides traceHandleShape IsTraceHandle := by
    apply decides_record
    · rfl
    · exact .cons ⟨rfl, htext⟩ (.cons ⟨rfl, decides_unsigned⟩ .nil)
  rw [handleMappingShape, allOf_eq_nil]
  constructor
  · intro h
    obtain ⟨ms, rfl⟩ : JsonType.object.Form v := form_of_isType (h _ (by simp))
    have hnames := memberNames_eq_nil.mp (h (memberNames Handle.isHandle) (by simp))
    have hmembers := everyMember_eq_nil.mp (h _ (.tail _ (.tail _ List.mem_cons_self)))
    refine ⟨ms, rfl, fun m hm => ⟨Handle.isHandle_iff.mp (hnames m hm), ?_⟩⟩
    obtain ⟨xs, hxs, hne, hitems⟩ := traceHandles_eq_nil.mp (hmembers m hm)
    exact ⟨xs, hxs, hne, fun x hx => (hhandle x).mp (hitems x hx)⟩
  · rintro ⟨ms, rfl, hms⟩ c hc
    simp only [List.mem_cons, List.not_mem_nil, or_false] at hc
    rcases hc with rfl | rfl | rfl
    · rfl
    · exact memberNames_eq_nil.mpr fun m hm => Handle.isHandle_iff.mpr (hms m hm).1
    · refine everyMember_eq_nil.mpr fun m hm => traceHandles_eq_nil.mpr ?_
      obtain ⟨xs, hxs, hne, hitems⟩ := (hms m hm).2
      exact ⟨xs, hxs, hne, fun x hx => (hhandle x).mpr (hitems x hx)⟩

theorem decides_shape (k : InputKind) : Decides k.shape k.Grammar := by
  cases k with
  | descriptor => exact decides_descriptorShape
  | handleMapping => exact decides_handleMappingShape
  | renderPasses => exact decides_renderPassesShape

/-- A document has no violations just if it is in the grammar of its kind, whatever the cap on their
number, which stops the search and is at least one. -/
theorem violations_eq_nil_iff_grammar (k : InputKind) (v : Json) (most : Int) :
    (k.violations v most = [] ↔ k.Grammar v) ∧
      k.violations v most = gather most [] (k.shape v) ∧
      ((k.violations v most).length : Int) = min (max 1 most) (k.shape v).length := by
  refine ⟨capped_eq_nil.trans (decides_shape k v), capped_eq_gather _ _, ?_⟩
  rw [violations, capped, List.length_take]
  omega

example : (descriptor.violations (.object [("a", .null)]) (-1)).length = 1 := rfl

end InputKind
end RenderTrace
