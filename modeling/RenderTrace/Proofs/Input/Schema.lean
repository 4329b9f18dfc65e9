import Mathlib.Data.List.Forall2
import RenderTrace.Input.Schema

/-!
# What passes a check

For each check, what a value is about which it has nothing to say. A record that passes has its needed
members, and those that have a check of their own pass it; a list that passes has items that do.
-/

namespace RenderTrace.Schema

/-- What the values of a type look like. -/
def JsonType.Form : JsonType → Json → Prop
  | object, v => ∃ ms, v = .object ms
  | array, v => ∃ xs, v = .array xs
  | string, v => ∃ s, v = .text s
  | integer, v => ∃ n, v = .number n
  | boolean, v => ∃ b, v = .bool b

variable {v : Json} {check : Check} {t : JsonType}

theorem JsonType.form_of_accepts (h : t.accepts v) : t.Form v := by
  cases t <;> cases v <;> first | exact ⟨_, rfl⟩ | exact nomatch h

theorem JsonType.accepts_iff_form (ht : t ≠ .integer) : t.accepts v ↔ t.Form v := by
  refine ⟨form_of_accepts, fun h => ?_⟩
  cases t with
  | integer => exact absurd rfl ht
  | object | array | string | boolean =>
    obtain ⟨x, rfl⟩ := h
    rfl

theorem allOf_eq_nil {checks : List Check} : allOf checks v = [] ↔ ∀ c ∈ checks, c v = [] :=
  List.flatMap_eq_nil_iff

theorem isType_eq_nil : isType t v = [] ↔ t.accepts v := by
  unfold isType
  split
  · next h => exact iff_of_true rfl h
  · next h => exact iff_of_false (List.cons_ne_nil _ _) h

theorem form_of_isType (h : isType t v = []) : t.Form v :=
  JsonType.form_of_accepts (isType_eq_nil.mp h)

theorem form_of_allOf {checks : List Check} (h : allOf checks v = []) (ht : isType t ∈ checks) :
    t.Form v := form_of_isType (allOf_eq_nil.mp h _ ht)

theorem number_of_unsigned (h : unsigned v = []) : ∃ n, v = .number n :=
  form_of_allOf h List.mem_cons_self

theorem items_eq_nil {xs : List Json} :
    items check (.array xs) = [] ↔ ∀ x ∈ xs, check x = [] := by
  rw [items, List.flatten_eq_nil_iff]
  constructor
  · intro h x hx
    obtain ⟨i, hi, rfl⟩ := List.mem_iff_getElem.mp hx
    exact List.map_eq_nil_iff.mp (h _ (List.mem_mapIdx.mpr ⟨i, hi, rfl⟩))
  · intro h vs hvs
    obtain ⟨i, hi, rfl⟩ := List.mem_mapIdx.mp hvs
    exact List.map_eq_nil_iff.mpr (h _ (List.getElem_mem hi))

theorem listOf_eq_nil : listOf check v = [] ↔ ∃ xs, v = .array xs ∧ ∀ x ∈ xs, check x = [] := by
  constructor
  · intro h
    obtain ⟨xs, rfl⟩ : JsonType.array.Form v := form_of_allOf h List.mem_cons_self
    exact ⟨xs, rfl, items_eq_nil.mp (allOf_eq_nil.mp h _ (by simp))⟩
  · rintro ⟨xs, rfl, hxs⟩
    refine allOf_eq_nil.mpr (List.forall_mem_cons.mpr ⟨rfl, List.forall_mem_singleton.mpr ?_⟩)
    exact items_eq_nil.mpr hxs

theorem exists_of_mem_forall₂ {α β : Type} {R : α → β → Prop} {xs : List α} {ys : List β}
    (h : List.Forall₂ R xs ys) :
    (∀ x ∈ xs, ∃ y ∈ ys, R x y) ∧ ∀ y ∈ ys, ∃ x ∈ xs, R x y := by
  induction h with
  | nil => simp
  | cons h _ ih =>
    obtain ⟨hleft, hright⟩ := ih
    refine ⟨List.forall_mem_cons.mpr ⟨⟨_, List.mem_cons_self, h⟩, fun x hx => ?_⟩,
      List.forall_mem_cons.mpr ⟨⟨_, List.mem_cons_self, h⟩, fun y hy => ?_⟩⟩
    · obtain ⟨y, hy, hxy⟩ := hleft x hx
      exact ⟨y, List.mem_cons_of_mem _ hy, hxy⟩
    · obtain ⟨x, hx, hxy⟩ := hright y hy
      exact ⟨x, List.mem_cons_of_mem _ hx, hxy⟩

/-! ## Objects -/

theorem exists_field?_iff {ms : List (String × Json)} {name : String} :
    (∃ w, (Json.object ms).field? name = some w) ↔ ∃ m ∈ ms, m.1 = name := by
  rw [Json.field?, ← Option.isSome_iff_exists, Option.isSome_map, List.find?_isSome]
  simp only [decide_eq_true_eq]

theorem required_eq_nil {names : List String} {ms : List (String × Json)} :
    required names (.object ms) = [] ↔
      ∀ name ∈ names, ∃ w, (Json.object ms).field? name = some w := by
  rw [required, List.flatMap_eq_nil_iff]
  refine forall₂_congr fun name _ => ?_
  rw [exists_field?_iff]
  split
  · next h => exact iff_of_true rfl (by simpa using h)
  · next h => exact iff_of_false (List.cons_ne_nil _ _) (by simpa using h)

theorem members_eq_nil {checks : List (String × Check)} : members checks v = [] ↔
    ∀ c ∈ checks, ∀ w, v.field? c.1 = some w → c.2 w = [] := by
  rw [members, List.flatMap_eq_nil_iff]
  refine forall₂_congr fun ⟨name, check⟩ _ => ?_
  dsimp only
  cases v.field? name with
  | none => exact iff_of_true rfl nofun
  | some w =>
    refine List.map_eq_nil_iff.trans ⟨fun h w' hw' => ?_, fun h => h w rfl⟩
    rwa [← Option.some.inj hw']

theorem closed_eq_nil {names : List String} {ms : List (String × Json)} :
    closed names (.object ms) = [] ↔ ∀ m ∈ ms, m.1 ∈ names := by
  have hfilter : (ms.map (·.1)).filter (!names.contains ·) = [] ↔ ∀ m ∈ ms, m.1 ∈ names := by
    simp [List.filter_eq_nil_iff]
  rw [← hfilter, closed]
  split
  · next h => exact iff_of_true rfl h
  · next h => exact iff_of_false (List.cons_ne_nil _ _) h

section Record
variable {needed : List String} {checks : List (String × Check)}

theorem record_eq_nil : record needed checks v = [] ↔ ∃ ms, v = .object ms ∧
    (∀ name ∈ needed, ∃ w, v.field? name = some w) ∧
    (∀ c ∈ checks, ∀ w, v.field? c.1 = some w → c.2 w = []) ∧
    ∀ m ∈ ms, m.1 ∈ checks.map (·.1) := by
  constructor
  · intro h
    obtain ⟨ms, rfl⟩ : JsonType.object.Form v := form_of_allOf h List.mem_cons_self
    have hchecks := allOf_eq_nil.mp h
    exact ⟨ms, rfl, required_eq_nil.mp (hchecks _ (by simp)),
      members_eq_nil.mp (hchecks (members checks) (by simp)), closed_eq_nil.mp (hchecks _ (by simp))⟩
  · rintro ⟨ms, rfl, hrequired, hmembers, hclosed⟩
    refine allOf_eq_nil.mpr fun c hc => ?_
    simp only [List.mem_cons, List.not_mem_nil, or_false] at hc
    rcases hc with rfl | rfl | rfl | rfl
    · rfl
    · exact required_eq_nil.mpr hrequired
    · exact members_eq_nil.mpr hmembers
    · exact closed_eq_nil.mpr hclosed

variable (h : record needed checks v = []) {name : String}
include h

theorem check_of_record (hcheck : (name, check) ∈ checks) {w : Json} (hw : v.field? name = some w) :
    check w = [] := by
  obtain ⟨-, -, -, hmembers, -⟩ := record_eq_nil.mp h
  exact hmembers _ hcheck w hw

theorem field?_of_record (hname : name ∈ needed) (hcheck : (name, check) ∈ checks) :
    ∃ w, v.field? name = some w ∧ check w = [] := by
  obtain ⟨-, -, hrequired, -⟩ := record_eq_nil.mp h
  obtain ⟨w, hw⟩ := hrequired name hname
  exact ⟨w, hw, check_of_record h hcheck hw⟩

end Record

theorem memberNames_eq_nil {form : String → Bool} {ms : List (String × Json)} :
    memberNames form (.object ms) = [] ↔ ∀ m ∈ ms, form m.1 := by
  rw [memberNames, List.flatMap_eq_nil_iff]
  refine forall₂_congr fun ⟨name, w⟩ _ => ?_
  dsimp only
  split
  · next h => exact iff_of_true rfl h
  · next h => exact iff_of_false (List.cons_ne_nil _ _) h

theorem everyMember_eq_nil {ms : List (String × Json)} :
    everyMember check (.object ms) = [] ↔ ∀ m ∈ ms, check m.2 = [] := by
  rw [everyMember, List.flatMap_eq_nil_iff]
  exact forall₂_congr fun m _ => List.map_eq_nil_iff

theorem capped_eq_nil {most : Int} {vs : List Violation} : capped most vs = [] ↔ vs = [] := by
  have hpositive : (max 1 most).toNat ≠ 0 := by omega
  rw [capped, List.take_eq_nil_iff]
  exact or_iff_right hpositive

end RenderTrace.Schema
