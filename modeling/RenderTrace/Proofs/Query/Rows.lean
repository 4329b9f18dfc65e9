import RenderTrace.Proofs.Query.Outcome

/-!
# Rows of a result set

A result set is read column by column, and what is read is put together again by place. The rows
are what that goes back to: a column that was read has one value for each row, converted from the
row's own cell (`ResultSet.readColumn_eq_ok_iff`), and it cannot be read just if it is not there or
a row has a cell that cannot be converted (`ResultSet.readColumn_eq_error_iff`).
-/

namespace RenderTrace
open Number (NumberError)

namespace ResultSet

def row (r : ResultSet) (i : Nat) : List Cell := r.columns.map fun c => c.getD i .null

def rows (r : ResultSet) : List (List Cell) := (List.range r.size).map r.row

variable {α : Type} {r : ResultSet} {j : Nat}

theorem getElem?_rows {cells : List Cell} (h : r.columns[j]? = some cells) :
    r.rows.map (·[j]?) = cells.map some := by
  have hsize : cells.length = r.size := r.length_column cells (List.mem_of_getElem? h)
  apply List.ext_getElem
  · simp [rows, hsize]
  · intro i hi _
    have hi' : i < cells.length := by simpa [rows, hsize] using hi
    simp [rows, row, h, hi']

theorem column_natCast (hj : j < positionBound) :
    r.column j = match r.columns[j]? with
      | some cells => .ok cells
      | none => .error .outOfRange := by
  have hplace : ¬ ((j : Int) < -positionBound ∨ positionBound ≤ j) := by
    have hbound : (0 : Int) < positionBound := by decide
    omega
  have hsign : ¬ (j : Int) < 0 := by omega
  simp only [column, placeOf, if_neg hplace, if_neg hsign]
  by_cases hlen : j < r.columns.length
  · rw [dif_pos (by omega), List.getElem?_eq_getElem hlen]
    rfl
  · rw [dif_neg (by omega), List.getElem?_eq_none (by omega)]
    rfl

theorem column_eq_ok_iff (hj : j < positionBound) {cells : List Cell} :
    r.column j = .ok cells ↔ r.columns[j]? = some cells := by
  rw [column_natCast hj]
  cases r.columns[j]? <;> simp

theorem column_eq_error_iff (hj : j < positionBound) :
    (∃ f, r.column j = .error f) ↔ r.columns.length ≤ j := by
  rw [column_natCast hj, ← List.getElem?_eq_none_iff]
  cases r.columns[j]? <;> simp

/-! ## Reading -/

variable (convert : Cell → Except NumberError α)

/-- Integers, texts and doubles are read this way. -/
def readColumn (r : ResultSet) (j : Int) : Except Failure (List α) := r.column j >>= read convert

variable {convert}

theorem read_eq_ok_iff {cells : List Cell} {xs : List α} :
    read convert cells = .ok xs ↔ List.Forall₂ (fun c x => convert c = .ok x) cells xs := by
  rw [← mapM_eq_ok_iff, read]
  cases cells.mapM convert <;> simp [Except.mapError]

theorem read_eq_error_iff {cells : List Cell} :
    (∃ f, read convert cells = .error f) ↔ ∃ c ∈ cells, ∃ e, convert c = .error e := by
  rw [← mapM_eq_error_iff, read]
  cases cells.mapM convert <;> simp [Except.mapError]

theorem read_eq_ok_iff_rows {cells : List Cell} (h : r.columns[j]? = some cells) {xs : List α} :
    read convert cells = .ok xs ↔
      List.Forall₂ (fun row x => row[j]?.map convert = some (.ok x)) r.rows xs := by
  have hmap := List.forall₂_map_left_iff
    (R := fun (o : Option Cell) x => o.map convert = some (.ok x)) (f := fun row => row[j]?)
    (l := r.rows) (u := xs)
  rw [← hmap, getElem?_rows h, List.forall₂_map_left_iff, read_eq_ok_iff]
  simp only [Option.map_some, Option.some.injEq]

theorem readColumn_eq_ok_iff (hj : j < positionBound) {xs : List α} :
    readColumn convert r j = .ok xs ↔ j < r.columns.length ∧
      List.Forall₂ (fun row x => row[j]?.map convert = some (.ok x)) r.rows xs := by
  rw [readColumn, bind_eq_ok]
  simp only [column_eq_ok_iff hj]
  constructor
  · rintro ⟨cells, h, hread⟩
    exact ⟨(List.getElem?_eq_some_iff.mp h).1, (read_eq_ok_iff_rows h).mp hread⟩
  · rintro ⟨hlen, hrows⟩
    have h := List.getElem?_eq_getElem hlen
    exact ⟨_, h, (read_eq_ok_iff_rows h).mpr hrows⟩

variable (convert) in
/-- A column that is not there or has a cell that cannot be converted. -/
def Unreadable (r : ResultSet) (j : Nat) : Prop :=
  r.columns.length ≤ j ∨ ∃ row ∈ r.rows, ∃ e, row[j]?.map convert = some (.error e)

theorem readColumn_eq_error_iff (hj : j < positionBound) :
    (∃ f, readColumn convert r j = .error f) ↔ Unreadable convert r j := by
  have hcells : ∀ cells, r.columns[j]? = some cells →
      ((∃ row ∈ r.rows, ∃ e, row[j]?.map convert = some (.error e)) ↔
        ∃ f, read convert cells = .error f) := by
    intro cells h
    have hmem : ∀ o, (∃ row ∈ r.rows, row[j]? = o) ↔ ∃ c ∈ cells, some c = o := by
      intro o
      rw [← List.mem_map, ← List.mem_map, getElem?_rows h]
    rw [read_eq_error_iff]
    constructor
    · rintro ⟨row, hrow, e, he⟩
      obtain ⟨c, hc, heq⟩ := (hmem row[j]?).mp ⟨row, hrow, rfl⟩
      rw [← heq] at he
      exact ⟨c, hc, e, Option.some.inj he⟩
    · rintro ⟨c, hc, e, he⟩
      obtain ⟨row, hrow, heq⟩ := (hmem (some c)).mpr ⟨c, hc, rfl⟩
      exact ⟨row, hrow, e, by rw [heq, Option.map_some, he]⟩
  rw [readColumn, bind_eq_error, column_eq_error_iff hj, Unreadable]
  simp only [column_eq_ok_iff hj]
  by_cases hlen : r.columns.length ≤ j
  · simp only [hlen, true_or]
  · have h := List.getElem?_eq_getElem (Nat.lt_of_not_le hlen)
    simp only [hlen, false_or, h, Option.some.injEq, exists_eq_left', hcells _ h]

theorem exists_readColumn_iff (hj : j < positionBound) :
    (∃ xs, readColumn convert r j = .ok xs) ↔ ¬ Unreadable convert r j := by
  rw [← readColumn_eq_error_iff hj, exists_error_iff, not_not]

theorem exists_mem_rows_iff {rows : List (List Cell)} {xs : List α}
    (h : List.Forall₂ (fun row x => row[j]?.map convert = some (.ok x)) rows xs) (p : α → Prop) :
    (∃ row ∈ rows, ∃ x, row[j]?.map convert = some (.ok x) ∧ p x) ↔ ∃ x ∈ xs, p x := by
  induction h with
  | nil => simp
  | cons hx _ ih =>
    rw [List.exists_mem_cons_iff, List.exists_mem_cons_iff, ih]
    simp only [hx, Option.some.injEq, Except.ok.injEq, exists_eq_left']

/-! ## Columns side by side -/

theorem getD_of_forall₂ {R : List Cell → α → Prop} {xs : List α} (h : List.Forall₂ R r.rows xs)
    {i : Nat} (hi : i < r.size) (d : α) : R (r.row i) (xs.getD i d) := by
  have hrows : i < r.rows.length := by simpa [rows] using hi
  have hxs : i < xs.length := h.length_eq ▸ hrows
  have hat := h.get hrows hxs
  simpa [rows, hxs] using hat

theorem forall₂_rows {R : List Cell → α → Prop} {f : Nat → α}
    (h : ∀ i < r.size, R (r.row i) (f i)) : List.Forall₂ R r.rows ((List.range r.size).map f) := by
  rw [rows, List.forall₂_map_left_iff, List.forall₂_map_right_iff, List.forall₂_same]
  exact fun i hi => h i (List.mem_range.mp hi)

end ResultSet
end RenderTrace
