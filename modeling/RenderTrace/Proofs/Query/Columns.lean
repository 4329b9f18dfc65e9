import RenderTrace.Proofs.Query.Rows

/-!
# Columns of rows

A result set is made of rows by taking the cells at each place (`ResultSet.ofRows_of_wide`). A row that is
too short for this is an error (`ofRows_of_short`), further cells are left out (`rows_of_ofRows`), and the
rows of a result set make it again (`ofRows_rows`). A position below zero counts from the end (`Means`),
so `ResultSet.ofRows_reads_cells` says of all positions which cells a column is read from.
-/

namespace RenderTrace
open Number (NumberError)

namespace ResultSet

variable {α : Type} {r : ResultSet} {names : List String} {rows columns : List (List Cell)}
  {row : List Cell} {i : Int} {n place : Nat}

/-! ## Positions -/

/-- A position means a place of a list: it counts from the start, or below zero from the end. -/
structure Means (length : Nat) (i : Int) (place : Nat) : Prop where
  usable : -positionBound ≤ i ∧ i < positionBound
  place_lt : place < length
  counts : i = place ∨ i = place - length

theorem placeOf_of_means {length : Nat} (h : Means length i place) :
    placeOf length i = .ok ⟨place, h.place_lt⟩ := by
  obtain ⟨husable, hlt, hcounts⟩ := h
  have hnot : ¬ (i < -positionBound ∨ positionBound ≤ i) := by omega
  simp only [placeOf, if_neg hnot]
  have hplace : (if i < 0 then i + length else i) = place := by split <;> omega
  rw [dif_pos (by omega)]
  simp only [hplace, Int.toNat_natCast]

theorem column_of_means (h : Means r.columns.length i place) :
    ∃ cells, r.columns[place]? = some cells ∧ r.column i = .ok cells := by
  refine ⟨_, List.getElem?_eq_getElem h.place_lt, ?_⟩
  rw [column, placeOf_of_means h]
  rfl

/-! ## Columns -/

theorem ofColumns_eq_ok_iff : ofColumns names columns = .ok r ↔
    r.names = names ∧ r.columns = columns ∧ r.size = rowCount columns := by
  constructor
  · intro h
    unfold ofColumns at h
    split at h
    · split at h
      · obtain rfl := Except.ok.inj h
        exact ⟨rfl, rfl, rfl⟩
      · exact nomatch h
    · exact nomatch h
  · obtain ⟨names', columns', size', hnames, hcolumns⟩ := r
    rintro ⟨rfl, rfl, hsize⟩
    obtain rfl : size' = rowCount columns' := hsize
    rw [ofColumns, dif_pos hnames, dif_pos hcolumns]

theorem rowCount_of_forall (hne : columns ≠ []) (h : ∀ c ∈ columns, c.length = n) :
    rowCount columns = n := by
  obtain ⟨c, rest, rfl⟩ := List.exists_cons_of_ne_nil hne
  exact h c List.mem_cons_self

theorem exists_ofColumns (hnames : columns.length = names.length) (h : ∀ c ∈ columns, c.length = n) :
    ∃ r, ofColumns names columns = .ok r := by
  have hcount : ∀ c ∈ columns, c.length = rowCount columns := by
    intro c hc
    rw [rowCount_of_forall (List.ne_nil_of_mem hc) h, h c hc]
  exact ⟨_, by rw [ofColumns, dif_pos hnames, dif_pos hcount]⟩

/-! ## Rows -/

theorem cellAt_eq_ok (h : n < row.length) : cellAt n row = .ok (row.getD n .null) := by
  rw [cellAt, List.getElem?_eq_getElem h, List.getD_eq_getElem?_getD, List.getElem?_eq_getElem h]
  rfl

theorem cellAt_eq_error (h : row.length ≤ n) : cellAt n row = .error .outOfRange := by
  rw [cellAt, List.getElem?_eq_none h]

theorem eq_outOfRange_of_cellAt {f : Failure} (h : cellAt n row = .error f) : f = .outOfRange := by
  by_cases hn : n < row.length
  · rw [cellAt_eq_ok hn] at h
    exact nomatch h
  · rw [cellAt_eq_error (Nat.le_of_not_lt hn)] at h
    exact (Except.error.inj h).symm

theorem wide_or_short (n : Nat) (rows : List (List Cell)) :
    (∀ row ∈ rows, n ≤ row.length) ∨ ∃ row ∈ rows, row.length < n := by
  by_cases h : ∃ row ∈ rows, row.length < n
  · exact .inr h
  · exact .inl fun row hrow => Nat.le_of_not_lt fun hshort => h ⟨row, hrow, hshort⟩

/-- The first columns of some rows. -/
def columnsOf (n : Nat) (rows : List (List Cell)) : List (List Cell) :=
  (List.range n).map fun place => rows.map fun row => row.getD place .null

theorem ofRows_of_wide (h : ∀ row ∈ rows, names.length ≤ row.length) :
    ofRows names rows = ofColumns names (columnsOf names.length rows) := by
  have hcolumns : (List.range names.length).mapM (fun place => rows.mapM (cellAt place)) =
      .ok (columnsOf names.length rows) := by
    apply mapM_eq_ok_map
    intro place hplace
    apply mapM_eq_ok_map
    intro row hrow
    exact cellAt_eq_ok (Nat.lt_of_lt_of_le (List.mem_range.mp hplace) (h row hrow))
  rw [ofRows, hcolumns]
  rfl

/-- Whichever row is too short, it is missed at the place of the first cell that it has not. -/
theorem ofRows_of_short (h : ∃ row ∈ rows, row.length < names.length) :
    ofRows names rows = .error .outOfRange := by
  obtain ⟨row, hrow, hshort⟩ := h
  have hcolumn : ∃ f, rows.mapM (cellAt row.length) = .error f :=
    mapM_eq_error_iff.mpr ⟨row, hrow, _, cellAt_eq_error (Nat.le_refl _)⟩
  have hany : ∃ place ∈ List.range names.length, ∃ f, rows.mapM (cellAt place) = .error f :=
    ⟨row.length, List.mem_range.mpr hshort, hcolumn⟩
  obtain ⟨f, hcolumns⟩ := mapM_eq_error_iff.mpr hany
  obtain ⟨place, -, hplace⟩ := exists_of_mapM_eq_error hcolumns
  obtain ⟨missed, -, hmissed⟩ := exists_of_mapM_eq_error hplace
  obtain rfl := eq_outOfRange_of_cellAt hmissed
  rw [ofRows, hcolumns]
  rfl

theorem length_columnsOf : (columnsOf n rows).length = n := by simp [columnsOf]

theorem length_of_mem_columnsOf : ∀ c ∈ columnsOf n rows, c.length = rows.length := by
  intro c hc
  obtain ⟨place, -, rfl⟩ := List.mem_map.mp hc
  exact List.length_map _

theorem exists_ofRows (h : ∀ row ∈ rows, names.length ≤ row.length) :
    ∃ r, ofRows names rows = .ok r := by
  rw [ofRows_of_wide h]
  exact exists_ofColumns length_columnsOf length_of_mem_columnsOf

theorem ofRows_eq_outOfRange_iff : ofRows names rows = .error .outOfRange ↔
    ∃ row ∈ rows, row.length < names.length := by
  refine ⟨fun h => (wide_or_short _ _).resolve_left fun hwide => ?_, ofRows_of_short⟩
  obtain ⟨r, hr⟩ := exists_ofRows hwide
  exact nomatch h.symm.trans hr

theorem wide_of_ofRows (h : ofRows names rows = .ok r) : ∀ row ∈ rows, names.length ≤ row.length := by
  refine (wide_or_short _ _).resolve_right fun hshort => ?_
  exact nomatch h.symm.trans (ofRows_of_short hshort)

theorem ofRows_take : ofRows names (rows.map (·.take names.length)) = ofRows names rows := by
  obtain hwide | ⟨row, hrow, hshort⟩ := wide_or_short names.length rows
  · have htaken : ∀ row ∈ rows.map (·.take names.length), names.length ≤ row.length := by
      intro _ hmem
      obtain ⟨row, hrow, rfl⟩ := List.mem_map.mp hmem
      exact Nat.le_of_eq (List.length_take_of_le (hwide row hrow)).symm
    rw [ofRows_of_wide hwide, ofRows_of_wide htaken]
    congr 1
    apply List.map_congr_left
    intro place hplace
    rw [List.map_map]
    apply List.map_congr_left
    intro row _
    simp [List.getD_eq_getElem?_getD, List.getElem?_take_of_lt (List.mem_range.mp hplace)]
  · have htaken : (row.take names.length).length < names.length := by
      rw [List.length_take]
      omega
    rw [ofRows_of_short ⟨row, hrow, hshort⟩, ofRows_of_short ⟨_, List.mem_map_of_mem hrow, htaken⟩]

/-! ## There and back -/

section OfRows

variable (h : ofRows names rows = .ok r)
include h

theorem parts_of_ofRows : r.names = names ∧ r.columns = columnsOf names.length rows ∧
    r.size = rowCount (columnsOf names.length rows) := by
  rw [ofRows_of_wide (wide_of_ofRows h)] at h
  exact ofColumns_eq_ok_iff.mp h

theorem size_of_ofRows (hne : names ≠ []) : r.size = rows.length := by
  have hcolumns : columnsOf names.length rows ≠ [] := by
    rw [← List.length_pos_iff, length_columnsOf]
    exact List.length_pos_iff.mpr hne
  rw [(parts_of_ofRows h).2.2, rowCount_of_forall hcolumns length_of_mem_columnsOf]

theorem rows_of_ofRows (hne : names ≠ []) : r.rows = rows.map (·.take names.length) := by
  have hsize := size_of_ofRows h hne
  have hwide := wide_of_ofRows h
  apply List.ext_getElem
  · simp [ResultSet.rows, hsize]
  · intro k hk _
    have hk' : k < rows.length := by simpa [ResultSet.rows, hsize] using hk
    have hlen := hwide rows[k] (List.getElem_mem hk')
    simp only [ResultSet.rows, ResultSet.row, (parts_of_ofRows h).2.1, columnsOf, List.getElem_map,
      List.getElem_range, List.map_map]
    apply List.ext_getElem
    · simp [hlen]
    · intro place hplace _
      have hcell : place < rows[k].length := by
        simp only [List.length_map, List.length_range] at hplace
        omega
      simp [hk', hcell]

end OfRows

theorem ofRows_rows (hne : r.columns ≠ []) : ofRows r.names r.rows = .ok r := by
  have hwide : ∀ row ∈ r.rows, r.names.length ≤ row.length := by
    intro _ hmem
    obtain ⟨k, -, rfl⟩ := List.mem_map.mp hmem
    rw [← r.length_columns]
    exact Nat.le_of_eq (List.length_map _).symm
  have hcolumns : columnsOf r.names.length r.rows = r.columns := by
    apply List.ext_getElem
    · rw [length_columnsOf, r.length_columns]
    · intro place _ hplace
      have hcells := getElem?_rows (List.getElem?_eq_getElem hplace)
      have hread := congrArg (List.map (·.getD Cell.null)) hcells
      simpa [columnsOf, List.getD_eq_getElem?_getD, Function.comp_def] using hread
  rw [ofRows_of_wide hwide, hcolumns, ofColumns_eq_ok_iff]
  exact ⟨rfl, rfl, (rowCount_of_forall hne r.length_column).symm⟩

/-! ## Reading -/

/-- A value for each row, made of the cell of the row at a place. -/
def Listed (makes : Cell → α → Prop) (place : Nat) (rows : List (List Cell)) (xs : List α) : Prop :=
  List.Forall₂ (fun row x => ∃ c, row[place]? = some c ∧ makes c x) rows xs

variable {convert : Cell → Except NumberError α} {xs : List α}

theorem readColumn_of_ofRows (h : ofRows names rows = .ok r) (hplace : Means names.length i place) :
    readColumn convert r i = .ok xs ↔
      xs.length = r.size ∧ Listed (fun c x => convert c = .ok x) place rows xs := by
  have hne : names ≠ [] := List.ne_nil_of_length_pos (Nat.zero_lt_of_lt hplace.place_lt)
  have hlen : r.columns.length = names.length := by
    rw [r.length_columns, (parts_of_ofRows h).1]
  obtain ⟨cells, hcells, hcolumn⟩ := column_of_means (hlen ▸ hplace)
  have hcell : ∀ (row : List Cell) (x : α),
      ((row.take names.length)[place]?.map convert = some (.ok x) ↔
        ∃ c, row[place]? = some c ∧ convert c = .ok x) := by
    intro row x
    rw [List.getElem?_take_of_lt hplace.place_lt, Option.map_eq_some_iff]
  rw [readColumn, hcolumn]
  show read convert cells = .ok xs ↔ _
  rw [read_eq_ok_iff_rows hcells, rows_of_ofRows h hne, List.forall₂_map_left_iff]
  simp only [hcell]
  refine ⟨fun hlisted => ⟨?_, hlisted⟩, And.right⟩
  rw [size_of_ofRows h hne, hlisted.length_eq]

/-- A result set is read as some rows: from the cells of a place, one to a row, for each position that
means the place. -/
structure Shows (r : ResultSet) (rows : List (List Cell)) : Prop where
  size : r.size = rows.length
  integers : ∀ i place, Means r.names.length i place → ∀ xs, r.integers i = .ok xs ↔
    xs.length = r.size ∧ Listed (fun c x => c.toInteger = .ok x) place rows xs
  texts : ∀ i place, Means r.names.length i place → ∀ xs, r.texts i = .ok xs ↔
    xs.length = r.size ∧ Listed (fun c x => c.toText = .ok x) place rows xs
  doubles : ∀ i place, Means r.names.length i place → ∀ xs, r.doubles i = .ok xs ↔
    xs.length = r.size ∧ Listed (fun c x => c.toDouble = .ok x) place rows xs

theorem shows_of_ofRows (h : ofRows names rows = .ok r) (hne : names ≠ []) : r.Shows rows := by
  have hnames : r.names = names := (parts_of_ofRows h).1
  refine ⟨size_of_ofRows h hne, fun i place hplace xs => ?_, fun i place hplace xs => ?_,
    fun i place hplace xs => ?_⟩
  all_goals exact readColumn_of_ofRows h (hnames ▸ hplace)

/-- Rows make a result set unless one of them has fewer cells than there are names, and then they are
out of range. With a name or more it has as many rows as there are, and a column at a position is read
from the cells that the rows have at its place, whatever they have behind the last name. Columns of one
length, a name to each, make a result set as well, and the rows of that make the same one again. -/
theorem ofRows_reads_cells (names : List String) (rows : List (List Cell)) :
    (ofRows names rows = .error .outOfRange ↔ ∃ row ∈ rows, row.length < names.length) ∧
    ((∀ row ∈ rows, names.length ≤ row.length) → ∃ r, ofRows names rows = .ok r ∧ r.names = names ∧
      (names ≠ [] → r.Shows rows)) ∧
    ofRows names (rows.map (·.take names.length)) = ofRows names rows ∧
    ∀ columns n, columns ≠ [] → columns.length = names.length → (∀ c ∈ columns, c.length = n) →
      ∃ r, ofColumns names columns = .ok r ∧ r.columns = columns ∧ r.size = n ∧
        ofRows names r.rows = .ok r := by
  refine ⟨ofRows_eq_outOfRange_iff, fun hwide => ?_, ofRows_take, ?_⟩
  · obtain ⟨r, hr⟩ := exists_ofRows hwide
    exact ⟨r, hr, (parts_of_ofRows hr).1, shows_of_ofRows hr⟩
  · intro columns n hne hnames hlength
    obtain ⟨r, hr⟩ := exists_ofColumns hnames hlength
    obtain ⟨rfl, rfl, hsize⟩ := ofColumns_eq_ok_iff.mp hr
    exact ⟨r, hr, rfl, hsize.trans (rowCount_of_forall hne hlength), ofRows_rows hne⟩

/-- A row with a cell too many, one without a number, and columns with the same cells. -/
theorem ofRows_reads_cells_sample :
    let names := ["id", "name"]
    let rows : List (List Cell) := [[.number 1, .text "a", .bool true], [.null, .text "b"]]
    let columns : List (List Cell) := [[.number 1, .null], [.text "a", .text "b"]]
    ofRows names [[.number 1]] = .error .outOfRange ∧
      (∀ row ∈ rows, names.length ≤ row.length) ∧
      (∃ r, ofRows names rows = .ok r ∧ r.size = 2 ∧
        r.integers 0 = .ok [1, 0] ∧ r.texts (-1) = .ok ["a", "b"]) ∧
      columns ≠ [] ∧ columns.length = names.length ∧ (∀ c ∈ columns, c.length = 2) ∧
      ∃ r, ofColumns names columns = .ok r ∧ ofRows names r.rows = .ok r := by
  intro names rows columns
  have hwide : ∀ row ∈ rows, names.length ≤ row.length := by simp [rows, names]
  have hlength : ∀ c ∈ columns, c.length = 2 := by simp [columns]
  obtain ⟨-, hmade, -, hcolumns⟩ := ofRows_reads_cells names rows
  obtain ⟨r, hr, hnames, hshows⟩ := hmade hwide
  obtain ⟨r', hr', -, -, hagain⟩ := hcolumns columns 2 (List.cons_ne_nil _ _) rfl hlength
  have hrows : r.Shows rows := hshows (List.cons_ne_nil _ _)
  have hsize : r.size = 2 := hrows.size
  have hfirst : Means r.names.length 0 0 := by
    rw [hnames]
    exact ⟨by decide, by decide, .inl rfl⟩
  have hlast : Means r.names.length (-1) 1 := by
    rw [hnames]
    exact ⟨by decide, by decide, .inr rfl⟩
  refine ⟨(ofRows_reads_cells names _).1.mpr ⟨_, List.mem_singleton_self _, by decide⟩, hwide,
    ⟨r, hr, hsize, ?_, ?_⟩, List.cons_ne_nil _ _, rfl, hlength, r', hr', hagain⟩
  · exact (hrows.integers 0 0 hfirst _).mpr
      ⟨hsize.symm, .cons ⟨_, rfl, rfl⟩ (.cons ⟨_, rfl, rfl⟩ .nil)⟩
  · exact (hrows.texts (-1) 1 hlast _).mpr
      ⟨hsize.symm, .cons ⟨_, rfl, rfl⟩ (.cons ⟨_, rfl, rfl⟩ .nil)⟩

end ResultSet
end RenderTrace
