import ApiShell.Output.Grid
import ApiShell.Proofs.Command.Grouping
import ApiShell.Proofs.Json.Tree
import ApiShell.Proofs.Run

/-!
# The grid of a response

Every value that JSON can picture has a grid (`exists_shows`): its columns are the keys of its items,
each where it is first seen, and its rows are the items with one cell for each column.
-/

namespace ApiShell

namespace Json.Style

/-- Other values than those of JSON are shown as text, so only a key can be refused. -/
theorem succeeds_scalar_displayLine (s : Scalar) : Succeeds (displayLine.scalar s) := by
  cases s <;> exact ⟨_, rfl⟩

theorem succeeds_values {style : Style} {depth : Nat} {vs : List Value}
    (h : ∀ v ∈ vs, Succeeds (style.value depth v)) : Succeeds (style.values depth vs) := by
  induction vs with
  | nil => exact ⟨_, rfl⟩
  | cons v vs ih =>
    rw [values, succeeds_bind_iff_and fun _ => succeeds_bind_iff_left fun _ => succeeds_pure _]
    exact ⟨h v List.mem_cons_self, ih fun w hw => h w (List.mem_cons_of_mem v hw)⟩

theorem succeeds_members_textFields {style : Style} {depth : Nat} {entries : List (String × Value)}
    (h : ∀ e ∈ entries, Succeeds (style.value depth e.2)) :
    Succeeds (style.members depth (Value.textFields entries)) := by
  induction entries with
  | nil => exact ⟨_, rfl⟩
  | cons e entries ih =>
    have hrest := ih fun f hf => h f (List.mem_cons_of_mem e hf)
    rw [Value.textFields, List.map_cons, members, ← Value.textFields]
    refine succeeds_bind_iff.2 ⟨e.1.toList, rfl, ?_⟩
    rw [succeeds_bind_iff_and fun _ => succeeds_bind_iff_left fun _ => succeeds_pure _]
    exact ⟨h e List.mem_cons_self, hrest⟩

/-- Every tree can be shown on one line. -/
theorem succeeds_value_displayLine {v : Value} (h : v.IsTree) (depth : Nat) :
    Succeeds (displayLine.value depth v) := by
  induction h generalizing depth with
  | scalar _ =>
    rw [value]
    exact succeeds_scalar_displayLine _
  | list _ ih =>
    rw [value, succeeds_bind_iff_left fun _ => succeeds_pure _]
    exact succeeds_values fun v hv => ih v hv (depth + 1)
  | ofFields _ _ ih =>
    rw [Value.ofFields, value, succeeds_bind_iff_left fun _ => succeeds_pure _]
    exact succeeds_members_textFields fun e he => ih e he (depth + 1)

end Json.Style

namespace Output

open Value (textFields)

/-! ### Columns -/

/-- The text keys of an item; an item that is no mapping has a single one. -/
def keysOf (item : Value) : List String :=
  (fieldsOf item).filterMap fun f => (Value.scalar f.1).text?

/-- Text keys make columns, each the first time it is seen. -/
theorem foldl_addColumn (names : List String) :
    (names.map Scalar.text).foldl addColumn [] = names.eraseDups := by
  induction names using List.reverseRecOn with
  | nil => rfl
  | append_singleton names n ih =>
    rw [List.map_append, List.foldl_append, ih, Command.eraseDups_concat]
    show (if names.eraseDups.contains n then names.eraseDups else names.eraseDups ++ [n]) = _
    simp only [List.contains_iff_mem, List.mem_eraseDups]

/-- The fields of a tree have text keys. -/
theorem exists_fieldsOf {item : Value} (h : item.IsTree) :
    ∃ entries, fieldsOf item = textFields entries ∧ ∀ e ∈ entries, e.2.IsTree := by
  cases h with
  | scalar hs => exact ⟨[(valueColumn, _)], rfl, List.forall_mem_singleton.2 (.scalar hs)⟩
  | list hitems => exact ⟨[(valueColumn, _)], rfl, List.forall_mem_singleton.2 (.list hitems)⟩
  | @ofFields entries _ hentries => exact ⟨entries, rfl, hentries⟩

theorem map_fst_fieldsOf {item : Value} (h : item.IsTree) :
    (fieldsOf item).map Prod.fst = (keysOf item).map .text := by
  obtain ⟨entries, hfields, -⟩ := exists_fieldsOf h
  have hkeys : keysOf item = entries.map Prod.fst := by
    rw [keysOf, hfields, textFields, List.filterMap_map]
    exact congrFun List.filterMap_eq_map entries
  rw [hkeys, hfields, textFields, List.map_map, List.map_map]
  rfl

theorem columnsOf_eq {items : List Value} (h : ∀ item ∈ items, item.IsTree) :
    columnsOf items = (items.flatMap keysOf).eraseDups := by
  have hkeys : (items.flatMap fun item => (fieldsOf item).map Prod.fst) =
      (items.flatMap keysOf).map .text := by
    rw [List.map_flatMap]
    exact List.flatMap_congr fun item hitem => map_fst_fieldsOf (h item hitem)
  rw [columnsOf, hkeys, foldl_addColumn]

/-! ### Cells -/

/-- What an item shows in a column: nothing where it lacks the key. -/
def IsCell (item : Value) (column cell : String) : Prop :=
  match Value.field? (fieldsOf item) column with
  | some v => cellText v = .ok cell
  | none => cell = ""

theorem isCell_iff {item : Value} {column cell : String} :
    cellText ((Value.field? (fieldsOf item) column).getD .null) = .ok cell ↔
      IsCell item column cell := by
  unfold IsCell
  cases Value.field? (fieldsOf item) column with
  | some v => rfl
  | none => exact ⟨fun h => (Except.ok.inj h).symm, fun h => h ▸ rfl⟩

theorem succeeds_cellText {v : Value} (h : v.IsTree) : Succeeds (cellText v) := by
  cases h with
  | scalar hs => cases ‹Scalar› <;> exact ⟨_, rfl⟩
  | list hitems =>
    rw [cellText, succeeds_mapError_iff, Json.Style.write, succeeds_map_iff]
    exact Json.Style.succeeds_value_displayLine (.list hitems) 0
  | ofFields hkeys hentries =>
    rw [Value.ofFields, cellText, succeeds_mapError_iff, Json.Style.write, succeeds_map_iff]
    exact Json.Style.succeeds_value_displayLine (.ofFields hkeys hentries) 0

/-- An item has a cell in every column. -/
theorem exists_cellsOf {item : Value} (h : item.IsTree) (columns : List String) :
    ∃ row, cellsOf columns item = .ok row ∧ List.Forall₂ (IsCell item) columns row := by
  have hmade : Succeeds (cellsOf columns item) := by
    refine succeeds_mapM_iff.2 fun column _ => succeeds_cellText ?_
    obtain ⟨entries, hfields, hentries⟩ := exists_fieldsOf h
    rw [hfields, Value.field?_textFields]
    cases hget : Entries.get? entries column with
    | none => exact .scalar trivial
    | some v => exact hentries _ (Entries.mem_of_get? hget)
  obtain ⟨row, hrow⟩ := hmade
  exact ⟨row, hrow, (mapM_eq_ok_iff.1 hrow).imp fun _ _ => isCell_iff.1⟩

/-! ### Grids -/

/-- The grid has a column for each key of the items, in the order in which they are first seen, and a
row for each item, with what the item shows in each column. -/
structure Grid.Shows (grid : Grid) (data : Value) : Prop where
  columns_eq : grid.columns = ((itemsOf data).flatMap keysOf).eraseDups
  rows : List.Forall₂ (fun item row => List.Forall₂ (IsCell item) grid.columns row) (itemsOf data)
    grid.rows

theorem Grid.Shows.nodup_columns {grid : Grid} {data : Value} (h : grid.Shows data) :
    grid.columns.Nodup := by
  rw [h.columns_eq]
  exact Command.nodup_eraseDups _

/-- Every tree has a grid. -/
theorem Grid.exists_shows {data : Value} (h : data.IsTree) :
    ∃ grid, Grid.ofValue data = .ok grid ∧ grid.Shows data := by
  have hitems : ∀ item ∈ itemsOf data, item.IsTree := by
    cases h with
    | scalar hs => exact List.forall_mem_singleton.2 (.scalar hs)
    | list hitems => exact hitems
    | ofFields hkeys hentries => exact List.forall_mem_singleton.2 (.ofFields hkeys hentries)
  have hmade : Succeeds ((itemsOf data).mapM (cellsOf (columnsOf (itemsOf data)))) := by
    refine succeeds_mapM_iff.2 fun item hitem => ?_
    obtain ⟨row, hrow, -⟩ := exists_cellsOf (hitems item hitem) (columnsOf (itemsOf data))
    exact ⟨row, hrow⟩
  obtain ⟨rows, hrows⟩ := hmade
  refine ⟨⟨columnsOf (itemsOf data), rows⟩, bind_eq_ok_iff.2 ⟨rows, hrows, rfl⟩,
    columnsOf_eq hitems, (mapM_eq_ok_iff.1 hrows).imp fun item row hrow => ?_⟩
  exact (mapM_eq_ok_iff.1 hrow).imp fun _ _ => isCell_iff.1

end Output

end ApiShell
