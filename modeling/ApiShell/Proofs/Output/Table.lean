import ApiShell.Output.Format
import ApiShell.Proofs.Output.Frame
import ApiShell.Proofs.Output.Grid

/-!
# Tables that show a response as it is

A table takes its columns and cells from the same grid as separated values, but reads their texts as
markup.  Where the screen has room for all of them, the table is the drawing of the grid exactly if no
text has markup in it (`write_eq_drawn_iff`): what is no markup is shown as it is, and where something is
markup a mark is missing in the table, which has no others than those of its texts.
-/

namespace ApiShell.Output

open Output.Frame (tableWidth drawing marksIn IsPrintableTable)
open Markup (HasTag TagsInOrder Unmarked plainText)

/-! ### Drawings -/

/-- A text is one line of printable characters. -/
def IsPrintableLine (s : String) : Prop := ∀ c ∈ s.toList, Text.IsPrintable c

instance (s : String) : Decidable (IsPrintableLine s) := List.decidableBAll Text.IsPrintable s.toList

namespace Grid

/-- All texts of a grid: its column names and its cells. -/
def texts (grid : Grid) : List String := grid.columns ++ grid.rows.flatten

/-- The characters of the cells. -/
def cells (grid : Grid) : List (List (List Char)) := grid.rows.map (·.map String.toList)

/-- The width of the table that shows all texts on lines of their own. -/
def drawnWidth (grid : Grid) : ℕ := tableWidth (grid.columns.map String.toList) grid.cells

/-- The grid as a table in which every text is shown as it is. -/
def drawn (grid : Grid) : String :=
  if grid.columns = [] then "\n"
  else String.ofList ((drawing (grid.columns.map String.toList) grid.cells).flatMap (· ++ ['\n']))

/-- Every text of the grid is one line of printable characters. -/
def IsPrintable (grid : Grid) : Prop := ∀ s ∈ grid.texts, IsPrintableLine s

instance (grid : Grid) : Decidable grid.IsPrintable := inferInstanceAs (Decidable (∀ s ∈ _, _))

variable {grid : Grid} {data : Value}

theorem Shows.length_eq (h : grid.Shows data) {row : List String} (hrow : row ∈ grid.rows) :
    row.length = grid.columns.length := by
  obtain ⟨item, -, hcells⟩ := exists_mem_of_forall₂ h.rows hrow
  exact hcells.length_eq.symm

theorem map_toList_texts (grid : Grid) :
    grid.texts.map String.toList = grid.columns.map String.toList ++ grid.cells.flatten := by
  rw [texts, cells, List.map_append, List.map_flatten]

theorem Shows.isPrintableTable (hshows : grid.Shows data) (h : grid.IsPrintable) :
    IsPrintableTable (grid.columns.map String.toList) grid.cells where
  length_eq row hrow := by
    obtain ⟨texts, htexts, rfl⟩ := List.mem_map.1 hrow
    rw [List.length_map, List.length_map, hshows.length_eq htexts]
  isPrintable row hrow cs hcs := by
    have htext : cs ∈ grid.texts.map String.toList := by
      rw [map_toList_texts]
      rcases List.mem_cons.1 hrow with rfl | hrow
      · exact List.mem_append_left _ hcs
      · exact List.mem_append_right _ (List.mem_flatten.2 ⟨row, hrow, hcs⟩)
    obtain ⟨s, hs, rfl⟩ := List.mem_map.1 htext
    exact h s hs

end Grid

/-! ### Texts that are read as markup -/

namespace Frame

variable {width : ℕ} {grid : Grid} {data : Value}

/-- A text and what is shown of it. -/
def IsShown (s : String) (out : List Char) : Prop := plainText s = .ok out

/-- What is shown of texts has no more marks than they have, and fewer if one of them has markup. -/
theorem marksIn_le_of_isShown {texts : List String} {outs : List (List Char)}
    (h : List.Forall₂ IsShown texts outs) :
    marksIn outs ≤ marksIn (texts.map String.toList) ∧
      ((∃ s ∈ texts, ¬ Unmarked s.toList) → marksIn outs < marksIn (texts.map String.toList)) := by
  induction h with
  | nil => exact ⟨le_refl _, fun ⟨s, hs, _⟩ => absurd hs List.not_mem_nil⟩
  | @cons s out texts outs hs _ ih =>
    obtain ⟨hle, hlt⟩ := Markup.marks_plainText hs
    rw [List.map_cons, marksIn_cons, marksIn_cons]
    refine ⟨Nat.add_le_add hle ih.1, ?_⟩
    rintro ⟨t, ht, hmarked⟩
    rcases List.mem_cons.1 ht with rfl | ht
    · exact Nat.add_lt_add_of_lt_of_le (hlt hmarked) ih.1
    · exact Nat.add_lt_add_of_le_of_lt hle (ih.2 ⟨t, ht, hmarked⟩)

theorem forall₂_isShown_of_unmarked (texts : List String) (h : ∀ s ∈ texts, Unmarked s.toList)
    (hprintable : ∀ s ∈ texts, IsPrintableLine s) :
    List.Forall₂ IsShown texts (texts.map String.toList) := by
  have hcontrol : ∀ {c : Char}, Text.IsPrintable c → Markup.isControl c = false := by
    intro c hc
    refine Bool.eq_false_iff.2 fun hcontrol => ?_
    simp only [Markup.isControl, List.contains_iff_mem, List.mem_cons, List.not_mem_nil, or_false]
      at hcontrol
    rcases hcontrol with rfl | rfl | rfl | rfl | rfl <;> exact absurd hc (by decide)
  rw [List.forall₂_map_right_iff, List.forall₂_same]
  exact fun s hs => Markup.plainText_of_unmarked (h s hs) fun c hc => hcontrol (hprintable s hs c hc)

/-- A table is drawn of the shown texts. -/
theorem write_eq_ok_iff (hne : grid.columns ≠ []) {text : String} :
    write width grid = .ok text ↔ ∃ columns rows, List.Forall₂ IsShown grid.columns columns ∧
      List.Forall₂ (List.Forall₂ IsShown) grid.rows rows ∧
      String.ofList (((tableLines width columns rows).map (cutAtScreen width)).flatMap (· ++ ['\n'])) =
        text := by
  have hempty : ¬ grid.columns.isEmpty = true := by rwa [List.isEmpty_iff]
  rw [write, if_neg hempty]
  simp only [bind_eq_ok_iff, mapM_eq_ok_iff]
  constructor
  · rintro ⟨columns, hcolumns, rows, hrows, hout⟩
    exact ⟨columns, rows, hcolumns, hrows, Except.ok.inj hout⟩
  · rintro ⟨columns, rows, hcolumns, hrows, rfl⟩
    exact ⟨columns, hcolumns, rows, hrows, rfl⟩

/-- Without columns there are no texts. -/
theorem texts_eq_nil (hshows : grid.Shows data) (hnone : grid.columns = []) : grid.texts = [] := by
  rw [Grid.texts, hnone, List.nil_append, List.flatten_eq_nil_iff]
  intro row hrow
  rw [← List.length_eq_zero_iff, hshows.length_eq hrow, hnone]
  rfl

/-- A table is drawn exactly if the tags of each of its texts are in order. -/
theorem succeeds_write_iff (hshows : grid.Shows data) :
    Succeeds (write width grid) ↔ ∀ s ∈ grid.texts, TagsInOrder s := by
  by_cases hnone : grid.columns = []
  · rw [texts_eq_nil hshows hnone, write, if_pos (List.isEmpty_iff.2 hnone)]
    exact iff_of_true (succeeds_pure _) fun s hs => absurd hs List.not_mem_nil
  · have hempty : ¬ grid.columns.isEmpty = true := by rwa [List.isEmpty_iff]
    rw [write, if_neg hempty, succeeds_bind_iff_and fun _ => succeeds_bind_iff_left fun _ =>
      succeeds_pure _, succeeds_mapM_iff, succeeds_mapM_iff, Grid.texts, List.forall_mem_append]
    simp only [succeeds_mapM_iff, List.mem_flatten, Markup.succeeds_plainText_iff]
    exact and_congr_right fun _ => ⟨fun h s ⟨row, hrow, hs⟩ => h row hrow s hs,
      fun h row hrow s hs => h s ⟨row, hrow, hs⟩⟩

/-- A table with room for all texts shows them as they are exactly if none of them has markup. -/
theorem write_eq_drawn_iff (hshows : grid.Shows data) (h : grid.IsPrintable)
    (hroom : grid.drawnWidth ≤ width) :
    write width grid = .ok grid.drawn ↔ ∀ s ∈ grid.texts, Unmarked s.toList := by
  by_cases hnone : grid.columns = []
  · rw [texts_eq_nil hshows hnone, write, if_pos (List.isEmpty_iff.2 hnone), Grid.drawn, if_pos hnone]
    exact iff_of_true rfl fun s hs => absurd hs List.not_mem_nil
  · have htable := hshows.isPrintableTable h
    rw [write_eq_ok_iff hnone, Grid.drawn, if_neg hnone]
    constructor
    · rintro ⟨columns, rows, hcolumns, hrows, htext⟩
      -- The table has no more marks than what is shown of the texts, so one is missing in it.
      by_contra hmarked
      have hsome : ∃ s ∈ grid.texts, ¬ Unmarked s.toList := by simpa using hmarked
      have hfewer : marksIn (columns ++ rows.flatten) < marksIn (grid.texts.map String.toList) :=
        (marksIn_le_of_isShown (List.rel_append hcolumns (List.rel_flatten hrows))).2 hsome
      have hsame := congrArg (fun s => Markup.marks s.toList) htext
      simp only [String.toList_ofList, marks_flatMap_newline, marksIn_drawing htable.length_eq,
        ← Grid.map_toList_texts] at hsame
      have hcut := marksIn_map_cutAtScreen_le width (tableLines width columns rows)
      have hdrawn := marksIn_tableLines_le width columns rows
      omega
    · intro hplain
      have hcolumns := forall₂_isShown_of_unmarked grid.columns
        (fun s hs => hplain s (List.mem_append_left _ hs)) fun s hs => h s (List.mem_append_left _ hs)
      have hrows : List.Forall₂ (List.Forall₂ IsShown) grid.rows grid.cells := by
        rw [Grid.cells, List.forall₂_map_right_iff, List.forall₂_same]
        intro row hrow
        have htext : ∀ s ∈ row, s ∈ grid.texts := fun s hs =>
          List.mem_append_right _ (List.mem_flatten.2 ⟨row, hrow, hs⟩)
        exact forall₂_isShown_of_unmarked row (fun s hs => hplain s (htext s hs)) fun s hs =>
          h s (htext s hs)
      refine ⟨_, _, hcolumns, hrows, ?_⟩
      have hne : grid.columns.map String.toList ≠ [] := by rwa [ne_eq, List.map_eq_nil_iff]
      rw [tableLines_eq_drawing htable hroom, map_cutAtScreen_drawing htable hne hroom]

end Frame

/-- Items with brackets and colons that are no markup; one of them lacks a field. -/
def sizeItems : Value :=
  .list [.ofFields [("name", .text "a[0]: b"), ("size", .int 12)], .ofFields [("name", .text "[x")]]

theorem isTree_sizeItems : sizeItems.IsTree := by
  refine .list fun item hitem => ?_
  simp only [List.mem_cons, List.not_mem_nil, or_false] at hitem
  rcases hitem with rfl | rfl
  · refine .ofFields (by decide) fun e he => ?_
    simp only [List.mem_cons, List.not_mem_nil, or_false] at he
    rcases he with rfl | rfl <;> exact .scalar trivial
  · refine .ofFields (by decide) fun e he => ?_
    rw [List.mem_singleton.1 he]
    exact .scalar trivial

/-- The grid of these items. -/
def sizeGrid : Grid where
  columns := ["name", "size"]
  rows := [["a[0]: b", "12"], ["[x", ""]]

end ApiShell.Output
