import ApiShell.Output.Frame
import ApiShell.Proofs.Markup.Plain
import ApiShell.Proofs.Text.Wrap

/-!
# Tables that are wide enough

Where the screen has room for the longest text of each column, every text stands on a line of its own
row, with a blank on both sides, and the columns are as wide as that (`tableLines_eq_drawing`).  Whatever
the width is, no mark comes into a table that is not in its texts (`marksIn_tableLines_le`).
-/

namespace ApiShell.Output.Frame

open Markup (marks isMark)
open Text (IsPrintable charCells)

/-! ### The drawing -/

/-- The width of a column: its longest text and a blank on both sides. -/
def naturalWidth (column : List (List Char)) : ℕ :=
  (column.map fun cs => cs.length + padding).foldl max 0

/-- The texts of one column. -/
def columnOf (columns : List (List Char)) (rows : List (List (List Char))) (i : ℕ) :
    List (List Char) :=
  (columns :: rows).filterMap (·[i]?)

/-- The widths of all columns. -/
def naturalWidths (columns : List (List Char)) (rows : List (List (List Char))) : List ℕ :=
  ((List.range columns.length).map (columnOf columns rows)).map naturalWidth

/-- The width of a table: that of its columns, with a line before each of them and after the last. -/
def tableWidth (columns : List (List Char)) (rows : List (List (List Char))) : ℕ :=
  (naturalWidths columns rows).sum + (columns.length + 1)

/-- A text in a column. -/
def boxed (width : ℕ) (cs : List Char) : List Char :=
  ' ' :: (cs ++ List.replicate (width - padding - cs.length) ' ') ++ [' ']

/-- The texts of a row, each in its column. -/
def drawnRow (edges : Edges) (widths : List ℕ) (row : List (List Char)) : List Char :=
  joinCells edges (List.zipWith boxed widths row)

/-- The lines of a table in which every text is shown as it is. -/
def drawing (columns : List (List Char)) (rows : List (List (List Char))) : List (List Char) :=
  let widths := naturalWidths columns rows
  rule ⟨'┏', '┳', '┓'⟩ '━' widths ::
    [drawnRow ⟨'┃', '┃', '┃'⟩ widths columns] ++
    [rule ⟨'┡', '╇', '┩'⟩ '━' widths] ++
    rows.map (drawnRow ⟨'│', '│', '│'⟩ widths) ++
    [rule ⟨'└', '┴', '┘'⟩ '─' widths]

/-! ### Maxima -/

theorem le_foldl_max {ns : List ℕ} {n m : ℕ} (h : n ≤ m ∨ n ∈ ns) : n ≤ ns.foldl max m := by
  induction ns generalizing m with
  | nil => exact h.resolve_right List.not_mem_nil
  | cons k ns ih =>
    refine ih ?_
    rcases h with h | h
    · exact .inl (h.trans (le_max_left m k))
    · exact (List.mem_cons.1 h).imp_left fun heq => (le_of_eq heq).trans (le_max_right m k)

theorem foldl_max_eq {ns : List ℕ} {m : ℕ} (h : ∀ n ∈ ns, n ≤ m) : ns.foldl max m = m := by
  induction ns with
  | nil => rfl
  | cons k ns ih =>
    rw [List.foldl_cons, max_eq_left (h k List.mem_cons_self)]
    exact ih fun n hn => h n (List.mem_cons_of_mem k hn)

/-! ### Widths -/

variable {columns : List (List Char)} {rows : List (List (List Char))} {width : ℕ} {cs : List Char}

theorem length_le_naturalWidth {column : List (List Char)} (h : cs ∈ column) :
    cs.length + padding ≤ naturalWidth column :=
  le_foldl_max (.inr (List.mem_map.2 ⟨cs, h, rfl⟩))

/-- A printable text has one line. -/
theorem textWidth_of_isPrintable (h : ∀ c ∈ cs, IsPrintable c) : textWidth cs = cs.length := by
  have hcells : Text.cells cs = cs.length :=
    Text.cells_eq_length fun c hc => Text.charCells_of_isPrintable (h c hc)
  unfold textWidth Text.runs
  dsimp only
  rw [Text.runsFrom_of_forall, List.reverse_nil, List.nil_append]
  · cases cs with
    | nil => rfl
    | cons c cs => exact (Nat.zero_max _).trans hcells
  · intro c hc
    rw [Bool.not_eq_true', ← Bool.not_eq_true, List.contains_iff_mem]
    intro hbreak
    have hprintable := h c hc
    simp only [List.mem_cons, List.not_mem_nil, or_false] at hbreak
    rcases hbreak with rfl | rfl | rfl | rfl | rfl | rfl | rfl | rfl | rfl | rfl <;>
      exact absurd hprintable (by decide)

theorem cellWidth_of_le {room : ℕ} (h : ∀ c ∈ cs, IsPrintable c) (hroom : cs.length + padding ≤ room) :
    cellWidth room cs = cs.length + padding := by
  rw [cellWidth, textWidth_of_isPrintable h, min_eq_right hroom]
  split
  · next hsmall => exact le_antisymm (by unfold padding at *; omega) hroom
  · rfl

/-- With room enough a column has its natural width. -/
theorem columnWidth_of_le {room : ℕ} {column : List (List Char)}
    (h : ∀ cs ∈ column, ∀ c ∈ cs, IsPrintable c) (hroom : naturalWidth column ≤ room) :
    columnWidth room column = naturalWidth column := by
  rw [columnWidth, naturalWidth]
  congr 1
  exact List.map_congr_left fun cs hcs =>
    cellWidth_of_le (h cs hcs) ((length_le_naturalWidth hcs).trans hroom)

theorem totalWidth_eq_sum (widths : List ℕ) : totalWidth widths = widths.sum :=
  List.sum_eq_foldl.symm

/-- With room enough all columns have their natural widths. -/
theorem columnWidths_of_le {room : ℕ} {all : List (List (List Char))}
    (h : ∀ column ∈ all, ∀ cs ∈ column, ∀ c ∈ cs, IsPrintable c) (hne : ∀ column ∈ all, column ≠ [])
    (hroom : (all.map naturalWidth).sum ≤ room) : columnWidths room all = all.map naturalWidth := by
  have hwanted : all.map (fun column => max 1 (columnWidth room column)) = all.map naturalWidth := by
    refine List.map_congr_left fun column hcolumn => ?_
    have hle := List.single_le_sum (fun n _ => Nat.zero_le n) _ (List.mem_map_of_mem hcolumn)
      (l := all.map naturalWidth)
    obtain ⟨cs, hcs⟩ := List.exists_mem_of_ne_nil _ (hne column hcolumn)
    have hwide := length_le_naturalWidth hcs
    rw [columnWidth_of_le (h column hcolumn) (hle.trans hroom)]
    unfold padding at hwide
    omega
  rw [columnWidths]
  dsimp only
  rw [hwanted, totalWidth_eq_sum, if_pos hroom]

/-! ### Rows -/

/-- A text that has room in its column is one line. -/
theorem cellLines_of_le (h : ∀ c ∈ cs, IsPrintable c) (hfits : cs.length + padding ≤ width) :
    cellLines width cs = if width ≤ padding then [] else [boxed width cs] := by
  have hcells : ∀ c ∈ cs, charCells c = 1 := fun c hc => Text.charCells_of_isPrintable (h c hc)
  have hinside : cs.length ≤ width - padding := by omega
  rw [cellLines, Text.wrap_of_length_le h hinside, List.map_singleton,
    Text.fitCells_of_length_le hcells hinside]
  rfl

theorem fillUp_cellLines (h : ∀ c ∈ cs, IsPrintable c) (hfits : cs.length + padding ≤ width)
    (atBottom : Bool) : fillUp atBottom 1 width (cellLines width cs) = [boxed width cs] := by
  rw [cellLines_of_le h hfits]
  split
  · next hnarrow =>
    obtain rfl : width = padding := le_antisymm hnarrow (by omega)
    obtain rfl : cs = [] := List.eq_nil_of_length_eq_zero (by omega)
    cases atBottom <;> rfl
  · cases atBottom <;> rfl

/-- The text of a row has room in its columns. -/
def Fits (widths : List ℕ) (row : List (List Char)) : Prop :=
  List.Forall₂ (fun width cs => (∀ c ∈ cs, IsPrintable c) ∧ cs.length + padding ≤ width) widths row

/-- A row that has room in its columns is one line. -/
theorem rowLines_of_fits {widths : List ℕ} {row : List (List Char)} (h : Fits widths row)
    (edges : Edges) (atBottom : Bool) :
    rowLines edges atBottom widths row = [drawnRow edges widths row] := by
  have hfits : ∀ c ∈ widths.zip row, (∀ d ∈ c.2, IsPrintable d) ∧ c.2.length + padding ≤ c.1 :=
    fun c hc => List.forall₂_zip h hc
  have hheight : (((widths.zip row).map fun c => (c.1, cellLines c.1 c.2)).map (·.2.length)).foldl
      max 1 = 1 := by
    refine foldl_max_eq fun n hn => ?_
    rw [List.map_map] at hn
    obtain ⟨c, hc, rfl⟩ := List.mem_map.1 hn
    show (cellLines c.1 c.2).length ≤ 1
    rw [cellLines_of_le (hfits c hc).1 (hfits c hc).2]
    split <;> simp
  have hfilled : (((widths.zip row).map fun c => (c.1, cellLines c.1 c.2)).map fun c =>
      fillUp atBottom 1 c.1 c.2) = (widths.zip row).map fun c => [boxed c.1 c.2] := by
    rw [List.map_map]
    exact List.map_congr_left fun c hc => fillUp_cellLines (hfits c hc).1 (hfits c hc).2 atBottom
  have hcells : List.zipWith boxed widths row = (widths.zip row).map fun c => boxed c.1 c.2 :=
    (List.map_uncurry_zip_eq_zipWith (f := boxed)).symm
  rw [rowLines, hheight, hfilled, drawnRow, hcells]
  simp [Function.comp_def]

/-! ### Tables -/

/-- Printable texts under each column name. -/
structure IsPrintableTable (columns : List (List Char)) (rows : List (List (List Char))) : Prop where
  length_eq : ∀ row ∈ rows, row.length = columns.length
  isPrintable : ∀ row ∈ columns :: rows, ∀ cs ∈ row, ∀ c ∈ cs, IsPrintable c

theorem length_naturalWidths (columns : List (List Char)) (rows : List (List (List Char))) :
    (naturalWidths columns rows).length = columns.length := by
  rw [naturalWidths, List.length_map, List.length_map, List.length_range]

theorem IsPrintableTable.length_eq_of_mem (h : IsPrintableTable columns rows) {row : List (List Char)}
    (hrow : row ∈ columns :: rows) : row.length = columns.length :=
  (List.mem_cons.1 hrow).elim (congrArg List.length) (h.length_eq row)

/-- The rows of a table have room in its natural widths. -/
theorem IsPrintableTable.fits (h : IsPrintableTable columns rows) {row : List (List Char)}
    (hrow : row ∈ columns :: rows) : Fits (naturalWidths columns rows) row := by
  refine List.forall₂_iff_get.2 ⟨?_, fun i hwidths hi => ?_⟩
  · rw [length_naturalWidths, h.length_eq_of_mem hrow]
  · have hcolumn : row.get ⟨i, hi⟩ ∈ columnOf columns rows i :=
      List.mem_filterMap.2 ⟨row, hrow, List.getElem?_eq_getElem hi⟩
    refine ⟨h.isPrintable row hrow _ (List.get_mem row _), ?_⟩
    have hwidth : (naturalWidths columns rows).get ⟨i, hwidths⟩ =
        naturalWidth (columnOf columns rows i) := by
      simp [naturalWidths]
    exact hwidth ▸ length_le_naturalWidth hcolumn

/-- A table with enough room is drawn with every text on one line. -/
theorem tableLines_eq_drawing (h : IsPrintableTable columns rows)
    (hroom : tableWidth columns rows ≤ width) :
    tableLines width columns rows = drawing columns rows := by
  have hwidths : columnWidths (width - (columns.length + 1))
      ((List.range columns.length).map (columnOf columns rows)) = naturalWidths columns rows := by
    refine columnWidths_of_le (fun column hcolumn => ?_) (fun column hcolumn => ?_) ?_
    · obtain ⟨i, -, rfl⟩ := List.mem_map.1 hcolumn
      intro cs hcs
      obtain ⟨row, hrow, hget⟩ := List.mem_filterMap.1 hcs
      exact h.isPrintable row hrow cs (List.mem_of_getElem? hget)
    · obtain ⟨i, hi, rfl⟩ := List.mem_map.1 hcolumn
      have hname := List.getElem?_eq_getElem (List.mem_range.1 hi)
      exact List.ne_nil_of_mem (List.mem_filterMap.2 ⟨columns, List.mem_cons_self, hname⟩)
    · exact Nat.le_sub_of_add_le hroom
  have hrows : rows.flatMap (rowLines ⟨'│', '│', '│'⟩ false (naturalWidths columns rows)) =
      rows.map (drawnRow ⟨'│', '│', '│'⟩ (naturalWidths columns rows)) := by
    rw [← List.flatMap_singleton' (rows.map _), List.flatMap_map]
    exact List.flatMap_congr fun row hrow =>
      rowLines_of_fits (h.fits (List.mem_cons_of_mem columns hrow)) _ _
  unfold columnOf at hwidths
  rw [tableLines, hwidths, hrows, rowLines_of_fits (h.fits List.mem_cons_self)]
  rfl

/-- Texts in columns of their widths. -/
example : drawing ["name".toList, "size".toList] [["a[0]: b".toList, "12".toList], ["[x".toList, []]] =
    ["┏━━━━━━━━━┳━━━━━━┓",
     "┃ name    ┃ size ┃",
     "┡━━━━━━━━━╇━━━━━━┩",
     "│ a[0]: b │ 12   │",
     "│ [x      │      │",
     "└─────────┴──────┘"].map String.toList := by decide +kernel

/-! ### Lines of cells -/

/-- A character that frames are drawn with. -/
def IsStroke (c : Char) : Prop := 0x2500 ≤ c.toNat ∧ c.toNat < 0x2580

instance (c : Char) : Decidable (IsStroke c) := inferInstanceAs (Decidable (_ ∧ _))

set_option maxRecDepth 20000 in
theorem forall_ranges_no_stroke :
    ∀ r ∈ Text.zeroWidthRanges ++ Text.wideRanges, r.2 < 0x2500 ∨ 0x257F < r.1 := by decide +kernel

theorem charCells_of_isStroke {c : Char} (h : IsStroke c) : charCells c = 1 := by
  have hnone : ∀ ranges, (∀ r ∈ ranges, r ∈ Text.zeroWidthRanges ++ Text.wideRanges) →
      Text.inRanges ranges c.toNat = false := by
    intro ranges hranges
    refine Bool.eq_false_iff.2 fun hin => ?_
    obtain ⟨r, hr, hlow, hhigh⟩ := Text.inRanges_iff.1 hin
    have hapart := forall_ranges_no_stroke r (hranges r hr)
    unfold IsStroke at h
    omega
  rw [charCells, hnone _ fun r hr => List.mem_append_left _ hr,
    hnone _ fun r hr => List.mem_append_right _ hr]
  exact ite_self 1

theorem isMark_of_isStroke {c : Char} (h : IsStroke c) : isMark c = false := by
  refine Bool.eq_false_iff.2 fun hmark => ?_
  simp only [isMark, Bool.or_eq_true, beq_iff_eq] at hmark
  rcases hmark with (rfl | rfl) | rfl <;> exact absurd h (by decide)

/-- The lines around cells are strokes. -/
def Edges.AreStrokes (edges : Edges) : Prop :=
  IsStroke edges.left ∧ IsStroke edges.between ∧ IsStroke edges.right

instance (edges : Edges) : Decidable edges.AreStrokes := inferInstanceAs (Decidable (_ ∧ _ ∧ _))

section JoinCells

variable {f : List Char → ℕ} {k : ℕ} (hadd : ∀ as bs, f (as ++ bs) = f as + f bs)
include hadd

theorem map_joinWith {c : Char} (hc : f [c] = k) (cells : List (List Char)) :
    f (Text.joinWith [c] cells) = (cells.map f).sum + (cells.length - 1) * k := by
  have hnil : f [] = 0 := Nat.add_eq_left.1 (hadd [] []).symm
  induction cells with
  | nil => simp [Text.joinWith, hnil]
  | cons cs cells ih =>
    cases cells with
    | nil => simp [Text.joinWith]
    | cons ds cells =>
      rw [Text.joinWith_cons_cons, hadd, hadd, hc, ih]
      simp
      ring

/-- What is added up over a line is added up over its cells and the lines between them. -/
theorem map_joinCells (hstroke : ∀ {c}, IsStroke c → f [c] = k) {edges : Edges}
    (hedges : edges.AreStrokes) (cells : List (List Char)) :
    f (joinCells edges cells) = (cells.map f).sum + (cells.length - 1 + 2) * k := by
  have hline : joinCells edges cells = [edges.left] ++ Text.joinWith [edges.between] cells ++
    [edges.right] := rfl
  obtain ⟨hleft, hbetween, hright⟩ := hedges
  rw [hline, hadd, hadd, map_joinWith hadd (hstroke hbetween), hstroke hleft, hstroke hright]
  ring

end JoinCells

/-! ### Nothing is cut -/

theorem isPrintable_of_mem_boxed (h : ∀ c ∈ cs, IsPrintable c) :
    ∀ c ∈ boxed width cs, IsPrintable c := by
  have hblank : IsPrintable ' ' := by decide
  intro c hc
  simp only [boxed, List.mem_append, List.mem_cons, List.mem_replicate, List.not_mem_nil, or_false] at hc
  rcases hc with (rfl | hc | ⟨-, rfl⟩) | rfl
  · exact hblank
  · exact h c hc
  · exact hblank
  · exact hblank

theorem length_boxed (hfits : cs.length + padding ≤ width) : (boxed width cs).length = width := by
  unfold padding at hfits
  simp only [boxed, padding, List.length_append, List.length_cons, List.length_replicate,
    List.length_nil]
  omega

variable {widths : List ℕ} {row : List (List Char)}

theorem map_cells_boxed (h : Fits widths row) :
    (List.zipWith boxed widths row).map Text.cells = widths := by
  induction h with
  | nil => rfl
  | @cons width cs widths row hcs _ ih =>
    have hcells : Text.cells (boxed width cs) = width := by
      rw [Text.cells_eq_length fun c hc =>
        Text.charCells_of_isPrintable (isPrintable_of_mem_boxed hcs.1 c hc), length_boxed hcs.2]
    rw [List.zipWith_cons_cons, List.map_cons, hcells, ih]

theorem map_cells_rule {stroke : Char} (h : IsStroke stroke) (widths : List ℕ) :
    (widths.map fun w => List.replicate w stroke).map Text.cells = widths := by
  have hcells : ∀ w, Text.cells (List.replicate w stroke) = w := fun w => by
    rw [Text.cells_eq_length fun c hc => charCells_of_isStroke (List.eq_of_mem_replicate hc ▸ h),
      List.length_replicate]
  rw [List.map_map]
  exact (List.map_congr_left fun w _ => hcells w).trans (List.map_id widths)

/-- All lines of a drawing are as wide as the table. -/
theorem cells_of_mem_drawing (h : IsPrintableTable columns rows) (hne : columns ≠ []) {line : List Char}
    (hline : line ∈ drawing columns rows) : Text.cells line = tableWidth columns rows := by
  have hcount := List.length_pos_of_ne_nil hne
  have hwide : ∀ {edges : Edges} {cells : List (List Char)}, edges.AreStrokes →
      cells.map Text.cells = naturalWidths columns rows →
        Text.cells (joinCells edges cells) = tableWidth columns rows := by
    intro edges cells hedges hcells
    have hlength : cells.length = columns.length := by
      rw [← length_naturalWidths columns rows, ← hcells, List.length_map]
    have hstroke : ∀ {c}, IsStroke c → Text.cells [c] = 1 := fun hc =>
      Text.cells_eq_length (List.forall_mem_singleton.2 (charCells_of_isStroke hc))
    rw [map_joinCells Text.cells_append hstroke hedges, hcells, hlength, tableWidth]
    omega
  have hrow : ∀ {edges : Edges} {row : List (List Char)}, edges.AreStrokes → row ∈ columns :: rows →
      Text.cells (drawnRow edges (naturalWidths columns rows) row) = tableWidth columns rows :=
    fun hedges hrow => hwide hedges (map_cells_boxed (h.fits hrow))
  simp only [drawing, List.mem_append, List.mem_cons, List.not_mem_nil, or_false, List.mem_map] at hline
  rcases hline with (((rfl | rfl) | rfl) | ⟨row, hmem, rfl⟩) | rfl
  · exact hwide (by decide) (map_cells_rule (by decide) _)
  · exact hrow (by decide) List.mem_cons_self
  · exact hwide (by decide) (map_cells_rule (by decide) _)
  · exact hrow (by decide) (List.mem_cons_of_mem columns hmem)
  · exact hwide (by decide) (map_cells_rule (by decide) _)

/-- A drawing for which there is room is not cut. -/
theorem map_cutAtScreen_drawing (h : IsPrintableTable columns rows) (hne : columns ≠ [])
    (hroom : tableWidth columns rows ≤ width) :
    (drawing columns rows).map (cutAtScreen width) = drawing columns rows := by
  refine (List.map_congr_left fun line hline => ?_).trans (List.map_id _)
  exact if_pos ((cells_of_mem_drawing h hne hline).trans_le hroom)

/-! ### No mark comes in -/

/-- The marks in all of the texts. -/
def marksIn (texts : List (List Char)) : ℕ := (texts.map marks).sum

@[simp] theorem marksIn_cons (cs : List Char) (texts : List (List Char)) :
    marksIn (cs :: texts) = marks cs + marksIn texts := rfl

@[simp] theorem marksIn_append (texts others : List (List Char)) :
    marksIn (texts ++ others) = marksIn texts + marksIn others := by
  rw [marksIn, List.map_append, List.sum_append]
  rfl

theorem marksIn_flatMap {α : Type} (f : α → List (List Char)) (as : List α) :
    marksIn (as.flatMap f) = (as.map fun a => marksIn (f a)).sum := by
  induction as with
  | nil => rfl
  | cons a as ih => rw [List.flatMap_cons, marksIn_append, ih, List.map_cons, List.sum_cons]

theorem marksIn_eq_marks_flatten (texts : List (List Char)) : marksIn texts = marks texts.flatten :=
  List.countP_flatten.symm

theorem marksIn_replicate_blanks (count n : ℕ) :
    marksIn (List.replicate count (List.replicate n ' ')) = 0 := by
  have hblanks : marks (List.replicate n ' ') = 0 := Text.countP_blanks (by decide) n
  rw [marksIn, List.map_replicate, hblanks, List.sum_replicate, smul_zero]

/-- The lines around cells have no marks. -/
theorem marks_joinCells {edges : Edges} (hedges : edges.AreStrokes) (cells : List (List Char)) :
    marks (joinCells edges cells) = marksIn cells := by
  have hstroke : ∀ {c}, IsStroke c → marks [c] = 0 := fun hc =>
    List.countP_eq_zero.2 (List.forall_mem_singleton.2 (Bool.eq_false_iff.1 (isMark_of_isStroke hc)))
  rw [map_joinCells Markup.marks_append hstroke hedges, Nat.mul_zero, Nat.add_zero, marksIn]

theorem marks_rule {edges : Edges} (hedges : edges.AreStrokes) {stroke : Char}
    (hstroke : IsStroke stroke) (widths : List ℕ) : marks (rule edges stroke widths) = 0 := by
  rw [rule, marks_joinCells hedges, marksIn, List.map_map]
  refine List.sum_eq_zero fun n hn => ?_
  obtain ⟨w, -, rfl⟩ := List.mem_map.1 hn
  exact List.countP_eq_zero.2 fun c hc =>
    Bool.eq_false_iff.1 (isMark_of_isStroke (List.eq_of_mem_replicate hc ▸ hstroke))

theorem marksIn_fillUp (atBottom : Bool) (height width : ℕ) (lines : List (List Char)) :
    marksIn (fillUp atBottom height width lines) = marksIn lines := by
  rw [fillUp]
  cases atBottom <;> simp [marksIn_replicate_blanks]

/-- A cell has no more marks than its text. -/
theorem marksIn_cellLines_le (width : ℕ) (cs : List Char) : marksIn (cellLines width cs) ≤ marks cs := by
  rw [cellLines]
  split
  · exact Nat.zero_le _
  · refine le_trans ?_ (Text.countP_wrap_le (p := isMark) (by decide) (by decide) (width - padding) cs)
    rw [← marks, ← marksIn_eq_marks_flatten, marksIn, marksIn, List.map_map]
    refine List.sum_le_sum fun line _ => ?_
    have hblank : isMark ' ' = false := by decide
    calc marks (' ' :: Text.fitCells (width - padding) line ++ [' '])
      _ = marks (Text.fitCells (width - padding) line) := by simp [hblank]
      _ ≤ marks line := Text.countP_fitCells_le hblank (width - padding) line

/-- The lines of cells, taken one number after the other, have the marks of the cells. -/
theorem sum_marks_getD_le (lines : List (List Char)) (height : ℕ) :
    ((List.range height).map fun i => marks ((lines[i]?).getD [])).sum ≤ marksIn lines := by
  induction lines generalizing height with
  | nil => simp [marksIn]
  | cons line lines ih =>
    cases height with
    | zero => exact Nat.zero_le _
    | succ height =>
      rw [List.range_succ_eq_map, List.map_cons, List.sum_cons, List.map_map, marksIn_cons]
      exact Nat.add_le_add_left (ih height) _

/-- The lines of cells side by side have the marks of the cells. -/
theorem sum_marksIn_getD_le (cells : List (List (List Char))) (height : ℕ) :
    ((List.range height).map fun i => marksIn (cells.map fun lines => (lines[i]?).getD [])).sum ≤
      (cells.map marksIn).sum := by
  induction cells with
  | nil => simp [marksIn]
  | cons lines cells ih =>
    simp only [List.map_cons, marksIn_cons, List.sum_map_add, List.sum_cons]
    exact Nat.add_le_add (sum_marks_getD_le lines height) ih

/-- The lines of a row have no more marks than its texts. -/
theorem marksIn_rowLines_le {edges : Edges} (hedges : edges.AreStrokes) (atBottom : Bool)
    (widths : List ℕ) (row : List (List Char)) :
    marksIn (rowLines edges atBottom widths row) ≤ marksIn row := by
  -- Where there are more texts than columns, the last texts are left out: hence only `≤`.
  have hcells : ∀ height, ((widths.zip row).map fun c =>
      marksIn (fillUp atBottom height c.1 (cellLines c.1 c.2))).sum ≤ marksIn row := by
    intro height
    induction row generalizing widths with
    | nil => simp
    | cons cs row ih =>
      cases widths with
      | nil => simp
      | cons width widths =>
        rw [List.zip_cons_cons, List.map_cons, List.sum_cons, marksIn_fillUp, marksIn_cons]
        exact Nat.add_le_add (marksIn_cellLines_le width cs) (ih widths)
  rw [rowLines, marksIn, List.map_map]
  simp only [Function.comp_def, marks_joinCells hedges]
  refine (sum_marksIn_getD_le _ _).trans ?_
  rw [List.map_map, List.map_map]
  exact hcells _

/-- The lines between rows have no marks. -/
theorem marksIn_framed (widths : List ℕ) (head body : List (List Char)) :
    marksIn (rule ⟨'┏', '┳', '┓'⟩ '━' widths :: head ++ [rule ⟨'┡', '╇', '┩'⟩ '━' widths] ++ body ++
      [rule ⟨'└', '┴', '┘'⟩ '─' widths]) = marksIn head + marksIn body := by
  simp only [marksIn_append, marksIn_cons, List.cons_append]
  rw [marks_rule (by decide) (by decide), marks_rule (by decide) (by decide),
    marks_rule (by decide) (by decide)]
  simp [marksIn]

/-- A table has no more marks than its texts, however wide it is. -/
theorem marksIn_tableLines_le (width : ℕ) (columns : List (List Char)) (rows : List (List (List Char))) :
    marksIn (tableLines width columns rows) ≤ marksIn (columns ++ rows.flatten) := by
  have hrows : ∀ widths, marksIn (rows.flatMap (rowLines ⟨'│', '│', '│'⟩ false widths)) ≤
      marksIn rows.flatten := by
    intro widths
    induction rows with
    | nil => exact le_refl _
    | cons row rows ih =>
      rw [List.flatMap_cons, List.flatten_cons, marksIn_append, marksIn_append]
      exact Nat.add_le_add (marksIn_rowLines_le (by decide) false widths row) ih
  rw [tableLines, marksIn_framed, marksIn_append]
  exact Nat.add_le_add (marksIn_rowLines_le (by decide) true _ columns) (hrows _)

/-- What the screen cuts off takes its marks with it. -/
theorem marksIn_map_cutAtScreen_le (width : ℕ) (lines : List (List Char)) :
    marksIn (lines.map (cutAtScreen width)) ≤ marksIn lines := by
  induction lines with
  | nil => exact le_refl _
  | cons line lines ih =>
    have hcut : marks (cutAtScreen width line) ≤ marks line := by
      rw [cutAtScreen]
      split
      · exact le_refl _
      · exact Text.countP_fitCells_le (by decide) width line
    rw [List.map_cons, marksIn_cons, marksIn_cons]
    exact Nat.add_le_add hcut ih

theorem marks_flatMap_newline (lines : List (List Char)) :
    marks (lines.flatMap (· ++ ['\n'])) = marksIn lines := by
  have hnewline : isMark '\n' = false := by decide
  induction lines with
  | nil => rfl
  | cons line lines ih => simp [ih, hnewline]

/-! ### The marks of a drawing -/

theorem marks_boxed (width : ℕ) (cs : List Char) : marks (boxed width cs) = marks cs := by
  have hblank : isMark ' ' = false := by decide
  have hblanks : marks (List.replicate (width - padding - cs.length) ' ') = 0 :=
    Text.countP_blanks hblank _
  simp [boxed, hblank, hblanks]

theorem marksIn_boxed (h : widths.length = row.length) :
    marksIn (List.zipWith boxed widths row) = marksIn row := by
  induction row generalizing widths with
  | nil => rw [List.zipWith_nil_right]
  | cons cs row ih =>
    obtain ⟨width, widths, rfl⟩ := List.exists_cons_of_length_eq_add_one h
    rw [List.zipWith_cons_cons, marksIn_cons, marksIn_cons, marks_boxed, ih (Nat.succ.inj h)]

theorem marks_drawnRow {edges : Edges} (hedges : edges.AreStrokes) (h : widths.length = row.length) :
    marks (drawnRow edges widths row) = marksIn row := by
  rw [drawnRow, marks_joinCells hedges, marksIn_boxed h]

/-- A drawing has the marks of its texts. -/
theorem marksIn_drawing (h : ∀ row ∈ rows, row.length = columns.length) :
    marksIn (drawing columns rows) = marksIn (columns ++ rows.flatten) := by
  have hwidths := length_naturalWidths columns rows
  have hhead : marksIn [drawnRow ⟨'┃', '┃', '┃'⟩ (naturalWidths columns rows) columns] =
      marksIn columns := by
    rw [marksIn_cons, marks_drawnRow (by decide) hwidths]
    rfl
  have hbody : marksIn (rows.map (drawnRow ⟨'│', '│', '│'⟩ (naturalWidths columns rows))) =
      marksIn rows.flatten := by
    rw [marksIn, List.map_map, ← List.flatMap_id', marksIn_flatMap]
    refine congrArg List.sum (List.map_congr_left fun row hrow => ?_)
    exact marks_drawnRow (by decide) (hwidths.trans (h row hrow).symm)
  rw [drawing, marksIn_framed, marksIn_append, hhead, hbody]

end ApiShell.Output.Frame
