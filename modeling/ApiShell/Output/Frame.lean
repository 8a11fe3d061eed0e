import ApiShell.Decimal.Binary
import ApiShell.Markup.Basic
import ApiShell.Output.Grid
import ApiShell.Text.Wrap

/-!
# Framed tables

A grid drawn with lines between its cells.  Columns are as wide as their widest cell where the screen
has room for that; else the widest columns give way first, and cells are wrapped.
-/

namespace ApiShell.Output.Frame

/-- The spaces before and after the text of a cell. -/
def padding : Nat := 2

/-- The widest line of a text. -/
def textWidth (cs : List Char) : Nat :=
  let isBreak (c : Char) : Bool :=
    ['\n', '\r', '\x0b', '\x0c', '\x1c', '\x1d', '\x1e', '\x85', '\u2028', '\u2029'].contains c
  ((Text.runs (fun c => !isBreak c) cs).map Text.cells).foldl max 0

/-- The width of a cell in a room of a width. -/
def cellWidth (room : Nat) (cs : List Char) : Nat :=
  if room ≤ padding then room else min room (textWidth cs + padding)

/-- The width of a column in a room of a width. -/
def columnWidth (room : Nat) (column : List (List Char)) : Nat :=
  (column.map (cellWidth room)).foldl max 0

/-- The width of columns side by side. -/
def totalWidth (widths : List Nat) : Nat := widths.foldl (· + ·) 0

/-- Take `excess` away from columns in equal shares; `shares` is the number of columns that still give
something, and a column gives no more than `limit` says. -/
def shrinkFrom (gives : Nat → Bool) (limit : Nat → Nat) (excess shares : Nat) : List Nat → List Nat
  | [] => []
  | w :: ws =>
    if gives w && 0 < shares then
      let part := min (limit w) (Decimal.roundHalfEven excess shares)
      (w - part) :: shrinkFrom gives limit (excess - part) (shares - 1) ws
    else w :: shrinkFrom gives limit excess shares ws

/-- Take `excess` away from the columns that give. -/
def shrink (gives : Nat → Bool) (limit : Nat → Nat) (excess : Nat) (widths : List Nat) : List Nat :=
  shrinkFrom gives limit excess (widths.countP gives) widths

/-- Narrow the widest columns, as long as they are wider than the next ones, to `room` in all. -/
def narrowWidest (room : Nat) : Nat → List Nat → List Nat
  | 0, widths => widths
  | steps + 1, widths =>
    if totalWidth widths ≤ room then widths
    else
      let widest := widths.foldl max 0
      let second := (widths.filter (· != widest)).foldl max 0
      if widest = second then widths
      else
        let excess := totalWidth widths - room
        let limit := min excess (widest - second)
        narrowWidest room steps (shrink (· == widest) (fun _ => limit) excess widths)

/-- The widths of columns in a room of a width. -/
def columnWidths (room : Nat) (columns : List (List (List Char))) : List Nat :=
  let wanted := columns.map fun column => max 1 (columnWidth room column)
  if totalWidth wanted ≤ room then wanted
  else
    let narrowed := narrowWidest room (totalWidth wanted - room) wanted
    let excess := totalWidth narrowed - room
    let narrowed := if 0 < excess then shrink (0 < ·) id excess narrowed else narrowed
    (narrowed.zip columns).map fun c => columnWidth c.1 c.2

/-- The lines of a cell of a width. -/
def cellLines (width : Nat) (cs : List Char) : List (List Char) :=
  if width ≤ padding then []
  else (Text.wrap .ellipsis (width - padding) cs).map fun line =>
    ' ' :: Text.fitCells (width - padding) line ++ [' ']

/-- Fill up a cell to a number of lines, above its text or below it. -/
def fillUp (atBottom : Bool) (height width : Nat) (lines : List (List Char)) : List (List Char) :=
  let blank := List.replicate (height - lines.length) (List.replicate width ' ')
  if atBottom then blank ++ lines else lines ++ blank

/-- The lines that frame cells: what stands left of them, between them and right of them. -/
structure Edges where
  left : Char
  between : Char
  right : Char

/-- A line of cells. -/
def joinCells (edges : Edges) (cells : List (List Char)) : List Char :=
  edges.left :: Text.joinWith [edges.between] cells ++ [edges.right]

/-- A line without cells. -/
def rule (edges : Edges) (stroke : Char) (widths : List Nat) : List Char :=
  joinCells edges (widths.map fun w => List.replicate w stroke)

/-- The lines of a row. -/
def rowLines (edges : Edges) (atBottom : Bool) (widths : List Nat) (row : List (List Char)) :
    List (List Char) :=
  let cells := (widths.zip row).map fun c => (c.1, cellLines c.1 c.2)
  let height := (cells.map (·.2.length)).foldl max 1
  let filled := cells.map fun c => fillUp atBottom height c.1 c.2
  (List.range height).map fun i => joinCells edges (filled.map fun lines => (lines[i]?).getD [])

/-- The lines of a table whose cells are shown as they are. -/
def tableLines (width : Nat) (columns : List (List Char)) (rows : List (List (List Char))) :
    List (List Char) :=
  let cellsOf (i : Nat) : List (List Char) := (columns :: rows).filterMap (·[i]?)
  let widths := columnWidths (width - (columns.length + 1)) ((List.range columns.length).map cellsOf)
  rule ⟨'┏', '┳', '┓'⟩ '━' widths ::
    rowLines ⟨'┃', '┃', '┃'⟩ true widths columns ++
    [rule ⟨'┡', '╇', '┩'⟩ '━' widths] ++
    rows.flatMap (rowLines ⟨'│', '│', '│'⟩ false widths) ++
    [rule ⟨'└', '┴', '┘'⟩ '─' widths]

/-- Cut a line where the screen ends. -/
def cutAtScreen (width : Nat) (line : List Char) : List Char :=
  if Text.cells line ≤ width then line else Text.fitCells width line

/-- A grid drawn on a screen of a width. -/
def write (width : Nat) (grid : Grid) : Except Defect String := do
  if grid.columns.isEmpty then return "\n"
  let columns ← grid.columns.mapM Markup.plainText
  let rows ← grid.rows.mapM fun row => row.mapM Markup.plainText
  let lines := (tableLines width columns rows).map (cutAtScreen width)
  return String.ofList (lines.flatMap (· ++ ['\n']))

end ApiShell.Output.Frame
