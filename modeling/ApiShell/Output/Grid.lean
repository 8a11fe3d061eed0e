import ApiShell.Fault
import ApiShell.Json.Writer

/-!
# Rows and columns

Responses that are shown row by row.  The items of a list are the rows, anything else is one row.  The
fields of the items are the columns, in the order in which they are first seen; an item that is no
mapping has a single field.
-/

namespace ApiShell.Output

/-- Rows of cells under named columns. -/
structure Grid where
  columns : List String
  rows : List (List String)
deriving DecidableEq, Repr

/-- The column of the items that are no mappings. -/
def valueColumn : String := "value"

/-- The items of a response. -/
def itemsOf : Value → List Value
  | .list items => items
  | v => [v]

/-- An item as a mapping. -/
def fieldsOf : Value → List (Scalar × Value)
  | .mapping fields => fields
  | v => [(.text valueColumn, v)]

/-- Add the column of a key, once for a text key. -/
def addColumn (columns : List String) : Scalar → List String
  | .text s => if columns.contains s then columns else columns ++ [s]
  | k => columns ++ [k.display]

/-- The columns of the items. -/
def columnsOf (items : List Value) : List String :=
  (items.flatMap fun item => (fieldsOf item).map Prod.fst).foldl addColumn []

/-- The text of a cell: nothing for null, JSON for lists and mappings. -/
def cellText : Value → Except Defect String
  | .null => .ok ""
  | .list items => (Json.displayLine.write (.list items)).mapError fun _ => .wrongKind
  | .mapping fields => (Json.displayLine.write (.mapping fields)).mapError fun _ => .wrongKind
  | v => .ok v.display

/-- The cells of an item. -/
def cellsOf (columns : List String) (item : Value) : Except Defect (List String) :=
  columns.mapM fun column => cellText ((Value.field? (fieldsOf item) column).getD .null)

/-- The rows and columns of a response. -/
def Grid.ofValue (v : Value) : Except Defect Grid := do
  let items := itemsOf v
  let columns := columnsOf items
  return ⟨columns, ← items.mapM (cellsOf columns)⟩

end ApiShell.Output

/-!
### Separated values

Rows as lines of cells with commas between them.  A cell that holds a comma, a quote or a line feed is
quoted, and a quote within it is written twice.  A line of one empty cell is quoted as well, so that it
differs from a line without cells.
-/

namespace ApiShell.Output.Csv

/-- A character because of which a cell is quoted. -/
def needsQuotes (c : Char) : Bool := c == ',' || c == '"' || c == '\n'

/-- The inside of a quoted cell. -/
def doubleQuotes (cs : List Char) : List Char := cs.flatMap fun c => if c = '"' then ['"', '"'] else [c]

/-- A cell as it is written. -/
def cell (cs : List Char) : List Char :=
  if cs.any needsQuotes then '"' :: doubleQuotes cs ++ ['"'] else cs

/-- A line of cells. -/
def line (cells : List (List Char)) : List Char :=
  match cells with
  | [[]] => ['"', '"', '\n']
  | _ => Text.joinWith [','] (cells.map cell) ++ ['\n']

/-- A grid with its columns in the first line. -/
def write (grid : Grid) : String :=
  String.ofList ((grid.columns :: grid.rows).flatMap fun cells => line (cells.map String.toList))

end ApiShell.Output.Csv
