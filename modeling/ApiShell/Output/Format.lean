import ApiShell.Decimal.Numeral
import ApiShell.Host.Basic
import ApiShell.Output.Frame
import ApiShell.Output.Grid
import ApiShell.Text.Lower
import ApiShell.Yaml.Writer

/-!
# Output formats

The five ways to show a response.
-/

namespace ApiShell.Output

/-- A way to show a response. -/
inductive Format where
  | json
  | yaml
  | csv
  | text
  | table
deriving DecidableEq, Repr

namespace Format

/-- All formats. -/
def all : List Format := [json, yaml, csv, text, table]

/-- The name of a format. -/
def name : Format → String
  | json => "json"
  | yaml => "yaml"
  | csv => "csv"
  | text => "text"
  | table => "table"

/-- The format of a name in any case. -/
def ofName (s : String) : Except Failure Format :=
  match all.find? (·.name == Text.lower s) with
  | some f => .ok f
  | none => .error (.unsupportedFormat s (all.map name))

/-- End a text with a line break. -/
def endLine (s : String) : String :=
  if s.toList.getLast? == some '\n' then s else s ++ "\n"

/-- A response shown on a screen of a width. -/
def write (width : Nat) (v : Value) : Format → Except Defect String
  | json => do
    let s ← (Json.pretty.write v).mapError fun _ => .wrongKind
    return s ++ "\n"
  | yaml => .ok (Yaml.write true v)
  | csv => do return Csv.write (← Grid.ofValue v)
  | text => .ok (endLine (if v.isNull then "" else v.display))
  | table => do Frame.write width (← Grid.ofValue v)

end Format

/-- The width of a screen that does not tell. -/
def defaultWidth : Nat := 120

/-- The width of the screen, as the environment tells. -/
def screenWidth (columns : String) : Nat :=
  match Decimal.integer? 10 columns.toList with
  | some n => if 0 < n then n.toNat else defaultWidth
  | none => defaultWidth

end ApiShell.Output

/-!
### Where output goes

A response goes to a file, or to the output of the program as a whole number of lines.
-/

namespace ApiShell.Output

/-- Save a response to a file. -/
def save (host : Host) (file : String) (payload : List UInt8) : Run Host := do
  let path ← match host.expandUser (Host.Path.ofText file) with
    | .ok p => pure p
    | .error d => stop d
  if Host.hasZero path then stop Host.zeroDefect
  match host.write path payload with
  | .error e => stop (Defect.file e)
  | .ok host =>
    note .info s!"Output written to {path.text}"
    return host

end ApiShell.Output
