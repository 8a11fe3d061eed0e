import ApiShell.Text.Blank
import ApiShell.Text.CellWidth
import ApiShell.Text.Split

/-!
# Wrapping a text into lines

A text is laid out in lines of a given width.  Lines break between words; a word that no line can hold
is cut into pieces or loses its end, as the caller chooses.  Blanks stay at the end of the line they
stand on, as far as there is room.
-/

namespace ApiShell.Text

/-- What becomes of a word that is wider than a line. -/
inductive Overflow where
  /-- The word goes on in the next line. -/
  | fold
  /-- The word ends with a mark where the line ends. -/
  | ellipsis
deriving DecidableEq, Repr

/-- A text as words, each with the blanks behind it; the first one has those before it, too. -/
def spacedWords (cs : List Char) : List (List Char) :=
  let lead := cs.takeWhile isBlank
  let (words, rest) := (cs.dropWhile isBlank).foldr (fun c (words, word) =>
    if isBlank c then
      match word with
      | d :: _ => if isBlank d then (words, c :: word) else (word :: words, [c])
      | [] => (words, [c])
    else (words, c :: word)) ([], [])
  match rest :: words with
  | [] :: _ => []
  | word :: words => (lead ++ word) :: words
  | [] => []

/-- A word cut into pieces that are no wider than a line. -/
def foldWord (width : Nat) (piece : List Char) : List Char → List (List Char)
  | [] => [piece.reverse]
  | c :: cs =>
    if width < cells piece + charCells c then piece.reverse :: foldWord width [c] cs
    else foldWord width (c :: piece) cs

/-- Fill lines with words; `line` is the beginning of the current line. -/
def fillLines (overflow : Overflow) (width : Nat) (line : List Char) :
    List (List Char) → List (List Char)
  | [] => [line]
  | word :: words =>
    let bare := cells (trimRightOf isBlank word)
    if cells line + bare ≤ width then fillLines overflow width (line ++ word) words
    else
      let finished := if line.isEmpty then [] else [line]
      match overflow, decide (width < bare) with
      | .fold, true =>
        let parts := foldWord width [] word
        finished ++ parts.dropLast ++ fillLines overflow width (parts.getLast?.getD []) words
      | _, _ => finished ++ fillLines overflow width word words

/-- Drop blanks from the end of a line that has more characters than its width. -/
def dropExcess (width : Nat) (line : List Char) : List Char :=
  let blanks := line.length - (trimRightOf isBlank line).length
  line.take (line.length - min blanks (line.length - width))

/-- Cut a line that is wider than its width. -/
def cutLine (overflow : Overflow) (width : Nat) (line : List Char) : List Char :=
  if cells line ≤ width then line
  else match overflow with
    | .fold => fitCells width line
    | .ellipsis => fitCells (width - 1) line ++ ['…']

/-- The distance between two tab stops. -/
def tabStop : Nat := 8

/-- A line with spaces up to the next tab stop in the place of each tab; `column` is where it starts. -/
def expandTabs (column : Nat) : List Char → List Char
  | [] => []
  | c :: cs =>
    if c == '\t' then
      let n := tabStop - column % tabStop
      List.replicate n ' ' ++ expandTabs (column + n) cs
    else c :: expandTabs (column + charCells c) cs

/-- The lines of a text of one line. -/
def wrapLine (overflow : Overflow) (width : Nat) (cs : List Char) : List (List Char) :=
  let cs := expandTabs 0 cs
  let lines := match spacedWords cs with
    | [] => [cs]
    | words => fillLines overflow width [] words
  lines.map fun line => cutLine overflow width (dropExcess width line)

/-- The lines of a text. -/
def wrap (overflow : Overflow) (width : Nat) (cs : List Char) : List (List Char) :=
  (splitAt '\n' cs).flatMap (wrapLine overflow width)

end ApiShell.Text

/-!
### Indented texts

A text that was written with an indentation is shown without it.  The first line stands apart, because
it often follows a label; the other lines lose what all of them are indented by.  Empty lines at both
ends go away.
-/

namespace ApiShell.Text

/-- The distance between tab stops. -/
def tabWidth : Nat := 8

/-- Put spaces for tabs in a text that starts at a column; every line break starts again at zero. -/
def tabsToSpaces (column : Nat) : List Char → List Char
  | [] => []
  | c :: cs =>
    if c = '\t' then
      let gap := tabWidth - column % tabWidth
      List.replicate gap ' ' ++ tabsToSpaces (column + gap) cs
    else c :: tabsToSpaces (if c = '\n' || c = '\r' then 0 else column + 1) cs

/-- How far a line is indented; a blank line is not. -/
def indentation? (line : List Char) : Option Nat :=
  let body := line.dropWhile isBlank
  if body.isEmpty then none else some (line.length - body.length)

/-- Drop the empty lines at both ends. -/
def trimLines (lines : List (List Char)) : List (List Char) :=
  ((lines.dropWhile List.isEmpty).reverse.dropWhile List.isEmpty).reverse

/-- A text without its indentation. -/
def dedent (s : String) : String :=
  match splitAt '\n' (tabsToSpaces 0 s.toList) with
  | [] => ""
  | first :: rest =>
    let margin := (rest.filterMap indentation?).min?.getD 0
    String.ofList (joinWith ['\n']
      (trimLines (first.dropWhile isBlank :: rest.map (List.drop margin))))

end ApiShell.Text
