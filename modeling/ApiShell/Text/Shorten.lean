import ApiShell.Text.Blank
import ApiShell.Text.Split
import ApiShell.Text.WordChar

/-!
# Shortening a line

A line that is too long is cut after a whole piece and ends with `[...]`.  Pieces are the words, the
blanks between them, the parts of a word that hyphens join, and runs of hyphens used as a dash.
-/

namespace ApiShell.Text

/-- What a shortened line ends with. -/
def ellipsis : List Char := " [...]".toList

/-- A character after which a run of hyphens is a dash. -/
def isDashNeighbour (c : Char) : Bool :=
  isWordChar c || ['!', '"', '\'', '&', '.', ',', '?'].contains c

/-- The text goes on with a run of at least two hyphens and a word character behind it. -/
def startsDash (cs : List Char) : Bool :=
  2 ≤ (cs.takeWhile (· == '-')).length && match cs.dropWhile (· == '-') with
    | c :: _ => isWordChar c
    | [] => false

/-- A dash stands between what lies behind (the last character first) and ahead. -/
def isDashBetween (behind ahead : List Char) : Bool :=
  behind.head?.any isDashNeighbour && startsDash ahead

/-- A hyphen may be broken after: two letters stand on either side of it, in the second place perhaps
behind another hyphen.  `behind` is what precedes the hyphen, `ahead` what follows it. -/
def isHyphenBetween (behind ahead : List Char) : Bool :=
  let before := match behind with
    | b :: '-' :: a :: _ => isWordLetter a && isWordLetter b
    | b :: a :: _ => isWordLetter a && isWordLetter b
    | _ => false
  let after := match ahead with
    | c :: '-' :: d :: _ => isWordLetter c && isWordLetter d
    | c :: d :: _ => isWordLetter c && isWordLetter d
    | _ => false
  before && after

/-- Collect pieces; `piece` is the current one and `behind` all the text before, both in reverse. -/
def piecesFrom (behind piece : List Char) (cs : List Char) : List (List Char) :=
  match cs with
  | [] => if piece.isEmpty then [] else [piece.reverse]
  | c :: rest =>
    if piece.isEmpty then
      if isBlank c then [c] :: piecesFrom (c :: behind) [] rest
      else if isDashBetween behind (c :: rest) then
        let dash := c :: rest.takeWhile (· == '-')
        dash :: piecesFrom (dash.reverse ++ behind) [] (rest.dropWhile (· == '-'))
      else piecesFrom (c :: behind) [c] rest
    else if c == '-' && isHyphenBetween behind rest then
      (c :: piece).reverse :: piecesFrom (c :: behind) [] rest
    else if isBlank c || isDashBetween behind (c :: rest) then
      piece.reverse :: piecesFrom behind [] (c :: rest)
    else piecesFrom (c :: behind) (c :: piece) rest
termination_by (cs.length, piece.length)
decreasing_by
  · simp only [Prod.lex_def, List.length_cons]; omega
  · have := (List.dropWhile_suffix (l := rest) (· == '-')).length_le
    simp only [Prod.lex_def, List.length_cons]
    omega
  · simp only [Prod.lex_def, List.length_cons]; omega
  · simp only [Prod.lex_def, List.length_cons]; omega
  · have h := ‹¬piece.isEmpty = true›
    have : 0 < piece.length := by
      cases piece with
      | nil => exact absurd rfl h
      | cons => simp
    exact Prod.Lex.right _ this
  · simp only [Prod.lex_def, List.length_cons]; omega

/-- The pieces of a line. -/
def pieces (cs : List Char) : List (List Char) := piecesFrom [] [] cs

/-- Take pieces while they fit into `width`, and what is left. -/
def fitting (width : Nat) : List (List Char) → List (List Char) × List (List Char)
  | [] => ([], [])
  | p :: ps =>
    if p.length ≤ width then
      let (taken, left) := fitting (width - p.length) ps
      (p :: taken, left)
    else ([], p :: ps)

/-- The beginning of a piece that no line can hold: up to the last hyphen that fits, or as much as
fits. -/
def breakPiece (room : Nat) (piece : List Char) : List Char :=
  let start := piece.take room
  let upToHyphen := (start.reverse.dropWhile (· != '-')).reverse
  if piece.length > room && upToHyphen.dropLast.any (· != '-') then upToHyphen else start

/-- Drop pieces from the end until the ellipsis fits behind a piece that is not blank. -/
def withEllipsis (width : Nat) : List (List Char) → List Char
  | [] => ellipsis.dropWhile isBlank
  | last :: before =>
    let all := (last :: before).reverse.flatten
    if !last.all isBlank && all.length + ellipsis.length ≤ width then all ++ ellipsis
    else withEllipsis width before

/-- A line of words that is at most `width` long; pieces dropped from its end are replaced by an
ellipsis. -/
def shorten (width : Nat) (s : String) : String :=
  let line := joinWith [' '] (words s.toList)
  if line.length ≤ width then String.ofList line
  else
    let (taken, left) := fitting width (pieces line)
    let room := width - taken.flatten.length
    let broken := match left with
      | p :: _ => if p.length > width then [breakPiece room p] else []
      | [] => []
    let all := taken ++ broken
    let all := if all.getLast?.any (·.all isBlank) then all.dropLast else all
    String.ofList (withEllipsis width all.reverse)

end ApiShell.Text
