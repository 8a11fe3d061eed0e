import ApiShell.Text.Ranges

/-!
# Blanks

The blank characters of every script, and what is done with them: trimming them from the ends of a
text and cutting a text into the words between them.
-/

namespace ApiShell.Text

/-- Code points of blank characters. -/
def blankRanges : List (Nat × Nat) :=
  [(0x9, 0xD), (0x1C, 0x20), (0x85, 0x85), (0xA0, 0xA0), (0x1680, 0x1680), (0x2000, 0x200A),
   (0x2028, 0x2029), (0x202F, 0x202F), (0x205F, 0x205F), (0x3000, 0x3000)]

/-- Blank characters: spaces, tabs, line breaks and separators. -/
def isBlank (c : Char) : Bool := inRanges blankRanges c.toNat

theorem isBlank_of_isWhitespace {c : Char} (h : c.isWhitespace = true) : isBlank c = true := by
  simp only [Char.isWhitespace, Bool.or_eq_true, decide_eq_true_eq] at h
  rcases h with ((h | h) | h) | h <;> subst h <;> decide

/-- Drop the characters of a class from the front of a text. -/
def trimLeftOf (p : Char → Bool) (cs : List Char) : List Char := cs.dropWhile p

/-- Drop the characters of a class from the end of a text. -/
def trimRightOf (p : Char → Bool) (cs : List Char) : List Char := (cs.reverse.dropWhile p).reverse

/-- Drop the characters of a class from both ends of a text. -/
def trimOf (p : Char → Bool) (cs : List Char) : List Char := trimRightOf p (trimLeftOf p cs)

/-- Drop the blanks from both ends of a text. -/
def trim (s : String) : String := String.ofList (trimOf isBlank s.toList)

/-- Drop the blanks from the end of a text. -/
def trimRight (s : String) : String := String.ofList (trimRightOf isBlank s.toList)

/-- Collect the runs of characters of a class; `run` holds the current one in reverse. -/
def runsFrom (p : Char → Bool) (run : List Char) : List Char → List (List Char)
  | [] => if run.isEmpty then [] else [run.reverse]
  | c :: cs =>
    if p c then runsFrom p (c :: run) cs
    else if run.isEmpty then runsFrom p [] cs
    else run.reverse :: runsFrom p [] cs

/-- The maximal runs of characters of a class. -/
def runs (p : Char → Bool) (cs : List Char) : List (List Char) := runsFrom p [] cs

/-- The maximal runs of characters that are not blank. -/
def words (cs : List Char) : List (List Char) := runs (fun c => !isBlank c) cs

end ApiShell.Text
