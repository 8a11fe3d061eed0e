/-!
# Cutting and joining texts

A text is cut at every occurrence of one character, or once at the first one, and pieces are joined
with a separator between them.  Cutting and joining at the same character undo each other.
-/

namespace ApiShell.Text

/-- Cut a text at every occurrence of `sep`; the pieces may be empty and there is at least one. -/
def splitAt (sep : Char) : List Char → List (List Char)
  | [] => [[]]
  | c :: cs =>
    if c = sep then [] :: splitAt sep cs
    else match splitAt sep cs with
      | [] => [[c]]
      | piece :: pieces => (c :: piece) :: pieces

/-- Join pieces, with `sep` between each two of them. -/
def joinWith (sep : List Char) : List (List Char) → List Char
  | [] => []
  | [piece] => piece
  | piece :: pieces => piece ++ sep ++ joinWith sep pieces

theorem splitAt_ne_nil (sep : Char) (cs : List Char) : splitAt sep cs ≠ [] := by
  cases cs with
  | nil => simp [splitAt]
  | cons c cs =>
    simp only [splitAt]
    split
    · simp
    · split <;> simp

/-- Joining the pieces of a text gives the text back. -/
theorem joinWith_splitAt (sep : Char) (cs : List Char) :
    joinWith [sep] (splitAt sep cs) = cs := by
  induction cs with
  | nil => rfl
  | cons c cs ih =>
    simp only [splitAt]
    split
    · rename_i h
      cases hs : splitAt sep cs with
      | nil => exact absurd hs (splitAt_ne_nil sep cs)
      | cons p ps => rw [hs] at ih; simp [joinWith, ih, h]
    · cases hs : splitAt sep cs with
      | nil => exact absurd hs (splitAt_ne_nil sep cs)
      | cons p ps =>
        rw [hs] at ih
        cases ps with
        | nil => simpa [joinWith] using ih
        | cons q qs => simpa [joinWith] using ih

/-- The parts of a text before and after the first occurrence of `sep`, if there is one. -/
def cutAt? (sep : Char) : List Char → Option (List Char × List Char)
  | [] => none
  | c :: cs => if c = sep then some ([], cs) else (cutAt? sep cs).map fun r => (c :: r.1, r.2)

/-- Cutting finds the first separator: nothing is lost and none stands before it. -/
theorem cutAt?_eq_some {sep : Char} {cs before after : List Char}
    (h : cutAt? sep cs = some (before, after)) : cs = before ++ sep :: after ∧ sep ∉ before := by
  induction cs generalizing before with
  | nil => simp [cutAt?] at h
  | cons c cs ih =>
    simp only [cutAt?] at h
    split at h
    · rename_i hc
      cases h
      simp [hc]
    · rename_i hc
      obtain ⟨⟨b, a⟩, hb, he⟩ := Option.map_eq_some_iff.1 h
      cases he
      obtain ⟨h1, h2⟩ := ih hb
      exact ⟨by simp [h1], by simp [h2, Ne.symm hc]⟩

/-- The text `cs` starts with `start`, and what follows it. -/
def dropStart? : List Char → List Char → Option (List Char)
  | [], cs => some cs
  | _ :: _, [] => none
  | s :: start, c :: cs => if s = c then dropStart? start cs else none

/-- What follows the start of a text is the rest of it. -/
theorem dropStart?_eq_some_iff {start cs rest : List Char} :
    dropStart? start cs = some rest ↔ cs = start ++ rest := by
  induction start generalizing cs with
  | nil => simp [dropStart?]
  | cons s start ih =>
    cases cs with
    | nil => simp [dropStart?]
    | cons c cs =>
      rw [dropStart?, List.cons_append, List.cons.injEq]
      split
      · rename_i hc
        simp [hc, ih]
      · rename_i hc
        simp [Ne.symm hc]

/-- Join texts, with `sep` between each two of them. -/
def join (sep : String) (pieces : List String) : String :=
  String.ofList (joinWith sep.toList (pieces.map String.toList))

/-- Cut a text at every occurrence of `sep`. -/
def split (sep : Char) (s : String) : List String := (splitAt sep s.toList).map String.ofList

/-- The parts of a text before and after the first occurrence of `sep`. -/
def cut? (sep : Char) (s : String) : Option (String × String) :=
  (cutAt? sep s.toList).map fun r => (String.ofList r.1, String.ofList r.2)

/-- Whether a text starts with another one. -/
def startsWith (s start : String) : Bool := (dropStart? start.toList s.toList).isSome

end ApiShell.Text

/-!
### Line breaks

Texts come from systems that end their lines in different ways.  Inside the library a line ends with a
line feed alone.
-/

namespace ApiShell.Text

/-- Line breaks of other systems as those of this one. -/
def plainBreaks : List Char → List Char
  | '\r' :: '\n' :: cs => '\n' :: plainBreaks cs
  | '\r' :: cs => '\n' :: plainBreaks cs
  | c :: cs => c :: plainBreaks cs
  | [] => []

end ApiShell.Text
