import ApiShell.Encoding.Percent
import ApiShell.Entries
import ApiShell.Fault

/-!
# Path templates

A path template is literal text with placeholders `{name}` in it.  A placeholder holds no braces, so of
nested braces the innermost pair counts; braces that belong to no placeholder are literal text.
Substitution puts the percent-encoded value of each name in the place of its placeholder, once.
-/

namespace ApiShell.Request

/-- A piece of a template. -/
inductive Piece where
  | literal (c : Char)
  | placeholder (name : List Char)
deriving DecidableEq, Repr

/-- The name of a placeholder that starts behind an opening brace, and what follows the placeholder. -/
def takeName (cs : List Char) : Option (List Char × List Char) :=
  let name := cs.takeWhile fun c => c != '{' && c != '}'
  match name, cs.drop name.length with
  | [], _ => none
  | name, '}' :: rest => some (name, rest)
  | _, _ => none

theorem takeName_length {cs name rest : List Char} (h : takeName cs = some (name, rest)) :
    rest.length < cs.length := by
  unfold takeName at h
  dsimp only at h
  split at h
  · cases h
  · rename_i hdrop _
    cases h
    have := congrArg List.length hdrop
    simp only [List.length_drop, List.length_cons] at this
    omega
  · cases h

/-- The pieces of a template. -/
def pieces (cs : List Char) : List Piece :=
  match cs with
  | [] => []
  | '{' :: rest =>
    match h : takeName rest with
    | some (name, after) =>
      have := takeName_length h
      .placeholder name :: pieces after
    | none => .literal '{' :: pieces rest
  | c :: rest => .literal c :: pieces rest
termination_by cs.length

/-- Put values into the pieces of a template. -/
def fill (template : String) (values : List (String × String)) :
    List Piece → Except RequestError (List Char)
  | [] => .ok []
  | .literal c :: ps => (fill template values ps).map (c :: ·)
  | .placeholder name :: ps =>
    match Entries.get? values (String.ofList name) with
    | none => .error (.unboundPlaceholder (String.ofList name) template)
    | some value => (fill template values ps).map (Percent.encodeAll value.toList ++ ·)

/-- Put values into a template. -/
def substitute (template : String) (values : List (String × String)) :
    Except RequestError String :=
  (fill template values (pieces template.toList)).map String.ofList

end ApiShell.Request
