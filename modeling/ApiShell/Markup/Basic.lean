import ApiShell.Fault
import ApiShell.Markup.Pictogram
import ApiShell.Text.Split

/-!
# Marked-up text

Texts for the screen may hold tags in square brackets that switch a style on and off, and names of
pictures.  A backslash before a tag takes its meaning away.  Here the tags are taken out of a text, and
a text that is no markup is escaped so that it is shown as it is.
-/

namespace ApiShell.Markup

/-- A part of a marked-up text. -/
inductive Piece where
  /-- Characters without meaning. -/
  | plain (c : Char)
  /-- A tag and the number of backslashes before it. -/
  | tag (backslashes : Nat) (inner : List Char)

/-- The first character of a tag. -/
def startsTag (c : Char) : Bool := c.isLower || c == '#' || c == '/' || c == '@'

/-- The inside of the tag at the beginning of a text. -/
def tagAt? : List Char → Option (List Char)
  | '[' :: c :: cs =>
    if startsTag c then
      let more := cs.takeWhile fun d => d != ']' && d != '['
      if (cs.drop more.length).head? == some ']' then some (c :: more) else none
    else none
  | _ => none

/-- The parts of a marked-up text. -/
def pieces (cs : List Char) : List Piece :=
  match cs with
  | [] => []
  | c :: rest =>
    let backslashes := ((c :: rest).takeWhile (· == '\\')).length
    match tagAt? ((c :: rest).drop backslashes) with
    | some inner => .tag backslashes inner :: pieces (rest.drop (backslashes + inner.length + 1))
    | none => .plain c :: pieces rest
termination_by cs.length
decreasing_by all_goals simp; try omega

/-- The text of a tag. -/
def tagText (inner : List Char) : List Char := '[' :: inner ++ [']']

/-- A text with its tags escaped. -/
def escapePiece : Piece → List Char
  | .plain c => [c]
  | .tag backslashes inner => List.replicate (2 * backslashes + 1) '\\' ++ tagText inner

/-- Escape a text: it is shown as it is. -/
def escape (s : String) : String :=
  let cs := (pieces s.toList).flatMap escapePiece
  String.ofList (match cs.reverse with
    | '\\' :: '\\' :: _ => cs
    | '\\' :: _ => cs ++ ['\\']
    | _ => cs)

/-- Short names of style attributes. -/
def attributeNames : List (String × String) :=
  [("dim", "dim"), ("d", "dim"), ("bold", "bold"), ("b", "bold"), ("italic", "italic"),
   ("i", "italic"), ("underline", "underline"), ("u", "underline"), ("blink", "blink"),
   ("blink2", "blink2"), ("reverse", "reverse"), ("r", "reverse"), ("conceal", "conceal"),
   ("c", "conceal"), ("strike", "strike"), ("s", "strike"), ("underline2", "underline2"),
   ("uu", "underline2"), ("frame", "frame"), ("encircle", "encircle"), ("overline", "overline"),
   ("o", "overline")]

/-- The order in which the attributes of a style are named. -/
def attributeOrder : List String :=
  ["bold", "dim", "italic", "underline", "blink", "blink2", "reverse", "conceal", "strike",
   "underline2", "frame", "encircle", "overline"]

/-- Names of colours. -/
def colourNames : List String :=
  let plain := ["black", "red", "green", "yellow", "blue", "magenta", "cyan", "white"]
  "default" :: plain ++ plain.map ("bright_" ++ ·)

/-- A word names a colour. -/
def isColour (word : String) : Bool :=
  colourNames.contains word || match word.toList with
    | '#' :: ds => ds.length == 6 && ds.all fun d => d.isDigit || ('a' ≤ d && d ≤ 'f')
    | _ => false

/-- A style as its words say: attributes that are on or off, the colour and that of the background. -/
structure Style where
  attributes : List (String × Bool) := []
  colour : Option String := none
  background : Option String := none

/-- Read the words of a style. -/
def Style.ofWords (style : Style) : List String → Option Style
  | [] => some style
  | "on" :: word :: words =>
    if isColour word then { style with background := some word }.ofWords words else none
  | "not" :: word :: words => do
    let name ← (attributeNames.find? (·.1 == word)).map Prod.snd
    { style with attributes := style.attributes ++ [(name, false)] }.ofWords words
  | word :: words =>
    match attributeNames.find? (·.1 == word) with
    | some (_, name) => { style with attributes := style.attributes ++ [(name, true)] }.ofWords words
    | none => if isColour word then { style with colour := some word }.ofWords words else none

/-- The one name of a style. -/
def Style.name (style : Style) : String :=
  let attributes := attributeOrder.filterMap fun name =>
    (style.attributes.reverse.find? (·.1 == name)).map fun a => if a.2 then name else "not " ++ name
  let all := attributes ++ style.colour.toList ++ (style.background.map ("on " ++ ·)).toList
  if all.isEmpty then "none" else Text.join " " all

/-- The one name under which a tag is known. -/
def normalName (name : List Char) : String :=
  let trimmed := Text.lowerChars (Text.trimOf Text.isBlank name)
  match Style.ofWords {} ((Text.words trimmed).map String.ofList) with
  | some style => style.name
  | none => String.ofList trimmed

/-- A character that the screen would not show but obey. -/
def isControl (c : Char) : Bool := ['\x07', '\x08', '\x0b', '\x0c', '\r'].contains c

/-- Take an opening tag from the open ones. -/
def closeTag (name : String) : List String → Option (List String)
  | [] => none
  | tag :: tags => if tag == name then some tags else (closeTag name tags).map (tag :: ·)

/-- The shown text of a run of characters. -/
def shownRun (run : List Char) : List Char := (drawPictograms run).filter fun c => !isControl c

/-- Drop the backslash before an opening bracket. -/
def dropBracketEscapes : List Char → List Char
  | '\\' :: '[' :: cs => '[' :: dropBracketEscapes cs
  | c :: cs => c :: dropBracketEscapes cs
  | [] => []

/-- The shown text of a run of plain characters. -/
def shownPlain (run : List Char) : List Char := shownRun (dropBracketEscapes run)

/-- The name of a tag: what stands before the equals sign. -/
def tagName (inner : List Char) : List Char := inner.takeWhile (· != '=')

/-- The shown text of the parts; `tags` are the open tags, the last one first, and `run` the plain
characters before the parts, in reverse. -/
def shown (tags : List String) (run : List Char) : List Piece → Except Defect (List Char)
  | [] => .ok (shownPlain run.reverse)
  | .plain c :: rest => shown tags (c :: run) rest
  | .tag backslashes inner :: rest => do
    let before := shownPlain run.reverse ++ List.replicate (backslashes / 2) '\\'
    if backslashes % 2 = 1 then
      return before ++ shownPlain (tagText inner) ++ (← shown tags [] rest)
    match tagName inner with
    | '/' :: name =>
      let tags ← match Text.trimOf Text.isBlank name, tags with
        | [], [] => throw .markup
        | [], _ :: tags => pure tags
        | name, tags => match closeTag (normalName name) tags with
          | some tags => pure tags
          | none => throw .markup
      return before ++ (← shown tags [] rest)
    | name => return before ++ (← shown (normalName name :: tags) [] rest)

/-- The text that a marked-up text shows. -/
def plainText (s : String) : Except Defect (List Char) :=
  let cs := s.toList
  if cs.contains '[' then shown [] [] (pieces cs) else .ok (shownRun cs)

end ApiShell.Markup
