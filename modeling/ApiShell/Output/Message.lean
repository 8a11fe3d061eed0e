import ApiShell.Host.Basic
import ApiShell.Markup.Basic
import ApiShell.Text.Digit
import ApiShell.Text.Wrap

/-!
# Messages to the user

What a command says apart from its output: notes and signs of success, which the user may silence,
warnings and errors, and details that are shown on request.  Where colours are wanted, messages go
through the markup of the screen and are wrapped at its width.
-/

namespace ApiShell.Output

/-- The kinds of messages. -/
inductive Tone where
  | note
  | success
  | warning
  | error
  | detail
deriving DecidableEq, Repr

namespace Tone

/-- What a message of the kind starts with. -/
def label : Tone → String
  | note | success => ""
  | warning => "Warning:"
  | error => "Error:"
  | detail => "[debug]"

/-- The style of a message or its label. -/
def style : Tone → String
  | note => ""
  | success => "green"
  | warning => "yellow"
  | error => "bold red"
  | detail => "dim"

end Tone

/-- How messages are shown. -/
structure Voice where
  /-- Messages are printed as they are, without markup. -/
  isPlain : Bool
  isQuiet : Bool
  isVerbose : Bool
  width : Nat
deriving DecidableEq, Repr

namespace Voice

/-- The environment asks for output without colours. -/
def forbidsColour (host : Host) : Bool :=
  (host.value? "NO_COLOR").isSome || host.value? "TERM" == some "dumb"

/-- The width at which messages are wrapped where the environment does not tell. -/
def defaultWidth : Nat := 80

/-- The voice in an environment. -/
def make (host : Host) (noColour isQuiet isVerbose : Bool) : Voice :=
  let columns := (host.valueOf "COLUMNS").toList
  let width := if columns.isEmpty then none else Text.decimalValue? columns
  ⟨noColour || forbidsColour host, isQuiet, isVerbose, width.getD defaultWidth⟩

/-- Whether messages of a kind are shown. -/
def shows (voice : Voice) : Tone → Bool
  | .note | .success => !voice.isQuiet
  | .detail => voice.isVerbose
  | .warning | .error => true

/-- A marked-up text on the screen. -/
def screenText (voice : Voice) (s : String) : String :=
  match Markup.plainText s with
  | .ok cs => String.ofList ((Text.wrap .fold voice.width cs).flatMap (· ++ ['\n']))
  | .error _ => ""

/-- A message as it is written, line break included; nothing if it is not shown. -/
def say (voice : Voice) (tone : Tone) (message : String) : String :=
  if !voice.shows tone then ""
  else if voice.isPlain then
    (if tone.label.isEmpty then message else tone.label ++ " " ++ message) ++ "\n"
  else
    let styled (s : String) : String :=
      if tone.style.isEmpty then Markup.escape s
      else "[" ++ tone.style ++ "]" ++ Markup.escape s ++ "[/" ++ tone.style ++ "]"
    voice.screenText
      (if tone.label.isEmpty then styled message else styled tone.label ++ " " ++ Markup.escape message)

end Voice

end ApiShell.Output
