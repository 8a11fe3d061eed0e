import ApiShell.Fault
import ApiShell.Text.Split

/-!
# Early options

The configuration and the amount of logging have to be known before there are any commands, and so
before a command line can be understood.  They are looked for among all its words up to two hyphens; the
last one found counts.
-/

namespace ApiShell.Program

/-- What a command line says about the configuration and the logging. -/
structure EarlyOptions where
  config : Option String := none
  isVerbose : Bool := false
  logLevel : String := "info"
deriving DecidableEq, Repr

namespace EarlyOptions

/-- The text behind an option and its equals sign. -/
def attached? (option word : String) : Option String :=
  (Text.dropStart? (option ++ "=").toList word.toList).map String.ofList

/-- Look at one word and the word behind it. -/
def look (found : EarlyOptions) (word : String) (next : Option String) : EarlyOptions :=
  if ["--config", "-c"].contains word && next.isSome then { found with config := next }
  else if let some value := attached? "--config" word then { found with config := some value }
  else if ["--log-level", "-l"].contains word && next.isSome then
    { found with logLevel := next.getD found.logLevel }
  else if let some value := attached? "--log-level" word then { found with logLevel := value }
  else if ["--verbose", "-v"].contains word then { found with isVerbose := true }
  else found

/-- Look at words, with what was found before them. -/
def scanFrom (found : EarlyOptions) : List String → EarlyOptions
  | [] => found
  | word :: words =>
    if word = "--" then found else scanFrom (found.look word words.head?) words

/-- What the words of a command line say. -/
def scan (words : List String) : EarlyOptions := scanFrom {} words

end EarlyOptions

end ApiShell.Program
