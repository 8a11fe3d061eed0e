import ApiShell.Host.Basic
import ApiShell.Http.Exchange
import ApiShell.Spec.Content
import ApiShell.Text.Blank
import ApiShell.Text.Charset

/-!
# Loading a description

A description is fetched from the web, where redirections are followed, or read from a file.  The type of
the response or the ending of the file's name says which format to expect.
-/

namespace ApiShell.Spec

open Http (Server Talk Sent)

/-- How many redirections are followed. -/
def maxRedirects : Nat := 20

/-- Fetch an address; `left` redirections may still be followed. -/
def fetch (server : Server) (location : String) : Nat → Http.Url → Talk Http.Response
  | left, url => do
    let failed (reason : String) : Talk Http.Response :=
      Talk.stop (SpecError.fetchFailed location reason)
    match ← Talk.ask server ⟨"GET", url, [], []⟩ with
    | .silence reason | .broken reason => failed reason
    | .misdirected => Talk.stop Defect.invalidUrl
    | .response r =>
      match (r.location?).map url.redirect with
      | none => return r
      | some (.error (.location problem)) => failed (Http.badLocationText problem)
      | some (.error (.target _)) => Talk.stop Defect.invalidUrl
      | some (.ok target) => match left with
        | 0 => failed "Exceeded maximum allowed redirects."
        | left + 1 => fetch server location left target

/-- A text has another one in it. -/
def contains (s part : String) : Bool :=
  let rec go : List Char → Bool
    | [] => part.isEmpty
    | c :: cs => (Text.dropStart? part.toList (c :: cs)).isSome || go cs
  go s.toList

/-- The format that the type of a response says to expect. -/
def hintOfType (contentType : String) : Hint :=
  if contains contentType "json" then .json
  else if contains contentType "yaml" || contains contentType "yml" then .yaml
  else .either

/-- The format that the ending of a name says to expect. -/
def hintOfSuffix (suffix : String) : Hint :=
  match Text.lower suffix with
  | ".json" => .json
  | ".yaml" | ".yml" => .yaml
  | _ => .either

/-- The name of the character set that the type of a response gives. -/
def charsetName? (contentType : String) : Option (List Char) :=
  ((Text.splitAt ';' contentType.toList).drop 1).findSome? fun parameter => do
    let (name, value) ← Text.cutAt? '=' parameter
    if Text.lowerChars (Text.trimOf Text.isBlank name) == "charset".toList then
      return Text.trimOf (· == '"') (Text.trimOf Text.isBlank value)
    else none

/-- The text of a response in the character set that its type names; UTF-8 if it names none that is
known. -/
def responseText (contentType : String) (body : List UInt8) : String :=
  String.ofList ((((charsetName? contentType).bind Text.Charset.ofName?).getD .utf8).read body)

/-- Load a description from the web. -/
def loadUrl (server : Server) (location : String) : Talk Value := do
  let url ← Talk.ofExcept ((Http.Url.ofText location).mapError fun _ => .defect .invalidUrl)
  let r ← fetch server location maxRedirects url
  if r.status < 200 || 299 < r.status then
    Talk.stop (SpecError.httpStatus r.status location)
  let contentType := (Http.headerValue? r.headers "content-type").getD ""
  Talk.ofExcept (parseContent (responseText contentType r.body) (hintOfType contentType) location)

/-- Load a description from a file. -/
def loadFile (host : Host) (location : String) : Except Fault Value := do
  let path ← (host.expandUser (.ofText location)).mapError .defect
  if !(← (host.isFile path).mapError .defect) then throw (SpecError.fileNotFound location : Fault)
  match host.readText path with
  | .error fault => throw (SpecError.unreadableFile location fault.reason : Fault)
  | .ok none => throw (Defect.notUnicode : Fault)
  | .ok (some cs) =>
    if cs.all Text.isBlank then throw (SpecError.emptyFile location : Fault)
    parseContent (String.ofList cs) (hintOfSuffix path.suffix) location

/-- Load a description. -/
def load (host : Host) (server : Server) (location : String) : Talk Value :=
  if isUrl location then loadUrl server location else Talk.ofExcept (loadFile host location)

end ApiShell.Spec
