import ApiShell.Json.Reader
import ApiShell.Fault
import ApiShell.Text.Blank
import ApiShell.Text.Utf8
import ApiShell.Value

/-!
# Bodies and statuses of responses

The body of a response is read as JSON where it is JSON, else as text.  A status that is no success
becomes a failure that gives the status and, where there is one, the detail found in the body.
-/

namespace ApiShell.Response

/-- Read a body: null where it is empty, its JSON value, or its text. -/
def decodeBody (body : List UInt8) : Logger Value := do
  if body.isEmpty then return .null
  let text := String.ofList (Text.ofUtf8Lenient body)
  match Json.readText text with
  | .ok v => return v
  | .error _ =>
    record .debug "Response body is not JSON; using raw text"
    return .text text

/-- The keys under which bodies tell what went wrong. -/
def detailKeys : List String := ["message", "error", "detail"]

/-- The greatest length of a body that is shown as a detail. -/
def detailLength : Nat := 200

/-- What a body tells about a failure. -/
def errorDetail (data : Value) : String :=
  match data with
  | .mapping _ => (detailKeys.findSome? fun key => (data.getD key).text?).getD ""
  | .text s => String.ofList (s.toList.take detailLength)
  | _ => ""

/-- The status is a success. -/
def isSuccess (status : Int) : Bool := 200 ≤ status && status < 300

/-- Fail unless the status is a success. -/
def raiseForStatus (status : Int) (reason : String) (body : List UInt8) : Run Unit := do
  if isSuccess status then return
  let data ← (decodeBody body : Logger Value)
  let message := Text.trimRight s!"HTTP {status} {reason}"
  let detail := errorDetail data
  stop (Failure.status status (if detail = "" then message else s!"{message}: {detail}"))

end ApiShell.Response
