import ApiShell.Encoding.Base64
import ApiShell.Http.Exchange
import ApiShell.Http.Multipart

/-!
# Sending a request

A request descriptor becomes a request on the wire: the address with the query pairs, the headers of the
client under those of the descriptor, and the body in its sent form.  Redirections are reported and not
followed.
-/

namespace ApiShell.Http

open Request (Descriptor Body)

/-- How a client sends requests. -/
structure Client where
  /-- How long to wait for a response, in seconds. -/
  timeout : Float
  /-- The boundary between the parts of a form. -/
  boundary : String
  /-- How long an exchange takes, in thousandths of a second. -/
  elapsed : Nat

/-- How long to wait for a response unless told otherwise. -/
def defaultTimeout : Float := 30.0

/-- What the client accepts unless the request says otherwise. -/
def clientHeaders : List (String × String) := [("accept", "*/*")]

/-- A text that may stand in a header. -/
def asciiText (s : String) : Except Defect String :=
  if s.toList.all (·.toNat < 128) then .ok s else .error .notAscii

/-- The headers of a descriptor on the wire, put over those of the client. -/
def sentHeaders (headers : Request.Headers) : Except Defect (List (String × String)) :=
  headers.foldlM (fun sent h => do
    let name ← asciiText h.1
    return putHeader sent (Text.lower name) (← asciiText h.2)) clientHeaders

/-- A body on the wire and the headers that describe it. -/
def sentBody (boundary : String) (headers : List (String × String)) :
    Body → Except Defect (List UInt8 × List (String × String))
  | .none | .json .null => .ok ([], headers)
  | .json v =>
    match Json.compact.write v with
    | .error .special => .error (.badValue "Out of range float values are not JSON compliant")
    | .error _ => .error .wrongKind
    | .ok text =>
      let bytes := Text.utf8 text.toList
      .ok (bytes, addHeader (addHeader headers "content-length" (Nat.repr bytes.length))
        "content-type" "application/json")
  | .form fields files =>
    let boundary := ((headerValue? headers "content-type").bind boundaryOf?).getD boundary
    let bytes := multipart boundary fields files
    .ok (bytes, addHeader (addHeader headers "content-length" (Nat.repr bytes.length))
      "content-type" s!"multipart/form-data; boundary={boundary}")

/-- Methods whose requests say that they have no body. -/
def sayLength : List String := ["POST", "PUT", "PATCH"]

/-- The headers that every request has on the wire. -/
def frameHeaders (method : String) (url : Url) (headers : List (String × String)) :
    List (String × String) :=
  let headers :=
    if url.host.isEmpty then headers else addHeader headers "host" (String.ofList url.location)
  if sayLength.contains method && (headerValue? headers "transfer-encoding").isNone then
    addHeader headers "content-length" "0"
  else headers

/-- A part of the user information of an address, decoded. -/
def decodedText (cs : List Char) : List Char := Text.ofUtf8Lenient (Percent.decode cs)

/-- The credential in an address, if there is one, as a header in the place of any other. -/
def addressCredential (url : Url) (headers : List (String × String)) : List (String × String) :=
  let (user, word) := match Text.cutAt? ':' url.userInfo with
    | some (user, word) => (decodedText user, decodedText word)
    | none => (decodedText url.userInfo, [])
  if user.isEmpty && word.isEmpty then headers
  else
    let token := String.ofList (Base64.encode (Text.utf8 (user ++ ':' :: word)))
    putHeader headers "authorization" s!"Basic {token}"

/-- A descriptor on the wire. -/
def wire (boundary : String) (d : Descriptor) : Except Defect Sent := do
  let url ← ((Url.ofText d.url).bind Url.onServer).mapError fun _ => Defect.invalidUrl
  let headers ← sentHeaders d.headers
  let url ← (url.withQuery d.query).mapError fun _ => Defect.invalidUrl
  let (body, headers) ← sentBody boundary headers d.body
  let headers := addressCredential url (frameHeaders d.method.name url headers)
  return ⟨d.method.name, url, headers, body⟩

/-- Send a request and wait for its response. -/
def send (client : Client) (server : Server) (d : Descriptor) : Talk Response := do
  d.describe.forM (Talk.note .debug)
  let request ← Talk.ofExcept ((wire client.boundary d).mapError .defect)
  let failed (reason : String) : Talk Response :=
    Talk.stop (.failure (.connection (.failed d.url reason)))
  match ← Talk.ask server request with
  | .silence _ =>
    let seconds := String.ofList (Decimal.general client.timeout)
    Talk.stop (.failure (.connection (.timedOut d.url seconds)))
  | .broken reason => failed reason
  | .misdirected => Talk.stop Defect.invalidUrl
  | .response r =>
    match (r.location?).map request.url.redirect with
    | some (.error (.location problem)) => failed (badLocationText problem)
    | some (.error (.target _)) => Talk.stop Defect.invalidUrl
    | _ =>
      Talk.note .debug s!"Response: {r.status} {r.reason} in {client.elapsed} ms"
      r.headers.forM fun h => Talk.note .debug s!"  {h.1}: {h.2}"
      return r

end ApiShell.Http
