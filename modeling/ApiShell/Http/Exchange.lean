import ApiShell.Fault
import ApiShell.Http.Url

/-!
# Requests on the wire and replies

A server is what it replies to a request after the requests before it.  Computations that talk to a
server remember the requests that they have sent.
-/

namespace ApiShell.Http

/-- A request as it is sent.  The names of its headers are in lower case. -/
structure Sent where
  method : String
  url : Url
  headers : List (String × String)
  body : List UInt8

/-- A response as it arrives.  The names of its headers are in lower case. -/
structure Response where
  status : Nat
  reason : String
  headers : List (String × String)
  body : List UInt8
deriving DecidableEq

/-- What comes back. -/
inductive Reply where
  | response (r : Response)
  /-- Nothing arrived in time. -/
  | silence (reason : String)
  /-- The connection failed. -/
  | broken (reason : String)
  /-- The address proved to be of no use. -/
  | misdirected

/-- A server, as seen by one client. -/
abbrev Server := List Sent → Sent → Reply

/-- Computations that send requests, write log records and may end early. -/
abbrev Talk := ExceptT Fault (StateT (List Sent) Logger)

namespace Talk

/-- A computation that sends nothing. -/
def ofRun {α : Type} (r : Run α) : Talk α := ExceptT.mk (StateT.lift r.run)

/-- A step that may end the computation. -/
def ofExcept {α : Type} (e : Except Fault α) : Talk α := ExceptT.mk (pure e)

/-- End the computation. -/
def stop {α : Type} (fault : Fault) : Talk α := ofExcept (.error fault)

/-- Write a log record. -/
def note (level : Level) (message : String) : Talk Unit := ofRun (ApiShell.note level message)

/-- Send a request. -/
def ask (server : Server) (request : Sent) : Talk Reply :=
  ExceptT.mk fun before => pure (.ok (server before request), before ++ [request])

end Talk

/-- The value of a header, if it is there. -/
def headerValue? (headers : List (String × String)) (name : String) : Option String :=
  (headers.find? (·.1 == name)).map Prod.snd

/-- Put a header in the place of all of its name. -/
def putHeader (headers : List (String × String)) (name value : String) : List (String × String) :=
  headers.filter (·.1 != name) ++ [(name, value)]

/-- Add a header unless there is one of its name. -/
def addHeader (headers : List (String × String)) (name value : String) : List (String × String) :=
  if (headerValue? headers name).isSome then headers else headers ++ [(name, value)]

/-- The headers of a response: names in lower case, and values of one name joined. -/
def responseHeaders (headers : List (String × String)) : List (String × String) :=
  headers.foldl (fun known h =>
    let name := Text.lower h.1
    if known.any (·.1 == name) then
      known.map fun k => if k.1 == name then (name, k.2 ++ ", " ++ h.2) else k
    else known ++ [(name, h.2)]) []

/-- A response with its headers as they are read, and the length of a body that is not empty. -/
def Response.make (status : Nat) (reason : String) (headers : List (String × String))
    (body : List UInt8) : Response :=
  let headers := responseHeaders headers
  ⟨status, reason,
    if body.isEmpty then headers else addHeader headers "content-length" (Nat.repr body.length), body⟩

/-- The statuses that send a client elsewhere. -/
def redirectStatuses : List Nat := [301, 302, 303, 307, 308]

/-- Where a response sends the client. -/
def Response.location? (r : Response) : Option String :=
  if redirectStatuses.contains r.status then headerValue? r.headers "location" else none

/-- The text of a bad location. -/
def badLocationText (problem : UrlProblem) : String :=
  s!"Invalid URL in location header: {problem.message}."

end ApiShell.Http
