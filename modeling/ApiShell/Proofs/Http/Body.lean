import ApiShell.Proofs.Http.Sending
import ApiShell.Proofs.Json.RoundTrip
import ApiShell.Proofs.Request.Building
import ApiShell.Proofs.Request.Header
import ApiShell.Proofs.Run
import ApiShell.Proofs.Text.Utf8

/-!
# The body of a request

Data that is given to a request is a JSON value, and on the wire the body is the shortest text of this
value.  A value without infinities, and without values that are no numbers, always has such a text, so
its body does not keep a request from being sent, and the text is read as the value again.

Null is the exception (`bodyValue?_sent_iff`): it is sent as no body at all, and no body is not read as
any value.
-/

namespace ApiShell.Http

open Request (Descriptor Inputs parseData buildRequest buildBody)

/-- The JSON value that the bytes of a body are read as. -/
def bodyValue? (body : List UInt8) : Option Value :=
  (Text.ofUtf8? body).bind fun cs => (Json.readText (String.ofList cs)).toOption

/-- What is read from data is a tree. -/
theorem isTree_of_parseData {host : Host} {raw : String} {v : Value}
    (h : parseData host raw = .ok v) : v.IsTree := by
  have hjson {source text : String} (h : Request.parseJson source text = .ok v) : v.IsTree :=
    Json.isTree_of_readText (mapError_eq_ok_iff.1 h)
  unfold parseData at h
  split at h
  · obtain ⟨⟨path, content⟩, -, h⟩ := bind_eq_ok_iff.1 h
    dsimp only at h
    split at h
    · exact hjson h
    · cases h
  · exact hjson h

/-- Data that does not name a file is read as it is. -/
theorem parseData_eq_ok {host : Host} {raw : String} {v : Value} (hfile : raw.toList.head? ≠ some '@')
    (h : Json.readText raw = .ok v) : parseData host raw = .ok v := by
  unfold parseData
  split
  · next heq =>
    rw [heq] at hfile
    exact absurd rfl hfile
  · exact mapError_eq_ok_iff.2 h

/-- A tree without infinities has a shortest text, and this is read as the tree. -/
theorem readText_write_compact {v : Value} (hv : v.IsTree)
    (hfinite : ∀ x ∈ v.floats, (Decimal.dyadic? x).isSome = true) :
    ∃ text, Json.compact.write v = .ok text ∧ Json.readText text = .ok v :=
  Json.readText_write Json.isReadable_compact hv fun x hx =>
    Json.Style.readsBack_of_isSome Json.compact (hfinite x hx)

theorem bodyValue?_nil : bodyValue? [] = none := by
  with_unfolding_all rfl

theorem bodyValue?_utf8 {text : String} {v : Value} (h : Json.readText text = .ok v) :
    bodyValue? (Text.utf8 text.toList) = some v := by
  rw [bodyValue?, Text.ofUtf8?_utf8, Option.bind_some, String.ofList_toList, h]
  rfl

/-- The body of a value without infinities: it can be put on the wire, and it is read as the value,
unless the value is null, which is sent as no body. -/
theorem sentBody_json {v : Value} (hv : v.IsTree)
    (hfinite : ∀ x ∈ v.floats, (Decimal.dyadic? x).isSome = true) (boundary : String)
    (headers : List (String × String)) :
    ∃ body described, sentBody boundary headers (.json v) = .ok (body, described) ∧
      (v = .null → body = []) ∧ (v ≠ .null → bodyValue? body = some v) := by
  by_cases hnull : v = .null
  · subst hnull
    exact ⟨[], headers, rfl, fun _ => rfl, fun h => absurd rfl h⟩
  · obtain ⟨text, hwrite, hread⟩ := readText_write_compact hv hfinite
    refine ⟨Text.utf8 text.toList, addHeader (addHeader headers "content-length"
      (Nat.repr (Text.utf8 text.toList).length)) "content-type" "application/json", ?_,
      fun h => absurd h hnull, fun _ => bodyValue?_utf8 hread⟩
    rw [sentBody, hwrite]
    exact hnull

/-- The data that is given becomes the body when no form is given. -/
theorem buildBody_eq_json {host : Host} {inputs : Inputs} {raw : String} {v : Value}
    (hforms : inputs.forms = []) (hdata : inputs.data = some raw)
    (hraw : parseData host raw = .ok v) : buildBody host inputs = .ok (.json v) := by
  unfold buildBody
  rw [hforms, hdata]
  dsimp only
  rw [hraw]
  rfl

/-- **The body that is sent.**  Let data be given that is read as a value without infinities, and no
form.  Then the body does not keep the request from being sent, and when the request is sent, its body
is read as this value exactly if it is not null.  Null is sent as no body. -/
theorem bodyValue?_sent_iff {host : Host} {endpoint : Spec.Endpoint} {inputs : Inputs}
    {api : ApiConfig} {d : Descriptor} {raw : String} {v : Value} (hforms : inputs.forms = [])
    (hdata : inputs.data = some raw) (hraw : parseData host raw = .ok v)
    (hfinite : ∀ x ∈ v.floats, (Decimal.dyadic? x).isSome = true)
    (hbuilt : (buildRequest host endpoint inputs api).answer = .ok d) (client : Client)
    (server : Server) (before : List Sent) :
    (∀ headers, Succeeds (sentBody client.boundary headers d.body)) ∧
      ∀ request, (received client server d before).2 = before ++ [request] →
        (bodyValue? request.body = some v ↔ v ≠ .null) ∧ (v = .null → request.body = []) := by
  have htree := isTree_of_parseData hraw
  have hjson : d.body = .json v := by
    obtain ⟨head, body, -, hbody, rfl⟩ := Request.of_buildRequest hbuilt
    exact Except.ok.inj (hbody.symm.trans (buildBody_eq_json hforms hdata hraw))
  rw [hjson]
  constructor
  · intro headers
    obtain ⟨body, described, hsent, -⟩ := sentBody_json htree hfinite client.boundary headers
    exact ⟨_, hsent⟩
  · intro request hrequest
    obtain ⟨_, headers, _, body, described, -, -, -, hbody, rfl⟩ :=
      wire_eq_ok_iff.1 (received_eq_append_iff.1 hrequest)
    rw [hjson] at hbody
    obtain ⟨body', described', hsent, hnull, hvalue⟩ :=
      sentBody_json htree hfinite client.boundary headers
    obtain ⟨rfl, -⟩ := Prod.mk.inj (Except.ok.inj (hbody.symm.trans hsent))
    refine ⟨⟨?_, hvalue⟩, hnull⟩
    rintro hread rfl
    rw [hnull rfl, bodyValue?_nil] at hread
    cases hread

/-- An endpoint that takes data. -/
def dataEndpoint : Spec.Endpoint := { Request.shopEndpoint with method := .post }

/-- The inputs that give data and nothing else. -/
def dataInputs (raw : String) : Inputs := { data := some raw }

/-- The request but for its body. -/
def dataHead : Descriptor where
  method := .post
  url := "https://shop/p"
  path := "/p"
  query := []
  headers := [("User-Agent", "ontap/0.3.0"), ("Accept", "application/json")]
  body := .none

/-- The request that has a value as its body. -/
def dataRequest (v : Value) : Descriptor :=
  { dataHead with
    headers := dataHead.headers ++ [("Content-Type", "application/json")]
    body := .json v }

/-- This request on the wire with a body and the header that gives its length. -/
def dataSent (headers : List (String × String)) (body : String) : Sent where
  method := "POST"
  url := ⟨"https".toList, [], "shop".toList, none, "/p".toList, none, none⟩
  headers := [("user-agent", "ontap/0.3.0"), ("accept", "application/json"),
    ("content-type", "application/json")] ++ headers
  body := Text.utf8 body.toList

/-- A mapping with a list, with null inside, and with characters that are escaped or beyond ASCII. -/
def thing : Value :=
  .mapping [(.text "n", .list [.int 1, .null]), (.text "é", .text "\n")]

/-- The shortest text of this value. -/
def thingText : String := "\x7b\"n\":[1,null],\"é\":\"\\n\"\x7d"

theorem isTree_thing : thing.IsTree := by
  have hitems : (Value.list [.int 1, .null]).IsTree :=
    .list (List.forall_mem_cons.2 ⟨.scalar trivial, List.forall_mem_singleton.2 (.scalar trivial)⟩)
  have hfields : ∀ e ∈ [("n", Value.list [.int 1, .null]), ("é", .text "\n")], e.2.IsTree :=
    List.forall_mem_cons.2 ⟨hitems, List.forall_mem_singleton.2 (.scalar trivial)⟩
  have htree := Value.IsTree.ofFields (by decide) hfields
  exact htree

/-- Data that is a shortest text is sent as it was given. -/
theorem bodyValue?_sent_iff_thing :
    parseData Request.bareHost thingText = .ok thing ∧
    (∀ x ∈ thing.floats, (Decimal.dyadic? x).isSome = true) ∧
    (buildRequest Request.bareHost dataEndpoint (dataInputs thingText) Request.openApi).answer =
      .ok (dataRequest thing) ∧
    (received promptClient silentServer (dataRequest thing) []).2 =
      [] ++ [dataSent [("content-length", "24"), ("host", "shop")] thingText] ∧
    bodyValue? (dataSent [("content-length", "24"), ("host", "shop")] thingText).body =
      some thing := by
  have hfinite : ∀ x ∈ thing.floats, (Decimal.dyadic? x).isSome = true := nofun
  have hread : Json.readText thingText = .ok thing := by
    obtain ⟨text, hwrite, hread⟩ := readText_write_compact isTree_thing hfinite
    have htext : Json.compact.write thing = .ok thingText := by with_unfolding_all rfl
    obtain rfl : text = thingText := Except.ok.inj (hwrite.symm.trans htext)
    exact hread
  have hraw : parseData Request.bareHost thingText = .ok thing :=
    parseData_eq_ok (by decide) hread
  have hhead : Request.buildHead Request.bareHost dataEndpoint (dataInputs thingText)
      Request.openApi = .ok dataHead := by
    with_unfolding_all rfl
  have hbuilt : (buildRequest Request.bareHost dataEndpoint (dataInputs thingText)
      Request.openApi).answer = .ok (dataRequest thing) := by
    have hheaders : Request.bodyHeaders dataHead.headers (.json thing)
        (dataInputs thingText).contentType = (dataRequest thing).headers := by
      with_unfolding_all rfl
    rw [Request.answer_buildRequest hhead (buildBody_eq_json rfl rfl hraw), hheaders]
    rfl
  have hsent : (received promptClient silentServer (dataRequest thing) []).2 =
      [] ++ [dataSent [("content-length", "24"), ("host", "shop")] thingText] :=
    received_eq_append_iff.2 (by with_unfolding_all rfl)
  have hvalue := (bodyValue?_sent_iff rfl rfl hraw hfinite hbuilt promptClient silentServer []).2 _
    hsent
  exact ⟨hraw, hfinite, hbuilt, hsent, hvalue.1.2 nofun⟩

/-- Null that is given as data is sent as no body. -/
theorem not_forall_bodyValue?_eq :
    ¬ ∀ (host : Host) (endpoint : Spec.Endpoint) (inputs : Inputs) (api : ApiConfig)
      (d : Descriptor) (raw : String) (v : Value) (client : Client) (server : Server)
      (before : List Sent) (request : Sent),
      inputs.forms = [] → inputs.data = some raw → parseData host raw = .ok v →
      (∀ x ∈ v.floats, (Decimal.dyadic? x).isSome = true) →
      (buildRequest host endpoint inputs api).answer = .ok d →
      (received client server d before).2 = before ++ [request] →
      bodyValue? request.body = some v := by
  intro hall
  have hraw : parseData Request.bareHost "null" = .ok .null := by with_unfolding_all rfl
  have hbuilt : (buildRequest Request.bareHost dataEndpoint (dataInputs "null")
      Request.openApi).answer = .ok (dataRequest .null) := by with_unfolding_all rfl
  have hsent : (received promptClient silentServer (dataRequest .null) []).2 =
      [] ++ [dataSent [("host", "shop"), ("content-length", "0")] ""] :=
    received_eq_append_iff.2 (by with_unfolding_all rfl)
  have hread := hall _ _ _ _ _ _ _ _ _ _ _ rfl rfl hraw nofun hbuilt hsent
  exact absurd (bodyValue?_nil.symm.trans hread) nofun

end ApiShell.Http
