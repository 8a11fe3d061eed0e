import ApiShell.Proofs.Http.Authority
import ApiShell.Proofs.Http.Body
import ApiShell.Proofs.Http.Path
import ApiShell.Proofs.Json.Tree
import ApiShell.Proofs.Request.Substitution

/-!
# Requests that can be sent

Not every request that can be built can be sent.  A client puts a request on the wire if its address is
one, its headers are ASCII and the numbers in its body are finite (`IsSendable`); building a request
asks for none of this.  A request on the wire is answered or the connection fails, unless the reply
leads to an address that is none (`IsTaken`).  In every other case sending ends with a defect
(`endsProperly_received_iff`).
-/

namespace ApiShell.Http

open Request (Descriptor Inputs buildRequest)

/-! ### What can be sent -/

/-- A text that may stand in a header. -/
def IsAscii (s : String) : Prop := ∀ c ∈ s.toList, c.toNat < 128

theorem all_iff_isAscii {s : String} : s.toList.all (·.toNat < 128) = true ↔ IsAscii s := by
  simp [IsAscii, List.all_eq_true]

instance (s : String) : Decidable (IsAscii s) := decidable_of_iff _ all_iff_isAscii

/-- The request can be put on the wire. -/
structure IsSendable (d : Descriptor) : Prop where
  length : d.url.toList.length ≤ Url.maxLength
  printable : ∀ c ∈ d.url.toList, 0x20 ≤ c.toNat ∧ c.toNat ≠ 0x7F
  authority : Url.IsAuthority (Url.Raw.ofText d.url.toList).authority
  query : (Url.queryText d.query).length ≤ Url.maxLength
  headers : ∀ h ∈ d.headers, IsAscii h.1 ∧ IsAscii h.2
  body : ∀ v, d.body = .json v → ∀ x ∈ v.floats, Json.IsFinite x

/-- A client can make something of the reply to a request. -/
def IsTaken (request : Sent) : Reply → Prop
  | .silence _ | .broken _ => True
  | .misdirected => False
  | .response r => ∀ location problem, r.location? = some location →
      request.url.redirect location ≠ .error (.target problem)

/-- There is a response, or the connection failed. -/
def EndsProperly (answer : Except Fault Response) : Prop :=
  (∃ r, answer = .ok r) ∨ ∃ e, answer = .error (.failure (.connection e))

theorem not_endsProperly_defect (defect : Defect) : ¬ EndsProperly (.error (.defect defect)) := by
  rintro (⟨r, h⟩ | ⟨e, h⟩) <;> cases h

/-! ### Headers and bodies -/

theorem succeeds_asciiText_iff {s : String} : Succeeds (asciiText s) ↔ IsAscii s := by
  unfold asciiText
  split
  · next h => exact iff_of_true ⟨s, rfl⟩ (all_iff_isAscii.1 h)
  · next h => exact iff_of_false (not_succeeds_error _) (mt all_iff_isAscii.2 h)

/-- Headers are put on the wire when all of them are ASCII. -/
theorem succeeds_sentHeaders_iff {headers : Request.Headers} :
    Succeeds (sentHeaders headers) ↔ ∀ h ∈ headers, IsAscii h.1 ∧ IsAscii h.2 := by
  refine succeeds_foldlM_iff_forall fun h sent => ?_
  rw [succeeds_bind_iff_and fun name => succeeds_bind_iff_left fun value => succeeds_pure _,
    succeeds_asciiText_iff, succeeds_asciiText_iff]

/-- A body is put on the wire when the numbers in it are finite. -/
theorem succeeds_sentBody_iff {boundary : String} {headers : List (String × String)}
    {body : Request.Body} (htree : ∀ v, body = .json v → v.IsTree) :
    Succeeds (sentBody boundary headers body) ↔
      ∀ v, body = .json v → ∀ x ∈ v.floats, Json.IsFinite x := by
  cases body with
  | none => exact iff_of_true ⟨_, rfl⟩ nofun
  | form fields files => exact iff_of_true ⟨_, rfl⟩ nofun
  | json v =>
    constructor
    · rintro hsent w ⟨⟩
      by_cases hnull : v = .null
      · subst hnull
        exact nofun
      · refine Json.Style.isFinite_of_write ?_
        cases hwrite : Json.compact.write v with
        | ok text => exact ⟨text, rfl⟩
        | error problem =>
          have hrefused : ∃ defect, sentBody boundary headers (.json v) = .error defect := by
            rw [sentBody, hwrite]
            · cases problem <;> exact ⟨_, rfl⟩
            · exact hnull
          obtain ⟨defect, hdefect⟩ := hrefused
          rw [hdefect] at hsent
          exact absurd hsent (not_succeeds_error _)
    · intro hfinite
      obtain ⟨bytes, described, hsent, -⟩ :=
        sentBody_json (htree v rfl) (hfinite v rfl) boundary headers
      exact ⟨_, hsent⟩

/-- The data of a request that is built is a tree. -/
theorem isTree_of_buildRequest {host : Host} {endpoint : Spec.Endpoint} {inputs : Inputs}
    {api : ApiConfig} {d : Descriptor} (h : (buildRequest host endpoint inputs api).answer = .ok d)
    (v : Value) (hbody : d.body = .json v) : v.IsTree := by
  obtain ⟨head, body, -, hbuilt, rfl⟩ := Request.of_buildRequest h
  obtain rfl : body = .json v := hbody
  unfold Request.buildBody at hbuilt
  split at hbuilt
  · obtain ⟨form, -, hform⟩ := map_eq_ok_iff.1 hbuilt
    cases hform
  · cases hdata : inputs.data with
    | none => rw [hdata] at hbuilt; cases hbuilt
    | some raw =>
      rw [hdata] at hbuilt
      obtain ⟨w, hw, hsame⟩ := map_eq_ok_iff.1 hbuilt
      obtain rfl := Request.Body.json.inj hsame
      exact isTree_of_parseData hw

/-- The parts of a request are put on the wire one by one. -/
theorem succeeds_wire_iff {boundary : String} {d : Descriptor}
    (htree : ∀ v, d.body = .json v → v.IsTree) :
    Succeeds (wire boundary d) ↔
      Succeeds ((Url.ofText d.url).bind Url.onServer >>= fun address => address.withQuery d.query) ∧
        (∀ h ∈ d.headers, IsAscii h.1 ∧ IsAscii h.2) ∧
        ∀ v, d.body = .json v → ∀ x ∈ v.floats, Json.IsFinite x := by
  rw [← succeeds_sentHeaders_iff]
  constructor
  · rintro ⟨request, hrequest⟩
    obtain ⟨address, headers, url, body, described, haddress, hheaders, hurl, hbody, -⟩ :=
      wire_eq_ok_iff.1 hrequest
    exact ⟨⟨url, bind_eq_ok_iff.2 ⟨address, haddress, hurl⟩⟩, ⟨headers, hheaders⟩,
      (succeeds_sentBody_iff htree).1 ⟨_, hbody⟩⟩
  · rintro ⟨⟨url, hurl⟩, ⟨headers, hheaders⟩, hfinite⟩
    obtain ⟨address, haddress, hurl⟩ := bind_eq_ok_iff.1 hurl
    obtain ⟨⟨body, described⟩, hbody⟩ :=
      (@succeeds_sentBody_iff boundary headers _ htree).2 hfinite
    exact ⟨_, wire_eq_ok_iff.2
      ⟨address, headers, url, body, described, haddress, hheaders, hurl, hbody, rfl⟩⟩

/-! ### Replies -/

/-- A reply that can be taken makes a response or a failure of the connection. -/
theorem comes_answered_of_isTaken {client : Client} {d : Descriptor} {request : Sent} {reply : Reply}
    (h : IsTaken request reply) (before : List Sent) :
    ∃ answer, EndsProperly answer ∧
      Talk.Comes (answered client d request reply) before answer before := by
  cases reply with
  | silence _ => exact ⟨_, .inr ⟨_, rfl⟩, .ofExcept _ before⟩
  | broken reason => exact ⟨_, .inr ⟨_, rfl⟩, .ofExcept _ before⟩
  | misdirected => exact h.elim
  | response r =>
    unfold answered
    dsimp only
    split
    · exact ⟨_, .inr ⟨_, rfl⟩, .ofExcept _ before⟩
    · next problem hredirect =>
      obtain ⟨location, hlocation, hredirect⟩ := Option.map_eq_some_iff.1 hredirect
      exact absurd hredirect (h location problem hlocation)
    · exact ⟨.ok r, .inl ⟨r, rfl⟩, comes_reported client r before⟩

theorem comes_answered_of_not_isTaken {client : Client} {d : Descriptor} {request : Sent}
    {reply : Reply} (h : ¬ IsTaken request reply) (before : List Sent) :
    Talk.Comes (answered client d request reply) before (.error (.defect .invalidUrl)) before := by
  cases reply with
  | silence _ => exact absurd trivial h
  | broken _ => exact absurd trivial h
  | misdirected => exact .ofExcept _ before
  | response r =>
    simp only [IsTaken, not_forall, not_not] at h
    obtain ⟨location, problem, hlocation, hredirect⟩ := h
    unfold answered
    dsimp only
    rw [hlocation, Option.map_some, hredirect]
    exact .ofExcept _ before

/-! ### Addresses of requests -/

/-- The text of an absolute address of an API, without slashes at its end, has the authority of the
address. -/
theorem exists_baseText {api : ApiConfig} {base : Url} (hbase : Url.ofText api.url = .ok base)
    (habsolute : base.isAbsolute = true) :
    ∃ name rest, Url.IsSchemeName name ∧ baseText api = name ++ ':' :: '/' :: '/' :: rest ∧
      rest.takeWhile Url.isAuthorityChar = (Url.Raw.ofText api.url.toList).authority := by
  obtain ⟨name, rest, hname, htext⟩ := Url.exists_slashes hbase habsolute
  have hauthority := (Url.Raw.ofText_slashes hname rest).2.1
  rw [← htext] at hauthority
  have hfront : rest.takeWhile Url.isAuthorityChar ≠ [] := by
    rw [← hauthority]
    exact ((Url.isMadeOf_of_ofRaw (Url.ofText_eq_ok hbase)).ne_nil habsolute).2
  have hslash : ∀ c, (c == '/') = true → Url.isAuthorityChar c = false := by
    intro c hc
    rw [eq_of_beq hc]
    rfl
  -- the authority does not begin with a slash, so the slashes at the end come after it
  have hrest : ¬ ∀ c ∈ rest, (c == '/') = true := by
    intro hall
    cases rest with
    | nil => exact hfront rfl
    | cons c rest =>
      exact hfront (List.takeWhile_cons_of_neg (by simp [hslash c (hall c List.mem_cons_self)]))
  refine ⟨name, Text.trimRightOf (· == '/') rest, hname, ?_, ?_⟩
  · have hbase : baseText api = Text.trimRightOf (· == '/') ((name ++ [':', '/', '/']) ++ rest) := by
      rw [baseText, htext, List.append_assoc]
      rfl
    rw [hbase, Text.trimRightOf_append_of_not_forall hrest, List.append_assoc]
    rfl
  · rw [Text.takeWhile_trimRightOf hslash, hauthority]

/-- The authority of an absolute address can be sent, unless escaping makes its host look like an IPv4
address. -/
theorem isAuthority_iff {s : String} {u : Url} (h : Url.ofText s = .ok u)
    (habsolute : u.isAbsolute = true) :
    Url.IsAuthority (Url.Raw.ofText s.toList).authority ↔
      (Url.looksLikeIPv4 u.host = true → Url.isIPv4 u.host = true ∨ Url.isIPv6 u.host = true) := by
  have hread := Url.ofText_eq_ok h
  have hmade := Url.isMadeOf_of_ofRaw hread
  obtain ⟨name, rest, hname, htext⟩ := Url.exists_slashes h habsolute
  have hrooted := (Url.Raw.ofText_slashes hname rest).2.2
  rw [← htext] at hrooted
  have hport := ((Url.succeeds_ofRaw_iff hrooted (.inl (hmade.ne_nil habsolute).1)).1 ⟨u, hread⟩).2
  constructor
  · rintro ⟨⟨sent, hsent, hagain⟩, -⟩
    rwa [← Except.ok.inj (hsent.symm.trans hmade.host)]
  · exact fun hagain => ⟨⟨u.host, hmade.host, hagain⟩, Url.succeeds_readPort_iff.1 hport⟩

/-- Below an endpoint whose template begins with a slash, the text behind the address of the API does. -/
theorem exists_filledPath_slash {endpoint : Spec.Endpoint}
    (h : endpoint.path.toList.head? = some '/') (inputs : Inputs) :
    ∃ more, filledPath endpoint inputs = '/' :: more := by
  unfold filledPath
  cases hcs : endpoint.path.toList with
  | nil => rw [hcs] at h; cases h
  | cons c cs =>
    rw [hcs] at h
    obtain rfl : c = '/' := Option.some.inj h
    rw [Request.pieces_cons (by decide)]
    exact ⟨_, rfl⟩

/-! ### Sending what is built -/

section Received

variable {client : Client} {server : Server} {before : List Sent} {d : Descriptor}

theorem received_of_wire_error {defect : Defect} (h : wire client.boundary d = .error defect) :
    received client server d before = (.error (.defect defect), before) := by
  rcases comes_send client server d before with ⟨other, hwire, hcomes⟩ | ⟨request, hwire, -⟩
  · rw [h] at hwire
    rw [Except.error.inj hwire]
    exact received_eq hcomes
  · rw [h] at hwire
    cases hwire

theorem endsProperly_received_of_wire {request : Sent} (h : wire client.boundary d = .ok request) :
    EndsProperly (received client server d before).1 ↔ IsTaken request (server before request) := by
  by_cases htaken : IsTaken request (server before request)
  · obtain ⟨answer, hends, hcomes⟩ :=
      @comes_answered_of_isTaken client d _ _ htaken (before ++ [request])
    rw [received_eq (comes_send_of_wire h hcomes)]
    exact iff_of_true hends htaken
  · have hcomes := @comes_answered_of_not_isTaken client d _ _ htaken (before ++ [request])
    rw [received_eq (comes_send_of_wire h hcomes)]
    exact iff_of_false (not_endsProperly_defect _) htaken

end Received

/-- The address of the shop. -/
def shopUrl : Url := ⟨"https".toList, [], "shop".toList, none, [], none, none⟩

/-- The request that asks the shop for its page, with one more header. -/
def namedRequest (headers : List (String × String)) : Descriptor where
  method := .get
  url := "https://shop/p"
  path := "/p"
  query := []
  headers := [("User-Agent", "ontap/0.3.0"), ("Accept", "application/json")] ++ headers
  body := .none

theorem ofText_shopUrl : Url.ofText Request.openApi.url = .ok shopUrl := by
  with_unfolding_all rfl

end ApiShell.Http
