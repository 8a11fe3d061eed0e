import ApiShell.Proofs.Run
import ApiShell.Request.Build

/-!
# The parts of a request

A request that is built has a head, which does not depend on files, and a body.  What a part of it is
made of can be read off the part that was built.
-/

namespace ApiShell.Request

open Run (AppendsOnly)

theorem appendsOnly_buildRequest (host : Host) (endpoint : Spec.Endpoint) (inputs : Inputs)
    (api : ApiConfig) : AppendsOnly (buildRequest host endpoint inputs api) := by
  unfold buildRequest
  cases buildHead host endpoint inputs api with
  | error e => exact .stop _
  | ok head =>
    cases buildBody host inputs with
    | error fault =>
      dsimp only
      split
      · exact (AppendsOnly.note .warning _).bind fun _ => .stop fault
      · exact .stop fault
    | ok body =>
      dsimp only
      split
      · exact (AppendsOnly.note .warning _).bind fun _ => .pure _
      · exact .pure _

/-- A request is made of its head and its body. -/
theorem of_buildRequest {host : Host} {endpoint : Spec.Endpoint} {inputs : Inputs}
    {api : ApiConfig} {d : Descriptor}
    (h : (buildRequest host endpoint inputs api).answer = .ok d) :
    ∃ head body, buildHead host endpoint inputs api = .ok head ∧
      buildBody host inputs = .ok body ∧
      d = { head with body, headers := bodyHeaders head.headers body inputs.contentType } := by
  unfold buildRequest at h
  cases hhead : buildHead host endpoint inputs api with
  | error e => rw [hhead] at h; cases h
  | ok head =>
    rw [hhead] at h
    cases hbody : buildBody host inputs with
    | error fault => rw [hbody] at h; dsimp only at h; split at h <;> cases h
    | ok body =>
      rw [hbody] at h
      dsimp only at h
      split at h <;> exact ⟨head, body, rfl, rfl, (Except.ok.inj h).symm⟩

/-- A head and a body make a request. -/
theorem answer_buildRequest {host : Host} {endpoint : Spec.Endpoint} {inputs : Inputs}
    {api : ApiConfig} {head : Descriptor} {body : Body}
    (hhead : buildHead host endpoint inputs api = .ok head)
    (hbody : buildBody host inputs = .ok body) :
    (buildRequest host endpoint inputs api).answer =
      .ok { head with body, headers := bodyHeaders head.headers body inputs.contentType } := by
  unfold buildRequest
  rw [hhead, hbody]
  dsimp only
  split <;> rfl

/-- The head of a request is made of its path, its query and its headers. -/
theorem of_buildHead {host : Host} {endpoint : Spec.Endpoint} {inputs : Inputs}
    {api : ApiConfig} {head : Descriptor} (h : buildHead host endpoint inputs api = .ok head) :
    ∃ queries entries, inputs.queries.mapM parseQuery = .ok queries ∧
      inputs.headers.mapM parseHeader = .ok entries ∧
      head.query = parameterQuery inputs.parameters ++ queries ∧
      head.headers =
        setHeaders (setHeaders defaultHeaders (sourceHeaders host inputs api)) entries := by
  unfold buildHead at h
  split at h
  · cases h
  obtain ⟨path, -, h⟩ := bind_eq_ok_iff.1 h
  obtain ⟨queries, hqueries, h⟩ := bind_eq_ok_iff.1 h
  obtain ⟨entries, hentries, h⟩ := bind_eq_ok_iff.1 h
  obtain rfl := Except.ok.inj h
  exact ⟨queries, entries, hqueries, hentries, rfl, rfl⟩

/-- The address of a request is that of the API without slashes at its end, and the filled template. -/
theorem url_of_buildHead {host : Host} {endpoint : Spec.Endpoint} {inputs : Inputs}
    {api : ApiConfig} {head : Descriptor} (h : buildHead host endpoint inputs api = .ok head) :
    ∃ path, substitute endpoint.path inputs.pathValues = .ok path ∧
      head.url = String.ofList (Text.trimRightOf (· == '/') api.url.toList) ++ path := by
  unfold buildHead at h
  split at h
  · cases h
  obtain ⟨path, hpath, h⟩ := bind_eq_ok_iff.1 h
  obtain ⟨queries, -, h⟩ := bind_eq_ok_iff.1 h
  obtain ⟨entries, -, h⟩ := bind_eq_ok_iff.1 h
  obtain rfl := Except.ok.inj h
  exact ⟨path, hpath, rfl⟩

end ApiShell.Request
