import ApiShell.Proofs.Request.Header
import Mathlib.Data.List.Forall2

/-!
# Credentials in reports

A report shows the headers of a request and masks the values of those that are known to carry
secrets.  A credential sent as a key may go into any header, and then it is masked only if that
header is one of them.

Two requests that differ in their credential only are built side by side.  `AgreeBut` says that two
lists of headers have the same names in the same places and the same values except under one name;
setting headers keeps it.  Where both credentials are sent in the same way, the headers of the two
requests agree but for the header of the credential, so whether the reports are equal is decided
there.
-/

namespace ApiShell.Request

/-! ### Ways of sending a credential -/

/-- The ways in which a credential is sent. -/
inductive Way where
  | absent
  | verbatim
  | password
  | key
deriving DecidableEq, Repr

/-- What is sent of a credential: its variables are expanded and its ends are trimmed. -/
def credentialText (host : Host) (auth : String) : String := Text.trim (expand host auth)

/-- The way in which a text is sent as a credential. -/
def wayOf (text : String) : Way :=
  if text = "" then .absent
  else if Text.startsWith text "Bearer " || Text.startsWith text "Basic " then .verbatim
  else if text.toList.contains ':' then .password
  else .key

/-- The header that a credential of a way goes into. -/
def Way.headerName (keyHeader : String) : Way → String
  | .key => keyHeader
  | _ => "Authorization"

theorem resolveAuth_eq (host : Host) (auth keyHeader : String) :
    resolveAuth host auth keyHeader =
      match wayOf (credentialText host auth) with
      | .absent => none
      | .verbatim => some ("Authorization", credentialText host auth)
      | .password => some ("Authorization",
          s!"Basic {String.ofList (Base64.encode (Text.utf8 (credentialText host auth).toList))}")
      | .key => some (keyHeader, credentialText host auth) := by
  unfold resolveAuth credentialHeader? wayOf
  rw [← credentialText]
  dsimp only
  split_ifs <;> rfl

/-! ### Headers that agree but for one -/

/-- The headers have the same names, and the same values except under one name. -/
def AgreeBut (name : String) (headers headers' : Headers) : Prop :=
  List.Forall₂ (fun h h' => h.1 = h'.1 ∧ (h.2 = h'.2 ∨ sameHeader h.1 name)) headers headers'

namespace AgreeBut

variable {name : String} {headers headers' : Headers}

theorem refl (name : String) (headers : Headers) : AgreeBut name headers headers :=
  List.forall₂_same.2 fun _ _ => ⟨rfl, .inl rfl⟩

theorem map_fst_eq (h : AgreeBut name headers headers') :
    headers.map Prod.fst = headers'.map Prod.fst := by
  induction h with
  | nil => rfl
  | cons hfirst _ ih => rw [List.map_cons, List.map_cons, hfirst.1, ih]

theorem hasHeader_eq (h : AgreeBut name headers headers') (other : String) :
    hasHeader headers other = hasHeader headers' other := by
  have hany (hs : Headers) : hasHeader hs other = (hs.map Prod.fst).any (sameHeader · other) := by
    rw [hasHeader, List.any_map]
    rfl
  rw [hany, hany, h.map_fst_eq]

theorem append {more more' : Headers} (h : AgreeBut name headers headers')
    (hmore : AgreeBut name more more') : AgreeBut name (headers ++ more) (headers' ++ more') :=
  List.rel_append h hmore

/-- Setting one header keeps the agreement; under the name itself the new values may differ. -/
theorem setHeader (h : AgreeBut name headers headers') (e e' : String × String)
    (hname : e.1 = e'.1) (hvalue : e.2 = e'.2 ∨ sameHeader e.1 name) :
    AgreeBut name (setHeader headers e.1 e.2) (setHeader headers' e'.1 e'.2) := by
  refine List.rel_append (List.rel_filter ?_ h) (.cons ⟨hname, hvalue⟩ .nil)
  rintro x x' ⟨hx, -⟩
  show (!sameHeader x.1 e.1) = true ↔ (!sameHeader x'.1 e'.1) = true
  rw [hx, hname]

/-- Setting headers that agree keeps the agreement. -/
theorem setHeaders {more more' : Headers} (h : AgreeBut name headers headers')
    (hmore : AgreeBut name more more') :
    AgreeBut name (setHeaders headers more) (setHeaders headers' more') := by
  induction hmore generalizing headers headers' with
  | nil => exact h
  | cons he _ ih => exact ih (h.setHeader _ _ he.1 he.2)

theorem bodyHeaders (h : AgreeBut name headers headers') (body : Body)
    (contentType : Option String) :
    AgreeBut name (bodyHeaders headers body contentType)
      (bodyHeaders headers' body contentType) := by
  have htyped : ∀ hs hs', AgreeBut name hs hs' →
      AgreeBut name (Request.bodyHeaders hs .none contentType)
        (Request.bodyHeaders hs' .none contentType) := by
    intro hs hs' hagree
    unfold Request.bodyHeaders
    cases contentType with
    | none => exact hagree
    | some t =>
      dsimp only
      split
      · exact hagree
      · exact hagree.setHeader ("Content-Type", t) ("Content-Type", t) rfl (.inl rfl)
  cases body with
  | none => exact htyped headers headers' h
  | form fields files => exact htyped headers headers' h
  | json v =>
    have hjson : AgreeBut name
        (if hasHeader headers "Content-Type" then headers
          else headers ++ [("Content-Type", "application/json")])
        (if hasHeader headers' "Content-Type" then headers'
          else headers' ++ [("Content-Type", "application/json")]) := by
      rw [h.hasHeader_eq]
      split
      · exact h
      · exact h.append (.refl name _)
    exact htyped _ _ hjson

end AgreeBut

/-! ### Requests that differ in their credential -/

/-- The headers of a request with its body; `entries` are those that the user writes out. -/
def requestHeaders (host : Host) (inputs : Inputs) (api : ApiConfig)
    (entries : List (String × String)) (body : Body) : Headers :=
  bodyHeaders (setHeaders (setHeaders defaultHeaders (sourceHeaders host inputs api)) entries) body
    inputs.contentType

/-- The inputs with another credential. -/
def Inputs.withAuth (inputs : Inputs) (auth : Option String) : Inputs := { inputs with auth }

/-- The settings with another credential. -/
def withApiAuth (api : ApiConfig) (auth : String) : ApiConfig := { api with auth }

/-- A head is built exactly where there is an address and all entries can be read. -/
theorem buildHead_eq_ok_iff {host : Host} {endpoint : Spec.Endpoint} {inputs : Inputs}
    {api : ApiConfig} {head : Descriptor} :
    buildHead host endpoint inputs api = .ok head ↔
      api.url ≠ "" ∧ ∃ path queries entries,
        substitute endpoint.path inputs.pathValues = .ok path ∧
        inputs.queries.mapM parseQuery = .ok queries ∧
        inputs.headers.mapM parseHeader = .ok entries ∧
        head = {
          method := endpoint.method
          url := String.ofList (Text.trimRightOf (· == '/') api.url.toList) ++ path
          path
          query := parameterQuery inputs.parameters ++ queries
          headers := setHeaders (setHeaders defaultHeaders (sourceHeaders host inputs api)) entries
          body := .none } := by
  unfold buildHead
  constructor
  · intro h
    split at h
    · cases h
    · rename_i hurl
      obtain ⟨path, hpath, h⟩ := bind_eq_ok_iff.1 h
      obtain ⟨queries, hqueries, h⟩ := bind_eq_ok_iff.1 h
      obtain ⟨entries, hentries, h⟩ := bind_eq_ok_iff.1 h
      exact ⟨hurl, path, queries, entries, hpath, hqueries, hentries, (Except.ok.inj h).symm⟩
  · rintro ⟨hurl, path, queries, entries, hpath, hqueries, hentries, rfl⟩
    rw [if_neg hurl, hpath, hqueries, hentries]
    rfl

/-- A request is built of its head and its body; it is noted where both a form and data are given.
-/
theorem runWith_buildRequest {host : Host} {endpoint : Spec.Endpoint} {inputs : Inputs}
    {api : ApiConfig} {head : Descriptor} {body : Body}
    (hhead : buildHead host endpoint inputs api = .ok head)
    (hbody : buildBody host inputs = .ok body) (log : List LogRecord) :
    (buildRequest host endpoint inputs api).runWith log =
      (.ok { head with body, headers := bodyHeaders head.headers body inputs.contentType },
        if !inputs.forms.isEmpty && inputs.data.isSome then
          log ++ [⟨.warning, "Both --form and --data given; sending form data only"⟩]
        else log) := by
  unfold buildRequest
  rw [hhead, hbody]
  dsimp only
  split <;> rfl

/-- Another credential makes another request, which differs in its headers only. -/
theorem buildRequest_withAuth {host : Host} {endpoint : Spec.Endpoint} {inputs : Inputs}
    {api : ApiConfig} {log log' : List LogRecord} {d : Descriptor}
    (h : (buildRequest host endpoint inputs api).runWith log = (.ok d, log'))
    (auth : Option String) (apiAuth : String) :
    ∃ entries, inputs.headers.mapM parseHeader = .ok entries ∧
      d.headers = requestHeaders host inputs api entries d.body ∧
      (buildRequest host endpoint (inputs.withAuth auth) (withApiAuth api apiAuth)).runWith log =
        (.ok { d with headers :=
          requestHeaders host (inputs.withAuth auth) (withApiAuth api apiAuth) entries d.body },
          log') := by
  have hanswer := (appendsOnly_buildRequest host endpoint inputs api).answer_eq h
  obtain ⟨head, body, hhead, hbody, rfl⟩ := of_buildRequest hanswer
  have hlog := (Prod.mk.inj ((runWith_buildRequest hhead hbody log).symm.trans h)).2
  obtain ⟨hurl, path, queries, entries, hpath, hqueries, hentries, rfl⟩ :=
    buildHead_eq_ok_iff.1 hhead
  have hother : buildHead host endpoint (inputs.withAuth auth) (withApiAuth api apiAuth) = .ok _ :=
    buildHead_eq_ok_iff.2 ⟨hurl, path, queries, entries, hpath, hqueries, hentries, rfl⟩
  have hotherBody : buildBody host (inputs.withAuth auth) = .ok body := hbody
  refine ⟨entries, hentries, rfl, ?_⟩
  rw [runWith_buildRequest hother hotherBody, ← hlog]
  rfl

/-! ### Reports -/

/-- What every source says that comes after the credential. -/
def laterHeaders (inputs : Inputs) (entries : List (String × String)) : Headers :=
  parameterHeaders inputs.parameters ++ cookieHeader inputs.parameters ++ entries ++
    inputs.contentTypeEntry

/-- The value of a header of this name is masked in reports. -/
def IsMasked (name : String) : Prop := secretHeaders.contains (Text.lower name) = true

/-- The report does not depend on the credential as long as it is sent in this way: it goes into a
header that is masked, or into one that a later source sets anew. -/
def Way.IsHidden (inputs : Inputs) (api : ApiConfig) (w : Way) : Prop :=
  w = .key → IsMasked api.apiKeyHeader ∨
    ∃ entries, inputs.headers.mapM parseHeader = .ok entries ∧
      ∃ s ∈ laterHeaders inputs entries, sameHeader s.1 api.apiKeyHeader

theorem isMasked_authorization : IsMasked "Authorization" := by
  unfold IsMasked
  decide

theorem IsMasked.of_sameHeader {a b : String} (h : IsMasked b) (hsame : sameHeader a b = true) :
    IsMasked a := by
  rw [IsMasked, sameHeader_iff.1 hsame]
  exact h

/-- The line of a masked header does not depend on its value. -/
theorem headerLine_of_isMasked {name : String} (h : IsMasked name) (value value' : String) :
    headerLine name value = headerLine name value' := by
  unfold headerLine
  rw [IsMasked] at h
  rw [h]
  rfl

/-- The line of a header that is not masked shows its value. -/
theorem eq_of_headerLine_eq {name value value' : String} (h : ¬ IsMasked name)
    (hline : headerLine name value = headerLine name value') : value = value' := by
  unfold headerLine at hline
  rw [IsMasked, Bool.not_eq_true] at h
  rw [h] at hline
  exact (String.append_right_inj _).1 hline

/-- The lines of headers in a report. -/
def headerLines (headers : Headers) : List String := headers.map fun h => headerLine h.1 h.2

/-- Requests that differ in their headers have one report where they have the same lines of headers.
-/
theorem describe_eq_iff_headerLines {d : Descriptor} {headers : Headers} :
    ({ d with headers } : Descriptor).describe = d.describe ↔
      headerLines headers = headerLines d.headers := by
  show [_] ++ _ ++ headerLines headers ++ _ = [_] ++ _ ++ headerLines d.headers ++ _ ↔ _
  rw [List.append_left_inj, List.append_right_inj]

/-- Headers that agree but for a masked one have the same lines. -/
theorem AgreeBut.headerLines_eq {name : String} {headers headers' : Headers}
    (h : AgreeBut name headers headers') (hmasked : IsMasked name) :
    headerLines headers = headerLines headers' := by
  unfold headerLines
  induction h with
  | nil => rfl
  | @cons x x' _ _ hfirst _ ih =>
    have hline : headerLine x.1 x.2 = headerLine x'.1 x'.2 := by
      rw [← hfirst.1]
      rcases hfirst.2 with hvalue | hname
      · rw [hvalue]
      · exact headerLine_of_isMasked (hmasked.of_sameHeader hname) x.2 x'.2
    rw [List.map_cons, List.map_cons, hline, ih]

/-- Only one entry is the last one of its name. -/
theorem IsLastOf.unique {writes : Headers} {h h' : String × String} (hlast : IsLastOf writes h)
    (hlast' : IsLastOf writes h') (hsame : sameHeader h.1 h'.1 = true) : h = h' := by
  induction writes using List.reverseRecOn with
  | nil => exact absurd hlast.mem List.not_mem_nil
  | append_singleton writes e ih =>
    rcases isLastOf_concat.1 hlast with rfl | ⟨hbefore, hother⟩ <;>
      rcases isLastOf_concat.1 hlast' with rfl | ⟨hbefore', hother'⟩
    · rfl
    · exact absurd (sameHeader_comm.1 hsame) hother'
    · exact absurd hsame hother
    · exact ih hbefore hbefore'

/-- What is written last of a name that later writes have is one of these. -/
theorem IsLastOf.of_append {writes later : Headers} {h : String × String}
    (hlast : IsLastOf (writes ++ later) h) (hlater : ∃ s ∈ later, sameHeader s.1 h.1) :
    IsLastOf later h := by
  induction later using List.reverseRecOn with
  | nil => exact absurd hlater.choose_spec.1 List.not_mem_nil
  | append_singleton later e ih =>
    rw [← List.append_assoc] at hlast
    rcases isLastOf_concat.1 hlast with rfl | ⟨hbefore, hother⟩
    · exact isLastOf_concat.2 (.inl rfl)
    · refine isLastOf_concat.2 (.inr ⟨ih hbefore ?_, hother⟩)
      obtain ⟨s, hs, hsame⟩ := hlater
      rcases List.mem_append.1 hs with hs | hs
      · exact ⟨s, hs, hsame⟩
      · rw [List.mem_singleton.1 hs] at hsame
        exact absurd (sameHeader_comm.1 hsame) hother

/-- Headers that agree but for one agree on this as well where a later source sets it. -/
theorem AgreeBut.eq_of_later {name : String} {headers headers' writes writes' later : Headers}
    (h : AgreeBut name headers headers') (hholds : Holds headers (writes ++ later))
    (hholds' : Holds headers' (writes' ++ later)) (hlater : ∃ s ∈ later, sameHeader s.1 name) :
    headers = headers' := by
  obtain ⟨s, hs, hsname⟩ := hlater
  obtain ⟨hlength, hpairs⟩ := List.forall₂_iff_zip.1 h
  rw [← List.forall₂_eq_eq_eq]
  refine List.forall₂_iff_zip.2 ⟨hlength, fun {x x'} hx => ?_⟩
  obtain ⟨hname, hvalue⟩ := hpairs hx
  rcases hvalue with hvalue | hsame
  · exact Prod.ext hname hvalue
  · have hfrom : sameHeader s.1 x.1 = true := sameHeader_trans hsname (sameHeader_comm.1 hsame)
    have hlast : IsLastOf later x :=
      ((hholds.mem_iff x).1 (List.of_mem_zip hx).1).of_append ⟨s, hs, hfrom⟩
    have hlast' : IsLastOf later x' :=
      ((hholds'.mem_iff x').1 (List.of_mem_zip hx).2).of_append ⟨s, hs, hname ▸ hfrom⟩
    exact hlast.unique hlast' (hname ▸ sameHeader_iff.2 rfl)

/-- Equal lines show equal values of a header that is not masked. -/
theorem AgreeBut.value_eq_of_headerLines_eq {name value value' : String}
    {headers headers' writes : Headers} (h : AgreeBut name headers headers')
    (hholds : Holds headers writes) (hmem : (name, value) ∈ headers)
    (hmem' : (name, value') ∈ headers') (hmasked : ¬ IsMasked name)
    (hlines : headerLines headers = headerLines headers') : value = value' := by
  have hsameLines : List.Forall₂ (fun x x' => headerLine x.1 x.2 = headerLine x'.1 x'.2)
      headers headers' := by
    rw [← List.forall₂_map_right_iff (R := fun (x : String × String) line =>
      headerLine x.1 x.2 = line), ← List.forall₂_map_left_iff (R := Eq), List.forall₂_eq_eq_eq]
    exact hlines
  obtain ⟨hlength, hpairs⟩ := List.forall₂_iff_zip.1 h
  have hboth : List.Forall₂ (fun x x' => x.1 = x'.1 ∧ headerLine x.1 x.2 = headerLine x'.1 x'.2)
      headers headers' := List.forall₂_iff_zip.2
    ⟨hlength, fun hx => ⟨(hpairs hx).1, (List.forall₂_iff_zip.1 hsameLines).2 hx⟩⟩
  obtain ⟨x, hx, hname, hline⟩ := exists_mem_of_forall₂ hboth hmem'
  have hxe : x = (name, value) :=
    ((hholds.mem_iff x).1 hx).unique ((hholds.mem_iff _).1 hmem) (hname ▸ sameHeader_iff.2 rfl)
  rw [hxe] at hline
  exact eq_of_headerLine_eq hmasked hline

/-! ### Two requests with credentials of one way -/

/-- Credentials of one way go into one header. -/
theorem agreeBut_resolveAuth {host : Host} {auth auth' keyHeader : String}
    (hway : wayOf (credentialText host auth) = wayOf (credentialText host auth')) :
    AgreeBut ((wayOf (credentialText host auth)).headerName keyHeader)
      (resolveAuth host auth keyHeader).toList (resolveAuth host auth' keyHeader).toList := by
  rw [resolveAuth_eq, resolveAuth_eq, ← hway]
  cases wayOf (credentialText host auth) with
  | absent => exact .nil
  | verbatim => exact .cons ⟨rfl, .inr (sameHeader_iff.2 rfl)⟩ .nil
  | password => exact .cons ⟨rfl, .inr (sameHeader_iff.2 rfl)⟩ .nil
  | key => exact .cons ⟨rfl, .inr (sameHeader_iff.2 rfl)⟩ .nil

theorem agreeBut_requestHeaders {host : Host} {inputs : Inputs} {api : ApiConfig}
    {auth : Option String} {apiAuth : String}
    (hway : wayOf (credentialText host (inputs.credential api)) =
      wayOf (credentialText host (auth.getD apiAuth)))
    (entries : List (String × String)) (body : Body) :
    AgreeBut ((wayOf (credentialText host (inputs.credential api))).headerName api.apiKeyHeader)
      (requestHeaders host inputs api entries body)
      (requestHeaders host (inputs.withAuth auth) (withApiAuth api apiAuth) entries body) := by
  have hauth : AgreeBut
      ((wayOf (credentialText host (inputs.credential api))).headerName api.apiKeyHeader)
      (resolveAuth host (inputs.credential api) api.apiKeyHeader).toList
      (resolveAuth host (auth.getD apiAuth) api.apiKeyHeader).toList := agreeBut_resolveAuth hway
  have hsources := (((AgreeBut.refl _ api.headers).append hauth).append
    (.refl _ (parameterHeaders inputs.parameters))).append
    (.refl _ (cookieHeader inputs.parameters))
  exact (((AgreeBut.refl _ defaultHeaders).setHeaders hsources).setHeaders
    (.refl _ entries)).bodyHeaders body inputs.contentType

/-- The headers of a request hold what its sources say, those after the credential last. -/
theorem holds_requestHeaders (host : Host) (inputs : Inputs) (api : ApiConfig)
    (entries : List (String × String)) (body : Body) :
    Holds (requestHeaders host inputs api entries body)
      (body.impliedHeaders ++ defaultHeaders ++ api.headers ++
        (resolveAuth host (inputs.credential api) api.apiKeyHeader).toList ++
        laterHeaders inputs entries) := by
  have h := ((holds_defaultHeaders.setHeaders (sourceHeaders host inputs api)).setHeaders
    entries).bodyHeaders body inputs
  simpa only [requestHeaders, laterHeaders, sourceHeaders, List.append_assoc] using h

/-- A key that no later source replaces is among the headers. -/
theorem mem_requestHeaders_of_key {host : Host} {inputs : Inputs} {api : ApiConfig}
    {entries : List (String × String)}
    (hkey : wayOf (credentialText host (inputs.credential api)) = .key)
    (hlater : ∀ s ∈ laterHeaders inputs entries, ¬ sameHeader s.1 api.apiKeyHeader) (body : Body) :
    (api.apiKeyHeader, credentialText host (inputs.credential api)) ∈
      requestHeaders host inputs api entries body := by
  rw [(holds_requestHeaders host inputs api entries body).mem_iff, resolveAuth_eq, hkey]
  refine ⟨body.impliedHeaders ++ defaultHeaders ++ api.headers, laterHeaders inputs entries, ?_,
    hlater⟩
  rw [List.append_assoc]
  rfl

section TwoCredentials

-- Two credentials that are sent in one way, with the entries that the user writes out.
variable {host : Host} {inputs : Inputs} {api : ApiConfig} {auth : Option String} {apiAuth : String}
  {entries : List (String × String)}

/-- Credentials that come to the same text give the same headers. -/
theorem requestHeaders_withAuth_eq
    (hsame : credentialText host (inputs.credential api) = credentialText host (auth.getD apiAuth))
    (entries : List (String × String)) (body : Body) :
    requestHeaders host (inputs.withAuth auth) (withApiAuth api apiAuth) entries body =
      requestHeaders host inputs api entries body := by
  have hauth : resolveAuth host (auth.getD apiAuth) api.apiKeyHeader =
      resolveAuth host (inputs.credential api) api.apiKeyHeader := by
    rw [resolveAuth_eq, resolveAuth_eq, hsame]
  have hsources : sourceHeaders host (inputs.withAuth auth) (withApiAuth api apiAuth) =
      sourceHeaders host inputs api := by
    show api.headers ++ (resolveAuth host (auth.getD apiAuth) api.apiKeyHeader).toList ++ _ ++ _ = _
    rw [hauth]
    rfl
  unfold requestHeaders
  rw [hsources]
  rfl

variable (hway : wayOf (credentialText host (inputs.credential api)) =
  wayOf (credentialText host (auth.getD apiAuth)))

include hway

/-- Hidden credentials give headers with the same lines. -/
theorem headerLines_withAuth_eq_of_isHidden
    (hentries : inputs.headers.mapM parseHeader = .ok entries)
    (hhidden : (wayOf (credentialText host (inputs.credential api))).IsHidden inputs api)
    (body : Body) :
    headerLines (requestHeaders host (inputs.withAuth auth) (withApiAuth api apiAuth) entries body) =
      headerLines (requestHeaders host inputs api entries body) := by
  have hagree := agreeBut_requestHeaders hway entries body
  cases hkey : wayOf (credentialText host (inputs.credential api)) with
  | key =>
    rw [hkey] at hagree hhidden
    rcases hhidden rfl with hmasked | ⟨entries', hentries', hlater⟩
    · exact (hagree.headerLines_eq hmasked).symm
    · obtain rfl := Except.ok.inj (hentries.symm.trans hentries')
      rw [hagree.eq_of_later (holds_requestHeaders host inputs api entries body)
        (holds_requestHeaders host (inputs.withAuth auth) (withApiAuth api apiAuth) entries body)
        hlater]
  | absent => rw [hkey] at hagree; exact (hagree.headerLines_eq isMasked_authorization).symm
  | verbatim => rw [hkey] at hagree; exact (hagree.headerLines_eq isMasked_authorization).symm
  | password => rw [hkey] at hagree; exact (hagree.headerLines_eq isMasked_authorization).symm

/-- Credentials that are not hidden and give headers with the same lines come to the same text. -/
theorem credentialText_eq_of_headerLines_eq
    (hentries : inputs.headers.mapM parseHeader = .ok entries)
    (hshown : ¬ (wayOf (credentialText host (inputs.credential api))).IsHidden inputs api)
    {body : Body}
    (hlines : headerLines (requestHeaders host inputs api entries body) =
      headerLines (requestHeaders host (inputs.withAuth auth) (withApiAuth api apiAuth) entries body)) :
    credentialText host (inputs.credential api) = credentialText host (auth.getD apiAuth) := by
  obtain ⟨hkey, hopen⟩ := Classical.not_imp.1 hshown
  obtain ⟨hmasked, hlater⟩ := not_or.1 hopen
  have hlast : ∀ s ∈ laterHeaders inputs entries, ¬ sameHeader s.1 api.apiKeyHeader :=
    fun s hs hsame => hlater ⟨entries, hentries, s, hs, hsame⟩
  have hkey' : wayOf (credentialText host
      ((inputs.withAuth auth).credential (withApiAuth api apiAuth))) = .key := hway.symm.trans hkey
  have hagree := agreeBut_requestHeaders hway entries body
  rw [hkey] at hagree
  exact hagree.value_eq_of_headerLines_eq (holds_requestHeaders host inputs api entries body)
    (mem_requestHeaders_of_key hkey hlast body) (mem_requestHeaders_of_key hkey' hlast body) hmasked
    hlines

end TwoCredentials

/-- **A report shows a credential exactly where it is a key in a header that is neither masked nor
set by a later source.**  With another credential that is sent in the same way the request is built
as well, with the same log; and the two reports are equal if and only if the credential is hidden or
both credentials come to the same text. -/
theorem describe_eq_iff {host : Host} {endpoint : Spec.Endpoint} {inputs : Inputs}
    {api : ApiConfig} {log log' : List LogRecord} {d : Descriptor}
    (h : (buildRequest host endpoint inputs api).runWith log = (.ok d, log'))
    (auth : Option String) (apiAuth : String)
    (hway : wayOf (credentialText host (inputs.credential api)) =
      wayOf (credentialText host (auth.getD apiAuth))) :
    ∃ d', (buildRequest host endpoint (inputs.withAuth auth) (withApiAuth api apiAuth)).runWith log =
        (.ok d', log') ∧
      (d'.describe = d.describe ↔
        (wayOf (credentialText host (inputs.credential api))).IsHidden inputs api ∨
          credentialText host (inputs.credential api) =
            credentialText host (auth.getD apiAuth)) := by
  obtain ⟨entries, hentries, hheaders, hother⟩ := buildRequest_withAuth h auth apiAuth
  refine ⟨_, hother, ?_⟩
  rw [describe_eq_iff_headerLines, hheaders]
  constructor
  · intro hlines
    exact or_iff_not_imp_left.2 fun hshown =>
      credentialText_eq_of_headerLines_eq hway hentries hshown hlines.symm
  · rintro (hhidden | hsame)
    · exact headerLines_withAuth_eq_of_isHidden hway hentries hhidden d.body
    · rw [requestHeaders_withAuth_eq hsame]

/-- The reports of two requests with different bearer tokens are equal. -/
theorem describe_eq_iff_shop :
    (buildRequest bareHost shopEndpoint shopInputs shopApi).runWith [] = (.ok shopRequest, []) ∧
      wayOf (credentialText bareHost (shopInputs.credential shopApi)) =
        wayOf (credentialText bareHost "Bearer u") ∧
      ∃ d', (buildRequest bareHost shopEndpoint (shopInputs.withAuth (some "Bearer u"))
          (withApiAuth shopApi "")).runWith [] = (.ok d', []) ∧
        d'.describe = shopRequest.describe := by
  have hverbatim : wayOf (credentialText bareHost (shopInputs.credential shopApi)) = .verbatim := by
    with_unfolding_all rfl
  have hverbatim' : wayOf (credentialText bareHost "Bearer u") = .verbatim := by
    with_unfolding_all rfl
  have hway := hverbatim.trans hverbatim'.symm
  obtain ⟨d', hd', hiff⟩ := describe_eq_iff buildRequest_shop (some "Bearer u") "" hway
  exact ⟨buildRequest_shop, hway, d', hd', hiff.2 (.inl fun hkey => nomatch hverbatim ▸ hkey)⟩

/-- An API whose credential is a key in a header of its own. -/
def keyApi (key : String) : ApiConfig where
  apispec := "spec"
  url := "https://shop"
  auth := key
  cacheTtl := "24h"
  output := "json"
  headers := []
  apiKeyHeader := "X-API-Key"
  extra := []

/-- The request of this API. -/
def keyRequest (key : String) : Descriptor where
  method := .get
  url := "https://shop/p"
  path := "/p"
  query := []
  headers := [("User-Agent", "ontap/0.3.0"), ("Accept", "application/json"), ("X-API-Key", key)]
  body := .none

/-- Two keys in the header that is there for keys are sent in the same way, and each report shows
its own. -/
theorem not_forall_describe_eq :
    ¬ ∀ (host : Host) (endpoint : Spec.Endpoint) (inputs : Inputs) (api : ApiConfig)
      (auth : String) (log log' : List LogRecord) (d d' : Descriptor),
      wayOf (credentialText host api.auth) = wayOf (credentialText host auth) →
      (buildRequest host endpoint inputs api).runWith log = (.ok d, log') →
      (buildRequest host endpoint inputs (withApiAuth api auth)).runWith log = (.ok d', log') →
      d'.describe = d.describe := by
  intro hall
  have hbuilt : (buildRequest bareHost shopEndpoint {} (keyApi "k1")).runWith [] =
      (.ok (keyRequest "k1"), []) := by with_unfolding_all rfl
  have hbuilt' : (buildRequest bareHost shopEndpoint {} (keyApi "k2")).runWith [] =
      (.ok (keyRequest "k2"), []) := by with_unfolding_all rfl
  have hkey : wayOf (credentialText bareHost "k1") = .key := by with_unfolding_all rfl
  have hkey' : wayOf (credentialText bareHost "k2") = .key := by with_unfolding_all rfl
  have hsame := hall bareHost shopEndpoint {} (keyApi "k1") "k2" [] [] _ _ (hkey.trans hkey'.symm)
    hbuilt hbuilt'
  exact absurd hsame (by decide +kernel)

end ApiShell.Request
