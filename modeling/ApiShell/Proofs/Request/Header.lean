import ApiShell.Proofs.Request.Building
import Mathlib.Data.List.Induction
import Mathlib.Data.List.Nodup

/-!
# The last source of a header wins

The headers of a request come from several sources, which are written one after the other into one
list.  What such a list holds after any number of writes has an exact description: `Holds` says that
its names are distinct up to case and that its entries are those that are written last among the
writes of their name.  Setting a header keeps the description, and so does setting several.  The
content type of a JSON body is set in a way of its own, only where no header of that name is there: it
counts as a write before all others.
-/

namespace ApiShell.Request

/-! ### The last entry of a name -/

theorem sameHeader_iff {a b : String} : sameHeader a b = true ↔ Text.lower a = Text.lower b :=
  beq_iff_eq

theorem sameHeader_comm {a b : String} : sameHeader a b = true ↔ sameHeader b a = true := by
  rw [sameHeader_iff, sameHeader_iff, eq_comm]

theorem sameHeader_trans {a b c : String} (hab : sameHeader a b = true)
    (hbc : sameHeader b c = true) : sameHeader a c = true :=
  sameHeader_iff.2 ((sameHeader_iff.1 hab).trans (sameHeader_iff.1 hbc))

/-- The entry is the last one of its name. -/
def IsLastOf (writes : Headers) (h : String × String) : Prop :=
  ∃ before after, writes = before ++ h :: after ∧ ∀ x ∈ after, ¬ sameHeader x.1 h.1

theorem IsLastOf.mem {writes : Headers} {h : String × String} (hlast : IsLastOf writes h) :
    h ∈ writes := by
  obtain ⟨before, after, rfl, -⟩ := hlast
  exact List.mem_append_right before List.mem_cons_self

/-- A write that comes last is the last one of its name and of no other. -/
theorem isLastOf_concat {writes : Headers} {e h : String × String} :
    IsLastOf (writes ++ [e]) h ↔ h = e ∨ IsLastOf writes h ∧ ¬ sameHeader h.1 e.1 := by
  constructor
  · rintro ⟨before, after, hwrites, hafter⟩
    rcases List.eq_nil_or_concat after with rfl | ⟨after, x, rfl⟩
    · have hlast := (List.append_inj' hwrites rfl).2
      exact .inl (List.cons.inj hlast).1.symm
    · rw [List.concat_eq_append] at hwrites hafter
      have hsplit : writes ++ [e] = (before ++ h :: after) ++ [x] := by
        rw [hwrites, List.append_assoc, List.cons_append]
      obtain ⟨hbefore, hx⟩ := List.append_inj' hsplit rfl
      obtain rfl := (List.cons.inj hx).1
      refine .inr ⟨⟨before, after, hbefore, fun y hy => ?_⟩, fun hsame => ?_⟩
      · exact hafter y (List.mem_append_left _ hy)
      · exact hafter e (List.mem_append_right _ List.mem_cons_self) (sameHeader_comm.1 hsame)
  · rintro (rfl | ⟨⟨before, after, rfl, hafter⟩, hother⟩)
    · exact ⟨writes, [], rfl, fun x hx => absurd hx List.not_mem_nil⟩
    · refine ⟨before, after ++ [e], by rw [List.append_assoc, List.cons_append], fun x hx => ?_⟩
      rcases List.mem_append.1 hx with hx | hx
      · exact hafter x hx
      · rw [List.mem_singleton.1 hx]
        exact fun hsame => hother (sameHeader_comm.1 hsame)

/-- A write before all others is the last one of its name where no other has its name. -/
theorem isLastOf_cons {writes : Headers} {e h : String × String} :
    IsLastOf (e :: writes) h ↔
      IsLastOf writes h ∨ h = e ∧ ∀ x ∈ writes, ¬ sameHeader x.1 e.1 := by
  constructor
  · rintro ⟨before, after, hwrites, hafter⟩
    cases before with
    | nil =>
      obtain ⟨rfl, rfl⟩ := List.cons.inj hwrites
      exact .inr ⟨rfl, hafter⟩
    | cons b before =>
      obtain ⟨-, rfl⟩ := List.cons.inj hwrites
      exact .inl ⟨before, after, rfl, hafter⟩
  · rintro (⟨before, after, rfl, hafter⟩ | ⟨rfl, hnone⟩)
    · exact ⟨e :: before, after, rfl, hafter⟩
    · exact ⟨[], writes, rfl, hnone⟩

/-- Every name that is written is written for a last time. -/
theorem exists_isLastOf {writes : Headers} {x : String × String} (hx : x ∈ writes) :
    ∃ h, IsLastOf writes h ∧ sameHeader h.1 x.1 := by
  induction writes using List.reverseRecOn with
  | nil => cases hx
  | append_singleton writes e ih =>
    by_cases hsame : sameHeader e.1 x.1
    · exact ⟨e, isLastOf_concat.2 (.inl rfl), hsame⟩
    · have hmem : x ∈ writes := by
        refine (List.mem_append.1 hx).resolve_right fun hxe => hsame ?_
        rw [List.mem_singleton.1 hxe]
        exact sameHeader_iff.2 rfl
      obtain ⟨h, hlast, hname⟩ := ih hmem
      refine ⟨h, isLastOf_concat.2 (.inr ⟨hlast, fun he => hsame ?_⟩), hname⟩
      exact sameHeader_trans (sameHeader_comm.1 he) hname

/-! ### What headers hold after writes -/

/-- The headers hold of each name that is written the last entry, and each name once up to case. -/
structure Holds (headers writes : Headers) : Prop where
  nodup : (headers.map fun h => Text.lower h.1).Nodup
  mem_iff : ∀ h, h ∈ headers ↔ IsLastOf writes h

theorem holds_nil : Holds [] [] where
  nodup := .nil
  mem_iff := fun _ => iff_of_false List.not_mem_nil fun hlast => List.not_mem_nil hlast.mem

/-- A header is there exactly where its name has been written. -/
theorem Holds.hasHeader_iff {headers writes : Headers} (h : Holds headers writes) (name : String) :
    hasHeader headers name = true ↔ ∃ x ∈ writes, sameHeader x.1 name := by
  rw [hasHeader, List.any_eq_true]
  constructor
  · rintro ⟨x, hx, hname⟩
    exact ⟨x, ((h.mem_iff x).1 hx).mem, hname⟩
  · rintro ⟨x, hx, hname⟩
    obtain ⟨y, hlast, hsame⟩ := exists_isLastOf hx
    exact ⟨y, (h.mem_iff y).2 hlast, sameHeader_trans hsame hname⟩

/-- A header that no name of the others equals up to case comes to them. -/
theorem nodup_concat {headers : Headers} {e : String × String}
    (hnodup : (headers.map fun h => Text.lower h.1).Nodup)
    (hother : ∀ h ∈ headers, ¬ sameHeader h.1 e.1) :
    ((headers ++ [e]).map fun h => Text.lower h.1).Nodup := by
  rw [List.map_append, List.map_singleton, List.nodup_append_comm, List.singleton_append,
    List.nodup_cons]
  refine ⟨fun hmem => ?_, hnodup⟩
  obtain ⟨h, hh, hname⟩ := List.mem_map.1 hmem
  exact hother h hh (sameHeader_iff.2 hname)

theorem mem_setHeader {headers : Headers} {name value : String} {h : String × String} :
    h ∈ setHeader headers name value ↔
      h = (name, value) ∨ h ∈ headers ∧ ¬ sameHeader h.1 name := by
  rw [setHeader, List.mem_append, List.mem_filter, List.mem_singleton, Bool.not_eq_true',
    Bool.not_eq_true, or_comm]

/-- Setting a header is one more write. -/
theorem Holds.setHeader {headers writes : Headers} (h : Holds headers writes)
    (e : String × String) : Holds (setHeader headers e.1 e.2) (writes ++ [e]) where
  nodup := by
    refine nodup_concat (h.nodup.sublist (List.filter_sublist.map _)) fun x hx hsame => ?_
    have hother := (List.mem_filter.1 hx).2
    rw [hsame] at hother
    exact Bool.false_ne_true hother
  mem_iff := fun x => by rw [mem_setHeader, isLastOf_concat, h.mem_iff]

/-- Setting several headers is writing them one after the other. -/
theorem Holds.setHeaders {headers writes : Headers} (h : Holds headers writes) (more : Headers) :
    Holds (setHeaders headers more) (writes ++ more) := by
  induction more using List.reverseRecOn with
  | nil =>
    rw [List.append_nil]
    exact h
  | append_singleton more e ih =>
    rw [Request.setHeaders, List.foldl_append, List.foldl_cons, List.foldl_nil, ← List.append_assoc]
    exact ih.setHeader e

/-- A header that is put only where none of its name is there counts as the first write. -/
theorem Holds.putAbsent {headers writes : Headers} (h : Holds headers writes)
    (e : String × String) :
    Holds (if hasHeader headers e.1 then headers else headers ++ [e]) (e :: writes) := by
  by_cases hthere : hasHeader headers e.1 = true
  · rw [if_pos hthere]
    obtain ⟨x, hx, hname⟩ := (h.hasHeader_iff e.1).1 hthere
    refine ⟨h.nodup, fun y => ?_⟩
    rw [h.mem_iff, isLastOf_cons, or_iff_left]
    exact fun hy => hy.2 x hx hname
  · rw [if_neg hthere]
    have hnone : ∀ x ∈ writes, ¬ sameHeader x.1 e.1 := fun x hx hname =>
      hthere ((h.hasHeader_iff e.1).2 ⟨x, hx, hname⟩)
    refine ⟨nodup_concat h.nodup fun x hx => hnone x ((h.mem_iff x).1 hx).mem, fun y => ?_⟩
    rw [List.mem_append, List.mem_singleton, h.mem_iff, isLastOf_cons, and_iff_left hnone]

/-! ### The headers of a request -/

/-- The content type of a JSON body for which no source names one. -/
def jsonContentType : String × String := ("Content-Type", "application/json")

/-- The content type that the user asks for. -/
def Inputs.contentTypeEntry (inputs : Inputs) : List (String × String) :=
  match inputs.contentType with
  | some t => if t = "" then [] else [("Content-Type", t)]
  | none => []

/-- What all sources say, each source after those that it goes before; `entries` are the headers that
the user writes out. -/
def suppliedHeaders (host : Host) (inputs : Inputs) (api : ApiConfig)
    (entries : List (String × String)) : Headers :=
  defaultHeaders ++ api.headers ++
    (resolveAuth host (inputs.credential api) api.apiKeyHeader).toList ++
    parameterHeaders inputs.parameters ++ cookieHeader inputs.parameters ++ entries ++
    inputs.contentTypeEntry

theorem holds_defaultHeaders : Holds defaultHeaders defaultHeaders := by
  have h := holds_nil.setHeaders defaultHeaders
  have hset : setHeaders [] defaultHeaders = defaultHeaders := by decide
  rw [hset] at h
  exact h

/-- The header that a body brings along. -/
def Body.impliedHeaders : Body → Headers
  | .json _ => [jsonContentType]
  | _ => []

/-- The body is JSON. -/
def Body.IsJson (body : Body) : Prop := ∃ v, body = .json v

theorem Body.impliedHeaders_eq_nil {body : Body} (h : ¬ body.IsJson) : body.impliedHeaders = [] := by
  cases body with
  | none => rfl
  | json v => exact absurd ⟨v, rfl⟩ h
  | form fields files => rfl

/-- The header of a body counts as the first write, the content type of the user as the last one. -/
theorem Holds.bodyHeaders {headers writes : Headers} (h : Holds headers writes) (body : Body)
    (inputs : Inputs) :
    Holds (bodyHeaders headers body inputs.contentType)
      (body.impliedHeaders ++ writes ++ inputs.contentTypeEntry) := by
  have hbody : Holds (match body with
      | .json _ => if hasHeader headers "Content-Type" then headers
        else headers ++ [("Content-Type", "application/json")]
      | _ => headers) (body.impliedHeaders ++ writes) := by
    cases body with
    | none => exact h
    | json v => exact h.putAbsent jsonContentType
    | form fields files => exact h
  unfold Request.bodyHeaders Inputs.contentTypeEntry
  cases inputs.contentType with
  | none =>
    rw [List.append_nil]
    exact hbody
  | some t =>
    dsimp only
    by_cases hempty : t = ""
    · rw [if_pos hempty, if_pos hempty, List.append_nil]
      exact hbody
    · rw [if_neg hempty, if_neg hempty]
      exact hbody.setHeader ("Content-Type", t)

/-- The headers of a request hold what all sources say, and before that what its body implies. -/
theorem holds_of_buildRequest {host : Host} {endpoint : Spec.Endpoint} {inputs : Inputs}
    {api : ApiConfig} {d : Descriptor}
    (h : (buildRequest host endpoint inputs api).answer = .ok d) :
    ∃ entries, inputs.headers.mapM parseHeader = .ok entries ∧
      Holds d.headers (d.body.impliedHeaders ++ suppliedHeaders host inputs api entries) := by
  obtain ⟨head, body, hhead, -, rfl⟩ := of_buildRequest h
  obtain ⟨queries, entries, -, hentries, -, hheaders⟩ := of_buildHead hhead
  have hsources := holds_defaultHeaders.setHeaders (sourceHeaders host inputs api)
  have hheld := (hsources.setHeaders entries).bodyHeaders body inputs
  refine ⟨entries, hentries, ?_⟩
  rw [← hheaders] at hheld
  simpa only [suppliedHeaders, sourceHeaders, List.append_assoc] using hheld

/-- What a body implies is there where no source says anything else. -/
theorem Holds.mem_iff_of_impliedHeaders {headers writes : Headers} {body : Body}
    (h : Holds headers (body.impliedHeaders ++ writes)) (e : String × String) :
    e ∈ headers ↔ IsLastOf writes e ∨
      e = jsonContentType ∧ body.IsJson ∧ ∀ x ∈ writes, ¬ sameHeader x.1 jsonContentType.1 := by
  rw [h.mem_iff]
  by_cases hjson : body.IsJson
  · obtain ⟨v, rfl⟩ := id hjson
    rw [Body.impliedHeaders, List.singleton_append, isLastOf_cons, and_iff_right hjson]
  · rw [Body.impliedHeaders_eq_nil hjson, List.nil_append, or_iff_left]
    exact fun hnone => hjson hnone.2.1

/-- **The last source of a header wins.**  The names of the headers of a request are distinct up to
case; every name for which a source has a header is there; and the headers are those that come last
of their name when the sources are written down in their order, and the content type of a JSON body
where no source has one. -/
theorem buildRequest_headers {host : Host} {endpoint : Spec.Endpoint} {inputs : Inputs}
    {api : ApiConfig} {log log' : List LogRecord} {d : Descriptor}
    (h : (buildRequest host endpoint inputs api).runWith log = (.ok d, log')) :
    ∃ entries, inputs.headers.mapM parseHeader = .ok entries ∧
      (d.headers.map fun h => Text.lower h.1).Nodup ∧
      (∀ s ∈ suppliedHeaders host inputs api entries, ∃ h ∈ d.headers, sameHeader h.1 s.1) ∧
      ∀ h, h ∈ d.headers ↔ IsLastOf (suppliedHeaders host inputs api entries) h ∨
        h = jsonContentType ∧ d.body.IsJson ∧
          ∀ s ∈ suppliedHeaders host inputs api entries, ¬ sameHeader s.1 jsonContentType.1 := by
  rw [appendsOnly_buildRequest] at h
  obtain ⟨entries, hentries, hheld⟩ := holds_of_buildRequest (congrArg Prod.fst h)
  refine ⟨entries, hentries, hheld.nodup, fun s hs => ?_, hheld.mem_iff_of_impliedHeaders⟩
  obtain ⟨last, hlast, hname⟩ := exists_isLastOf hs
  exact ⟨last, (hheld.mem_iff_of_impliedHeaders last).2 (.inl hlast), hname⟩

/-- A host without files. -/
def bareHost : Host where
  environment := []
  directory := []
  files := .empty

/-- An endpoint that says nothing but its path. -/
def shopEndpoint : Spec.Endpoint where
  path := "/p"
  method := .get
  operationId := ""
  summary := ""
  description := ""
  parameters := []
  requestBody := none
  responses := []
  tags := []
  security := []
  deprecated := false

/-- An API with a credential and with two headers that other sources have as well. -/
def shopApi : ApiConfig where
  apispec := "spec"
  url := "https://shop"
  auth := "Bearer t"
  cacheTtl := "24h"
  output := "json"
  headers := [("AUTHORIZATION", "old"), ("X-Trace", "0")]
  apiKeyHeader := "X-API-Key"
  extra := []

/-- An API without headers of its own and without credential. -/
def openApi : ApiConfig := { shopApi with auth := "", headers := [] }

/-- Inputs with a header, a cookie, two headers written out, and data. -/
def shopInputs : Inputs where
  parameters := [⟨"x-trace", .header, .bool true⟩, ⟨"session", .cookie, .text "s"⟩]
  headers := ["ACCEPT: text/csv", "cookie: none"]
  data := some "true"

/-- The request that these make. -/
def shopRequest : Descriptor where
  method := .get
  url := "https://shop/p"
  path := "/p"
  query := []
  headers := [
    ("User-Agent", "ontap/0.3.0"),
    ("Authorization", "Bearer t"),
    ("x-trace", "true"),
    ("ACCEPT", "text/csv"),
    ("cookie", "none"),
    ("Content-Type", "application/json")]
  body := .json (.bool true)

theorem buildRequest_shop :
    (buildRequest bareHost shopEndpoint shopInputs shopApi).runWith [] = (.ok shopRequest, []) := by
  with_unfolding_all rfl

/-- Four of these headers stand in the place of one that an earlier source has. -/
theorem buildRequest_headers_shop :
    (buildRequest bareHost shopEndpoint shopInputs shopApi).runWith [] = (.ok shopRequest, []) ∧
      ∃ entries, shopInputs.headers.mapM parseHeader = .ok entries ∧
        (shopRequest.headers.map fun h => Text.lower h.1).Nodup ∧
        (∀ s ∈ suppliedHeaders bareHost shopInputs shopApi entries,
          ∃ h ∈ shopRequest.headers, sameHeader h.1 s.1) ∧
        ∀ h, h ∈ shopRequest.headers ↔
          IsLastOf (suppliedHeaders bareHost shopInputs shopApi entries) h ∨
            h = jsonContentType ∧ shopRequest.body.IsJson ∧
              ∀ s ∈ suppliedHeaders bareHost shopInputs shopApi entries,
                ¬ sameHeader s.1 jsonContentType.1 :=
  ⟨buildRequest_shop, buildRequest_headers buildRequest_shop⟩

end ApiShell.Request
