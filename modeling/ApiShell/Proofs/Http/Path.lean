import ApiShell.Proofs.Http.Address
import ApiShell.Proofs.Http.Sending
import ApiShell.Proofs.Request.Building
import ApiShell.Proofs.Request.Header
import ApiShell.Proofs.Request.Substitution

/-!
# Values in a path

The path of a request is made of pieces: the path of the API's address, character by character, and the
template of the endpoint.  Every value is in its place when the segments on the wire are those of the
pieces between slashes, each literal character and each value encoded.

This is so exactly if the path begins at the root and no segment consists of one or two dots
(`splitAt_path_sent_iff`): encoding takes the slashes out of a value and leaves its dots.
-/

namespace ApiShell.Http

open Request (Descriptor Piece Inputs)

/-- A piece of a path in the form in which it is sent. -/
def sentPiece (values : List (String × String)) : Piece → List Char
  | .literal c => Percent.encode Url.isPathChar [c]
  | .placeholder name => Percent.encodeAll (Request.boundText values name)

/-- The text of an API's address, to which paths are added. -/
def baseText (api : ApiConfig) : List Char := Text.trimRightOf (· == '/') api.url.toList

/-- The path of an API's address and the template of an endpoint, in pieces. -/
def pathPieces (api : ApiConfig) (endpoint : Spec.Endpoint) : List Piece :=
  (Url.Raw.ofText (baseText api)).path.map .literal ++ Request.pieces endpoint.path.toList

/-- The segments of a path in which every value is in its place. -/
def placedSegments (api : ApiConfig) (endpoint : Spec.Endpoint) (inputs : Inputs) :
    List (List Char) :=
  (Request.segments (pathPieces api endpoint)).map (·.flatMap (sentPiece inputs.pathValues))

variable {values : List (String × String)}

/-- A piece is sent as it is filled in, encoded. -/
theorem encode_filled (p : Piece) :
    Percent.encode Url.isPathChar (p.filled values) = sentPiece values p := by
  cases p with
  | literal c => rfl
  | placeholder name => exact Percent.encode_encodeAll (by decide) _

theorem encode_flatMap_filled (ps : List Piece) :
    Percent.encode Url.isPathChar (ps.flatMap (Piece.filled values)) =
      ps.flatMap (sentPiece values) := by
  induction ps with
  | nil => rfl
  | cons p ps ih => rw [List.flatMap_cons, Percent.encode_append, encode_filled, ih]; rfl

/-- The segments of pieces that are sent are the pieces between slashes. -/
theorem splitAt_flatMap_sentPiece (ps : List Piece) :
    Text.splitAt '/' (ps.flatMap (sentPiece values)) =
      (Request.segments ps).map (·.flatMap (sentPiece values)) := by
  have hslash : sentPiece values (.literal '/') = ['/'] := Url.encode_slash
  refine Text.splitAt_flatMap hslash (fun p hp => ?_) ps
  cases p with
  | literal c => exact Url.slash_notMem_encode fun hc => hp (hc ▸ rfl)
  | placeholder name => exact Request.notMem_encodeAll (by decide) _

/-- A mark that is reserved stands in a filled template only where it stands in the template. -/
theorem notMem_flatMap_filled {c : Char} (hc : c ≠ '%' ∧ Percent.isUnreserved c = false)
    {template : List Char} (h : c ∉ template) :
    c ∉ (Request.pieces template).flatMap (Piece.filled values) := by
  intro hmem
  obtain ⟨p, hp, hmem⟩ := List.mem_flatMap.1 hmem
  cases p with
  | literal d =>
    obtain rfl := List.mem_singleton.1 hmem
    exact h (Request.mem_of_literal_mem_pieces hp)
  | placeholder name => exact Request.notMem_encodeAll hc _ hmem

section Sent

variable {host : Host} {endpoint : Spec.Endpoint} {inputs : Inputs} {api : ApiConfig}
  {d : Descriptor} {client : Client} {server : Server} {before : List Sent} {request : Sent}

/-- The text behind the address of an API. -/
def filledPath (endpoint : Spec.Endpoint) (inputs : Inputs) : List Char :=
  (Request.pieces endpoint.path.toList).flatMap (Piece.filled inputs.pathValues)

/-- The address of a request is the text of the API's address and the filled template. -/
theorem url_of_buildRequest (h : (Request.buildRequest host endpoint inputs api).answer = .ok d) :
    d.url = String.ofList (baseText api ++ filledPath endpoint inputs) := by
  obtain ⟨head, body, hhead, -, rfl⟩ := Request.of_buildRequest h
  obtain ⟨path, hpath, hurl⟩ := Request.url_of_buildHead hhead
  obtain ⟨cs, hfill, rfl⟩ := map_eq_ok_iff.1 hpath
  rw [Request.eq_flatMap_of_fill hfill] at hurl
  rw [String.ofList_append]
  exact hurl

/-- The segments of the API's path and the filled template, encoded, are those in which every value is
in its place. -/
theorem splitAt_encode_path (api : ApiConfig) (endpoint : Spec.Endpoint) (inputs : Inputs) :
    Text.splitAt '/' (Percent.encode Url.isPathChar
      ((Url.Raw.ofText (baseText api)).path ++ filledPath endpoint inputs)) =
        placedSegments api endpoint inputs := by
  have hpath : (Url.Raw.ofText (baseText api)).path ++ filledPath endpoint inputs =
      (pathPieces api endpoint).flatMap (Piece.filled inputs.pathValues) := by
    rw [pathPieces, List.flatMap_append, List.flatMap_map]
    exact congrArg (· ++ _) (List.flatMap_singleton' _).symm
  rw [hpath, encode_flatMap_filled, splitAt_flatMap_sentPiece]
  rfl

/-- **The path of a request.**  Below an absolute address of an API, and without marks of a query or a
fragment in this address and in the template, the segments of the path on the wire are those of the
API's path and the template, each value encoded in its place, exactly if the path begins at the root
and none of these segments consists of one or two dots. -/
theorem splitAt_path_sent_iff (hmarks : ∀ c ∈ ['?', '#'], c ∉ api.url.toList ∧ c ∉ endpoint.path.toList)
    (habsolute : ∃ u, Url.ofText (String.ofList (baseText api)) = .ok u ∧ u.isAbsolute = true)
    (hbuilt : (Request.buildRequest host endpoint inputs api).answer = .ok d)
    (hsent : (received client server d before).2 = before ++ [request]) :
    Text.splitAt '/' request.url.path = placedSegments api endpoint inputs ↔
      (placedSegments api endpoint inputs).head? = some [] ∧
        ∀ s ∈ placedSegments api endpoint inputs, Url.isDots s = false := by
  obtain ⟨u, hbase, habsolute⟩ := habsolute
  obtain ⟨address, headers, url, body, described, haddress, -, hurl, -, rfl⟩ :=
    wire_eq_ok_iff.1 (received_eq_append_iff.1 hsent)
  rw [url_of_buildRequest hbuilt] at haddress
  have hmark {c : Char} (hc : c ∈ ['?', '#']) :
      c ∉ baseText api ++ filledPath endpoint inputs := by
    have hreserved : ∀ c ∈ ['?', '#'], c ≠ '%' ∧ Percent.isUnreserved c = false :=
      List.forall_mem_cons.2 ⟨by decide, List.forall_mem_singleton.2 (by decide)⟩
    rw [List.mem_append, not_or]
    refine ⟨fun hmem => (hmarks c hc).1 ?_, notMem_flatMap_filled (hreserved c hc) (hmarks c hc).2⟩
    exact List.mem_reverse.1 ((List.dropWhile_sublist _).mem (List.mem_reverse.1 hmem))
  have hpath (hrooted : (placedSegments api endpoint inputs).head? = some []) :
      Url.IsRooted ((Url.Raw.ofText (baseText api)).path ++ filledPath endpoint inputs) ∧
      url.path = Percent.encode Url.isPathChar (Url.normalPath
        ((Url.Raw.ofText (baseText api)).path ++ filledPath endpoint inputs)) := by
    rw [← splitAt_encode_path, ← Url.isRooted_iff_head?_splitAt, Url.isRooted_encode_iff] at hrooted
    exact ⟨hrooted, Url.path_of_sent (hmark (by decide)) (hmark (by decide)) hbase habsolute hrooted
      haddress hurl⟩
  constructor
  · intro hplaced
    have hrooted : (placedSegments api endpoint inputs).head? = some [] := by
      rw [← hplaced, ← Url.isRooted_iff_head?_splitAt]
      exact Url.isRooted_of_sent haddress hurl
    refine ⟨hrooted, fun s hs => ?_⟩
    obtain ⟨hrooted, hpath⟩ := hpath hrooted
    rw [← hplaced] at hs
    exact Url.isDots_of_mem_splitAt_encode hrooted (hpath ▸ hs)
  · rintro ⟨hrooted, hdots⟩
    obtain ⟨hrooted, hpath⟩ := hpath hrooted
    rw [← splitAt_encode_path, Url.splitAt_encode] at hdots
    have hnormal := Url.normalPath_eq_self fun s hs =>
      Url.isDots_encode s ▸ hdots _ (List.mem_map_of_mem hs)
    show Text.splitAt '/' url.path = _
    rw [hpath, hnormal, splitAt_encode_path]

end Sent

/-- An API below a path, without headers of its own and without credential. -/
def versionedApi : ApiConfig :=
  { Request.shopApi with url := "https://shop/v1/", auth := "", headers := [] }

/-- The endpoint for the photos of a pet. -/
def photosEndpoint : Spec.Endpoint := { Request.shopEndpoint with path := "/pets/{petId}/photos" }

/-- The pet that a user asks for. -/
def petInputs (pet : String) : Inputs := { pathValues := [("petId", pet)] }

/-- The request for the photos of a pet whose name is written `name` in an address. -/
def photosRequest (name : String) : Descriptor where
  method := .get
  url := "https://shop/v1/pets/" ++ name ++ "/photos"
  path := "/pets/" ++ name ++ "/photos"
  query := []
  headers := [("User-Agent", "ontap/0.3.0"), ("Accept", "application/json")]
  body := .none

/-- A request on the wire for a path of the API. -/
def pathSent (path : String) : Sent where
  method := "GET"
  url := ⟨"https".toList, [], "shop".toList, none, path.toList, none, none⟩
  headers := [("user-agent", "ontap/0.3.0"), ("accept", "application/json"), ("host", "shop")]
  body := []

theorem isAbsolute_versionedApi :
    ∃ u, Url.ofText (String.ofList (baseText versionedApi)) = .ok u ∧ u.isAbsolute = true :=
  ⟨⟨"https".toList, [], "shop".toList, none, "/v1".toList, none, none⟩,
    by with_unfolding_all rfl, by decide⟩

theorem notMem_versionedApi :
    ∀ c ∈ ['?', '#'], c ∉ versionedApi.url.toList ∧ c ∉ photosEndpoint.path.toList :=
  List.forall_mem_cons.2 ⟨by decide, List.forall_mem_singleton.2 (by decide)⟩

/-- A slash and dots in a value stay in their segment. -/
theorem splitAt_path_sent_iff_photos :
    (∀ c ∈ ['?', '#'], c ∉ versionedApi.url.toList ∧ c ∉ photosEndpoint.path.toList) ∧
    (∃ u, Url.ofText (String.ofList (baseText versionedApi)) = .ok u ∧ u.isAbsolute = true) ∧
    (Request.buildRequest Request.bareHost photosEndpoint (petInputs "../x") versionedApi).answer =
      .ok (photosRequest "..%2Fx") ∧
    (received promptClient silentServer (photosRequest "..%2Fx") []).2 =
      [] ++ [pathSent "/v1/pets/..%2Fx/photos"] ∧
    Text.splitAt '/' (pathSent "/v1/pets/..%2Fx/photos").url.path =
      placedSegments versionedApi photosEndpoint (petInputs "../x") := by
  have hbuilt : (Request.buildRequest Request.bareHost photosEndpoint (petInputs "../x")
      versionedApi).answer = .ok (photosRequest "..%2Fx") := by with_unfolding_all rfl
  have hsent : (received promptClient silentServer (photosRequest "..%2Fx") []).2 =
      [] ++ [pathSent "/v1/pets/..%2Fx/photos"] :=
    received_eq_append_iff.2 (by with_unfolding_all rfl)
  have hplaced : placedSegments versionedApi photosEndpoint (petInputs "../x") =
      ["".toList, "v1".toList, "pets".toList, "..%2Fx".toList, "photos".toList] := by
    with_unfolding_all rfl
  refine ⟨notMem_versionedApi, isAbsolute_versionedApi, hbuilt, hsent, ?_⟩
  refine (splitAt_path_sent_iff notMem_versionedApi isAbsolute_versionedApi hbuilt hsent).2 ?_
  rw [hplaced]
  exact ⟨rfl, by decide⟩

/-- A value of two dots takes the segment before it away, although neither the address nor the template
has such a segment. -/
theorem not_forall_splitAt_path_eq :
    ¬ ∀ (host : Host) (endpoint : Spec.Endpoint) (inputs : Inputs) (api : ApiConfig) (d : Descriptor)
      (client : Client) (server : Server) (before : List Sent) (request : Sent),
      (∀ c ∈ ['?', '#'], c ∉ api.url.toList ∧ c ∉ endpoint.path.toList) →
      (∃ u, Url.ofText (String.ofList (baseText api)) = .ok u ∧ u.isAbsolute = true) →
      endpoint.path.toList.head? = some '/' →
      (∀ dots ∈ [['.'], ['.', '.']],
        dots.map Piece.literal ∉ Request.segments (pathPieces api endpoint)) →
      (∀ v ∈ inputs.pathValues, v.2 ≠ "") →
      (Request.buildRequest host endpoint inputs api).answer = .ok d →
      (received client server d before).2 = before ++ [request] →
      Text.splitAt '/' request.url.path = placedSegments api endpoint inputs := by
  intro hall
  have hbuilt : (Request.buildRequest Request.bareHost photosEndpoint (petInputs "..")
      versionedApi).answer = .ok (photosRequest "..") := by with_unfolding_all rfl
  have hsent : (received promptClient silentServer (photosRequest "..") []).2 =
      [] ++ [pathSent "/v1/photos"] := received_eq_append_iff.2 (by with_unfolding_all rfl)
  have hsegments : Request.segments (pathPieces versionedApi photosEndpoint) =
      [[], "v1".toList.map .literal, "pets".toList.map .literal, [.placeholder "petId".toList],
        "photos".toList.map .literal] := by
    with_unfolding_all rfl
  have hplaced : placedSegments versionedApi photosEndpoint (petInputs "..") =
      ["".toList, "v1".toList, "pets".toList, "..".toList, "photos".toList] := by
    with_unfolding_all rfl
  have hsame := hall _ _ _ _ _ _ _ _ _ notMem_versionedApi isAbsolute_versionedApi (by decide)
    (by rw [hsegments]; decide) (by decide) hbuilt hsent
  rw [hplaced] at hsame
  exact absurd hsame (by decide)

end ApiShell.Http
