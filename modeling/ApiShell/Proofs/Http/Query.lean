import ApiShell.Proofs.Http.Address
import ApiShell.Proofs.Http.Sending
import ApiShell.Proofs.Request.Header
import Mathlib.Data.List.Perm.Basic

/-!
# The query of a request

A query is read as pairs: pieces between `&`, each a key and a value around its first `=`, with plus
signs for spaces and percent signs for bytes.  The text of a list of pairs is read as these pairs, those
of a key next to each other (`readPairs_queryText`).

On the wire the pairs of a descriptor stand in the place of the query of its address.  So what is sent
is what a report of the descriptor shows, its address and then its pairs, exactly if the address has no
pairs and those of a key stand together (`carriesQuery_of_sent`).
-/

namespace ApiShell.Http

open Request (Descriptor)

namespace Url

/-! ### Reading a query -/

/-- A part of a query, decoded. -/
def readPart (cs : List Char) : String :=
  String.ofList (Text.ofUtf8Lenient (Percent.decode (Percent.plusAsSpace cs)))

/-- A piece of a query; without an equals sign it is a key. -/
def readPair (cs : List Char) : String × String :=
  match Text.cutAt? '=' cs with
  | some (key, value) => (readPart key, readPart value)
  | none => (readPart cs, "")

/-- The pairs of a query; empty pieces are none. -/
def readPairs (query : List Char) : List (String × String) :=
  ((Text.splitAt '&' query).filter (!·.isEmpty)).map readPair

/-- A pair as a piece of a query. -/
def pairText (p : String × String) : List Char :=
  Percent.encodeForm p.1.toList ++ '=' :: Percent.encodeForm p.2.toList

theorem readPart_encodeForm (s : String) : readPart (Percent.encodeForm s.toList) = s := by
  rw [readPart, Percent.plusAsSpace_encodeForm, Percent.decode_encode (by decide),
    Text.ofUtf8Lenient_utf8, String.ofList_toList]

theorem notMem_encodeForm {c : Char} (h : c ≠ '+' ∧ c ≠ '%' ∧ Percent.isUnreserved c = false)
    (cs : List Char) : c ∉ Percent.encodeForm cs := by
  intro hc
  rcases Percent.mem_encodeForm hc with hc | hc | hc
  · exact h.1 hc
  · exact h.2.1 hc
  · rw [h.2.2] at hc
    cases hc

theorem readPair_pairText (p : String × String) : readPair (pairText p) = p := by
  have hkey : '=' ∉ Percent.encodeForm p.1.toList := notMem_encodeForm (by decide) _
  rw [readPair, pairText, Text.cutAt?_append hkey]
  exact Prod.ext (readPart_encodeForm p.1) (readPart_encodeForm p.2)

theorem mem_pairText {p : String × String} {c : Char} (h : c ∈ pairText p) :
    c = '=' ∨ c = '+' ∨ c = '%' ∨ Percent.isUnreserved c = true := by
  rcases List.mem_append.1 h with hc | hc
  · exact .inr (Percent.mem_encodeForm hc)
  · rcases List.mem_cons.1 hc with hc | hc
    · exact .inl hc
    · exact .inr (Percent.mem_encodeForm hc)

/-- The text of pairs is read as these pairs, those of a key next to each other. -/
theorem readPairs_queryText (pairs : List (String × String)) :
    readPairs (queryText pairs) = grouped pairs := by
  show readPairs (Text.joinWith ['&'] ((grouped pairs).map pairText)) = _
  generalize grouped pairs = ps
  cases ps with
  | nil => rfl
  | cons p ps =>
    have hpieces : ∀ piece ∈ (p :: ps).map pairText, '&' ∉ piece := by
      intro piece hpiece hmem
      obtain ⟨q, -, rfl⟩ := List.mem_map.1 hpiece
      have hc := mem_pairText hmem
      revert hc
      decide
    have hfull : ∀ piece ∈ (p :: ps).map pairText, (!piece.isEmpty) = true := by
      intro piece hpiece
      obtain ⟨q, -, rfl⟩ := List.mem_map.1 hpiece
      simp [pairText]
    rw [readPairs, Text.splitAt_joinWith (by simp) hpieces, List.filter_eq_self.2 hfull,
      List.map_map]
    exact (List.map_congr_left fun q _ => readPair_pairText q).trans (List.map_id _)

/-- The text of pairs is written in characters that stand for themselves in a query. -/
theorem encode_queryText (pairs : List (String × String)) :
    Percent.encode isQueryChar (queryText pairs) = queryText pairs := by
  refine Percent.encode_eq_self fun c hc => ?_
  rcases Text.mem_joinWith hc with hc | ⟨piece, hpiece, hc⟩
  · obtain rfl := List.mem_singleton.1 hc
    exact .inr (by decide)
  · obtain ⟨q, -, rfl⟩ := List.mem_map.1 hpiece
    rcases mem_pairText hc with rfl | rfl | rfl | hc
    · exact .inr (by decide)
    · exact .inr (by decide)
    · exact .inr (by decide)
    · exact .inl hc

/-! ### Pairs of one key -/

variable {p q : String × String} {pairs : List (String × String)}

/-- Between two pairs of a key stand only pairs of this key. -/
def AreTogether (pairs : List (String × String)) : Prop :=
  ∀ p q r, [p, q, r].Sublist pairs → p.1 = r.1 → q.1 = p.1

theorem AreTogether.of_sublist {ps qs : List (String × String)} (h : AreTogether qs)
    (hsub : ps.Sublist qs) : AreTogether ps :=
  fun p q r hpqr => h p q r (hpqr.trans hsub)

/-- The pairs of the first key come first. -/
theorem grouped_cons (p : String × String) (pairs : List (String × String)) :
    grouped (p :: pairs) =
      p :: pairs.filter (·.1 == p.1) ++ grouped (pairs.filter (!·.1 == p.1)) := by
  have hkeys : ((pairs.map Prod.fst).filter fun key => !key == p.1) =
      (pairs.filter (!·.1 == p.1)).map Prod.fst := List.filter_map ..
  have hothers : ∀ key ∈ ((pairs.filter (!·.1 == p.1)).map Prod.fst).eraseDups,
      (p :: pairs).filter (·.1 == key) = (pairs.filter (!·.1 == p.1)).filter (·.1 == key) := by
    intro key hkey
    obtain ⟨q, hq, rfl⟩ := List.mem_map.1 (List.mem_eraseDups.1 hkey)
    have hne : q.1 ≠ p.1 := by simpa using (List.mem_filter.1 hq).2
    rw [List.filter_cons_of_neg (by simpa using Ne.symm hne), List.filter_filter]
    refine List.filter_congr fun r _ => ?_
    by_cases hr : r.1 = q.1
    · simp [hr, hne]
    · simp [hr]
  rw [grouped, List.map_cons, List.eraseDups_cons, List.flatMap_cons, hkeys,
    List.filter_cons_of_pos (by simp)]
  congr 1
  rw [grouped, List.flatMap_def, List.flatMap_def, List.map_congr_left hothers]

/-- What holds of no pairs, and of pairs if it holds of those without the first key, holds of all. -/
theorem grouped_induction {motive : List (String × String) → Prop} (nil : motive [])
    (cons : ∀ p pairs, motive (pairs.filter (!·.1 == p.1)) → motive (p :: pairs))
    (pairs : List (String × String)) : motive pairs := by
  induction hn : pairs.length using Nat.strongRecOn generalizing pairs with
  | ind n ih =>
    cases pairs with
    | nil => exact nil
    | cons p pairs =>
      have hshorter := List.length_filter_le (fun q : String × String => !q.1 == p.1) pairs
      rw [List.length_cons] at hn
      exact cons p pairs (ih _ (by omega) _ rfl)

/-- Grouping keeps the pairs of each key in their order. -/
theorem filter_grouped (key : String) (pairs : List (String × String)) :
    (grouped pairs).filter (·.1 == key) = pairs.filter (·.1 == key) := by
  induction pairs using grouped_induction with
  | nil => rfl
  | cons p pairs ih =>
    rw [grouped_cons, List.filter_append, ih, List.filter_filter]
    by_cases hkey : p.1 = key
    · simp [hkey]
    · have hfirst : (p :: pairs.filter (·.1 == p.1)).filter (·.1 == key) = [] := by
        refine List.filter_eq_nil_iff.2 fun q hq => ?_
        have hq : q.1 = p.1 := by
          rcases List.mem_cons.1 hq with rfl | hq
          · rfl
          · simpa using (List.mem_filter.1 hq).2
        simpa [hq] using hkey
      have hothers : pairs.filter (fun q => q.1 == key && !q.1 == p.1) =
          pairs.filter (·.1 == key) := by
        refine List.filter_congr fun q _ => ?_
        by_cases hq : q.1 = key
        · simp [hq, Ne.symm hkey]
        · simp [hq]
      rw [hfirst, hothers, List.nil_append, List.filter_cons_of_neg (by simpa using hkey)]

theorem perm_grouped (pairs : List (String × String)) : (grouped pairs).Perm pairs := by
  induction pairs using grouped_induction with
  | nil => exact .nil
  | cons p pairs ih =>
    rw [grouped_cons, List.cons_append]
    have hparts := List.filter_append_perm (fun q : String × String => q.1 == p.1) pairs
    exact .cons p ((ih.append_left _).trans hparts)

/-- Pairs of one key stand together with pairs of other keys that stand together behind them. -/
theorem AreTogether.append {ps qs : List (String × String)} (key : String)
    (hps : ∀ p ∈ ps, p.1 = key) (hqs : ∀ q ∈ qs, q.1 ≠ key) (h : AreTogether qs) :
    AreTogether (ps ++ qs) := by
  intro p q r hsub hkey
  obtain ⟨front, back, hpqr, hfront, hback⟩ := List.sublist_append_iff.1 hsub
  rcases front with _ | ⟨a, _ | ⟨b, _ | ⟨c, front⟩⟩⟩ <;>
    simp only [List.nil_append, List.cons_append, List.cons.injEq] at hpqr
  · exact h p q r (hpqr ▸ hback) hkey
  · obtain ⟨rfl, rfl⟩ := hpqr
    have hr := hqs r (hback.subset (by simp))
    exact absurd (hkey ▸ hps p (hfront.subset List.mem_cons_self)) hr
  · obtain ⟨rfl, rfl, rfl⟩ := hpqr
    have hr := hqs r (hback.subset (by simp))
    exact absurd (hkey ▸ hps p (hfront.subset List.mem_cons_self)) hr
  · obtain ⟨rfl, rfl, -⟩ := hpqr
    rw [hps p (hfront.subset (by simp)), hps q (hfront.subset (by simp))]

theorem areTogether_grouped (pairs : List (String × String)) : AreTogether (grouped pairs) := by
  induction pairs using grouped_induction with
  | nil => exact fun p q r hsub => absurd (List.eq_nil_of_sublist_nil hsub) (by simp)
  | cons p pairs ih =>
    rw [grouped_cons]
    refine AreTogether.append p.1 (fun q hq => ?_) (fun q hq => ?_) ih
    · rcases List.mem_cons.1 hq with rfl | hq
      · rfl
      · simpa using (List.mem_filter.1 hq).2
    · have hq := (perm_grouped _).mem_iff.1 hq
      simpa using (List.mem_filter.1 hq).2

/-- Pairs of which those of one key come first. -/
theorem filter_append_filter {key : String} (h : ∀ q r, [q, r].Sublist pairs → r.1 = key → q.1 = key) :
    pairs.filter (·.1 == key) ++ pairs.filter (!·.1 == key) = pairs := by
  induction pairs with
  | nil => rfl
  | cons p pairs ih =>
    by_cases hp : p.1 = key
    · have hrest := ih fun q r hsub => h q r (hsub.cons p)
      rw [List.filter_cons_of_pos (by simp [hp]), List.filter_cons_of_neg (by simp [hp]),
        List.cons_append, hrest]
    · have hnone : ∀ r ∈ pairs, r.1 ≠ key := fun r hr hkey =>
        hp (h p r (.cons_cons p (List.singleton_sublist.2 hr)) hkey)
      have hnot : ∀ r ∈ p :: pairs, r.1 ≠ key := List.forall_mem_cons.2 ⟨hp, hnone⟩
      rw [List.filter_eq_nil_iff.2 (by simpa using hnot), List.filter_eq_self.2 (by simpa using hnot),
        List.nil_append]

/-- Pairs are as they are grouped exactly if those of a key stand together. -/
theorem grouped_eq_self_iff : grouped pairs = pairs ↔ AreTogether pairs := by
  refine ⟨fun h => h ▸ areTogether_grouped pairs, fun h => ?_⟩
  induction pairs using grouped_induction with
  | nil => rfl
  | cons p pairs ih =>
    have hfirst : pairs.filter (·.1 == p.1) ++ pairs.filter (!·.1 == p.1) = pairs :=
      filter_append_filter fun q r hsub hr => h p q r (hsub.cons_cons p) hr.symm
    rw [grouped_cons, ih (h.of_sublist ((List.filter_sublist).cons p)), List.cons_append, hfirst]

end Url

/-! ### The query on the wire -/

/-- The pairs in the query of a descriptor's address. -/
def addressPairs (d : Descriptor) : List (String × String) :=
  Url.readPairs ((Url.Raw.ofText d.url.toList).query.getD [])

/-- The pairs of a request. -/
def sentPairs (request : Sent) : List (String × String) :=
  Url.readPairs (request.url.query.getD [])

/-- What is sent of the pairs of a descriptor. -/
structure CarriesQuery (d : Descriptor) (pairs : List (String × String)) : Prop where
  /-- No pair of the descriptor is lost and none is added. -/
  perm : pairs.Perm d.query
  /-- The pairs of each key keep their order. -/
  filter_key : ∀ key, pairs.filter (·.1 == key) = d.query.filter (·.1 == key)
  /-- The pairs are those that a report shows, in its order, exactly if the address has none and those
  of a key stand together. -/
  eq_iff : pairs = addressPairs d ++ d.query ↔ addressPairs d = [] ∧ Url.AreTogether d.query

variable {client : Client} {server : Server} {d : Descriptor} {before : List Sent} {request : Sent}

/-- The query of a request is the text of the pairs of its descriptor. -/
theorem sentPairs_of_sent (hsent : (received client server d before).2 = before ++ [request]) :
    sentPairs request = Url.grouped d.query := by
  obtain ⟨address, headers, url, body, described, -, -, hurl, -, rfl⟩ :=
    wire_eq_ok_iff.1 (received_eq_append_iff.1 hsent)
  have hquery := (Url.isMadeOf_withQuery hurl).query
  rw [sentPairs, hquery]
  cases hpairs : d.query with
  | nil => rfl
  | cons p pairs =>
    simp [Url.encode_queryText, Url.readPairs_queryText]

/-- **The query of a request.**  A request that is sent has the pairs of its descriptor, those of a key
in their order, and they are what a report shows exactly if nothing is shown that they replace and
nothing has to be moved. -/
theorem carriesQuery_of_sent (hsent : (received client server d before).2 = before ++ [request]) :
    CarriesQuery d (sentPairs request) := by
  rw [sentPairs_of_sent hsent]
  refine ⟨Url.perm_grouped _, fun key => Url.filter_grouped key _, ?_⟩
  constructor
  · intro h
    have hlength := (Url.perm_grouped d.query).length_eq
    rw [h, List.length_append] at hlength
    have hnone : addressPairs d = [] := List.eq_nil_of_length_eq_zero (by omega)
    rw [hnone, List.nil_append] at h
    exact ⟨hnone, Url.grouped_eq_self_iff.1 h⟩
  · rintro ⟨hnone, htogether⟩
    rw [hnone, List.nil_append]
    exact Url.grouped_eq_self_iff.2 htogether

/-- A request with characters that have a meaning in a query. -/
def searchRequest : Descriptor where
  method := .get
  url := "https://shop/search"
  path := "/search"
  query := [("q", "a b"), ("tag", "x&y=1"), ("tag", "é+")]
  headers := []
  body := .none

/-- This request on the wire. -/
def searchSent : Sent where
  method := "GET"
  url := ⟨"https".toList, [], "shop".toList, none, "/search".toList,
    some "q=a+b&tag=x%26y%3D1&tag=%C3%A9%2B".toList, none⟩
  headers := [("accept", "*/*"), ("host", "shop")]
  body := []

/-- A request that is sent shows its three pairs. -/
theorem carriesQuery_of_sent_search :
    (received promptClient silentServer searchRequest []).2 = [] ++ [searchSent] ∧
      CarriesQuery searchRequest (sentPairs searchSent) := by
  have hsent : (received promptClient silentServer searchRequest []).2 = [] ++ [searchSent] :=
    received_eq_append_iff.2 (by with_unfolding_all rfl)
  exact ⟨hsent, carriesQuery_of_sent hsent⟩

/-- An endpoint at a path. -/
def endpointAt (path : String) : Spec.Endpoint := { Request.shopEndpoint with path }

/-- The request for an endpoint whose path has a query. -/
def pageRequest : Descriptor where
  method := .get
  url := "https://shop/p?x=1"
  path := "/p?x=1"
  query := []
  headers := [("User-Agent", "ontap/0.3.0"), ("Accept", "application/json")]
  body := .none

/-- This request on the wire. -/
def pageSent : Sent where
  method := "GET"
  url := ⟨"https".toList, [], "shop".toList, none, "/p".toList, none, none⟩
  headers := [("user-agent", "ontap/0.3.0"), ("accept", "application/json"), ("host", "shop")]
  body := []

/-- A query in the path of an endpoint is not on the wire. -/
theorem not_forall_sentPairs_eq :
    ¬ ∀ (host : Host) (endpoint : Spec.Endpoint) (inputs : Request.Inputs) (api : ApiConfig)
      (d : Descriptor) (client : Client) (server : Server) (before : List Sent) (request : Sent),
      (Request.buildRequest host endpoint inputs api).answer = .ok d →
      (received client server d before).2 = before ++ [request] →
      sentPairs request = addressPairs d ++ d.query := by
  intro hall
  have hbuilt : (Request.buildRequest Request.bareHost (endpointAt "/p?x=1") {} Request.openApi).answer =
      .ok pageRequest := by
    with_unfolding_all rfl
  have hsent : (received promptClient silentServer pageRequest []).2 = [] ++ [pageSent] :=
    received_eq_append_iff.2 (by with_unfolding_all rfl)
  have hpairs := hall _ _ _ _ _ _ _ _ _ hbuilt hsent
  have hquery : addressPairs pageRequest ++ pageRequest.query = [("x", "1")] := by
    with_unfolding_all rfl
  rw [hquery] at hpairs
  exact absurd hpairs.symm (List.cons_ne_nil _ _)

end ApiShell.Http
