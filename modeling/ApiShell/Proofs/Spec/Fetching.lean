import ApiShell.Proofs.Http.Sending
import ApiShell.Proofs.Spec.Content
import ApiShell.Spec.Load

/-!
# Fetching a description

Redirections are followed one after the other, so what fetching comes to is told by the last request
that is sent (`lastAsked`) and the reply to it.  Of the replies, those make fetching run into a defect
that prove an address to be of no use, and those whose content cannot be read.
-/

namespace ApiShell.Spec

open Http (Server Talk Sent Url Reply)

/-! ### The last request -/

/-- The request for an address. -/
def asking (url : Url) : Sent := ⟨"GET", url, [], []⟩

/-- Where the reply to the request for an address leads. -/
def target? (url : Url) : Reply → Option Url
  | .response r => match (r.location?).map url.redirect with
    | some (.ok target) => some target
    | _ => none
  | _ => none

/-- The requests that are sent before the last one, and the address that is asked for last: redirections
are followed until there is none, or as many as may be have been followed. -/
def lastAsked (server : Server) : Nat → List Sent → Url → List Sent × Url
  | 0, before, url => (before, url)
  | left + 1, before, url =>
    match target? url (server before (asking url)) with
    | some target => lastAsked server left (before ++ [asking url]) target
    | none => (before, url)

/-- What comes of the reply to the last request. -/
def fetchAnswer (location : String) (url : Url) : Reply → Except Fault Http.Response
  | .silence reason | .broken reason => .error (SpecError.fetchFailed location reason)
  | .misdirected => .error Defect.invalidUrl
  | .response r => match (r.location?).map url.redirect with
    | none => .ok r
    | some (.error (.location problem)) =>
      .error (SpecError.fetchFailed location (Http.badLocationText problem))
    | some (.error (.target _)) => .error Defect.invalidUrl
    | some (.ok _) => .error (SpecError.fetchFailed location "Exceeded maximum allowed redirects.")

variable {server : Server} {location : String} {before : List Sent} {d : Defect}

/-- What is done about the reply to the request for an address; `next` follows a redirection. -/
def follow (location : String) (url : Url) (next : Url → Talk Http.Response) :
    Reply → Talk Http.Response
  | .silence reason | .broken reason => Talk.stop (SpecError.fetchFailed location reason)
  | .misdirected => Talk.stop Defect.invalidUrl
  | .response r => match (r.location?).map url.redirect with
    | none => return r
    | some (.error (.location problem)) =>
      Talk.stop (SpecError.fetchFailed location (Http.badLocationText problem))
    | some (.error (.target _)) => Talk.stop Defect.invalidUrl
    | some (.ok target) => next target

theorem fetch_zero (server : Server) (location : String) (url : Url) :
    fetch server location 0 url = Talk.ask server (asking url) >>= follow location url fun _ =>
      Talk.stop (SpecError.fetchFailed location "Exceeded maximum allowed redirects.") := by
  rw [fetch]
  refine congrArg _ (funext fun reply => ?_)
  cases reply <;> rfl

theorem fetch_succ (server : Server) (location : String) (left : Nat) (url : Url) :
    fetch server location (left + 1) url =
      Talk.ask server (asking url) >>= follow location url (fetch server location left) := by
  rw [fetch]
  refine congrArg _ (funext fun reply => ?_)
  cases reply <;> rfl

variable {url : Url} {next : Url → Talk Http.Response} {reply : Reply}

/-- A redirection is followed. -/
theorem follow_of_target? {target : Url} (h : target? url reply = some target) :
    follow location url next reply = next target := by
  unfold target? at h
  split at h
  · next r =>
    split at h
    · next hredirect =>
      cases h
      rw [follow, hredirect]
    · cases h
  · cases h

/-- A reply that leads nowhere is what fetching comes to. -/
theorem comes_follow (h : target? url reply = none) (before : List Sent) :
    (follow location url next reply).Comes before (fetchAnswer location url reply) before := by
  cases reply with
  | response r =>
    unfold target? at h
    unfold follow fetchAnswer
    dsimp only at h ⊢
    cases hredirect : (r.location?).map url.redirect with
    | none => exact .pure r before
    | some answer =>
      rw [hredirect] at h
      cases answer with
      | ok target => cases h
      | error problem => cases problem <;> exact .ofExcept _ before
  | _ => exact .ofExcept _ before

theorem fetchAnswer_of_target? {target : Url} (h : target? url reply = some target) :
    fetchAnswer location url reply =
      .error (SpecError.fetchFailed location "Exceeded maximum allowed redirects.") := by
  unfold target? at h
  split at h
  · next r =>
    split at h
    · next hredirect => rw [fetchAnswer, hredirect]
    · cases h
  · cases h

/-- What fetching comes to is told by the reply to its last request. -/
theorem comes_fetch {left : Nat} {after : List Sent} {last : Url}
    (h : lastAsked server left before url = (after, last)) (location : String) :
    (fetch server location left url).Comes before
      (fetchAnswer location last (server after (asking last))) (after ++ [asking last]) := by
  induction left generalizing before url with
  | zero =>
    rw [lastAsked] at h
    obtain ⟨rfl, rfl⟩ := Prod.mk.inj h
    rw [fetch_zero]
    refine (Talk.Comes.ask server (asking url) before).bind ?_
    cases htarget : target? url (server before (asking url)) with
    | none => exact comes_follow htarget _
    | some target =>
      rw [follow_of_target? htarget, fetchAnswer_of_target? htarget]
      exact .ofExcept _ _
  | succ left ih =>
    rw [lastAsked] at h
    rw [fetch_succ]
    refine (Talk.Comes.ask server (asking url) before).bind ?_
    cases htarget : target? url (server before (asking url)) with
    | none =>
      rw [htarget] at h
      obtain ⟨rfl, rfl⟩ := Prod.mk.inj h
      exact comes_follow htarget _
    | some target =>
      rw [htarget] at h
      rw [follow_of_target? htarget]
      exact ih h

/-- The type that a response gives its content. -/
def contentType (r : Http.Response) : String := (Http.headerValue? r.headers "content-type").getD ""

/-- What a response is read as. -/
def responseAnswer (location : String) (r : Http.Response) : Except Fault Value :=
  if r.status < 200 || 299 < r.status then .error (SpecError.httpStatus r.status location)
  else parseContent (responseText (contentType r) r.body) (hintOfType (contentType r)) location

/-- What fetching an address comes to. -/
def fetched (server : Server) (location : String) (before : List Sent) (url : Url) :
    Except Fault Http.Response :=
  let asked := lastAsked server maxRedirects before url
  fetchAnswer location asked.2 (server asked.1 (asking asked.2))

/-- What loading from an address comes to: what the response that is fetched is read as. -/
theorem exists_comes_loadUrl (h : Url.ofText location = .ok url) (server : Server)
    (before : List Sent) : ∃ after, (loadUrl server location).Comes before
      (fetched server location before url >>= responseAnswer location) after := by
  obtain ⟨after, hfetch⟩ : ∃ after, (fetch server location maxRedirects url).Comes before
      (fetched server location before url) after :=
    ⟨_, comes_fetch rfl location⟩
  refine ⟨after, ?_⟩
  unfold loadUrl
  rw [h]
  refine (Talk.Comes.ofExcept (.ok url) before).bind ?_
  cases hanswer : fetched server location before url with
  | error fault =>
    rw [hanswer] at hfetch
    exact hfetch.bind_error
  | ok r =>
    rw [hanswer] at hfetch
    refine hfetch.bind ?_
    show Talk.Comes _ _ (responseAnswer location r) _
    unfold responseAnswer
    split
    · exact (Talk.Comes.ofExcept _ _).bind_error
    · exact .ofExcept _ _

theorem comes_loadUrl_error {problem : Http.UrlProblem} (h : Url.ofText location = .error problem)
    (server : Server) (before : List Sent) :
    (loadUrl server location).Comes before (.error (.defect .invalidUrl)) before := by
  unfold loadUrl
  rw [h]
  exact (Talk.Comes.ofExcept _ before).bind_error

/-- What loading a description from the web runs into, where `before` are the requests sent so far. -/
inductive UrlBreaks (server : Server) (location : String) (before : List Sent) : Defect → Prop where
  /-- The location is no address. -/
  | address {problem : Http.UrlProblem} (fails : Url.ofText location = .error problem) :
      UrlBreaks server location before .invalidUrl
  /-- An address that was asked for is of no use. -/
  | misdirected {url : Url} {after : List Sent} {last : Url} (isUrl : Url.ofText location = .ok url)
      (leads : lastAsked server maxRedirects before url = (after, last))
      (reply : server after (asking last) = .misdirected) :
      UrlBreaks server location before .invalidUrl
  /-- A redirection has an address of its own, but none where it is found. -/
  | target {url : Url} {after : List Sent} {last : Url} {r : Http.Response} {text : String}
      {problem : Http.UrlProblem} (isUrl : Url.ofText location = .ok url)
      (leads : lastAsked server maxRedirects before url = (after, last))
      (reply : server after (asking last) = .response r) (redirects : r.location? = some text)
      (fails : last.redirect text = .error (.target problem)) :
      UrlBreaks server location before .invalidUrl
  /-- The values that the content writes cannot be made. -/
  | content {url : Url} {after : List Sent} {last : Url} {r : Http.Response} {d : Defect}
      (isUrl : Url.ofText location = .ok url)
      (leads : lastAsked server maxRedirects before url = (after, last))
      (reply : server after (asking last) = .response r) (stays : r.location? = none)
      (success : 200 ≤ r.status ∧ r.status ≤ 299)
      (misreads : Misreads (hintOfType (contentType r)) (responseText (contentType r) r.body) d) :
      UrlBreaks server location before d

/-- What comes of a reply is a response, a failure that is foreseen, or the defect of an address. -/
theorem fetchAnswer_eq_defect_iff : fetchAnswer location url reply = .error (.defect d) ↔
    d = .invalidUrl ∧ (reply = .misdirected ∨ ∃ r text problem, reply = .response r ∧
      r.location? = some text ∧ url.redirect text = .error (.target problem)) := by
  constructor
  · intro h
    unfold fetchAnswer at h
    split at h
    · cases h
    · cases h
    · cases h
      exact ⟨rfl, .inl rfl⟩
    · next r =>
      split at h
      · cases h
      · cases h
      · next problem hredirect =>
        cases h
        obtain ⟨text, htext, hfails⟩ := Option.map_eq_some_iff.1 hredirect
        exact ⟨rfl, .inr ⟨r, text, problem, rfl, htext, hfails⟩⟩
      · cases h
  · rintro ⟨rfl, rfl | ⟨r, text, problem, rfl, htext, hfails⟩⟩
    · rfl
    · rw [fetchAnswer, htext, Option.map_some, hfails]

theorem fetchAnswer_eq_ok_iff {r : Http.Response} : fetchAnswer location url reply = .ok r ↔
    reply = .response r ∧ r.location? = none := by
  constructor
  · intro h
    unfold fetchAnswer at h
    split at h
    · cases h
    · cases h
    · cases h
    · split at h
      · next hnone =>
        cases h
        exact ⟨rfl, Option.map_eq_none_iff.1 hnone⟩
      all_goals cases h
  · rintro ⟨rfl, hnone⟩
    rw [fetchAnswer, hnone]
    rfl

theorem responseAnswer_eq_defect_iff {r : Http.Response} :
    responseAnswer location r = .error (.defect d) ↔ (200 ≤ r.status ∧ r.status ≤ 299) ∧
      Misreads (hintOfType (contentType r)) (responseText (contentType r) r.body) d := by
  unfold responseAnswer
  split
  · next h =>
    rw [Bool.or_eq_true, decide_eq_true_eq, decide_eq_true_eq] at h
    refine iff_of_false nofun fun hsuccess => ?_
    omega
  · next h =>
    rw [Bool.or_eq_true, decide_eq_true_eq, decide_eq_true_eq] at h
    rw [parseContent_eq_defect_iff]
    exact ⟨fun hmisreads => ⟨by omega, hmisreads⟩, And.right⟩

/-- Fetching comes to a response, a failure that is foreseen, or a defect. -/
theorem fetchAnswer_cases (location : String) (url : Url) (reply : Reply) :
    (∃ r, fetchAnswer location url reply = .ok r) ∨
      (∃ e : SpecError, fetchAnswer location url reply = .error e) ∨
      ∃ d : Defect, fetchAnswer location url reply = .error d := by
  unfold fetchAnswer
  split
  · exact .inr (.inl ⟨_, rfl⟩)
  · exact .inr (.inl ⟨_, rfl⟩)
  · exact .inr (.inr ⟨_, rfl⟩)
  · split
    · exact .inl ⟨_, rfl⟩
    · exact .inr (.inl ⟨_, rfl⟩)
    · exact .inr (.inr ⟨_, rfl⟩)
    · exact .inr (.inl ⟨_, rfl⟩)

/-- What is read of an address ends as foreseen, or with a defect. -/
theorem fetched_foreseen_or (server : Server) (location : String) (before : List Sent) (url : Url) :
    IsForeseen (fetched server location before url >>= responseAnswer location) ∨
      ∃ d, (fetched server location before url >>= responseAnswer location) = .error (.defect d) := by
  unfold fetched
  generalize lastAsked server maxRedirects before url = asked
  rcases fetchAnswer_cases location asked.2 (server asked.1 (asking asked.2)) with
    ⟨r, hr⟩ | ⟨e, he⟩ | ⟨d, hd⟩
  · dsimp only
    rw [hr]
    show IsForeseen (responseAnswer location r) ∨ ∃ d, responseAnswer location r = .error (.defect d)
    unfold responseAnswer
    split
    · exact .inl (isForeseen_spec _)
    · exact parseContent_foreseen_or _ _ _
  · dsimp only
    rw [he]
    exact .inl (isForeseen_spec e)
  · dsimp only
    rw [hd]
    exact .inr ⟨d, rfl⟩

/-- What is read of an address is a defect for the reasons of `UrlBreaks`. -/
theorem fetched_eq_defect_iff (h : Url.ofText location = .ok url) :
    (fetched server location before url >>= responseAnswer location) = .error (.defect d) ↔
      UrlBreaks server location before d := by
  rw [bind_eq_error_iff, fetched]
  constructor
  · rintro (hfetch | ⟨r, hfetch, hread⟩)
    · obtain ⟨rfl, hreply | ⟨r, text, problem, hreply, htext, hfails⟩⟩ :=
        fetchAnswer_eq_defect_iff.1 hfetch
      · exact .misdirected h rfl hreply
      · exact .target h rfl hreply htext hfails
    · obtain ⟨hreply, hstays⟩ := fetchAnswer_eq_ok_iff.1 hfetch
      obtain ⟨hsuccess, hmisreads⟩ := responseAnswer_eq_defect_iff.1 hread
      exact .content h rfl hreply hstays hsuccess hmisreads
  · intro hbreaks
    cases hbreaks with
    | address fails => cases h.symm.trans fails
    | misdirected isUrl leads reply =>
      cases h.symm.trans isUrl
      rw [leads]
      exact .inl (fetchAnswer_eq_defect_iff.2 ⟨rfl, .inl reply⟩)
    | target isUrl leads reply redirects fails =>
      cases h.symm.trans isUrl
      rw [leads]
      exact .inl (fetchAnswer_eq_defect_iff.2 ⟨rfl, .inr ⟨_, _, _, reply, redirects, fails⟩⟩)
    | content isUrl leads reply stays success misreads =>
      cases h.symm.trans isUrl
      rw [leads]
      exact .inr ⟨_, fetchAnswer_eq_ok_iff.2 ⟨reply, stays⟩,
        responseAnswer_eq_defect_iff.2 ⟨success, misreads⟩⟩

end ApiShell.Spec
