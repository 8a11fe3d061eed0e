import ApiShell.Http.Client
import ApiShell.Proofs.Run

/-!
# What sending a request comes to

A computation that talks to a server answers something and remembers what it has sent.  Neither
depends on the log records that are written before, so both can be read without any: `received` does
so for sending a request.  A request is sent once or, where there is none, not at all, and a response
that is answered is the reply to that request.
-/

namespace ApiShell.Http

open Request (Descriptor)

variable {α β : Type} {x : Talk α} {f : α → Talk β} {before after : List Sent} {a : α}

namespace Talk

/-- With the requests `before` sent already, the computation answers `answer` and has sent those in
`after`, whatever is logged. -/
def Comes (x : Talk α) (before : List Sent) (answer : Except Fault α) (after : List Sent) : Prop :=
  ∀ log : List LogRecord, ∃ log', (x.run.run before).run log = ((answer, after), log')

theorem Comes.pure (a : α) (before : List Sent) :
    Comes (Pure.pure a) before (.ok a) before := by
  intro log
  exact ⟨log, rfl⟩

theorem Comes.note (level : Level) (message : String) (before : List Sent) :
    Comes (note level message) before (.ok ()) before := by
  intro log
  exact ⟨log ++ [⟨level, message⟩], rfl⟩

theorem Comes.ofExcept (answer : Except Fault α) (before : List Sent) :
    Comes (ofExcept answer) before answer before := by
  intro log
  exact ⟨log, rfl⟩

/-- A request that is sent is remembered. -/
theorem Comes.ask (server : Server) (request : Sent) (before : List Sent) :
    Comes (ask server request) before (.ok (server before request)) (before ++ [request]) := by
  intro log
  exact ⟨log, rfl⟩

theorem Comes.bind {answer : Except Fault β} {last : List Sent} (hx : Comes x before (.ok a) after)
    (hf : Comes (f a) after answer last) : Comes (x >>= f) before answer last := by
  intro log
  obtain ⟨log', hrun⟩ := hx log
  obtain ⟨log'', hrest⟩ := hf log'
  refine ⟨log'', ?_⟩
  rw [ExceptT.run_bind, StateT.run_bind, StateT.run_bind, hrun]
  exact hrest

theorem Comes.bind_error {fault : Fault} (hx : Comes x before (.error fault) after) :
    Comes (x >>= f) before (.error fault) after := by
  intro log
  obtain ⟨log', hrun⟩ := hx log
  refine ⟨log', ?_⟩
  rw [ExceptT.run_bind, StateT.run_bind, StateT.run_bind, hrun]
  rfl

/-- A loop over notes sends nothing. -/
theorem Comes.forM {γ : Type} {g : γ → Talk Unit} (hg : ∀ c, Comes (g c) before (.ok ()) before)
    (cs : List γ) : Comes (cs.forM g) before (.ok ()) before := by
  induction cs with
  | nil => exact .pure () before
  | cons c cs ih => exact (hg c).bind ih

end Talk

/-! ### Sending -/

/-- What keeps a client from answering a response to a request that it has sent. -/
inductive KeepsFrom : Fault → Prop
  | connection (e : ConnectionError) : KeepsFrom (.failure (.connection e))
  | invalidUrl : KeepsFrom (.defect .invalidUrl)

/-- What a client makes of the reply to a request. -/
def answered (client : Client) (d : Descriptor) (request : Sent) : Reply → Talk Response
  | .silence _ =>
    let seconds := String.ofList (Decimal.general client.timeout)
    Talk.stop (.failure (.connection (.timedOut d.url seconds)))
  | .broken reason => Talk.stop (.failure (.connection (.failed d.url reason)))
  | .misdirected => Talk.stop Defect.invalidUrl
  | .response r =>
    match (r.location?).map request.url.redirect with
    | some (.error (.location problem)) =>
      Talk.stop (.failure (.connection (.failed d.url (badLocationText problem))))
    | some (.error (.target _)) => Talk.stop Defect.invalidUrl
    | _ => do
      Talk.note .debug s!"Response: {r.status} {r.reason} in {client.elapsed} ms"
      r.headers.forM fun h => Talk.note .debug s!"  {h.1}: {h.2}"
      return r

/-- A request is reported, put on the wire and sent, and then its reply is seen to. -/
theorem send_eq (client : Client) (server : Server) (d : Descriptor) :
    send client server d = (do
      d.describe.forM (Talk.note .debug)
      let request ← Talk.ofExcept ((wire client.boundary d).mapError .defect)
      answered client d request (← Talk.ask server request)) := by
  unfold send
  refine congrArg (_ >>= ·) (funext fun _ => congrArg (_ >>= ·) (funext fun request =>
    congrArg (_ >>= ·) (funext fun reply => ?_)))
  cases reply <;> rfl

open Talk (Comes)

/-- A response is reported and answered. -/
theorem comes_reported (client : Client) (r : Response) (before : List Sent) :
    Comes (do
        Talk.note .debug s!"Response: {r.status} {r.reason} in {client.elapsed} ms"
        r.headers.forM fun h => Talk.note .debug s!"  {h.1}: {h.2}"
        return r) before (.ok r) before := by
  have hheaders : Comes (r.headers.forM fun h => Talk.note .debug s!"  {h.1}: {h.2}") before
      (.ok ()) before := .forM (fun h => .note .debug _ before) r.headers
  exact (Comes.note _ _ before).bind (hheaders.bind (.pure r before))

/-- Nothing is sent when a reply is seen to: it is a response that is answered, or something keeps the
client from that. -/
theorem comes_answered (client : Client) (d : Descriptor) (request : Sent) (reply : Reply)
    (before : List Sent) :
    (∃ r, reply = .response r ∧ Comes (answered client d request reply) before (.ok r) before) ∨
      ∃ fault, KeepsFrom fault ∧
        Comes (answered client d request reply) before (.error fault) before := by
  cases reply with
  | silence _ => exact .inr ⟨_, .connection _, .ofExcept _ before⟩
  | broken reason => exact .inr ⟨_, .connection _, .ofExcept _ before⟩
  | misdirected => exact .inr ⟨_, .invalidUrl, .ofExcept _ before⟩
  | response r =>
    unfold answered
    dsimp only
    split
    · exact .inr ⟨_, .connection _, .ofExcept _ before⟩
    · exact .inr ⟨_, .invalidUrl, .ofExcept _ before⟩
    · exact .inl ⟨r, rfl, comes_reported client r before⟩

/-- A request that is put on the wire is sent, and what comes of it is what comes of its reply. -/
theorem comes_send_of_wire {client : Client} {server : Server} {d : Descriptor} {request : Sent}
    {answer : Except Fault Response} (hwire : wire client.boundary d = .ok request)
    (h : Comes (answered client d request (server before request)) (before ++ [request]) answer
      (before ++ [request])) :
    Comes (send client server d) before answer (before ++ [request]) := by
  have hnotes : Comes (d.describe.forM (Talk.note .debug)) before (.ok ()) before :=
    .forM (fun line => .note .debug line before) d.describe
  rw [send_eq, hwire]
  exact hnotes.bind ((Comes.ofExcept (.ok request) before).bind
    ((Comes.ask server request before).bind h))

/-- **Sending.**  A request that has no form on the wire is not sent.  Any other is sent once.  A
response that is answered is the reply to it. -/
theorem comes_send (client : Client) (server : Server) (d : Descriptor) (before : List Sent) :
    (∃ defect, wire client.boundary d = .error defect ∧
      Comes (send client server d) before (.error (.defect defect)) before) ∨
    ∃ request, wire client.boundary d = .ok request ∧
      ((∃ r, server before request = .response r ∧
          Comes (send client server d) before (.ok r) (before ++ [request])) ∨
        ∃ fault, KeepsFrom fault ∧
          Comes (send client server d) before (.error fault) (before ++ [request])) := by
  cases hwire : wire client.boundary d with
  | error defect =>
    have hnotes : Comes (d.describe.forM (Talk.note .debug)) before (.ok ()) before :=
      .forM (fun line => .note .debug line before) d.describe
    rw [send_eq, hwire]
    exact .inl ⟨defect, rfl, hnotes.bind (.bind_error (.ofExcept _ before))⟩
  | ok request =>
    refine .inr ⟨request, rfl, ?_⟩
    rcases comes_answered client d request (server before request) (before ++ [request]) with
      ⟨r, hreply, hcomes⟩ | ⟨fault, hfault, hcomes⟩
    · exact .inl ⟨r, hreply, comes_send_of_wire hwire hcomes⟩
    · exact .inr ⟨fault, hfault, comes_send_of_wire hwire hcomes⟩

/-- What comes of sending a request after those in `before`, and what has been sent then. -/
def received (client : Client) (server : Server) (d : Descriptor) (before : List Sent) :
    Except Fault Response × List Sent :=
  (((send client server d).run.run before).run []).1

theorem received_eq {client : Client} {server : Server} {d : Descriptor}
    {answer : Except Fault Response} (h : Comes (send client server d) before answer after) :
    received client server d before = (answer, after) := by
  obtain ⟨log', hrun⟩ := h []
  unfold received
  rw [hrun]

/-- At most one request is sent, and a response is the reply to it. -/
theorem received_cases (client : Client) (server : Server) (d : Descriptor) (before : List Sent) :
    (received client server d before).2 = before ∧
        (∃ defect, (received client server d before).1 = .error (.defect defect)) ∨
      ∃ request, (received client server d before).2 = before ++ [request] ∧
        ∀ r, (received client server d before).1 = .ok r → server before request = .response r := by
  rcases comes_send client server d before with
    ⟨defect, -, h⟩ | ⟨request, -, ⟨r, hreply, h⟩ | ⟨fault, -, h⟩⟩
  · rw [received_eq h]
    exact .inl ⟨rfl, defect, rfl⟩
  · rw [received_eq h]
    exact .inr ⟨request, rfl, fun r' hr' => Except.ok.inj hr' ▸ hreply⟩
  · rw [received_eq h]
    exact .inr ⟨request, rfl, fun r' hr' => nomatch hr'⟩

/-! ### The request on the wire -/

/-- A descriptor on the wire, part by part. -/
theorem wire_eq_ok_iff {boundary : String} {d : Descriptor} {request : Sent} :
    wire boundary d = .ok request ↔ ∃ address headers url body described,
      (Url.ofText d.url).bind Url.onServer = .ok address ∧ sentHeaders d.headers = .ok headers ∧
      address.withQuery d.query = .ok url ∧
      sentBody boundary headers d.body = .ok (body, described) ∧
      request = ⟨d.method.name, url,
        addressCredential url (frameHeaders d.method.name url described), body⟩ := by
  unfold wire
  constructor
  · intro h
    obtain ⟨address, haddress, h⟩ := bind_eq_ok_iff.1 h
    obtain ⟨headers, hheaders, h⟩ := bind_eq_ok_iff.1 h
    obtain ⟨url, hurl, h⟩ := bind_eq_ok_iff.1 h
    obtain ⟨⟨body, described⟩, hbody, h⟩ := bind_eq_ok_iff.1 h
    exact ⟨address, headers, url, body, described, mapError_eq_ok_iff.1 haddress, hheaders,
      mapError_eq_ok_iff.1 hurl, hbody, (Except.ok.inj h).symm⟩
  · rintro ⟨address, headers, url, body, described, haddress, hheaders, hurl, hbody, rfl⟩
    rw [haddress, hheaders]
    refine bind_eq_ok_iff.2 ⟨address, rfl, bind_eq_ok_iff.2 ⟨headers, rfl, ?_⟩⟩
    rw [hurl, hbody]
    rfl

/-- A request is sent exactly if it is the form of the descriptor on the wire. -/
theorem received_eq_append_iff {client : Client} {server : Server} {d : Descriptor}
    {request : Sent} :
    (received client server d before).2 = before ++ [request] ↔
      wire client.boundary d = .ok request := by
  rcases comes_send client server d before with
    ⟨_, hwire, h⟩ | ⟨_, hwire, ⟨_, -, h⟩ | ⟨_, -, h⟩⟩ <;> rw [received_eq h, hwire]
  · simp
  · simp [eq_comm]
  · simp [eq_comm]

/-- A client for which every exchange takes no time. -/
def promptClient : Client := ⟨defaultTimeout, "b", 0⟩

/-- A server that never answers. -/
def silentServer : Server := fun _ _ => .silence ""

end ApiShell.Http
