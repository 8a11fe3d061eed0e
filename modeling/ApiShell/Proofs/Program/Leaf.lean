import ApiShell.Program.Run
import ApiShell.Proofs.Command.Grouping
import ApiShell.Proofs.Program.Session
import ApiShell.Proofs.Request.Header
import ApiShell.Proofs.Run
import ApiShell.Proofs.Time.Calendar

/-!
# What running a command does

A command makes its call before anything is sent.  The call is sent at most once, its response is
shown at most once, and only then is its status looked at.  `leafRun` says this as a function of the
effects so far: what ends the run, and the effects that it leaves.  Whatever ends the run before the
response is shown leaves the output as it was.
-/

namespace ApiShell.Program

open Command (Leaf)
open Session (Does on)

variable {invocation : Invocation} {call : Call} {text : String} {e : Effects} {fault : Fault}

/-! ### Showing a response -/

/-- The output after a text was delivered, or what keeps it from being delivered. -/
def delivered (call : Call) (text : String) (o : Delivery) : Except Fault Delivery :=
  if call.save = "" then .ok { o with stdout := o.stdout ++ Output.Format.endLine text }
  else (Output.save o.host call.save (Text.utf8 text.toList)).answer.map fun host => { o with host }

/-- What is shown of a response on the screen of a host. -/
def Call.shownOn (call : Call) (host : Host) (r : Http.Response) : Except Fault (Option String) :=
  (call.shown (Output.screenWidth (host.valueOf "COLUMNS")) r).answer

/-- The output after a response was shown, or what keeps it from being shown. -/
def showing (call : Call) (r : Http.Response) (o : Delivery) : Except Fault Delivery :=
  match call.shownOn o.host r with
  | .ok (some text) => delivered call text o
  | .ok none => .ok o
  | .error fault => .error fault

theorem does_deliver_of_ok {o : Delivery} (h : delivered call text e.output = .ok o) :
    Does (deliver call text) e (.ok ()) { e with output := o } := by
  unfold delivered at h
  unfold deliver
  by_cases hsave : call.save = ""
  · rw [if_pos hsave] at h ⊢
    obtain rfl := Except.ok.inj h
    exact Session.does_printOut text e
  · rw [if_neg hsave] at h ⊢
    obtain ⟨host, hhost, rfl⟩ := map_eq_ok_iff.1 h
    have hembed := Session.does_embed (Output.save e.output.host call.save (Text.utf8 text.toList)) e
    rw [hhost] at hembed
    refine (Session.does_host e).bind (hembed.bind fun s hs => ?_)
    subst hs
    exact ⟨_, rfl, rfl⟩

theorem does_deliver_of_error (h : delivered call text e.output = .error fault) :
    Does (deliver call text) e (.error (.fault fault)) e := by
  unfold delivered at h
  unfold deliver
  by_cases hsave : call.save = ""
  · rw [if_pos hsave] at h
    cases h
  · rw [if_neg hsave] at h ⊢
    have hfault := map_eq_error_iff.1 h
    have hembed := Session.does_embed (Output.save e.output.host call.save (Text.utf8 text.toList)) e
    rw [hfault] at hembed
    exact (Session.does_host e).bind hembed.bind_error

/-! ### Performing a call -/

/-- What looking at the status of a response comes to. -/
def judged (r : Http.Response) : Except Fault Unit :=
  (Response.raiseForStatus r.status r.reason r.body).answer

/-- What performing a call comes to, and the effects that it leaves. -/
def performed (invocation : Invocation) (call : Call) (e : Effects) : Except Fault Unit × Effects :=
  match Http.received invocation.client invocation.network.apis call.request e.requests with
  | (.error fault, requests) => (.error fault, { e with requests })
  | (.ok r, requests) =>
    match showing call r e.output with
    | .error fault => (.error fault, { e with requests })
    | .ok output => (judged r, ⟨requests, output⟩)

/-- A call is sent, its response is shown, and then its status is looked at. -/
theorem does_perform (invocation : Invocation) (call : Call) (e : Effects) :
    Does (perform invocation call) e ((performed invocation call e).1.mapError .fault)
      (performed invocation call e).2 := by
  have hsend := Session.does_send invocation call.request e
  unfold performed
  unfold perform
  rcases hreceived : Http.received invocation.client invocation.network.apis call.request e.requests
    with ⟨answer, requests⟩
  rw [hreceived] at hsend
  cases answer with
  | error fault => exact hsend.bind_error
  | ok r =>
    refine hsend.bind ((Session.does_host _).bind ?_)
    have hshown := Session.does_embed (call.shown (Output.screenWidth
      (e.output.host.valueOf "COLUMNS")) r) { e with requests }
    have hjudged (output : Delivery) : Does (Session.embed
        (Response.raiseForStatus r.status r.reason r.body)) ⟨requests, output⟩
        ((judged r).mapError .fault) ⟨requests, output⟩ := Session.does_embed _ _
    dsimp only
    unfold showing Call.shownOn
    cases hanswer : (call.shown (Output.screenWidth (e.output.host.valueOf "COLUMNS")) r).answer with
    | error fault =>
      rw [hanswer] at hshown
      exact hshown.bind_error
    | ok text? =>
      rw [hanswer] at hshown
      refine hshown.bind ?_
      cases text? with
      | none => exact hjudged e.output
      | some text =>
        dsimp only
        cases hdelivered : delivered call text e.output with
        | error fault =>
          exact (does_deliver_of_error (e := { e with requests }) hdelivered).bind_error
        | ok output =>
          exact (does_deliver_of_ok (e := { e with requests }) hdelivered).bind (hjudged output)

/-! ### Running a command -/

/-- The call that a command makes, or what keeps it from making one. -/
def callOf (host : Host) (settings : Settings) (api : String) (l : Leaf) (choices : Choices) :
    Except Fault Call := do
  let a ← (settings.config.api api).mapError fun e => .failure (.config e)
  (Call.make host a l choices).answer

/-- What comes of a call that was made or not, and the effects that it leaves. -/
def called (invocation : Invocation) (call? : Except Fault Call) (e : Effects) :
    Except Fault Unit × Effects :=
  match call? with
  | .error fault => (.error fault, e)
  | .ok call => if call.isDry then (.ok (), e) else performed invocation call e

/-- What running a command comes to, and the effects that it leaves. -/
def leafRun (invocation : Invocation) (settings : Settings) (api : String) (l : Leaf)
    (choices : Choices) (e : Effects) : Except Fault Unit × Effects :=
  called invocation (callOf e.output.host settings api l choices) e

theorem does_rehearse (call : Call) (e : Effects) : Does (rehearse call) e (.ok ()) e := by
  have hreported : Does (liftM (call.request.describe.forM (Session.remark .debug)) : Session Unit) e
      (.ok ()) e :=
    Session.does_step (fun _ _ => rfl) (Session.effects_forM_remark .debug call.request.describe)
  exact hreported.bind (Session.does_step (fun _ _ => rfl) (Session.effects_say .note _))

/-- A call is made, and then it is rehearsed or performed. -/
theorem does_called (invocation : Invocation) (call : Run Call) (e : Effects) :
    Does (do
      let call ← Session.embed call
      if call.isDry then rehearse call else perform invocation call) e
      ((called invocation call.answer e).1.mapError .fault) (called invocation call.answer e).2 := by
  have hcall := Session.does_embed call e
  unfold called
  cases hanswer : call.answer with
  | error fault =>
    rw [hanswer] at hcall
    exact hcall.bind_error
  | ok call =>
    rw [hanswer] at hcall
    refine hcall.bind ?_
    dsimp only
    by_cases hdry : call.isDry
    · rw [if_pos hdry, if_pos hdry]
      exact does_rehearse call e
    · rw [if_neg hdry, if_neg hdry]
      exact does_perform invocation call e

theorem callOf_of_error {host : Host} {settings : Settings} {api : String} {problem : ConfigError}
    (h : settings.config.api api = .error problem) (l : Leaf) (choices : Choices) :
    callOf host settings api l choices = .error (.failure (.config problem)) := by
  unfold callOf
  rw [h]
  rfl

theorem callOf_of_ok {host : Host} {settings : Settings} {api : String} {a : ApiConfig}
    (h : settings.config.api api = .ok a) (l : Leaf) (choices : Choices) :
    callOf host settings api l choices = (Call.make host a l choices).answer := by
  simp only [callOf, h, Except.mapError, bind, Except.bind]

/-- Running a command is what `leafRun` says. -/
theorem does_runLeaf (invocation : Invocation) (settings : Settings) (api : String) (l : Leaf)
    (choices : Choices) (e : Effects) :
    Does (runLeaf invocation settings api l choices) e
      ((leafRun invocation settings api l choices e).1.mapError .fault)
      (leafRun invocation settings api l choices e).2 := by
  have hsettled := Session.does_settle ((settings.config.api api).mapError fun e =>
    Fault.failure (.config e)) e
  unfold leafRun runLeaf
  cases hapi : settings.config.api api with
  | error problem =>
    rw [callOf_of_error hapi]
    rw [hapi] at hsettled
    exact hsettled.bind_error
  | ok a =>
    rw [callOf_of_ok hapi]
    rw [hapi] at hsettled
    refine hsettled.bind ?_
    have hcalled := does_called invocation (Call.make e.output.host a l choices) e
    have hrest : Does (do
        let call ← Session.embed (Call.make (← Session.host) a l choices)
        if call.isDry then rehearse call else perform invocation call) e _ _ :=
      (Session.does_host e).bind hcalled
    by_cases hverbose : choices.isOn "verbose"
    · rw [if_pos hverbose]
      have hmodified := Session.does_modify
        (f := fun s => { s with log.level := .debug }) (fun _ => rfl) e
      refine hmodified.bind ?_
      exact hrest
    · rw [if_neg hverbose]
      exact hrest

/-! ### What keeps a command from sending -/

section Making

variable {host : Host} {a : ApiConfig} {l : Leaf} {choices : Choices}

/-- A call that is made has a known format, its flags are bound, and its request is built. -/
theorem of_make (h : (Call.make host a l choices).answer = .ok call) :
    call.isDry = choices.isOn "dry_run" ∧
      (∃ format, Output.Format.ofName (formatName choices a) = .ok format) ∧
      ∃ parameters, bindFlags choices.inner l.flags = .ok parameters ∧
        (Request.buildRequest host l.endpoint (inputsOf choices.inner l parameters) a).answer =
          .ok call.request := by
  unfold Call.make at h
  cases hformat : Output.Format.ofName (formatName choices a) with
  | error failure =>
    rw [hformat] at h
    cases h
  | ok format =>
    rw [hformat] at h
    cases hflags : bindFlags choices.inner l.flags with
    | error failure =>
      rw [hflags] at h
      cases h
    | ok parameters =>
      rw [hflags] at h
      have hbuilt := (Run.answer_bind (x := Request.buildRequest host l.endpoint
        (inputsOf choices.inner l parameters) a) fun _ => .pure _).symm.trans h
      obtain ⟨request, hrequest, hcall⟩ := bind_eq_ok_iff.1 hbuilt
      obtain rfl := Except.ok.inj hcall
      exact ⟨rfl, ⟨format, rfl⟩, parameters, rfl, hrequest⟩

/-- A required flag that is not given keeps the flags from being bound. -/
theorem bindFlags_ne_ok {f : Command.Flag} (hf : f ∈ l.flags) (hrequired : f.required)
    (hmissing : choices.inner.given? f.identifier = none) (parameters : List Request.BoundParameter) :
    bindFlags choices.inner l.flags ≠ .ok parameters := by
  intro hbound
  have hsucceeds : Succeeds (l.flags.mapM (bindFlag choices.inner)) :=
    succeeds_map_iff.1 ⟨parameters, hbound⟩
  obtain ⟨parameter, hparameter⟩ := succeeds_mapM_iff.1 hsucceeds f hf
  unfold bindFlag at hparameter
  rw [hmissing] at hparameter
  dsimp only at hparameter
  rw [if_pos hrequired] at hparameter
  cases hparameter

end Making

/-- Why a command sends no request: it is a dry run, its format is unknown, a required flag is missing,
or its request cannot be built. -/
inductive Withholds (host : Host) (settings : Settings) (api : String) (l : Leaf)
    (choices : Choices) : Prop
  | dryRun (h : choices.inner.isOn "dry_run" ∨ choices.outer.isOn "dry_run")
  | unknownFormat {a : ApiConfig} {failure : Failure} (ha : settings.config.api api = .ok a)
      (h : Output.Format.ofName (formatName choices a) = .error failure)
  | missingFlag {f : Command.Flag} (hf : f ∈ l.flags) (hrequired : f.required)
      (h : choices.inner.given? f.identifier = none)
  | unbuilt {a : ApiConfig} {parameters : List Request.BoundParameter} {fault : Fault}
      (ha : settings.config.api api = .ok a)
      (hbound : bindFlags choices.inner l.flags = .ok parameters)
      (h : (Request.buildRequest host l.endpoint (inputsOf choices.inner l parameters) a).answer =
        .error fault)

theorem of_callOf {host : Host} {settings : Settings} {api : String} {l : Leaf} {choices : Choices}
    (h : callOf host settings api l choices = .ok call) :
    ∃ a, settings.config.api api = .ok a ∧ (Call.make host a l choices).answer = .ok call := by
  obtain ⟨a, ha, hmake⟩ := bind_eq_ok_iff.1 h
  exact ⟨a, mapError_eq_ok_iff.1 ha, hmake⟩

/-- Where a command sends no request, its call is not made or is dry. -/
theorem Withholds.isDry {host : Host} {settings : Settings} {api : String} {l : Leaf}
    {choices : Choices} (h : Withholds host settings api l choices)
    (hcall : callOf host settings api l choices = .ok call) : call.isDry := by
  obtain ⟨a, ha, hmake⟩ := of_callOf hcall
  obtain ⟨hdry, ⟨format, hformat⟩, parameters, hbound, hrequest⟩ := of_make hmake
  cases h with
  | dryRun h =>
    rw [hdry]
    exact Bool.or_eq_true_iff.2 h
  | unknownFormat ha' h =>
    obtain rfl := Except.ok.inj (ha.symm.trans ha')
    cases hformat.symm.trans h
  | missingFlag hf hrequired h => exact absurd hbound (bindFlags_ne_ok hf hrequired h parameters)
  | unbuilt ha' hbound' h =>
    obtain rfl := Except.ok.inj (ha.symm.trans ha')
    obtain rfl := Except.ok.inj (hbound.symm.trans hbound')
    cases hrequest.symm.trans h

/-! ### Responses that are no success -/

section NoSuccess

variable {r : Http.Response}

/-- A response that is no success is shown as it is: fields and selection count for nothing. -/
theorem shown_of_not_isSuccess (hr : Response.isSuccess r.status = false) (call : Call)
    (width : Nat) : call.shown width r = { call with fields := [], selected := "" }.shown width r := by
  unfold Call.shown
  rw [hr]
  rfl

/-- The value that a body is read as. -/
def decoded (body : List UInt8) : Value := ((Response.decodeBody body).run []).1

/-- A body that is null is not shown, and any other is shown in the format of the call. -/
theorem shownOn_of_not_isSuccess (hr : Response.isSuccess r.status = false) (call : Call)
    (host : Host) : call.shownOn host r =
      if (decoded r.body).isNull then .ok none
      else ((call.format.write (Output.screenWidth (host.valueOf "COLUMNS")) (decoded r.body)).map
        some).mapError .defect := by
  unfold Call.shownOn Call.shown decoded
  rcases hbody : (Response.decodeBody r.body).run [] with ⟨data, log⟩
  have hdecoded : (liftM (Response.decodeBody r.body) : Run Value).runWith [] = (.ok data, log) :=
    congrArg (fun p : Value × List LogRecord => ((.ok p.1 : Except Fault Value), p.2)) hbody
  rw [hr, Run.answer, Run.runWith_bind, hdecoded]
  dsimp only
  by_cases hnull : data.isNull
  · rw [if_pos hnull]
    show (Run.runWith (if data.isNull then _ else _) log).1 = _
    rw [if_pos hnull]
    rfl
  · rw [if_neg hnull]
    show (Run.runWith (if data.isNull then _ else _) log).1 = _
    rw [if_neg hnull]
    cases call.format.write (Output.screenWidth (host.valueOf "COLUMNS")) data <;> rfl

/-- What keeps a response that is no success from being shown is a defect. -/
theorem exists_defect_of_shownOn {host : Host} (hr : Response.isSuccess r.status = false)
    (h : call.shownOn host r = .error fault) : ∃ d, fault = .defect d := by
  rw [shownOn_of_not_isSuccess hr] at h
  split at h
  · cases h
  · cases hwrite : call.format.write (Output.screenWidth (host.valueOf "COLUMNS"))
        (decoded r.body) with
    | ok text =>
      rw [hwrite] at h
      cases h
    | error d =>
      rw [hwrite] at h
      exact ⟨d, (Except.error.inj h).symm⟩

/-- Delivering meets nothing but defects. -/
theorem exists_defect_of_delivered {o : Delivery} (h : delivered call text o = .error fault) :
    ∃ d, fault = .defect d := by
  unfold delivered at h
  split at h
  · cases h
  · have hsave := map_eq_error_iff.1 h
    unfold Output.save at hsave
    cases hpath : o.host.expandUser (Host.Path.ofText call.save) with
    | error d =>
      rw [hpath] at hsave
      exact ⟨d, (Except.error.inj hsave).symm⟩
    | ok path =>
      rw [hpath] at hsave
      by_cases hzero : Host.hasZero path
      · simp only [pure_bind, if_pos hzero] at hsave
        exact ⟨_, (Except.error.inj hsave).symm⟩
      · simp only [pure_bind, if_neg hzero] at hsave
        cases hwrite : o.host.write path (Text.utf8 text.toList) with
        | error e =>
          simp only [hwrite] at hsave
          exact ⟨_, (Except.error.inj hsave).symm⟩
        | ok host =>
          simp only [hwrite] at hsave
          cases hsave

/-- A status that is no success is a failure of its own. -/
theorem judged_of_not_isSuccess (hr : Response.isSuccess r.status = false) :
    ∃ message, judged r = .error (.failure (.status r.status message)) := by
  unfold judged Response.raiseForStatus
  rw [hr]
  exact ⟨_, rfl⟩

theorem judged_of_isSuccess (hr : Response.isSuccess r.status) : judged r = .ok () := by
  unfold judged Response.raiseForStatus
  rw [hr]
  rfl

end NoSuccess

/-! ### One run of a command -/

/-- The exit code of a status that is no success. -/
def statusExit (status : Nat) : Nat :=
  if status = 401 ∨ status = 403 then 3
  else if status = 404 then 4
  else if 500 ≤ status then 5
  else 1

theorem exitCode_status (status : Nat) (message : String) :
    (Failure.status status message).exitCode = statusExit status := by
  have hauth : (status : Int) = 401 ∨ (status : Int) = 403 ↔ status = 401 ∨ status = 403 := by omega
  have hmissing : (status : Int) = 404 ↔ status = 404 := by omega
  have hserver : (status : Int) ≥ 500 ↔ 500 ≤ status := by omega
  show (statusClass status).exitCode = statusExit status
  simp only [statusClass, statusExit, hauth, hmissing, hserver]
  split
  · rfl
  split
  · rfl
  split <;> rfl

/-- What one run of a command does, from its effects before, its end and its effects after. -/
structure RunsOnce (invocation : Invocation) (settings : Settings) (api : String) (l : Leaf)
    (choices : Choices) (before : Effects) (ending : Except Ending Unit) (after : Effects) :
    Prop where
  /-- At most one request is sent. -/
  sends : after.requests = before.requests ∨
    ∃ request, after.requests = before.requests ++ [request]
  /-- Nothing is sent, nor anything written, in a dry run and where no request can be made. -/
  withholds : Withholds before.output.host settings api l choices → after = before
  /-- The output is left as it is, or a text is delivered to it once: what is shown of the response to
  the one request. -/
  writes : after.output = before.output ∨
    ∃ call request r text, callOf before.output.host settings api l choices = .ok call ∧
      after.requests = before.requests ++ [request] ∧
      invocation.network.apis before.requests request = .response r ∧
      call.shownOn before.output.host r = .ok (some text) ∧
      delivered call text before.output = .ok after.output
  /-- Fields and selection count for nothing where the response is no success. -/
  selects : ∀ call r, callOf before.output.host settings api l choices = .ok call →
    Response.isSuccess r.status = false → call.shownOn before.output.host r =
      { call with fields := [], selected := "" }.shownOn before.output.host r
  /-- Whatever ends the run, unless it is the status of a response, nothing was written before. -/
  failsBefore : ∀ fault, ending = .error fault →
    (∀ code message, fault ≠ .fault (.failure (.status code message))) →
      after.output = before.output
  /-- A response that is no success ends the run with its status if it can be shown, and else with the
  defect that keeps it from being shown. -/
  judges : ∀ call r requests, callOf before.output.host settings api l choices = .ok call →
    call.isDry = false →
    Http.received invocation.client invocation.network.apis call.request before.requests =
      (.ok r, requests) →
    Response.isSuccess r.status = false →
    (∀ output, showing call r before.output = .ok output → ∃ message,
      ending = .error (.fault (.failure (.status r.status message))) ∧
        (Failure.status r.status message).exitCode = statusExit r.status) ∧
    ∀ fault, showing call r before.output = .error fault →
      ending = .error (.fault fault) ∧ ∃ d, fault = .defect d

/-- What keeps a response that is no success from being shown or delivered is a defect. -/
theorem exists_defect_of_showing {r : Http.Response} {o : Delivery}
    (hr : Response.isSuccess r.status = false) (h : showing call r o = .error fault) :
    ∃ d, fault = .defect d := by
  unfold showing at h
  cases hshown : call.shownOn o.host r with
  | error fault' =>
    rw [hshown] at h
    obtain rfl := Except.error.inj h
    exact exists_defect_of_shownOn hr hshown
  | ok text? =>
    rw [hshown] at h
    cases text? with
    | none => cases h
    | some text => exact exists_defect_of_delivered h

/-- Output that a response is shown in is what it was, or has the text delivered. -/
theorem of_showing {r : Http.Response} {o o' : Delivery} (h : showing call r o = .ok o') :
    o' = o ∨ ∃ text, call.shownOn o.host r = .ok (some text) ∧ delivered call text o = .ok o' := by
  unfold showing at h
  cases hshown : call.shownOn o.host r with
  | error fault' =>
    rw [hshown] at h
    cases h
  | ok text? =>
    rw [hshown] at h
    cases text? with
    | none => exact .inl (Except.ok.inj h).symm
    | some text => exact .inr ⟨text, rfl, h⟩

section RunsOnce

variable {settings : Settings} {api : String} {l : Leaf} {choices : Choices} {before : Effects}
  {ending : Except Ending Unit} {requests : List Http.Sent} {r : Http.Response}

/-- Where no call is made but in a dry run, nothing is done. -/
theorem runsOnce_of_unsent
    (hdry : ∀ call, callOf before.output.host settings api l choices = .ok call → call.isDry) :
    RunsOnce invocation settings api l choices before ending before where
  sends := .inl rfl
  withholds _ := rfl
  writes := .inl rfl
  selects call r _ hr := congrArg Run.answer (shown_of_not_isSuccess hr call _)
  failsBefore _ _ _ := rfl
  judges call _ _ hcall hsent := by
    rw [hdry call hcall] at hsent
    cases hsent

/-- A call that is made and is no dry run is not withheld. -/
theorem not_withholds (hcall : callOf before.output.host settings api l choices = .ok call)
    (hdry : call.isDry = false) : ¬ Withholds before.output.host settings api l choices := by
  intro hwithholds
  have hisDry := hwithholds.isDry hcall
  rw [hdry] at hisDry
  cases hisDry

/-- Sending a call adds one request at most. -/
theorem requests_of_received {answer : Except Fault Http.Response}
    (hreceived : Http.received invocation.client invocation.network.apis call.request
      before.requests = (answer, requests)) :
    requests = before.requests ∨ ∃ request, requests = before.requests ++ [request] := by
  have hcases := Http.received_cases invocation.client invocation.network.apis call.request
    before.requests
  rw [hreceived] at hcases
  exact hcases.imp And.left fun ⟨request, hrequests, _⟩ => ⟨request, hrequests⟩

/-- A response that is received answers a request that was sent for it. -/
theorem exists_request_of_received (hreceived : Http.received invocation.client
      invocation.network.apis call.request before.requests = (.ok r, requests)) :
    ∃ request, requests = before.requests ++ [request] ∧
      invocation.network.apis before.requests request = .response r := by
  have hcases := Http.received_cases invocation.client invocation.network.apis call.request
    before.requests
  rw [hreceived] at hcases
  rcases hcases with ⟨-, defect, hdefect⟩ | ⟨request, hrequests, hreply⟩
  · cases hdefect
  · exact ⟨request, hrequests, hreply r rfl⟩

/-- A run whose response is missing or cannot be shown ends with a fault, and nothing is written. -/
theorem runsOnce_of_fault {answer : Except Fault Http.Response}
    (hcall : callOf before.output.host settings api l choices = .ok call)
    (hdry : call.isDry = false) (hreceived : Http.received invocation.client
      invocation.network.apis call.request before.requests = (answer, requests))
    (hfault : ∀ r, answer = .ok r → showing call r before.output = .error fault) :
    RunsOnce invocation settings api l choices before (.error (.fault fault))
      { before with requests } where
  sends := requests_of_received hreceived
  withholds hwithholds := absurd hwithholds (not_withholds hcall hdry)
  writes := .inl rfl
  selects call _ _ hr := congrArg Run.answer (shown_of_not_isSuccess hr call _)
  failsBefore _ _ _ := rfl
  judges := by
    intro call' r requests' hcall' _ hr hfails
    obtain rfl := Except.ok.inj (hcall.symm.trans hcall')
    have hshowing := hfault r (Prod.mk.inj (hreceived.symm.trans hr)).1
    refine ⟨fun output houtput => ?_, fun fault' hfault' => ?_⟩
    · cases hshowing.symm.trans houtput
    · obtain rfl := Except.error.inj (hshowing.symm.trans hfault')
      exact ⟨rfl, exists_defect_of_showing hfails hshowing⟩

/-- A run shows its response and then ends with the status of it. -/
theorem runsOnce_of_shown {output : Delivery}
    (hcall : callOf before.output.host settings api l choices = .ok call)
    (hdry : call.isDry = false) (hreceived : Http.received invocation.client
      invocation.network.apis call.request before.requests = (.ok r, requests))
    (hshowing : showing call r before.output = .ok output) :
    RunsOnce invocation settings api l choices before ((judged r).mapError .fault)
      ⟨requests, output⟩ where
  sends := requests_of_received hreceived
  withholds hwithholds := absurd hwithholds (not_withholds hcall hdry)
  writes := by
    obtain ⟨request, hrequests, hreply⟩ := exists_request_of_received hreceived
    rcases of_showing hshowing with hsame | ⟨text, hshown, hdelivered⟩
    · exact .inl hsame
    · exact .inr ⟨call, request, r, text, hcall, hrequests, hreply, hshown, hdelivered⟩
  selects call _ _ hr := congrArg Run.answer (shown_of_not_isSuccess hr call _)
  failsBefore := by
    intro fault hfault hother
    by_cases hr : Response.isSuccess r.status
    · rw [judged_of_isSuccess hr] at hfault
      cases hfault
    · obtain ⟨message, hmessage⟩ := judged_of_not_isSuccess (Bool.eq_false_iff.2 hr)
      rw [hmessage] at hfault
      exact absurd (Except.error.inj hfault).symm (hother r.status message)
  judges := by
    intro call' r' requests' hcall' _ hr' hfails
    obtain rfl := Except.ok.inj (hcall.symm.trans hcall')
    obtain rfl := Except.ok.inj (Prod.mk.inj (hreceived.symm.trans hr')).1
    refine ⟨fun output' houtput' => ?_, fun fault' hfault' => ?_⟩
    · obtain ⟨message, hmessage⟩ := judged_of_not_isSuccess hfails
      refine ⟨message, ?_, exitCode_status r.status message⟩
      rw [hmessage]
      rfl
    · cases hshowing.symm.trans hfault'

/-- A call that is performed is sent, and its response is shown and looked at. -/
theorem runsOnce_of_performed (hcall : callOf before.output.host settings api l choices = .ok call)
    (hdry : call.isDry = false) :
    RunsOnce invocation settings api l choices before
      ((performed invocation call before).1.mapError .fault) (performed invocation call before).2 := by
  unfold performed
  rcases hreceived : Http.received invocation.client invocation.network.apis call.request
    before.requests with ⟨answer, requests⟩
  cases answer with
  | error fault => exact runsOnce_of_fault hcall hdry hreceived nofun
  | ok r =>
    dsimp only
    cases hshowing : showing call r before.output with
    | error fault =>
      refine runsOnce_of_fault hcall hdry hreceived fun r' hr' => ?_
      rwa [← Except.ok.inj hr']
    | ok output => exact runsOnce_of_shown hcall hdry hreceived hshowing

/-- **One run of a command.**  It sends at most one request, and none in a dry run or where no request
can be made.  It writes at most once, what is shown of the response to the request.  Fields and
selection count for successes only.  Whatever ends it, unless it is the status of a response, nothing
was written; and a response that is no success ends it with the status and its exit code, unless a
defect keeps the response from being shown. -/
theorem runLeaf_runsOnce (invocation : Invocation) (settings : Settings) (api : String) (l : Leaf)
    (choices : Choices) (s : State) :
    RunsOnce invocation settings api l choices s.effects
      ((runLeaf invocation settings api l choices).on s).1
      ((runLeaf invocation settings api l choices).on s).2.effects := by
  obtain ⟨hending, heffects⟩ := (does_runLeaf invocation settings api l choices s.effects).on_eq
  rw [hending, heffects]
  unfold leafRun called
  cases hcall : callOf s.effects.output.host settings api l choices with
  | error fault =>
    refine runsOnce_of_unsent fun call hcall' => ?_
    cases hcall.symm.trans hcall'
  | ok call =>
    dsimp only
    by_cases hdry : call.isDry
    · rw [if_pos hdry]
      refine runsOnce_of_unsent fun call' hcall' => ?_
      obtain rfl := Except.ok.inj (hcall.symm.trans hcall')
      exact hdry
    · rw [if_neg hdry]
      exact runsOnce_of_performed hcall (Bool.eq_false_iff.2 hdry)

end RunsOnce

/-! ### A shop that refuses -/

/-- An API without a credential. -/
def openApi : ApiConfig := { Request.shopApi with auth := "", headers := [] }

/-- A configuration with this API. -/
def openSettings : Settings := ⟨⟨[("shop", openApi)]⟩, Host.Path.ofText "config.yaml"⟩

/-- A command of the shop. -/
def ordersLeaf : Leaf := Command.plainLeaf "orders" Request.shopEndpoint

/-- The output is asked for in a format. -/
def inFormat (format : String) : Choices := ⟨[], [("output", ⟨some (.string format), true⟩)]⟩

/-- The request of the command. -/
def ordersRequest : Request.Descriptor where
  method := .get
  url := "https://shop/p"
  path := "/p"
  query := []
  headers := [("User-Agent", "ontap/0.3.0"), ("Accept", "application/json")]
  body := .none

/-- The call of the command. -/
def ordersCall (format : Output.Format) : Call := ⟨ordersRequest, format, "", [], "", false⟩

/-- A response that is no success, with a text. -/
def refusal (status : Nat) (text : String) : Http.Response :=
  ⟨status, "", [], Text.utf8 text.toList⟩

/-- A run in which each request is answered by a response. -/
def answering (r : Http.Response) : Invocation :=
  ⟨[], ⟨fun _ _ => .response r, fun _ _ => .response r⟩, ⟨Http.defaultTimeout, "b", 0⟩, "", ""⟩

/-- A run that has done nothing yet. -/
def untouched : State := State.start ⟨Request.bareHost, [], .morning⟩ {}

theorem callOf_orders_json : callOf Request.bareHost openSettings "shop" ordersLeaf
    (inFormat "json") = .ok (ordersCall .json) := by
  with_unfolding_all rfl

theorem callOf_orders_table : callOf Request.bareHost openSettings "shop" ordersLeaf
    (inFormat "table") = .ok (ordersCall .table) := by
  with_unfolding_all rfl

/-- What the shop answers to the request. -/
def ordersReceived (r : Http.Response) : Except Fault Http.Response × List Http.Sent :=
  Http.received (answering r).client (answering r).network.apis ordersRequest []

/-- A response with status 404 is shown, and its run ends with exit code 4. -/
theorem runLeaf_runsOnce_missing : ∃ message,
    ((runLeaf (answering (refusal 404 "gone")) openSettings "shop" ordersLeaf (inFormat "json")).on
      untouched).1 = .error (.fault (.failure (.status 404 message))) ∧
      (Failure.status 404 message).exitCode = 4 := by
  have hreceived : (ordersReceived (refusal 404 "gone")).1 = .ok (refusal 404 "gone") :=
    eq_ok_of_toOption (by decide +kernel)
  have hshown : (ordersCall .json).shownOn Request.bareHost (refusal 404 "gone") =
      .ok (some "\"gone\"\n") := eq_ok_of_toOption (by decide +kernel)
  have hshowing : showing (ordersCall .json) (refusal 404 "gone") untouched.effects.output =
      .ok ⟨"\"gone\"\n", Request.bareHost⟩ := by
    show (match (ordersCall .json).shownOn Request.bareHost (refusal 404 "gone") with
      | .ok (some text) => delivered (ordersCall .json) text untouched.effects.output
      | .ok none => .ok untouched.effects.output
      | .error fault => .error fault) = _
    rw [hshown]
    rfl
  have hpair : ordersReceived (refusal 404 "gone") =
      (.ok (refusal 404 "gone"), (ordersReceived (refusal 404 "gone")).2) := Prod.ext hreceived rfl
  have hfails : Response.isSuccess (refusal 404 "gone").status = false := by decide
  have hjudged := (runLeaf_runsOnce (answering (refusal 404 "gone")) openSettings "shop" ordersLeaf
    (inFormat "json") untouched).judges (ordersCall .json) (refusal 404 "gone")
    (ordersReceived (refusal 404 "gone")).2 callOf_orders_json rfl hpair hfails
  obtain ⟨message, hending, hexit⟩ := hjudged.1 _ hshowing
  exact ⟨message, hending, hexit⟩

/-- A response with status 401 whose text closes a markup that it has not opened ends a run with a
table not with the status, and not with its exit code. -/
theorem runLeaf_refusal_markup :
    (ordersReceived (refusal 401 "[/x]")).1 = .ok (refusal 401 "[/x]") ∧
      ((runLeaf (answering (refusal 401 "[/x]")) openSettings "shop" ordersLeaf
        (inFormat "table")).on untouched).1 = .error (.fault (.defect .markup)) ∧
      statusExit 401 = 3 ∧ FailureClass.general.exitCode = 1 := by
  have hreceived : (ordersReceived (refusal 401 "[/x]")).1 = .ok (refusal 401 "[/x]") :=
    eq_ok_of_toOption (by decide +kernel)
  have hshown : (ordersCall .table).shownOn Request.bareHost (refusal 401 "[/x]") =
      .error (.defect .markup) := by
    decide +kernel
  refine ⟨hreceived, ?_, rfl, rfl⟩
  have hrun := (does_runLeaf (answering (refusal 401 "[/x]")) openSettings "shop" ordersLeaf
    (inFormat "table") untouched.effects).on_eq.1
  have hpair : Http.received (answering (refusal 401 "[/x]")).client
      (answering (refusal 401 "[/x]")).network.apis ordersRequest [] =
        (.ok (refusal 401 "[/x]"), (ordersReceived (refusal 401 "[/x]")).2) :=
    Prod.ext hreceived rfl
  have hcalled : leafRun (answering (refusal 401 "[/x]")) openSettings "shop" ordersLeaf
      (inFormat "table") untouched.effects =
        performed (answering (refusal 401 "[/x]")) (ordersCall .table) untouched.effects := by
    unfold leafRun
    rw [show untouched.effects.output.host = Request.bareHost from rfl, callOf_orders_table]
    rfl
  have hshowing : showing (ordersCall .table) (refusal 401 "[/x]") untouched.effects.output =
      .error (.defect .markup) := by
    unfold showing
    rw [show untouched.effects.output.host = Request.bareHost from rfl, hshown]
  have hperformed : (performed (answering (refusal 401 "[/x]")) (ordersCall .table)
      untouched.effects).1 = .error (.defect .markup) := by
    unfold performed
    rw [show Http.received _ _ (ordersCall .table).request untouched.effects.requests = _ from hpair]
    dsimp only
    rw [hshowing]
  rw [hrun, hcalled, hperformed]
  rfl

end ApiShell.Program