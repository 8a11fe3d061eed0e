import ApiShell.Program.Session
import ApiShell.Proofs.Host.Replacement
import ApiShell.Proofs.Http.Sending

/-!
# What a session does outside

A session ends in one of several ways and leaves a state.  Of that state its effects are what can be
seen outside: the requests that were sent, what was printed, and the files.  What is said to the user
and what is logged are no effects, and how the sessions here end depends on the effects alone.  So a
session is described by `Does`: with these effects at its beginning it ends so and leaves those.
-/

namespace ApiShell.Program

/-- The output of a run: what was printed, and the host with its files. -/
structure Delivery where
  stdout : String
  host : Host

/-- What a run has done that can be seen outside: the requests to APIs, and its output. -/
structure Effects where
  requests : List Http.Sent
  output : Delivery

/-- The effects of a run so far. -/
def State.effects (s : State) : Effects :=
  ⟨s.transcript.requests, s.transcript.stdout, s.world.host⟩

namespace Session

variable {α β : Type} {x : Session α} {f : α → Session β} {s s' : State} {a : α}
  {e e' e'' : Effects}

/-- How a session ends in a state, and the state that it leaves. -/
def on (x : Session α) (s : State) : Except Ending α × State := (x.run.run s : Id _)

/-- In each state with the effects `e`, the session ends so and leaves the effects `e'`. -/
def Does (x : Session α) (e : Effects) (ending : Except Ending α) (e' : Effects) : Prop :=
  ∀ s : State, s.effects = e → ∃ s', x.on s = (ending, s') ∧ s'.effects = e'

/-- A sequence goes on where its first part has succeeded. -/
theorem on_bind (x : Session α) (f : α → Session β) (s : State) :
    (x >>= f).on s = match x.on s with
      | (.ok a, s') => (f a).on s'
      | (.error ending, s') => (.error ending, s') := by
  unfold on
  rw [ExceptT.run_bind, StateT.run_bind]
  rcases (x.run.run s : Id _) with ⟨ending | a, s'⟩ <;> rfl

/-- A sequence succeeds when both of its parts do. -/
theorem on_bind_eq_ok {b : β} (h : (x >>= f).on s = (.ok b, s')) :
    ∃ a s₁, x.on s = (.ok a, s₁) ∧ (f a).on s₁ = (.ok b, s') := by
  rw [on_bind] at h
  rcases hx : x.on s with ⟨ending | a, s₁⟩
  · rw [hx] at h
    cases h
  · rw [hx] at h
    exact ⟨a, s₁, rfl, h⟩

theorem Does.pure (a : α) (e : Effects) : Does (Pure.pure a) e (.ok a) e := by
  intro s hs
  exact ⟨s, rfl, hs⟩

theorem Does.failWith (fault : Fault) (e : Effects) :
    Does (failWith fault : Session α) e (.error (.fault fault)) e := by
  intro s hs
  exact ⟨s, rfl, hs⟩

theorem Does.bind {ending : Except Ending β} (hx : Does x e (.ok a) e')
    (hf : Does (f a) e' ending e'') : Does (x >>= f) e ending e'' := by
  intro s hs
  obtain ⟨s', hrun, hs'⟩ := hx s hs
  obtain ⟨s'', hrest, hs''⟩ := hf s' hs'
  refine ⟨s'', ?_, hs''⟩
  unfold on at hrun hrest ⊢
  rw [ExceptT.run_bind, StateT.run_bind, hrun]
  exact hrest

theorem Does.bind_error {ending : Ending} (hx : Does x e (.error ending) e') :
    Does (x >>= f) e (.error ending) e' := by
  intro s hs
  obtain ⟨s', hrun, hs'⟩ := hx s hs
  refine ⟨s', ?_, hs'⟩
  unfold on at hrun ⊢
  rw [ExceptT.run_bind, StateT.run_bind, hrun]
  rfl

/-- What comes of a session in a state is what it does with the effects of the state. -/
theorem Does.on_eq {ending : Except Ending α} (h : Does x s.effects ending e') :
    (x.on s).1 = ending ∧ (x.on s).2.effects = e' := by
  obtain ⟨s', hrun, hs'⟩ := h s rfl
  rw [hrun]
  exact ⟨rfl, hs'⟩

/-! ### Single steps -/

/-- A step that leaves the effects as they are does nothing but answer. -/
theorem does_step {step : Step α} (h : ∀ s : State, s.effects = e → (step.run s).1 = a)
    (hkeeps : ∀ s : State, (step.run s).2.effects = s.effects) :
    Does (liftM step : Session α) e (.ok a) e := by
  intro s hs
  refine ⟨(step.run s).2, ?_, (hkeeps s).trans hs⟩
  rw [← h s hs]
  rfl

theorem does_modify {f : State → State} (h : ∀ s, (f s).effects = s.effects) (e : Effects) :
    Does (modify f : Session Unit) e (.ok ()) e := by
  intro s hs
  exact ⟨f s, rfl, (h s).trans hs⟩

theorem effects_publish (records : List LogRecord) (s : State) :
    ((publish records).run s).2.effects = s.effects := rfl

theorem effects_remark (level : Level) (message : String) (s : State) :
    ((remark level message).run s).2.effects = s.effects := rfl

theorem effects_say (tone : Output.Tone) (message : String) (s : State) :
    ((say tone message).run s).2.effects = s.effects := rfl

theorem effects_forM_remark (level : Level) (messages : List String) (s : State) :
    ((messages.forM (remark level)).run s).2.effects = s.effects := by
  induction messages generalizing s with
  | nil => rfl
  | cons message messages ih =>
    have hfirst := effects_remark level message s
    exact (ih _).trans hfirst

theorem does_host (e : Effects) : Does (liftM host : Session Host) e (.ok e.output.host) e :=
  does_step (fun _ hs => congrArg (·.output.host) hs) fun _ => rfl

theorem does_settle (r : Except Fault α) (e : Effects) :
    Does (settle r) e (r.mapError .fault) e := by
  cases r with
  | error fault => exact .failWith fault e
  | ok a => exact .pure a e

/-- A step that may have met a defect ends as it has. -/
theorem does_settleDefects (r : Except Defect α) (e : Effects) :
    Does (settleDefects r) e (r.mapError fun d => .fault (.defect d)) e := by
  cases r with
  | error d => exact .failWith (.defect d) e
  | ok a => exact .pure a e

/-- A task on files changes the host and nothing else. -/
theorem does_onFiles {task : Host.Task α} {r : Except Defect α} {host : Host}
    (h : task.on e.output.host = (r, host)) :
    Does (onFiles task) e (r.mapError fun d => .fault (.defect d))
      { e with output.host := host } := by
  have hstep : Does (liftM (onHost task) : Session _) e (.ok r)
      { e with output.host := host } := by
    intro s hs
    subst hs
    have hrun : ((onHost task).run s : Id _) = (r, { s with world.host := host }) := by
      change ((task.on s.world.host).1, { s with world.host := (task.on s.world.host).2 }) = _
      rw [show task.on s.world.host = (r, host) from h]
    refine ⟨{ s with world.host := host }, ?_, rfl⟩
    change (Except.ok ((onHost task).run s : Id _).1,
      ((onHost task).run s : Id _).2) = _
    rw [hrun]
  exact hstep.bind (does_settleDefects r _)

/-- A step that logs answers what it answers without any records before. -/
theorem does_embed (r : Run α) (e : Effects) : Does (embed r) e (r.answer.mapError .fault) e := by
  have hlogged : Does (liftM (logged r.run) : Session _) e (.ok r.answer) e :=
    does_step (fun _ _ => rfl) fun s => effects_publish r.records s
  exact hlogged.bind (does_settle r.answer e)

/-- Printing adds whole lines to the output. -/
theorem does_printOut (text : String) (e : Effects) :
    Does (liftM (printOut text) : Session Unit) e (.ok ())
      { e with output.stdout := e.output.stdout ++ Output.Format.endLine text } := by
  intro s hs
  subst hs
  exact ⟨_, rfl, rfl⟩

/-- Sending a request to an API adds what is sent. -/
theorem does_send (invocation : Invocation) (d : Request.Descriptor) (e : Effects) :
    Does (send invocation d) e
      ((Http.received invocation.client invocation.network.apis d e.requests).1.mapError .fault)
      { e with
        requests := (Http.received invocation.client invocation.network.apis d e.requests).2 } := by
  intro s hs
  subst hs
  have hsettle := does_settle (Http.received invocation.client invocation.network.apis d
    s.transcript.requests).1 { s.effects with
      requests := (Http.received invocation.client invocation.network.apis d
        s.transcript.requests).2 }
  exact hsettle _ rfl

/-! ### Sessions that meet defects only -/

/-- If the session ends early, it has met a defect. -/
def MeetsOnlyDefects (x : Session α) : Prop :=
  ∀ s ending, (x.on s).1 = .error ending → ∃ d, ending = .fault (.defect d)

namespace MeetsOnlyDefects

theorem step (x : Step α) : MeetsOnlyDefects (liftM x : Session α) := by
  intro s ending h
  cases h

theorem failWith (d : Defect) : MeetsOnlyDefects (Session.failWith (.defect d) : Session α) := by
  intro s ending h
  cases h
  exact ⟨d, rfl⟩

theorem bind {x : Session α} {f : α → Session β} (hx : MeetsOnlyDefects x)
    (hf : ∀ a, MeetsOnlyDefects (f a)) : MeetsOnlyDefects (x >>= f) := by
  intro s ending h
  rw [Session.on_bind] at h
  rcases hrun : x.on s with ⟨ending' | a, s'⟩
  · rw [hrun] at h
    obtain rfl := Except.error.inj h
    exact hx s ending' (congrArg Prod.fst hrun)
  · rw [hrun] at h
    exact hf a s' ending h

theorem settleDefects (r : Except Defect α) : MeetsOnlyDefects (Session.settleDefects r) := by
  cases r with
  | error d => exact failWith d
  | ok a => exact step (pure a)

theorem onFiles (task : Host.Task α) : MeetsOnlyDefects (Session.onFiles task) :=
  (step (Session.onHost task)).bind settleDefects

end MeetsOnlyDefects

end Session

end ApiShell.Program
