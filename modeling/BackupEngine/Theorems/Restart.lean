import BackupEngine.Lemmas.Sessions

/-!
# Sessions that are served

`Disconnect` and `Stop` stop the io_context and nothing restarts it: the thread of a later session returns from `run` at
once. The context also stops itself when no work is left. That of a server always has an accept under way; that of a client has
none left when its connect has failed, or a read, and nothing is written any more. Client and server are sessions of
`Session.machine`, so both serve exactly the sessions opened before the first close, as long as work is left.
-/

namespace Netzwerk

open Transition

instance : Nonempty Handler := ⟨⟨0, .close⟩⟩

instance : Nonempty ServerHandler := ⟨.accepted false false⟩

/-! ## The client -/

namespace ClientInterface

variable {s t : ClientInterface}

/-- The client between calls, after a `Connect` that returned true and with no `Disconnect` since. -/
def InSession (s : ClientInterface) : Prop := s.place = .outside ∧ s.result = some true

/-- In a session the thread does not run a handler behind which nothing is left: with no other handler ready and no operation
under way, the handler begins one. -/
def KeepsWork (s : ClientInterface) (e : ClientEvent) : Prop :=
  s.InSession → e = .thread .handle → s.context.pending = [] → ∀ h, s.context.ready = [h] → s.begins h ≠ []

/-- The client as a session. -/
def session (s : ClientInterface) : Session Operation Handler where
  context := s.context
  phase := match s.place, s.result with
    | .outside, none => .closed
    | .outside, some false => .failed
    | .outside, some true => .opened
    | .asking, _ | .askingAgain, _ | .posting, _ | .stopping, _ => .stopping
    | .joining, _ => .joining
    | .releasing, _ => .closed

theorem opened_iff_inSession : s.session.phase = .opened ↔ s.InSession := by
  unfold session InSession
  dsimp only
  split <;> simp_all

/-- The operations that the step of the thread begins. -/
def begun (s : ClientInterface) : List Operation := (s.context.ready.head?.map s.begins).getD []

/-- A `Connect` that returns. -/
theorem connect_returns_eq_ok (h : s.connect .returns = .ok t) :
    (s.context.initiate [⟨s.made, .connect⟩]).start = .ok t.context ∧ t.place = s.place ∧ t.result = some true := by
  unfold connect connectToServer at h
  cases hstart : (s.context.initiate [⟨s.made, .connect⟩]).start with
  | error e => simp [hstart, Except.bind, bind] at h
  | ok context =>
    simp only [hstart] at h
    cases h
    exact ⟨rfl, rfl, rfl⟩

theorem context_threadStep (s : ClientInterface) (e : RunStep) : (s.threadStep e).context = s.context.next s.begins e := by
  unfold threadStep
  split <;> rfl

theorem session_threadStep (s : ClientInterface) (e : RunStep) :
    (s.threadStep e).session = { s.session with context := s.context.next (fun _ => s.begun) e } := by
  have hcontext : s.context.next s.begins e = s.context.next (fun _ => s.begun) e := by
    cases e with
    | handle =>
      unfold begun
      cases hready : s.context.ready with
      | nil => simp only [IoContext.next, hready]
      | cons h ready => simp only [IoContext.next, hready, List.head?_cons, Option.map_some, Option.getD_some]
    | _ => rfl
  unfold threadStep
  rw [hcontext]
  split <;> rfl

theorem session_becomesReady (s : ClientInterface) (h : Handler) :
    (s.becomesReady h).session = { s.session with context := (s.becomesReady h).context } := by
  unfold becomesReady
  split <;> rfl

/-- A `Connect` is one that opens the session, or fails to. -/
theorem session_connect {outcome : Outcome} (hplace : s.place = .outside) (hresult : s.result = none)
    (ht : s.connect outcome = .ok t) :
    ∃ e, (Session.machine.when Session.KeepsWork).Step s.session e t.session ∧
      SessionEvent.calls [e] = ClientEvent.calls [.connect outcome] := by
  have hphase : s.session.phase = .closed := by simp only [session, hplace, hresult]
  cases outcome with
  | resolveThrows =>
    cases ht
    refine ⟨.call (.opens false) [], Session.step_of_ne ⟨hphase, by simp⟩ ?_ (by simp), rfl⟩
    simp only [Session.next, session, hplace, IoContext.initiate, List.append_nil]
  | threadThrows =>
    cases ht
    refine ⟨.call (.opens false) [⟨s.made, .connect⟩], Session.step_of_ne ⟨hphase, by simp⟩ ?_ (by simp), rfl⟩
    simp only [Session.next, session, connectToServer, hplace]
  | returns =>
    obtain ⟨hstart, hplace', hresult'⟩ := connect_returns_eq_ok ht
    refine ⟨.call (.opens true) [⟨s.made, .connect⟩], Session.step_of_ne ⟨hphase, by simp⟩ ?_ (by simp), rfl⟩
    simp only [Session.next, session, hplace', hplace, hresult', hstart]
    rfl

/-- A step that keeps work is a few such steps of a session, with the same calls. -/
theorem step_session {e : ClientEvent} (h : (machine.when KeepsWork).Step s e t) :
    ∃ as, Run (Session.machine.when Session.KeepsWork) s.session as t.session ∧ SessionEvent.calls as = ClientEvent.calls [e] := by
  obtain ⟨⟨hen, hkeeps⟩, ht⟩ := h
  cases e with
  | connect outcome =>
    obtain ⟨a, hstep, hcalls⟩ := session_connect hen.1 hen.2 ht
    exact ⟨[a], .single hstep, hcalls⟩
  | disconnect =>
    cases ht
    have hplace : s.place = .outside := hen
    refine ⟨[.call .closes []], .single (Session.step_of_ne ?_ ?_ (by simp)), rfl⟩
    · rcases hresult : s.result with _ | (_ | _) <;>
        simp [Session.enabled, session, hplace, hresult]
    · simp only [Session.next, session, hplace]
  | ask =>
    cases ht
    have hplace : s.place = .asking := hen
    refine ⟨[], ?_, rfl⟩
    have hsame : s.session = { s with place := if s.isConnected then .askingAgain else .stopping }.session := by
      cases hc : s.isConnected <;> simp [session, hplace]
    exact hsame ▸ .nil
  | askAgain =>
    cases ht
    have hplace : s.place = .askingAgain := hen
    refine ⟨[], ?_, rfl⟩
    have hsame : s.session = { s with place := if s.isConnected then .posting else .stopping }.session := by
      cases hc : s.isConnected <;> simp [session, hplace]
    exact hsame ▸ .nil
  | post =>
    cases ht
    have hplace : s.place = .posting := hen
    cases hc : s.connection with
    | none =>
      refine ⟨[], ?_, rfl⟩
      have hsame : s.session = { s with context := s.context, place := .stopping }.session := by simp [session, hplace]
      exact hsame ▸ .nil
    | some c =>
      refine ⟨[.post ⟨c, .close⟩], .single (Session.step_of_ne True.intro ?_ (by simp)), rfl⟩
      simp [Session.next, session, hplace]
  | stop =>
    cases ht
    have hplace : s.place = .stopping := hen
    refine ⟨[.stop], .single (Session.step_of_ne ?_ ?_ (by simp)), rfl⟩
    · simp [Session.enabled, session, hplace]
    · simp [Session.next, session]
  | join =>
    cases ht
    refine ⟨[.join], .single (Session.step_of_ne ⟨?_, hen.2⟩ ?_ (by simp)), rfl⟩
    · simp [session, hen.1]
    · simp [Session.next, session]
  | release =>
    cases ht
    have hplace : s.place = .releasing := hen
    refine ⟨[], ?_, rfl⟩
    have hsame : s.session = { s with connection := none, place := .outside, result := none }.session := by
      simp [session, hplace]
    exact hsame ▸ .nil
  | ready a =>
    cases ht
    rw [session_becomesReady]
    cases hop : a.operation with
    | none =>
      refine ⟨[.post a], .single (Session.step_of_ne True.intro ?_ (by simp)), rfl⟩
      simp only [Session.next, becomesReady, hop]
      rfl
    | some op =>
      refine ⟨[.complete op a], .single (Session.step_of_ne (hen op hop) ?_ (by simp)), rfl⟩
      simp only [Session.next, becomesReady, hop]
      rfl
  | thread e =>
    cases ht
    rw [session_threadStep]
    refine ⟨[.thread e s.begun], .single ⟨⟨hen, ?_⟩, rfl⟩, rfl⟩
    intro hopened heq hpending hlength
    obtain ⟨rfl, hbegun⟩ := (SessionEvent.thread.injEq ..).mp heq
    obtain ⟨a, ha⟩ := List.length_eq_one_iff.mp hlength
    have ha : s.context.ready = [a] := ha
    refine hkeeps (opened_iff_inSession.mp hopened) rfl hpending a ha ?_
    unfold begun at hbegun
    rwa [ha, List.head?_cons, Option.map_some, Option.getD_some] at hbegun

/-- A run of the client that keeps work is such a run of a session. -/
theorem run_session {es : List ClientEvent} (h : Run (machine.when KeepsWork) {} es t) :
    ∃ as, Run (Session.machine.when Session.KeepsWork) {} as t.session ∧ SessionEvent.calls as = ClientEvent.calls es := by
  induction h with
  | nil => exact ⟨[], .nil, rfl⟩
  | snoc _ step ih =>
    obtain ⟨as, hrun, has⟩ := ih
    obtain ⟨bs, hrun', hbs⟩ := step_session step
    refine ⟨as ++ bs, hrun.append hrun', ?_⟩
    rw [Session.calls_append, has, hbs]
    exact List.filterMap_append.symm

/-- Behind a handler that leaves no work the context is stopped, in a session. -/
theorem unserved_of_not_keepsWork {e : ClientEvent} (h : machine.Step s e t) (hkeeps : ¬KeepsWork s e) :
    t.InSession ∧ ¬t.context.Serves := by
  simp only [KeepsWork, ne_eq, Classical.not_imp, not_forall, not_not] at hkeeps
  obtain ⟨⟨hplace, hresult⟩, rfl, hpending, a, hready, hbegins⟩ := hkeeps
  cases h.2
  have hstep : s.threadStep .handle = { s with context := s.context.next s.begins .handle }.handled a := by
    simp only [threadStep, hready]
  rw [hstep]
  refine ⟨⟨hplace, hresult⟩, fun hserves => ?_⟩
  have hidle : ({ s.context with ready := [], ran := s.context.ran ++ [a] }.initiate (s.begins a)).Idle :=
    ⟨List.append_eq_nil_iff.mpr ⟨hpending, hbegins⟩, rfl⟩
  have hstopped : (s.context.next s.begins .handle).stopped = true := by
    rw [IoContext.next_handle hready, IoContext.workFinished_of_idle hidle]
    rfl
  exact Bool.false_ne_true ((IoContext.serves_iff.mp hserves).1.symm.trans hstopped)

/-- A run of the client is restartable exactly when no `Connect` that returns true comes after a `Disconnect` and no session runs
out of work. -/
theorem restartable {es : List ClientEvent} (h : Run machine {} es t) :
    Restartable machine {} InSession (fun s => s.context.Serves) es ↔
      NeverReopened (ClientEvent.calls es) ∧ Run (machine.when KeepsWork) {} es t := by
  refine restartable_iff (fun es s hrun hin => ?_) (fun s e t hstep hcall => ?_)
    (fun s e t hstep hnot => unserved_of_not_keepsWork hstep hnot) h
  · obtain ⟨as, hrun', has⟩ := run_session hrun
    have := Session.opened_spec hrun' (opened_iff_inSession.mpr hin)
    rwa [has] at this
  · obtain ⟨hen, ht⟩ := hstep
    cases e with
    | connect outcome =>
      cases outcome with
      | returns =>
        obtain ⟨_, hplace, hresult⟩ := connect_returns_eq_ok ht
        exact ⟨hplace.trans hen.1, hresult⟩
      | _ => cases hcall
    | _ => cases hcall

/-! The thread of a client has work as long as its connect and its reads succeed: each of their handlers begins the next read. -/

/-- A connect or a read is under way, or its handler is ready. -/
def Receives (s : ClientInterface) : Prop :=
  s.context.Alive (fun op => op.kind = .connect ∨ op.kind = .read)
    (fun h => ∃ ec, h.kind = .completed .connect ec ∨ h.kind = .completed .read ec)

/-- The handler of a connect or a read that has failed. -/
def FailedReceive (h : Handler) : Prop := h.kind = .completed .connect true ∨ h.kind = .completed .read true

/-- The handler of a connect or a read fails or begins a read. -/
theorem begins_of_receives {h : Handler} {ec : Bool} (hkind : h.kind = .completed .connect ec ∨ h.kind = .completed .read ec)
    (hfailed : ¬FailedReceive h) : s.begins h = [⟨h.conn, .read⟩] := by
  unfold FailedReceive at hfailed
  unfold begins Handler.begins
  rcases hkind with hkind | hkind <;> rw [hkind] at hfailed ⊢ <;> cases ec <;> simp_all

theorem receives_step {e : ClientEvent} (h : s.context.thread ≠ none → s.Receives) (hstep : machine.Step s e t)
    (hran : ∀ a ∈ t.context.ran, ¬FailedReceive a) : t.context.thread ≠ none → t.Receives := by
  obtain ⟨hen, ht⟩ := hstep
  cases e with
  | connect outcome =>
    cases outcome with
    | resolveThrows =>
      cases ht
      exact h
    | threadThrows =>
      cases ht
      exact fun _ => .of_pending (List.mem_append_right _ (List.mem_singleton_self _)) (.inl rfl)
    | returns =>
      obtain ⟨_, hcontext⟩ := IoContext.start_eq_ok.mp (connect_returns_eq_ok ht).1
      unfold Receives
      rw [hcontext]
      exact fun _ => .of_pending (List.mem_append_right _ (List.mem_singleton_self _)) (.inl rfl)
  | post =>
    cases ht
    cases hc : s.connection with
    | none => exact h
    | some c => exact fun hthread => (h hthread).post _
  | disconnect | ask | askAgain | stop | release =>
    cases ht
    exact h
  | join =>
    cases ht
    exact fun hthread => absurd rfl hthread
  | ready a =>
    cases ht
    simp only [becomesReady]
    cases hop : a.operation with
    | none => exact fun hthread => (h hthread).post a
    | some op =>
      refine fun hthread => (h hthread).complete fun hkind => ?_
      obtain ⟨conn, kind⟩ := a
      cases kind with
      | completed k ec =>
        cases hop
        exact ⟨ec, hkind.imp (congrArg (HandlerKind.completed · ec)) (congrArg (HandlerKind.completed · ec))⟩
      | _ => cases hop
  | thread e =>
    cases ht
    unfold Receives
    rw [context_threadStep] at hran ⊢
    intro _
    cases e with
    | enter => exact (h (by rw [hen.1]; nofun)).enter
    | handle =>
      obtain ⟨a, ready, hready⟩ := List.exists_cons_of_ne_nil hen.2.2
      refine (h (by rw [hen.1]; nofun)).handle hready fun ⟨ec, hkind⟩ => ⟨⟨a.conn, .read⟩, ?_, .inr rfl⟩
      have hfailed : ¬FailedReceive a := hran a (by
        rw [IoContext.next_handle hready, IoContext.workFinished_ran]
        exact List.mem_append_right _ (List.mem_singleton_self a))
      rw [begins_of_receives hkind hfailed]
      exact List.mem_singleton_self _
    | leave =>
      refine h fun hnone => ?_
      rcases hen.1 with hthread | hthread <;> cases hnone.symm.trans hthread

/-- The handlers run so far stay. -/
theorem mem_ran_of_step {e : ClientEvent} (hstep : machine.Step s e t) {a : Handler} (ha : a ∈ s.context.ran) :
    a ∈ t.context.ran := by
  obtain ⟨hen, ht⟩ := hstep
  cases e with
  | connect outcome =>
    cases outcome with
    | returns =>
      rw [(IoContext.start_eq_ok.mp (connect_returns_eq_ok ht).1).2]
      exact ha
    | _ =>
      cases ht
      exact ha
  | post =>
    cases ht
    cases hc : s.connection <;> exact ha
  | ready b =>
    cases ht
    simp only [becomesReady]
    cases b.operation <;> exact ha
  | thread e =>
    cases ht
    rw [context_threadStep]
    cases e with
    | enter =>
      rw [IoContext.next, IoContext.workFinished_ran]
      exact ha
    | handle =>
      obtain ⟨b, ready, hready⟩ := List.exists_cons_of_ne_nil hen.2.2
      rw [IoContext.next_handle hready, IoContext.workFinished_ran]
      exact List.mem_append_left _ ha
    | leave => exact ha
  | _ =>
    cases ht
    exact ha

/-- In a run in which no connect and no read has failed, work is always left. -/
theorem keepsWork_of_received {es : List ClientEvent} (h : Run machine {} es t) (hran : ∀ a ∈ t.context.ran, ¬FailedReceive a) :
    Run (machine.when KeepsWork) {} es t ∧ (t.context.thread ≠ none → t.Receives) := by
  induction h with
  | nil => exact ⟨.nil, fun hthread => absurd rfl hthread⟩
  | @snoc es s e t run step ih =>
    obtain ⟨hall, hreceives⟩ := ih fun a ha => hran a (mem_ran_of_step step ha)
    refine ⟨.snoc hall ⟨⟨step.1, ?_⟩, step.2⟩, receives_step hreceives step hran⟩
    rintro - rfl hpending a hready
    have hthread : s.context.thread = some .looping := step.1.1
    obtain ⟨ec, hkind⟩ := (hreceives (by rw [hthread]; nofun)).last hpending hready
    have hfailed : ¬FailedReceive a := hran a (by
      cases step.2
      rw [context_threadStep, IoContext.next_handle hready, IoContext.workFinished_ran]
      exact List.mem_append_right _ (List.mem_singleton_self a))
    rw [begins_of_receives hkind hfailed]
    exact List.cons_ne_nil _ _

end ClientInterface

/-! ## The server -/

namespace ServerContext

variable {s t : ServerContext}

/-- The server between calls, after a `Start` that returned true and with no `Stop` since. -/
def InSession (s : ServerContext) : Prop := s.place = .outside ∧ s.result = some true

/-- An accept is under way, or its handler is ready. -/
def Accepts (s : ServerContext) : Prop :=
  s.context.Alive (· = ServerOperation.accept) (fun h => h.operation = some ServerOperation.accept)

/-- The server as a session. -/
def session (s : ServerContext) : Session ServerOperation ServerHandler where
  context := s.context
  phase := match s.place, s.result with
    | .outside, none => .closed
    | .outside, some false => .failed
    | .outside, some true => .opened
    | .stopping, _ => .stopping
    | .joining, _ => .joining

theorem opened_of_inSession (h : s.InSession) : s.session.phase = .opened := by
  simp only [session, h.1, h.2]

/-- A `Start` that returns. -/
theorem start_returns_eq_ok (h : s.start .returns = .ok t) :
    (s.context.initiate [.accept]).start = .ok t.context ∧ t.place = s.place ∧ t.result = some true := by
  unfold start waitForClientConnection at h
  cases hstart : (s.context.initiate [.accept]).start with
  | error e => simp [hstart, Except.bind, bind] at h
  | ok context =>
    simp only [hstart] at h
    cases h
    exact ⟨rfl, rfl, rfl⟩

/-- The operations that the step of the thread begins. -/
def begun (s : ServerContext) : List ServerOperation := (s.context.ready.head?.map s.begins).getD []

theorem context_threadStep (s : ServerContext) (e : RunStep) :
    (s.threadStep e).context = s.context.next s.begins e ∧ (s.threadStep e).place = s.place ∧
      (s.threadStep e).result = s.result := by
  unfold threadStep
  split
  · rename_i h ready _
    cases h with
    | accepted ec request => cases ec <;> exact ⟨rfl, rfl, rfl⟩
    | conn h => exact ⟨rfl, rfl, rfl⟩
  · exact ⟨rfl, rfl, rfl⟩

theorem session_threadStep (s : ServerContext) (e : RunStep) :
    (s.threadStep e).session = { s.session with context := s.context.next (fun _ => s.begun) e } := by
  obtain ⟨hcontext, hplace, hresult⟩ := context_threadStep s e
  have hnext : s.context.next s.begins e = s.context.next (fun _ => s.begun) e := by
    cases e with
    | handle =>
      unfold begun
      cases hready : s.context.ready with
      | nil => simp only [IoContext.next, hready]
      | cons h ready => simp only [IoContext.next, hready, List.head?_cons, Option.map_some, Option.getD_some]
    | _ => rfl
  unfold session
  rw [hcontext, hplace, hresult, hnext]

theorem session_becomesReady (s : ServerContext) (h : ServerHandler) :
    (s.becomesReady h).session = { s.session with context := (s.becomesReady h).context } := by
  unfold becomesReady
  split <;> rfl

/-- Whoever accepts goes on accepting: the handler of an accept begins the next one. -/
theorem accepts_step {e : StartEvent} (h : s.context.thread ≠ none → s.Accepts) (hstep : machine.Step s e t) :
    t.context.thread ≠ none → t.Accepts := by
  obtain ⟨hen, ht⟩ := hstep
  cases e with
  | start outcome =>
    cases outcome with
    | acceptThrows =>
      cases ht
      exact h
    | threadThrows =>
      cases ht
      exact fun _ => .of_pending (List.mem_append_right _ (List.mem_singleton_self _)) rfl
    | returns =>
      obtain ⟨_, hcontext⟩ := IoContext.start_eq_ok.mp (start_returns_eq_ok ht).1
      unfold Accepts
      rw [hcontext]
      exact fun _ => .of_pending (List.mem_append_right _ (List.mem_singleton_self _)) rfl
  | stopCalled =>
    cases ht
    exact h
  | stop =>
    cases ht
    exact h
  | join =>
    cases ht
    exact fun hthread => absurd rfl hthread
  | ready a =>
    cases ht
    simp only [becomesReady]
    cases hop : a.operation with
    | none => exact fun hthread => (h hthread).post a
    | some op => exact fun hthread => (h hthread).complete fun heq => by rw [hop, heq]
  | thread e =>
    cases ht
    unfold Accepts
    rw [(context_threadStep s e).1]
    intro _
    cases e with
    | enter => exact (h (by rw [hen.1]; nofun)).enter
    | handle =>
      obtain ⟨a, ready, hready⟩ := List.exists_cons_of_ne_nil hen.2.2
      refine (h (by rw [hen.1]; nofun)).handle hready fun ha => ⟨.accept, ?_, rfl⟩
      cases a with
      | accepted ec request => exact List.mem_append_right _ (List.mem_singleton_self _)
      | conn a => simp [ServerHandler.operation] at ha
    | leave =>
      refine h fun hnone => ?_
      rcases hen.1 with hthread | hthread <;> cases hnone.symm.trans hthread

/-- A step of a server that accepts is a step of a session that keeps work, with the same calls. -/
theorem step_session {e : StartEvent} (haccepts : s.context.thread ≠ none → s.Accepts) (h : machine.Step s e t) :
    ∃ as, Run (Session.machine.when Session.KeepsWork) s.session as t.session ∧ SessionEvent.calls as = StartEvent.calls [e] := by
  obtain ⟨hen, ht⟩ := h
  cases e with
  | start outcome =>
    obtain ⟨hplace, hresult⟩ := hen
    have hphase : s.session.phase = .closed := by simp only [session, hplace, hresult]
    cases outcome with
    | acceptThrows =>
      cases ht
      refine ⟨[.call (.opens false) []], .single (Session.step_of_ne ⟨hphase, by simp⟩ ?_ (by simp)), rfl⟩
      simp only [Session.next, session, hplace, IoContext.initiate, List.append_nil]
    | threadThrows =>
      cases ht
      refine ⟨[.call (.opens false) [.accept]], .single (Session.step_of_ne ⟨hphase, by simp⟩ ?_ (by simp)), rfl⟩
      simp only [Session.next, session, waitForClientConnection, hplace]
    | returns =>
      obtain ⟨hstart, hplace', hresult'⟩ := start_returns_eq_ok ht
      refine ⟨[.call (.opens true) [.accept]], .single (Session.step_of_ne ⟨hphase, by simp⟩ ?_ (by simp)), rfl⟩
      simp only [Session.next, session, hplace', hplace, hresult', hstart]
      rfl
  | stopCalled =>
    cases ht
    have hplace : s.place = .outside := hen
    refine ⟨[.call .closes []], .single (Session.step_of_ne ?_ ?_ (by simp)), rfl⟩
    · rcases hresult : s.result with _ | (_ | _) <;>
        simp [Session.enabled, session, hplace, hresult]
    · simp only [Session.next, session]
  | stop =>
    cases ht
    have hplace : s.place = .stopping := hen
    refine ⟨[.stop], .single (Session.step_of_ne ?_ ?_ (by simp)), rfl⟩
    · simp [Session.enabled, session, hplace]
    · simp [Session.next, session]
  | join =>
    cases ht
    refine ⟨[.join], .single (Session.step_of_ne ⟨?_, hen.2⟩ ?_ (by simp)), rfl⟩
    · simp [session, hen.1]
    · simp [Session.next, session]
  | ready a =>
    cases ht
    rw [session_becomesReady]
    cases hop : a.operation with
    | none =>
      refine ⟨[.post a], .single (Session.step_of_ne True.intro ?_ (by simp)), rfl⟩
      simp only [Session.next, becomesReady, hop]
      rfl
    | some op =>
      refine ⟨[.complete op a], .single (Session.step_of_ne (hen op hop) ?_ (by simp)), rfl⟩
      simp only [Session.next, becomesReady, hop]
      rfl
  | thread e =>
    cases ht
    rw [session_threadStep]
    refine ⟨[.thread e s.begun], .single ⟨⟨hen, ?_⟩, rfl⟩, rfl⟩
    intro _ heq hpending hlength
    obtain ⟨rfl, hbegun⟩ := (SessionEvent.thread.injEq ..).mp heq
    obtain ⟨a, ha⟩ := List.length_eq_one_iff.mp hlength
    have ha : s.context.ready = [a] := ha
    have hthread : s.context.thread ≠ none := by rw [hen.1]; exact Option.some_ne_none _
    have hlast := (haccepts hthread).last hpending ha
    unfold begun at hbegun
    rw [ha, List.head?_cons, Option.map_some, Option.getD_some] at hbegun
    cases a with
    | accepted ec request => exact List.append_ne_nil_of_right_ne_nil _ (List.cons_ne_nil _ _) hbegun
    | conn a => simp [ServerHandler.operation] at hlast

/-- A run of the server is a run of a session that keeps work. -/
theorem run_session {es : List StartEvent} (h : Run machine {} es t) :
    (∃ as, Run (Session.machine.when Session.KeepsWork) {} as t.session ∧ SessionEvent.calls as = StartEvent.calls es) ∧
      (t.context.thread ≠ none → t.Accepts) := by
  induction h with
  | nil => exact ⟨⟨[], .nil, rfl⟩, fun hthread => absurd rfl hthread⟩
  | snoc _ step ih =>
    obtain ⟨⟨as, hrun, has⟩, haccepts⟩ := ih
    obtain ⟨bs, hrun', hbs⟩ := step_session haccepts step
    refine ⟨⟨as ++ bs, hrun.append hrun', ?_⟩, accepts_step haccepts step⟩
    rw [Session.calls_append, has, hbs]
    exact List.filterMap_append.symm

/-- A run of the server is restartable exactly when no `Start` that returns true comes after a `Stop`. -/
theorem restartable {es : List StartEvent} (h : Run machine {} es t) :
    Restartable machine {} InSession (fun s => s.context.Serves) es ↔ NeverReopened (StartEvent.calls es) := by
  have hall : Run (machine.when fun _ _ => True) {} es t := by
    induction h with
    | nil => exact .nil
    | snoc _ step ih => exact .snoc ih ⟨⟨step.1, trivial⟩, step.2⟩
  suffices hiff : Restartable machine {} InSession (fun s => s.context.Serves) es ↔
      NeverReopened (StartEvent.calls es) ∧ Run (machine.when fun _ _ => True) {} es t from hiff.trans (and_iff_left hall)
  refine restartable_iff (fun es s hrun hin => ?_) (fun s e t hstep hcall => ?_) (fun s e t _ hnot => absurd trivial hnot) h
  · obtain ⟨⟨as, hrun', has⟩, _⟩ := run_session hrun.of_when
    have := Session.opened_spec hrun' (opened_of_inSession hin)
    rwa [has] at this
  · obtain ⟨hen, ht⟩ := hstep
    cases e with
    | start outcome =>
      cases outcome with
      | returns =>
        obtain ⟨_, hplace, hresult⟩ := start_returns_eq_ok ht
        exact ⟨hplace.trans hen.1, hresult⟩
      | _ => cases hcall
    | _ => cases hcall

end ServerContext

/-- Every session of a client and of a server is served, in every run, exactly when the run opens none after it closed one and,
for the client, in no session runs a handler behind which no work is left. -/
theorem sessions_served_iff {es : List ClientEvent} {t : ClientInterface} (hclient : Run ClientInterface.machine {} es t)
    {es' : List StartEvent} {t' : ServerContext} (hserver : Run ServerContext.machine {} es' t') :
    (Restartable ClientInterface.machine {} ClientInterface.InSession (fun s => s.context.Serves) es ↔
        NeverReopened (ClientEvent.calls es) ∧ Run (ClientInterface.machine.when ClientInterface.KeepsWork) {} es t) ∧
      (Restartable ServerContext.machine {} ServerContext.InSession (fun s => s.context.Serves) es' ↔
        NeverReopened (StartEvent.calls es')) :=
  ⟨ClientInterface.restartable hclient, ServerContext.restartable hserver⟩

/-- A client that connects, sends and disconnects, and a server that starts, lets a client in and stops. -/
theorem sessions_served_once :
    (∃ t, Run ClientInterface.machine {} [.connect .returns, .thread .enter, .ready ⟨0, .completed .connect false⟩,
        .thread .handle, .ready ⟨0, .send true⟩, .thread .handle, .disconnect] t ∧
      Restartable ClientInterface.machine {} ClientInterface.InSession (fun s => s.context.Serves) [.connect .returns,
        .thread .enter, .ready ⟨0, .completed .connect false⟩, .thread .handle, .ready ⟨0, .send true⟩, .thread .handle,
        .disconnect]) ∧
      ∃ t, Run ServerContext.machine {} [.start .returns, .thread .enter, .ready (.accepted false true), .thread .handle,
          .stopCalled] t ∧
        Restartable ServerContext.machine {} ServerContext.InSession (fun s => s.context.Serves) [.start .returns,
          .thread .enter, .ready (.accepted false true), .thread .handle, .stopCalled] := by
  have hclient : Run ClientInterface.machine {} [.connect .returns, .thread .enter, .ready ⟨0, .completed .connect false⟩,
      .thread .handle, .ready ⟨0, .send true⟩, .thread .handle, .disconnect] _ :=
    .cons ⟨⟨rfl, rfl⟩, rfl⟩ <| .cons ⟨⟨rfl, rfl⟩, rfl⟩ <|
      .cons ⟨fun op hop => Option.some.inj hop ▸ List.mem_singleton_self _, rfl⟩ <|
      .cons ⟨⟨rfl, rfl, List.cons_ne_nil _ _⟩, rfl⟩ <| .cons ⟨nofun, rfl⟩ <|
      .cons ⟨⟨rfl, rfl, List.cons_ne_nil _ _⟩, rfl⟩ <| .single ⟨rfl, rfl⟩
  have hserver : Run ServerContext.machine {} [.start .returns, .thread .enter, .ready (.accepted false true),
      .thread .handle, .stopCalled] _ :=
    .cons ⟨⟨rfl, rfl⟩, rfl⟩ <| .cons ⟨⟨rfl, rfl⟩, rfl⟩ <|
      .cons ⟨fun op hop => Option.some.inj hop ▸ List.mem_singleton_self _, rfl⟩ <|
      .cons ⟨⟨rfl, rfl, List.cons_ne_nil _ _⟩, rfl⟩ <| .single ⟨rfl, rfl⟩
  have hserved := sessions_served_iff hclient hserver
  refine ⟨⟨_, hclient, hserved.1.mpr ⟨?_, (ClientInterface.keepsWork_of_received hclient ?_).1⟩⟩, _, hserver,
    hserved.2.mpr ?_⟩
  · simp [NeverReopened, ClientEvent.calls]
  · rintro a ha
    obtain rfl | rfl := List.mem_pair.mp (show a ∈ [⟨0, .completed .connect false⟩, ⟨0, .send true⟩] from ha) <;>
      simp [ClientInterface.FailedReceive]
  · simp [NeverReopened, StartEvent.calls]

/-- A second `Connect` returns true, but its context is still stopped: no handler is run. Nor is one that is posted behind a
connect that failed: the context had nothing left to do, while the socket is still open. -/
theorem sessions_unserved :
    (∃ t, Run ClientInterface.machine {} [.connect .returns, .thread .enter, .disconnect, .ask, .askAgain, .post, .stop,
        .thread .leave, .join, .release, .connect .returns] t ∧
      t.InSession ∧ ¬t.context.Serves ∧
      ¬Restartable ClientInterface.machine {} ClientInterface.InSession (fun s => s.context.Serves) [.connect .returns,
        .thread .enter, .disconnect, .ask, .askAgain, .post, .stop, .thread .leave, .join, .release, .connect .returns]) ∧
      ∃ t, Run ClientInterface.machine {} [.connect .returns, .thread .enter, .ready ⟨0, .completed .connect true⟩,
          .thread .handle, .ready ⟨0, .send true⟩] t ∧
        t.InSession ∧ t.isConnected = true ∧ t.context.ready = [⟨0, .send true⟩] ∧ ¬t.context.Serves ∧
        ¬Restartable ClientInterface.machine {} ClientInterface.InSession (fun s => s.context.Serves) [.connect .returns,
          .thread .enter, .ready ⟨0, .completed .connect true⟩, .thread .handle, .ready ⟨0, .send true⟩] := by
  have hsecond : Run ClientInterface.machine {} [.connect .returns, .thread .enter, .disconnect, .ask, .askAgain, .post,
      .stop, .thread .leave, .join, .release, .connect .returns] _ :=
    .cons ⟨⟨rfl, rfl⟩, rfl⟩ <| .cons ⟨⟨rfl, rfl⟩, rfl⟩ <| .cons ⟨rfl, rfl⟩ <| .cons ⟨rfl, rfl⟩ <| .cons ⟨rfl, rfl⟩ <|
      .cons ⟨rfl, rfl⟩ <| .cons ⟨rfl, rfl⟩ <| .cons ⟨⟨.inr rfl, rfl⟩, rfl⟩ <| .cons ⟨⟨rfl, .inr rfl⟩, rfl⟩ <|
      .cons ⟨rfl, rfl⟩ <| .single ⟨⟨rfl, rfl⟩, rfl⟩
  have hfailed : Run ClientInterface.machine {} [.connect .returns, .thread .enter, .ready ⟨0, .completed .connect true⟩,
      .thread .handle, .ready ⟨0, .send true⟩] _ :=
    .cons ⟨⟨rfl, rfl⟩, rfl⟩ <| .cons ⟨⟨rfl, rfl⟩, rfl⟩ <|
      .cons ⟨fun op hop => Option.some.inj hop ▸ List.mem_singleton_self _, rfl⟩ <|
      .cons ⟨⟨rfl, rfl, List.cons_ne_nil _ _⟩, rfl⟩ <| .single ⟨nofun, rfl⟩
  refine ⟨⟨_, hsecond, ⟨rfl, rfl⟩, fun h => ?_, fun h => ?_⟩, _, hfailed, ⟨rfl, rfl⟩, rfl, rfl, fun h => ?_, fun h => ?_⟩
  · exact Bool.noConfusion (IoContext.serves_iff.mp h).1
  · exact Bool.noConfusion (IoContext.serves_iff.mp (h _ [] _ (List.append_nil _).symm hsecond ⟨rfl, rfl⟩)).1
  · exact Bool.noConfusion (IoContext.serves_iff.mp h).1
  · exact Bool.noConfusion (IoContext.serves_iff.mp (h _ [] _ (List.append_nil _).symm hfailed ⟨rfl, rfl⟩)).1

end Netzwerk
