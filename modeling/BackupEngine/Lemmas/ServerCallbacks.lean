import BackupEngine.Lemmas.Intake
import BackupEngine.Lemmas.ServerThreads
import BackupEngine.Netzwerk.ServerCallbacks

/-!
# What one event does to the callbacks

A message is pushed for the connection that has read it, and a connection reads only after the handler that accepted it has
called `OnClientConnect`. What the other thread does leaves the connections as they are; it takes messages off the queue one
by one, each for a call of `OnMessage`, and leaves an open connection at the end of the deque where it is.
-/

namespace Netzwerk

open Cpp Transition

variable {T : Type}

/-! ## The reading half of a connection -/

namespace Connection

variable {c c' : Connection T}

/-- The connection is the same, and reads only if it read before. What was handed on was read by it. -/
structure ReadsOn (c c' : Connection T) (owned : Option (OwnedMessage T)) : Prop where
  self : c'.self = c.self
  nOwnerType : c'.nOwnerType = c.nOwnerType
  reads : c'.reads ≠ none → c.reads ≠ none
  owned : ∀ o ∈ owned, c.reads ≠ none ∧ o.remote = c.remote

/-- Writing leaves the reading half alone. -/
structure SameReader (c c' : Connection T) : Prop where
  self : c'.self = c.self
  nOwnerType : c'.nOwnerType = c.nOwnerType
  reads : c'.reads = c.reads

theorem SameReader.readsOn (h : SameReader c c') : ReadsOn c c' none := ⟨h.self, h.nOwnerType, fun hr => h.reads ▸ hr, nofun⟩

theorem SameReader.trans {c'' : Connection T} (h : SameReader c c') (h' : SameReader c' c'') : SameReader c c'' :=
  ⟨h'.self.trans h.self, h'.nOwnerType.trans h.nOwnerType, h'.reads.trans h.reads⟩

theorem writeHeader_reader (h : c.writeHeader = .ok c') : SameReader c c' := by
  obtain ⟨_, _, hr⟩ := bind_eq_ok.mp h
  cases hr
  exact ⟨rfl, rfl, rfl⟩

theorem popOut_reader (h : c.popOut = .ok c') : SameReader c c' := by
  obtain ⟨_, _, hr⟩ := bind_eq_ok.mp h
  cases hr
  exact ⟨rfl, rfl, rfl⟩

theorem send_reader {msg : Message T} (h : c.send msg = .ok c') : SameReader c c' := by
  unfold send at h
  simp only at h
  split at h
  · obtain ⟨hself, howner, hreads⟩ := writeHeader_reader h
    exact ⟨hself, howner, hreads⟩
  · cases h
    exact ⟨rfl, rfl, rfl⟩

theorem bodyWritten_reader (h : c.bodyWritten = .ok c') : SameReader c c' := by
  obtain ⟨d, hd, h⟩ := bind_eq_ok.mp h
  split at h
  · exact (popOut_reader hd).trans (writeHeader_reader h)
  · cases h
    exact popOut_reader hd

theorem headerWritten_reader (h : c.headerWritten = .ok c') : SameReader c c' := by
  obtain ⟨front, _, h⟩ := bind_eq_ok.mp h
  split at h
  · obtain ⟨_, _, hr⟩ := bind_eq_ok.mp h
    cases hr
    exact ⟨rfl, rfl, rfl⟩
  · exact bodyWritten_reader h

variable [StandardLayout (MessageHeader T)]

theorem writeNext_reader {e : WriteEvent T} (h : c.writeNext e = .ok c') : SameReader c c' := by
  cases e with
  | send msg => exact send_reader h
  | transfer i n =>
    obtain ⟨_, _, h⟩ := bind_eq_ok.mp h
    obtain ⟨_, _, hr⟩ := bind_eq_ok.mp h
    cases hr
    exact ⟨rfl, rfl, rfl⟩
  | complete i =>
    obtain ⟨w, _, h⟩ := bind_eq_ok.mp h
    cases hpart : w.part with
    | header =>
      rw [hpart] at h
      obtain ⟨hself, howner, hreads⟩ := headerWritten_reader h
      exact ⟨hself, howner, hreads⟩
    | body =>
      rw [hpart] at h
      obtain ⟨hself, howner, hreads⟩ := bodyWritten_reader h
      exact ⟨hself, howner, hreads⟩
  | fail i =>
    cases h
    exact ⟨rfl, rfl, rfl⟩
  | close =>
    cases h
    exact ⟨rfl, rfl, rfl⟩

/-- A read that completes was outstanding. -/
theorem readNext_readsOn {e : ReadEvent} (he : e.OfSocket) {owned : Option (OwnedMessage T)}
    (h : c.readNext e = .ok (c', owned)) : ReadsOn c c' owned := by
  obtain ⟨d, owned', hd, hself, howner, hremote⟩ := c.readNext_spec e
  cases h.symm.trans hd
  have hreads : c.reads = none → c'.reads = none ∧ owned = none := by
    intro hnone
    cases e with
    | connectToClient uid => exact he.elim
    | done bytes =>
      simp only [readNext, hnone] at h
      cases h
      exact ⟨hnone, rfl⟩
    | fail =>
      cases h
      exact ⟨rfl, rfl⟩
  refine ⟨hself, howner, fun hr hnone => hr (hreads hnone).1, fun o ho => ⟨fun hnone => ?_, hremote o ho⟩⟩
  rw [(hreads hnone).2] at ho
  cases ho

end Connection

/-! ## The two threads -/

namespace ServerThreads

variable {s t : ServerThreads T} {c : ConnPtr}

/-- What is done with a connection on the thread of the io_context. -/
theorem onConnection_ok {f : Connection T → Comp (Connection T × Option (OwnedMessage T))}
    (h : s.onConnection c f = .ok t) :
    ∃ conn owned, f (s.conns c) = .ok (conn, owned) ∧
      t = { s with conns := Function.update s.conns c conn, qMessagesIn := s.qMessagesIn ++ owned.toList } := by
  unfold onConnection at h
  split at h
  · obtain ⟨⟨conn, owned⟩, hf, hr⟩ := bind_eq_ok.mp h
    cases hr
    exact ⟨conn, owned, hf, by rw [Intake.foldl_pushBack]⟩
  · cases h

variable [StandardLayout (MessageHeader T)] in
/-- What happens on the thread of the io_context, while no connection is accepted. -/
theorem next_onContext {e : ServerThreadEvent T} (hen : s.enabled e) (hon : e.OnContext) (hacc : ¬e.Accepts)
    (h : s.next e = .ok t) :
    ∃ c conn owned posted, (s.conns c).ReadsOn conn owned ∧ s.callbacks e = [] ∧
      (∀ c' e', e = .read c' e' → c' = c ∧ (s.conns c).readNext e' = .ok (conn, owned)) ∧ (owned ≠ none → ∃ e', e = .read c e') ∧
      t = { s with
        conns := Function.update s.conns c conn
        qMessagesIn := s.qMessagesIn ++ owned.toList
        posted } := by
  cases e with
  | accepted => exact absurd trivial hacc
  | call | update | run | hold | letGo => exact hon.elim
  | write c e =>
    simp only [next] at h
    obtain ⟨conn, owned, hf, rfl⟩ := onConnection_ok h
    obtain ⟨conn', hconn, hr⟩ := bind_eq_ok.mp hf
    cases hr
    exact ⟨c, _, none, _, (Connection.writeNext_reader hconn).readsOn, rfl, nofun, fun h => absurd rfl h, rfl⟩
  | read c e =>
    simp only [next] at h
    obtain ⟨conn, owned, hf, rfl⟩ := onConnection_ok h
    refine ⟨c, conn, owned, _, Connection.readNext_readsOn hen.1 hf, rfl, ?_, fun _ => ⟨e, rfl⟩, rfl⟩
    rintro c' e' heq
    cases heq
    exact ⟨rfl, hf⟩
  | posted =>
    obtain ⟨⟨c, msg⟩, posted, hposted⟩ := List.exists_cons_of_ne_nil (show s.posted ≠ [] from hen)
    simp only [next, hposted] at h
    obtain ⟨conn, owned, hf, rfl⟩ := onConnection_ok h
    obtain ⟨conn', hconn, hr⟩ := bind_eq_ok.mp hf
    cases hr
    exact ⟨c, _, none, posted, (Connection.send_reader hconn).readsOn, rfl, nofun, fun h => absurd rfl h, rfl⟩

/-- What the other thread does to the connections, the queue and the end of the deque, with the callback it makes. -/
structure CallEffect (s t : ServerThreads T) (callbacks : List Callback) : Prop where
  conns : t.conns = s.conns
  made : t.made = s.made
  qMessagesIn : (t.qMessagesIn = s.qMessagesIn ∧ (callbacks = [] ∨ ∃ client, callbacks = [.onClientDisconnect client])) ∨
    ∃ msg, s.qMessagesIn = msg :: t.qMessagesIn ∧ callbacks = [.onMessage msg.remote]
  back : ∀ c, s.deqConnections.getLast? = some (some c) → (s.conns c).isOpen = true →
    t.deqConnections.getLast? = some (some c)

variable {rest : List (Frame T)} {toSend : Message T}

/-- A step that changes the calls under way and posts a `Send` at most. -/
theorem CallEffect.of_same {callbacks : List Callback} (hconns : t.conns = s.conns) (hmade : t.made = s.made)
    (hqueue : t.qMessagesIn = s.qMessagesIn) (hdeq : t.deqConnections = s.deqConnections)
    (hcallbacks : callbacks = [] ∨ ∃ client, callbacks = [.onClientDisconnect client]) : CallEffect s t callbacks :=
  ⟨hconns, hmade, .inl ⟨hqueue, hcallbacks⟩, fun _ hc _ => hdeq ▸ hc⟩

/-- Erasing the null pointers leaves a connection at the end. -/
theorem back_eraseNull (h : s.deqConnections.getLast? = some (some c)) :
    s.eraseNull.deqConnections.getLast? = some (some c) := by
  obtain ⟨l, hl⟩ := List.getLast?_eq_some_iff.mp h
  rw [eraseNull, hl, List.filter_append]
  exact List.getLast?_concat

/-- Resetting an element that is closed leaves an open one at the end. -/
theorem back_set_none {client : Option ConnPtr} {i : Nat} (hclient : s.deqConnections[i]? = some client)
    (hconn : s.isConnected client = false) (h : s.deqConnections.getLast? = some (some c))
    (hopen : (s.conns c).isOpen = true) : (s.deqConnections.set i none).getLast? = some (some c) := by
  obtain ⟨l, hl⟩ := List.getLast?_eq_some_iff.mp h
  rw [hl] at hclient ⊢
  have hi : i < l.length := by
    by_contra hge
    rw [List.getElem?_append_right (Nat.not_lt.mp hge)] at hclient
    obtain ⟨_, rfl⟩ := List.getElem?_eq_some_iff.mp hclient
    rw [List.getElem_singleton, isConnected, hopen] at hconn
    cases hconn
  rw [List.set_append_left _ _ hi]
  exact List.getLast?_concat

/-- The next step of a call, with what it calls. -/
theorem frame_calls {frame : Frame T} (h : s.frameStep rest toSend frame = .ok t) :
    CallEffect s t (s.frameCalls frame).toList := by
  cases frameStep_ok h with
  | clientSent hconn | groupSent hconn => exact .of_same rfl rfl rfl rfl (.inl (by simp [frameCalls, hconn]))
  | @clientGone client _ hconn =>
    exact ⟨rfl, rfl, .inl ⟨rfl, .inr ⟨client, by simp [frameCalls, hconn]⟩⟩, fun c hc _ => back_eraseNull hc⟩
  | @groupGone _ _ _ client _ hconn => exact .of_same rfl rfl rfl rfl (.inr ⟨client, by simp [frameCalls, hconn]⟩)
  | groupErased => exact ⟨rfl, rfl, .inl ⟨rfl, .inl rfl⟩, fun c hc _ => back_eraseNull hc⟩
  | groupDone | afterNext | afterDone | onMessageDone => exact .of_same rfl rfl rfl rfl (.inl rfl)
  | allIgnored hi hclient => exact .of_same rfl rfl rfl rfl (.inl (by simp [frameCalls, hclient]))
  | allSent hi hclient hne hconn => exact .of_same rfl rfl rfl rfl (.inl (by simp [frameCalls, hclient, hconn]))
  | @allGone _ _ client _ _ hi hclient hne hconn =>
    refine ⟨rfl, rfl, .inl ⟨rfl, .inr ⟨client, ?_⟩⟩, fun c hc hopen => back_set_none hclient hconn hc hopen⟩
    rw [frameCalls, if_pos hi, hclient]
    simp [hne, hconn]
  | allErased hi =>
    exact ⟨rfl, rfl, .inl ⟨rfl, .inl (by rw [frameCalls, if_neg hi]; rfl)⟩, fun c hc _ => back_eraseNull hc⟩
  | allDone hi => exact .of_same rfl rfl rfl rfl (.inl (by rw [frameCalls, if_neg hi]; rfl))
  | @updatePopped _ _ msg _ hlt hq =>
    exact ⟨rfl, rfl, .inr ⟨msg, hq, by simp [frameCalls, hlt, hq]⟩, fun _ hc _ => hc⟩
  | updateDone hstop =>
    refine .of_same rfl rfl rfl rfl (.inl ?_)
    rw [frameCalls]
    split
    · rename_i hlt
      rw [hstop hlt]
      rfl
    · rfl

/-- What happens on the other thread. -/
theorem next_onCaller [StandardLayout (MessageHeader T)] {e : ServerThreadEvent T} (hen : s.enabled e) (hoff : ¬e.OnContext)
    (h : s.next e = .ok t) : CallEffect s t (s.callbacks e) := by
  cases e with
  | accepted | write | read | posted => exact absurd trivial hoff
  | call call =>
    cases call <;>
    · cases h
      exact .of_same rfl rfl rfl rfl (.inl rfl)
  | update nMaxMessages =>
    cases h
    exact .of_same rfl rfl rfl rfl (.inl rfl)
  | run toSend =>
    obtain ⟨frame, rest, hframes⟩ := List.exists_cons_of_ne_nil (show s.frames ≠ [] from hen)
    simp only [next, hframes] at h
    simp only [callbacks, hframes, List.head?_cons, Option.bind_some]
    exact frame_calls h
  | hold c =>
    cases h
    exact .of_same rfl rfl rfl rfl (.inl rfl)
  | letGo i =>
    cases h
    exact .of_same rfl rfl rfl rfl (.inl rfl)

end ServerThreads

/-! ## The handler that accepts a connection -/

namespace ServerCallbacks

variable [StandardLayout (MessageHeader T)]

/-- Taken without a pause, the handler does what it does to the threads when it is taken as one event. -/
theorem run_accept (s : ServerCallbacks T) (hwaiting : s.accepting = .waiting) (msg : Message T) (keep : Bool) :
    Run machine s [.accepted msg true keep, .accepting, .accepting, .accepting]
      { s with
        threads := s.threads.accept msg true keep
        log := s.log ++ [.onClientRequestConnect s.threads.made true] ++ [.onClientConnect (some s.threads.made)] } := by
  refine .cons ⟨hwaiting, rfl⟩ (.cons ⟨nofun, rfl⟩ ?_)
  have hback : ∀ threads : ServerThreads T, threads.deqConnections = s.threads.deqConnections ++ [some s.threads.made] →
      threads.back = .ok (some s.threads.made) := by
    intro threads hdeq
    rw [ServerThreads.back, hdeq, List.getLast?_concat]
  refine .cons ⟨nofun, bind_eq_ok.mpr ⟨_, hback _ rfl, rfl⟩⟩ (.single ⟨nofun, bind_eq_ok.mpr ⟨_, hback _ rfl, ?_⟩⟩)
  simp only [ServerThreads.accept, ServerCallbacks.accepted, Function.update_idem, Function.update_self, if_true,
    if_false, Bool.false_eq_true, pure_eq_ok, hwaiting]

end ServerCallbacks

end Netzwerk
