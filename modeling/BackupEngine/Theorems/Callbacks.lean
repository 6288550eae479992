import BackupEngine.Lemmas.ServerCallbacks
import BackupEngine.Theorems.PendingOwners

/-!
# The order of the callbacks

`OnMessage` is called for connections that `OnClientConnect` was called for, and none that was turned away. It can come after
`OnClientDisconnect`: the queue of messages outlives the connection, and `Update` does not look at what became of it. The
order holds in every state of a run, and cannot be broken by a later `Update`, exactly when each `OnClientDisconnect` finds no
message of its connection in the queue and none of its reads completes a message after it.
-/

namespace Netzwerk

open Cpp Transition

variable {T : Type}

/-! ## The order of the callbacks -/

/-- `OnMessage` comes after `OnClientConnect` for the connection. -/
def ConnectedFirst (log : List Callback) : Prop :=
  ∀ before c after, log = before ++ .onMessage (some c) :: after → .onClientConnect (some c) ∈ before

/-- `OnMessage` does not come after `OnClientDisconnect` for the connection. -/
def NotAfterDisconnect (log : List Callback) : Prop :=
  ∀ before c after, log = before ++ .onMessage (some c) :: after → .onClientDisconnect (some c) ∉ before

/-- `OnMessage` is not called for a connection that was turned away. -/
def NeverRejected (log : List Callback) : Prop :=
  ∀ c, .onMessage (some c) ∈ log → .onClientRequestConnect c false ∉ log

/-- The callbacks are in order. -/
structure Ordered (log : List Callback) : Prop where
  connected : ConnectedFirst log
  rejected : NeverRejected log
  disconnected : NotAfterDisconnect log

namespace ServerCallbacks

/-- No message of a connection that was reported as disconnected waits for `OnMessage`. -/
def NoneWaiting (s : ServerCallbacks T) : Prop :=
  ∀ c, .onClientDisconnect (some c) ∈ s.log → some c ∉ s.threads.qMessagesIn.map (·.remote)

/-- `OnClientDisconnect` is called for a connection that has no message in the queue, and no read of it completes a message
later. -/
def Drained [StandardLayout (MessageHeader T)] (s : ServerCallbacks T) : ServerCallbackEvent T → Prop
  | .thread e =>
    (∀ c, .onClientDisconnect (some c) ∈ s.threads.callbacks e → some c ∉ s.threads.qMessagesIn.map (·.remote)) ∧
      ∀ c e', e = .read c e' → ∀ conn owned, (s.threads.conns c).readNext e' = .ok (conn, some owned) →
        .onClientDisconnect (some c) ∉ s.log
  | _ => True

end ServerCallbacks

/-! ## One callback more -/

section

variable {log : List Callback} {x : Callback}

/-- What holds of each call of `OnMessage` and the callbacks before it, when one callback is added. -/
theorem forall_onMessage_concat {P : List Callback → ConnPtr → Prop} :
    (∀ before c after, log ++ [x] = before ++ .onMessage (some c) :: after → P before c) ↔
      (∀ before c after, log = before ++ .onMessage (some c) :: after → P before c) ∧
        ∀ c, x = .onMessage (some c) → P log c := by
  constructor
  · intro h
    refine ⟨fun before c after hlog => h before c (after ++ [x]) (by rw [hlog]; simp), ?_⟩
    rintro c rfl
    exact h log c [] rfl
  · rintro ⟨hlog, hx⟩ before c after heq
    rcases List.eq_nil_or_concat after with rfl | ⟨after, y, rfl⟩
    · obtain ⟨rfl, hlast⟩ := List.append_inj' heq rfl
      exact hx c (List.cons.inj hlast).1
    · have heq : log ++ [x] = (before ++ .onMessage (some c) :: after) ++ [y] := by rw [heq]; simp
      exact hlog before c after (List.append_inj' heq rfl).1

/-- A callback that is not a call of `OnMessage`. -/
theorem forall_onMessage_other {P : List Callback → ConnPtr → Prop} (hx : ∀ c, x ≠ .onMessage (some c)) :
    (∀ before c after, log ++ [x] = before ++ .onMessage (some c) :: after → P before c) ↔
      ∀ before c after, log = before ++ .onMessage (some c) :: after → P before c :=
  forall_onMessage_concat.trans (and_iff_left fun c hc => absurd hc (hx c))

theorem ConnectedFirst.other (h : ConnectedFirst log) (hx : ∀ c, x ≠ .onMessage (some c)) : ConnectedFirst (log ++ [x]) :=
  (forall_onMessage_other hx).mpr h

theorem NotAfterDisconnect.other (h : NotAfterDisconnect log) (hx : ∀ c, x ≠ .onMessage (some c)) :
    NotAfterDisconnect (log ++ [x]) := (forall_onMessage_other hx).mpr h

theorem ConnectedFirst.onMessage (h : ConnectedFirst log) {client : Option ConnPtr}
    (hclient : ∀ c, client = some c → .onClientConnect (some c) ∈ log) : ConnectedFirst (log ++ [.onMessage client]) := by
  refine forall_onMessage_concat.mpr ⟨h, fun c hc => ?_⟩
  cases hc
  exact hclient c rfl

end

namespace ServerCallbacks

/-! ## What holds in every state -/

variable {s t : ServerCallbacks T}

/-- The connection that is being let in: it is made and open, its request was granted, and once it is pushed it is the last of
the deque. -/
def LettingIn (s : ServerCallbacks T) : Prop :=
  match s.accepting with
  | .waiting => True
  | .pushing c => .onClientRequestConnect c true ∈ s.log ∧ (s.threads.conns c).isOpen = true
  | .connecting | .announcing =>
    ∃ c, s.threads.deqConnections.getLast? = some (some c) ∧ .onClientRequestConnect c true ∈ s.log ∧
      (s.threads.conns c).isOpen = true

/-- The connections that were made are the server's and have their own pointers; one that reads has been announced, or is
about to be; one with a message in the queue has been announced; and those announced were asked for and let in. -/
structure Inv (s : ServerCallbacks T) : Prop where
  identity : ∀ c < s.threads.made, (s.threads.conns c).remote = some c
  requested : ∀ c answer, .onClientRequestConnect c answer ∈ s.log → c < s.threads.made
  answered : ∀ c, .onClientRequestConnect c true ∈ s.log → .onClientRequestConnect c false ∉ s.log
  announced : ∀ c, .onClientConnect (some c) ∈ s.log → .onClientRequestConnect c true ∈ s.log
  reading : ∀ c, (s.threads.conns c).reads ≠ none →
    .onClientConnect (some c) ∈ s.log ∨
      s.accepting = .announcing ∧ s.threads.deqConnections.getLast? = some (some c)
  queued : ∀ c, some c ∈ s.threads.qMessagesIn.map (·.remote) → .onClientConnect (some c) ∈ s.log
  lettingIn : s.LettingIn
  connected : ConnectedFirst s.log

/-- A server that has just been made. -/
theorem Inv.start {conns : ConnPtr → Connection T} (hidle : ServerThreads.Idle conns) :
    Inv { threads := { conns } } where
  identity := fun _ hc => absurd hc (Nat.not_lt_zero _)
  requested := nofun
  answered := nofun
  announced := nofun
  reading := fun c hc => absurd (hidle c).1 hc
  queued := nofun
  lettingIn := trivial
  connected := fun before c after h => by simp at h

/-- None of the connections `OnMessage` was called for was turned away. -/
theorem Inv.rejected (h : Inv s) : NeverRejected s.log := by
  intro c hc
  obtain ⟨before, after, hlog⟩ := List.append_of_mem hc
  refine h.answered c (h.announced c ?_)
  rw [hlog]
  exact List.mem_append_left _ (h.connected before c after hlog)

/-- A connection that reads while no connection is let in was announced. -/
theorem Inv.announced_of_reading (h : Inv s) (hwaiting : s.accepting = .waiting) {c : ConnPtr}
    (hc : (s.threads.conns c).reads ≠ none) : .onClientConnect (some c) ∈ s.log := by
  rcases h.reading c hc with h | ⟨h, _⟩
  · exact h
  · rw [hwaiting] at h
    cases h

section

variable [StandardLayout (MessageHeader T)]

theorem Inv.accepted (h : Inv s) (hwaiting : s.accepting = .waiting) {msg : Message T} {request keep : Bool} :
    Inv (s.accepted msg request keep) := by
  have hconns : (s.accepted msg request keep).threads.conns =
      Function.update s.threads.conns s.threads.made { self := s.threads.made, nOwnerType := .server, msgTemporaryIn := msg } := rfl
  have hlog : ∀ x, x ∈ (s.accepted msg request keep).log ↔ x ∈ s.log ∨ x = .onClientRequestConnect s.threads.made request := by
    intro x
    rw [ServerCallbacks.accepted, List.mem_append, List.mem_singleton]
  have hfresh : ∀ answer, .onClientRequestConnect s.threads.made answer ∉ s.log := fun answer hmem =>
    Nat.lt_irrefl _ (h.requested _ _ hmem)
  refine ⟨fun c hc => ?_, fun c answer hc => ?_, fun c hc hc' => ?_, fun c hc => ?_, fun c hc => ?_, fun c hc => ?_, ?_, ?_⟩
  · rw [hconns]
    by_cases hmade : c = s.threads.made
    · subst hmade
      rw [Function.update_self]
      rfl
    · rw [Function.update_of_ne hmade]
      exact h.identity c (Nat.lt_of_le_of_ne (Nat.le_of_lt_succ hc) hmade)
  · rcases (hlog _).mp hc with hc | hc
    · exact Nat.lt_succ_of_lt (h.requested c answer hc)
    · cases hc
      exact Nat.lt_succ_self _
  · rcases (hlog _).mp hc with hold | heq <;> rcases (hlog _).mp hc' with hold' | heq'
    · exact h.answered c hold hold'
    · cases heq'
      exact hfresh _ hold
    · cases heq
      exact hfresh _ hold'
    · cases heq
      cases heq'
  · rcases (hlog _).mp hc with hc | hc
    · exact (hlog _).mpr (.inl (h.announced c hc))
    · cases hc
  · rw [hconns] at hc
    by_cases hmade : c = s.threads.made
    · subst hmade
      rw [Function.update_self] at hc
      exact absurd rfl hc
    · rw [Function.update_of_ne hmade] at hc
      exact .inl ((hlog _).mpr (.inl (h.announced_of_reading hwaiting hc)))
  · exact (hlog _).mpr (.inl (h.queued c hc))
  · cases request with
    | false => trivial
    | true =>
      refine ⟨(hlog _).mpr (.inr rfl), ?_⟩
      rw [hconns, Function.update_self]
  · exact h.connected.other (by rintro _ ⟨⟩)

/-- `ConnectToClient` of a connection that is let in gives it its id and starts to read. -/
theorem Inv.connects (h : Inv s) {c : ConnPtr} (hrequest : .onClientRequestConnect c true ∈ s.log)
    (hopen : (s.threads.conns c).isOpen = true) :
    (s.threads.conns c).connectToClient s.threads.nIDCounter =
      { s.threads.conns c with id := s.threads.nIDCounter }.readHeader := by
  have hremote := h.identity c (h.requested c true hrequest)
  have hserver : (s.threads.conns c).nOwnerType = .server := by
    unfold Connection.remote at hremote
    split at hremote
    · assumption
    · cases hremote
  rw [Connection.connectToClient, if_pos hserver, if_pos hopen]

/-- The handler pushes the connection, calls `ConnectToClient` and calls `OnClientConnect`. -/
theorem Inv.accept (h : Inv s) (hnext : s.accept = .ok t) : Inv t := by
  unfold ServerCallbacks.accept at hnext
  have hletting := h.lettingIn
  unfold LettingIn at hletting
  split at hnext
  · cases hnext
    exact h
  · rename_i c haccepting
    rw [haccepting] at hletting
    cases hnext
    refine { h with reading := fun d hd => ?_, lettingIn := ⟨c, List.getLast?_concat, hletting⟩ }
    rcases h.reading d hd with hd | ⟨hd, _⟩
    · exact .inl hd
    · rw [haccepting] at hd
      cases hd
  · rename_i haccepting
    rw [haccepting] at hletting
    obtain ⟨c, hback, hrequest, hopen⟩ := hletting
    have hremote := h.identity c (h.requested c true hrequest)
    have hconnected := h.connects hrequest hopen
    simp only [ServerThreads.back, hback, ok_bind, hconnected] at hnext
    cases hnext
    refine { h with identity := fun d hd => ?_, reading := fun d hd => ?_, lettingIn := ⟨c, hback, hrequest, ?_⟩ }
    · by_cases hdc : d = c
      · subst hdc
        simp only [Function.update_self]
        exact hremote
      · simp only [Function.update_of_ne hdc]
        exact h.identity d hd
    · by_cases hdc : d = c
      · subst hdc
        exact .inr ⟨rfl, hback⟩
      · simp only [Function.update_of_ne hdc] at hd
        rcases h.reading d hd with hd | ⟨hd, _⟩
        · exact .inl hd
        · rw [haccepting] at hd
          cases hd
    · simp only [Function.update_self]
      exact hopen
  · rename_i haccepting
    rw [haccepting] at hletting
    obtain ⟨c, hback, hrequest, hopen⟩ := hletting
    simp only [ServerThreads.back, hback, ok_bind] at hnext
    cases hnext
    have hlog : ∀ x, x ∈ s.log → x ∈ s.log ++ [.onClientConnect (some c)] := fun x hx => List.mem_append_left _ hx
    have hback' : ∀ x, x ∈ s.log ++ [.onClientConnect (some c)] → x ∈ s.log ∨ x = .onClientConnect (some c) := by
      intro x hx
      rwa [List.mem_append, List.mem_singleton] at hx
    refine ⟨h.identity, fun d answer hd => ?_, fun d hd hd' => ?_, fun d hd => ?_, fun d hd => ?_,
      fun d hd => hlog _ (h.queued d hd), trivial, ?_⟩
    · rcases hback' _ hd with hd | hd
      · exact h.requested d answer hd
      · cases hd
    · rcases hback' _ hd with hd | hd
      · rcases hback' _ hd' with hd' | hd'
        · exact h.answered d hd hd'
        · cases hd'
      · cases hd
    · rcases hback' _ hd with hd | hd
      · exact hlog _ (h.announced d hd)
      · cases hd
        exact hlog _ hrequest
    · rcases h.reading d hd with hd | ⟨_, hd⟩
      · exact .inl (hlog _ hd)
      · cases hback.symm.trans hd
        exact .inl (List.mem_append_right _ (List.mem_singleton_self _))
    · exact h.connected.other (by rintro _ ⟨⟩)

omit [StandardLayout (MessageHeader T)] in
/-- A message that is pushed was read by a connection that was announced. -/
theorem Inv.onContext (h : Inv s) (hwaiting : s.accepting = .waiting) {c : ConnPtr} {conn : Connection T}
    {owned : Option (OwnedMessage T)} (hreads : (s.threads.conns c).ReadsOn conn owned) (posted : List (ConnPtr × Message T)) :
    Inv { s with threads := { s.threads with
      conns := Function.update s.threads.conns c conn
      qMessagesIn := s.threads.qMessagesIn ++ owned.toList
      posted } } := by
  have hannounced : conn.reads ≠ none → .onClientConnect (some c) ∈ s.log := fun hc =>
    h.announced_of_reading hwaiting (hreads.reads hc)
  refine { h with identity := fun d hd => ?_, reading := fun d hd => ?_, queued := fun d hd => ?_, lettingIn := ?_ }
  · by_cases hdc : d = c
    · subst hdc
      simp only [Function.update_self]
      rw [Connection.remote, hreads.self, hreads.nOwnerType]
      exact h.identity d hd
    · simp only [Function.update_of_ne hdc]
      exact h.identity d hd
  · by_cases hdc : d = c
    · subst hdc
      simp only [Function.update_self] at hd
      exact .inl (hannounced hd)
    · simp only [Function.update_of_ne hdc] at hd
      exact .inl (h.announced_of_reading hwaiting hd)
  · rw [List.map_append, List.mem_append] at hd
    rcases hd with hd | hd
    · exact h.queued d hd
    · obtain ⟨o, ho, hremote⟩ := List.mem_map.mp hd
      obtain ⟨hreading, hc⟩ := hreads.owned o (Option.mem_toList.mp ho)
      have hlog := h.announced_of_reading hwaiting hreading
      rw [h.identity c (h.requested c true (h.announced c hlog)), hremote] at hc
      cases hc
      exact hlog
  · rw [LettingIn]
    simp only [hwaiting]

omit [StandardLayout (MessageHeader T)] in
/-- The other thread calls `OnMessage` for the first message of the queue only. -/
theorem Inv.onCaller (h : Inv s) {threads : ServerThreads T} {callbacks : List Callback}
    (heffect : s.threads.CallEffect threads callbacks) : Inv { s with threads, log := s.log ++ callbacks } := by
  have hsub : ∀ x ∈ s.log, x ∈ s.log ++ callbacks := fun x hx => List.mem_append_left _ hx
  have hshape : callbacks = [] ∨ (∃ client, callbacks = [.onClientDisconnect client]) ∨
      ∃ client, callbacks = [.onMessage client] := by
    rcases heffect.qMessagesIn with ⟨_, hnil | hdis⟩ | ⟨msg, _, hmsg⟩
    · exact .inl hnil
    · exact .inr (.inl hdis)
    · exact .inr (.inr ⟨_, hmsg⟩)
  have hold : ∀ c answer, .onClientRequestConnect c answer ∈ s.log ++ callbacks → .onClientRequestConnect c answer ∈ s.log := by
    intro c answer hc
    rcases hshape with rfl | ⟨client, rfl⟩ | ⟨client, rfl⟩ <;> simpa using hc
  have hold' : ∀ client, .onClientConnect client ∈ s.log ++ callbacks → .onClientConnect client ∈ s.log := by
    intro c hc
    rcases hshape with rfl | ⟨client, rfl⟩ | ⟨client, rfl⟩ <;> simpa using hc
  have hqueue : ∀ client ∈ threads.qMessagesIn.map (·.remote), client ∈ s.threads.qMessagesIn.map (·.remote) := by
    intro client hclient
    rcases heffect.qMessagesIn with ⟨hq, _⟩ | ⟨msg, hq, _⟩
    · rwa [hq] at hclient
    · rw [hq]
      exact List.mem_cons_of_mem _ hclient
  refine ⟨fun c hc => ?_, fun c answer hc => ?_, fun c hc hc' => ?_, fun c hc => ?_, fun c hc => ?_,
    fun c hc => hsub _ (h.queued c (hqueue _ hc)), ?_, ?_⟩
  · simp only [heffect.conns]
    rw [heffect.made] at hc
    exact h.identity c hc
  · rw [heffect.made]
    exact h.requested c answer (hold _ _ hc)
  · exact h.answered c (hold _ _ hc) (hold _ _ hc')
  · exact hsub _ (h.announced c (hold' _ hc))
  · simp only [heffect.conns] at hc
    rcases h.reading c hc with hlog | ⟨haccepting, hback⟩
    · exact .inl (hsub _ hlog)
    · have hletting := h.lettingIn
      rw [LettingIn, haccepting] at hletting
      obtain ⟨d, hd, _, hopen⟩ := hletting
      cases hback.symm.trans hd
      exact .inr ⟨haccepting, heffect.back c hback hopen⟩
  · have hletting := h.lettingIn
    unfold LettingIn at hletting ⊢
    simp only [heffect.conns]
    split
    · trivial
    · rename_i c haccepting
      rw [haccepting] at hletting
      exact ⟨hsub _ hletting.1, hletting.2⟩
    all_goals
      rename_i haccepting
      rw [haccepting] at hletting
      obtain ⟨c, hback, hrequest, hopen⟩ := hletting
      exact ⟨c, heffect.back c hback hopen, hsub _ hrequest, hopen⟩
  · rcases heffect.qMessagesIn with ⟨_, rfl | ⟨client, rfl⟩⟩ | ⟨msg, hq, rfl⟩
    · rw [List.append_nil]
      exact h.connected
    · exact h.connected.other nofun
    · refine h.connected.onMessage fun c hc => h.queued c ?_
      rw [hq, List.map_cons, hc]
      exact List.mem_cons_self

/-- Every event keeps what holds in every state. -/
theorem Inv.step {e : ServerCallbackEvent T} (h : Inv s) (hstep : machine.Step s e t) : Inv t := by
  obtain ⟨hen, hnext⟩ := hstep
  cases e with
  | accepted msg request keep =>
    cases hnext
    exact h.accepted hen
  | accepting => exact h.accept hnext
  | thread e =>
    obtain ⟨hen, hacc, hwaiting⟩ := hen
    obtain ⟨threads, hthreads, hr⟩ := bind_eq_ok.mp hnext
    cases hr
    by_cases hon : e.OnContext
    · obtain ⟨c, conn, owned, posted, hreads, hcallbacks, _, _, rfl⟩ :=
        ServerThreads.next_onContext hen hon hacc hthreads
      rw [hcallbacks, List.append_nil]
      exact h.onContext (hwaiting hon) hreads posted
    · exact h.onCaller (ServerThreads.next_onCaller hen hon hthreads)

/-! ## What the condition is for -/

/-- The callbacks are in order, and no message waits that would break the order. -/
structure InOrder (s : ServerCallbacks T) : Prop where
  ordered : Ordered s.log
  noneWaiting : s.NoneWaiting

omit [StandardLayout (MessageHeader T)] in
/-- The parts of the order that every state has. -/
theorem Inv.inOrder_iff (h : Inv s) : s.InOrder ↔ NotAfterDisconnect s.log ∧ s.NoneWaiting :=
  ⟨fun hs => ⟨hs.ordered.disconnected, hs.noneWaiting⟩, fun hs => ⟨⟨h.connected, h.rejected, hs.1⟩, hs.2⟩⟩

omit [StandardLayout (MessageHeader T)] in
/-- A step that calls neither `OnMessage` nor `OnClientDisconnect` and pushes nothing. -/
theorem InOrder.quiet (h : s.InOrder) (ht : Inv t) {x : Callback} (hlog : t.log = s.log ++ [x])
    (hmessage : ∀ c, x ≠ .onMessage (some c)) (hdisconnect : ∀ c, x ≠ .onClientDisconnect (some c))
    (hqueue : t.threads.qMessagesIn = s.threads.qMessagesIn) : t.InOrder := by
  refine ht.inOrder_iff.mpr ⟨?_, fun c hc => ?_⟩
  · rw [hlog]
    exact h.ordered.disconnected.other hmessage
  · rw [hqueue]
    rw [hlog, List.mem_append, List.mem_singleton] at hc
    rcases hc with hc | hc
    · exact h.noneWaiting c hc
    · exact absurd hc.symm (hdisconnect c)

theorem InOrder.accept (h : s.InOrder) (hs : Inv s) (hnext : s.accept = .ok t) : t.InOrder := by
  have ht := hs.accept hnext
  unfold ServerCallbacks.accept at hnext
  split at hnext
  · cases hnext
    exact h
  · cases hnext
    exact ⟨h.ordered, h.noneWaiting⟩
  · obtain ⟨client, _, hnext⟩ := bind_eq_ok.mp hnext
    cases client with
    | none => cases hnext
    | some c =>
      cases hnext
      exact ⟨h.ordered, h.noneWaiting⟩
  · obtain ⟨client, _, hr⟩ := bind_eq_ok.mp hnext
    cases hr
    exact h.quiet ht rfl nofun nofun rfl

/-- On the thread of the io_context: the order is kept exactly when no message of a connection is pushed after it was
reported. -/
theorem InOrder.onContext_iff (h : s.InOrder) (hs : Inv s) {e : ServerThreadEvent T} (hen : s.threads.enabled e)
    (hon : e.OnContext) (hacc : ¬e.Accepts) (hwaiting : s.accepting = .waiting) {threads : ServerThreads T}
    (hnext : s.threads.next e = .ok threads) (ht : Inv { s with threads, log := s.log ++ s.threads.callbacks e }) :
    InOrder { s with threads, log := s.log ++ s.threads.callbacks e } ↔ s.Drained (.thread e) := by
  obtain ⟨c, conn, owned, posted, hreads, hcallbacks, hread, hsome, rfl⟩ :=
    ServerThreads.next_onContext hen hon hacc hnext
  rw [ht.inOrder_iff, Drained]
  simp only [hcallbacks, List.append_nil]
  have hremote : ∀ o ∈ owned, o.remote = some c := by
    intro o ho
    obtain ⟨hreading, hc⟩ := hreads.owned o ho
    rw [hc]
    exact hs.identity c (hs.requested c true (hs.announced c (hs.announced_of_reading hwaiting hreading)))
  constructor
  · rintro ⟨_, hnone⟩
    refine ⟨nofun, ?_⟩
    rintro d e' rfl conn' owned' hd hreported
    obtain ⟨rfl, hc⟩ := hread d e' rfl
    cases hd.symm.trans hc
    refine hnone d hreported ?_
    rw [List.map_append, List.mem_append]
    exact .inr (List.mem_map.mpr ⟨owned', Option.mem_toList.mpr rfl, hremote owned' rfl⟩)
  · rintro ⟨_, hdrained⟩
    refine ⟨h.ordered.disconnected, fun d hd hwaits => ?_⟩
    rw [List.map_append, List.mem_append] at hwaits
    rcases hwaits with hwaits | hwaits
    · exact h.noneWaiting d hd hwaits
    · obtain ⟨o, ho, hod⟩ := List.mem_map.mp hwaits
      have ho := Option.mem_toList.mp ho
      cases hod.symm.trans (hremote o ho)
      obtain ⟨e', rfl⟩ := hsome (Option.ne_none_iff_exists'.mpr ⟨o, ho⟩)
      obtain ⟨_, hc⟩ := hread c e' rfl
      rw [ho] at hc
      exact hdrained c e' rfl conn o hc hd

/-- On the other thread: the order is kept exactly when a connection that is reported has no message in the queue. -/
theorem InOrder.onCaller_iff (h : s.InOrder) {e : ServerThreadEvent T} (hon : ¬e.OnContext) {threads : ServerThreads T}
    (heffect : s.threads.CallEffect threads (s.threads.callbacks e))
    (ht : Inv { s with threads, log := s.log ++ s.threads.callbacks e }) :
    InOrder { s with threads, log := s.log ++ s.threads.callbacks e } ↔ s.Drained (.thread e) := by
  have hdrained : s.Drained (.thread e) ↔ ∀ c, .onClientDisconnect (some c) ∈ s.threads.callbacks e →
      some c ∉ s.threads.qMessagesIn.map (·.remote) := by
    refine and_iff_left ?_
    rintro c e' rfl
    exact absurd trivial hon
  rw [hdrained]
  generalize hcallbacks : s.threads.callbacks e = callbacks at heffect ht
  rcases heffect.qMessagesIn with ⟨hq, rfl | ⟨client, rfl⟩⟩ | ⟨msg, hq, rfl⟩
  · refine iff_of_true ?_ nofun
    simp only [List.append_nil]
    exact ⟨h.ordered, fun c hc => hq ▸ h.noneWaiting c hc⟩
  · rw [ht.inOrder_iff]
    constructor
    · rintro ⟨_, hnone⟩ c hc
      rw [← hq]
      exact hnone c (List.mem_append_right _ hc)
    · refine fun hclient => ⟨h.ordered.disconnected.other nofun, fun c hc => ?_⟩
      rw [hq]
      rcases List.mem_append.mp hc with hc | hc
      · exact h.noneWaiting c hc
      · exact hclient c hc
  · refine iff_of_true (ht.inOrder_iff.mpr ⟨forall_onMessage_concat.mpr ⟨h.ordered.disconnected, ?_⟩, ?_⟩) fun c hc => ?_
    · intro c hc hreported
      refine h.noneWaiting c hreported ?_
      rw [hq, List.map_cons, Callback.onMessage.inj hc]
      exact List.mem_cons_self
    · intro c hc hwaits
      rcases List.mem_append.mp hc with hc | hc
      · refine h.noneWaiting c hc ?_
        rw [hq]
        exact List.mem_cons_of_mem _ hwaits
      · cases List.mem_singleton.mp hc
    · cases List.mem_singleton.mp hc

/-- A step keeps the order exactly when it meets the condition. -/
theorem InOrder.step_iff {e : ServerCallbackEvent T} (h : s.InOrder) (hs : Inv s) (hstep : machine.Step s e t) :
    t.InOrder ↔ s.Drained e := by
  have ht := hs.step hstep
  obtain ⟨hen, hnext⟩ := hstep
  cases e with
  | accepted msg request keep =>
    cases hnext
    exact iff_of_true (h.quiet ht rfl nofun nofun rfl) trivial
  | accepting => exact iff_of_true (h.accept hs hnext) trivial
  | thread e =>
    obtain ⟨hen, hacc, hwaiting⟩ := hen
    obtain ⟨threads, hthreads, hr⟩ := bind_eq_ok.mp hnext
    cases hr
    by_cases hon : e.OnContext
    · exact h.onContext_iff hs hen hon hacc (hwaiting hon) hthreads ht
    · exact h.onCaller_iff hon (ServerThreads.next_onCaller hen hon hthreads) ht

/-- For every run from a new server: in every state of it the callbacks are in order and no message waits that would break the
order, exactly when each `OnClientDisconnect` comes when the connection has no message in the queue and none of its reads
completes a message afterwards. -/
theorem callbacks_inOrder_iff {conns : ConnPtr → Connection T} (hidle : ServerThreads.Idle conns)
    {es : List (ServerCallbackEvent T)} (h : Run machine { threads := { conns } } es t) :
    (∀ es' u, es' <+: es → Run machine { threads := { conns } } es' u → u.InOrder) ↔
      Run (machine.when Drained) { threads := { conns } } es t := by
  have h0 : InOrder ({ threads := { conns } } : ServerCallbacks T) :=
    (Inv.start hidle).inOrder_iff.mpr ⟨fun _ _ _ heq => by simp at heq, nofun⟩
  exact h.always_iff_under (Inv.start hidle) h0 fun _ _ _ hs hu hstep => ⟨hs.step hstep, hu.step_iff hs hstep⟩

end

/-- A client is let in and its first message is read. -/
def firstMessage : List (ServerCallbackEvent UInt32) :=
  [.accepted default true false, .accepting, .accepting, .accepting, .thread (.read 0 (.done [7, 0, 0, 0, 0, 0, 0, 0]))]

/-- `Update` hands the message to `OnMessage`. -/
theorem callbacks_inOrder_first :
    ∃ s, Run machine { threads := { conns := newConns } }
        (firstMessage ++ [.thread (.update 1), .thread (.run default)]) s ∧
      s.log = [.onClientRequestConnect 0 true, .onClientConnect (some 0), .onMessage (some 0)] ∧ s.InOrder := by
  have hrun : ∃ s, Run (machine.when Drained) { threads := { conns := newConns } }
      (firstMessage ++ [.thread (.update 1), .thread (.run default)]) s ∧
      s.log = [.onClientRequestConnect 0 true, .onClientConnect (some 0), .onMessage (some 0)] := by
    refine ⟨_, .cons ⟨⟨rfl, trivial⟩, rfl⟩ (.cons ⟨⟨by rintro ⟨⟩, trivial⟩, rfl⟩ (.cons ⟨⟨by rintro ⟨⟩, trivial⟩, rfl⟩
      (.cons ⟨⟨by rintro ⟨⟩, trivial⟩, rfl⟩ (.cons ⟨⟨⟨⟨trivial, .header, rfl⟩, id, fun _ => rfl⟩, by rintro _ ⟨⟩, ?_⟩, rfl⟩
        (.cons ⟨⟨⟨trivial, id, fun _ => rfl⟩, by rintro _ ⟨⟩, by rintro _ _ ⟨⟩⟩, rfl⟩
          (.single ⟨⟨⟨by rintro ⟨⟩, id, fun _ => rfl⟩, ?_, by rintro _ _ ⟨⟩⟩, rfl⟩)))))), rfl⟩
    · rintro c e' _ conn owned _ hreported
      simp [accepted, ServerThreads.accept] at hreported
    · intro c hc
      cases List.mem_singleton.mp hc
  obtain ⟨s, hrun, hlog⟩ := hrun
  have hidle : ServerThreads.Idle newConns := fun _ => ⟨rfl, rfl⟩
  exact ⟨s, hrun.of_when, hlog, (callbacks_inOrder_iff hidle hrun.of_when).mpr hrun _ s (List.prefix_refl _) hrun.of_when⟩

instance (e : ServerThreadEvent T) : Decidable e.OnContext :=
  match e with
  | .accepted _ _ _ | .write _ _ | .read _ _ | .posted => isTrue trivial
  | .call _ | .update _ | .run _ | .hold _ | .letGo _ => isFalse id

instance (e : ServerThreadEvent T) : Decidable e.Accepts :=
  match e with
  | .accepted _ _ _ => isTrue trivial
  | .write _ _ | .read _ _ | .posted | .call _ | .update _ | .run _ | .hold _ | .letGo _ => isFalse id

instance (s : ServerCallbacks UInt32) (e : ServerCallbackEvent UInt32) : Decidable (machine.enabled s e) :=
  match e with
  | .accepted _ _ _ => inferInstanceAs (Decidable (s.accepting = .waiting))
  | .accepting => inferInstanceAs (Decidable (s.accepting ≠ .waiting))
  | .thread e => inferInstanceAs (Decidable (s.threads.enabled e ∧ ¬e.Accepts ∧ (e.OnContext → s.accepting = .waiting)))

/-- The read that follows fails, and the message to all reports the connection before `Update` takes the message off the
queue. -/
theorem onMessage_after_disconnect :
    ∃ s, Run machine { threads := { conns := newConns } } (firstMessage ++ [.thread (.read 0 .fail),
        .thread (.call (.all default none)), .thread (.run default), .thread (.run default), .thread (.run default),
        .thread (.run default), .thread (.run default), .thread (.run default), .thread (.update 1),
        .thread (.run default)]) s ∧
      s.log = [.onClientRequestConnect 0 true, .onClientConnect (some 0), .onClientDisconnect (some 0),
        .onMessage (some 0)] ∧ ¬Ordered s.log ∧ ¬s.InOrder := by
  obtain ⟨s, hs, hlog⟩ : ∃ s, exec machine { threads := { conns := newConns } } (firstMessage ++ [.thread (.read 0 .fail),
        .thread (.call (.all default none)), .thread (.run default), .thread (.run default), .thread (.run default),
        .thread (.run default), .thread (.run default), .thread (.run default), .thread (.update 1),
        .thread (.run default)]) = some s ∧
      s.log = [.onClientRequestConnect 0 true, .onClientConnect (some 0), .onClientDisconnect (some 0),
        .onMessage (some 0)] := ⟨_, rfl, rfl⟩
  have hnot : ¬Ordered s.log := fun h =>
    h.disconnected [.onClientRequestConnect 0 true, .onClientConnect (some 0), .onClientDisconnect (some 0)] 0 [] hlog
      (by simp)
  exact ⟨s, Run.of_exec hs, hlog, hnot, fun h => hnot h.ordered⟩

end ServerCallbacks

end Netzwerk
