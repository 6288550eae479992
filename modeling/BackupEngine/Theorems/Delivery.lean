import BackupEngine.Lemmas.Intake

/-!
# Every message reaches `OnMessage` once

Whatever the interleaving of the connections' reads with the consumer's `Update` calls: the calls of `OnMessage` followed by
the queue are the messages pushed, in order.
-/

namespace Netzwerk

open Cpp Transition

variable {T : Type} [StandardLayout (MessageHeader T)]

/-- What holds of a server that takes messages in, after the events of a run from `start`. -/
structure DeliveryLaw (start : Intake T) (events : List IntakeEvent) (s : Intake T) : Prop where
  /-- The calls of `OnMessage` so far, then the queue, are the messages pushed so far. -/
  state : s.onMessage ++ s.qMessagesIn = s.pushed
  /-- The messages pushed with a connection are those it handed on when its reads are taken by themselves, in order. -/
  own : ∀ c, ∃ conn, (start.conns c).feed (eventsOf c events) = .ok (conn, s.pushed.filter (·.remote = some c))
  /-- Every message has a connection. -/
  owned : ∀ o ∈ s.pushed, ∃ c, o.remote = some c
  /-- Of the messages of a connection `OnMessage` got a first part, in their order. -/
  order : ∀ c, s.onMessage.filter (·.remote = some c) <+: s.pushed.filter (·.remote = some c)
  /-- Every call of `OnMessage` belongs to an `Update` that has returned or to the current one. -/
  calls : s.onMessage = s.finished.flatMap (·.made) ++ s.made
  /-- An `Update(n)` makes at most `n` calls. -/
  atMost : ∀ u ∈ s.finished, u.made.length ≤ u.nMaxMessages
  /-- An `Update(n)` that returns has made `n` calls or has just found the queue empty. -/
  early : ∀ e t, Intake.machine.Step s e t → t.finished ≠ s.finished →
    ∃ u, t.finished = s.finished ++ [u] ∧ (u.made.length = u.nMaxMessages ∨ (e = .consume ∧ s.qMessagesIn = []))
  /-- No event faults: `pop_front` is not applied to an empty queue. -/
  safe : Safe Intake.machine s

omit [StandardLayout (MessageHeader T)] in
/-- The loop head makes `Update` return only when the counter has reached the limit. -/
theorem Intake.loopHead_finished {s : Intake T} {nMaxMessages nMessageCount : Nat} (hmade : s.made.length = nMessageCount)
    (hle : nMessageCount ≤ nMaxMessages) (h : (s.loopHead nMaxMessages nMessageCount).finished ≠ s.finished) :
    ∃ u, (s.loopHead nMaxMessages nMessageCount).finished = s.finished ++ [u] ∧ u.made.length = u.nMaxMessages := by
  unfold Intake.loopHead at h ⊢
  split at h
  · exact absurd rfl h
  · rename_i hge
    rw [if_neg hge]
    exact ⟨_, rfl, by simp only; omega⟩

/-- An `Update` that returns in a step has made all its calls or has found the queue empty. -/
theorem Intake.Inv.early {start s t : Intake T} {events : List IntakeEvent} {e : IntakeEvent} (h : Inv start events s)
    (hstep : machine.Step s e t) (hne : t.finished ≠ s.finished) :
    ∃ u, t.finished = s.finished ++ [u] ∧ (u.made.length = u.nMaxMessages ∨ (e = .consume ∧ s.qMessagesIn = [])) := by
  obtain ⟨hen, hnext⟩ := hstep
  have hk := h.consumer
  cases e with
  | conn c e =>
    simp only [machine, Intake.next, bind_eq_ok, pure_eq_ok, Except.ok.injEq] at hnext
    obtain ⟨_, _, rfl⟩ := hnext
    exact absurd rfl hne
  | update n =>
    simp only [machine, Intake.next, Except.ok.injEq] at hnext
    subst hnext
    rw [show s.consumer = .outside from hen] at hk
    have hmade : s.made.length = 0 := congrArg List.length hk
    obtain ⟨u, hu, hlen⟩ := loopHead_finished hmade (Nat.zero_le n) hne
    exact ⟨u, hu, .inl hlen⟩
  | consume =>
    simp only [machine, Intake.next] at hnext
    cases hcons : s.consumer with
    | outside => exact absurd hcons hen
    | testing n k =>
      rw [hcons] at hnext
      simp only [Except.ok.injEq] at hnext
      subst hnext
      unfold testQueue at hne ⊢
      split at hne
      · exact absurd rfl hne
      · rename_i hempty
        rw [if_neg hempty]
        exact ⟨_, rfl, .inr ⟨rfl, by simpa [TsQueue.empty] using hempty⟩⟩
    | popping n k =>
      rw [hcons] at hnext hk
      obtain ⟨hlt, hmade, _⟩ := hk
      obtain ⟨⟨msg, q⟩, _, hnext⟩ := bind_eq_ok.mp hnext
      obtain rfl := Except.ok.inj hnext
      obtain ⟨u, hu, hlen⟩ := loopHead_finished
        (s := { s with qMessagesIn := q, onMessage := s.onMessage ++ [msg], made := s.made ++ [msg] })
        (by simp [hmade]) hlt hne
      exact ⟨u, hu, .inl hlen⟩

/-- For every server with new queues, any number of connections, and every interleaving of their reads with `Update` calls. -/
theorem delivery_law (conns : ConnPtr → Connection T) (events : List IntakeEvent) (s : Intake T)
    (hself : ∀ c, (conns c).self = c ∧ (conns c).nOwnerType = .server)
    (h : Run Intake.machine { conns := conns } events s) : DeliveryLaw { conns := conns } events s := by
  have h0 : Intake.Inv ({ conns := conns } : Intake T) [] { conns := conns } := by
    refine ⟨⟨rfl, fun c => rfl, fun c => ?_, nofun, rfl, nofun⟩, rfl⟩
    obtain ⟨hc, howner⟩ := hself c
    simp [Connection.remote, hc, howner]
  obtain ⟨hinv, hsafe⟩ := Intake.inv_of_run h0 h
  exact {
    state := hinv.state
    own := fun c => ⟨s.conns c, hinv.own c⟩
    owned := hinv.owned
    order := by
      intro c
      rw [← hinv.state, List.filter_append]
      exact List.prefix_append _ _
    calls := hinv.calls
    atMost := hinv.finished
    early := fun e t hstep hne => hinv.early hstep hne
    safe := hsafe }

/-- The connections of a server before their first message. -/
def newConns : ConnPtr → Connection UInt32 := fun c => { self := c, msgTemporaryIn := default }

/-- A message of connection 1 that arrives between two calls of `Update(5)`. -/
theorem delivery_law_one_message :
    ∃ s, s.onMessage = [⟨some 1, ⟨⟨7, 0⟩, []⟩⟩] ∧ s.finished.length = 2 ∧ DeliveryLaw { conns := newConns }
      [.conn 1 (.connectToClient 1000), .update 5, .consume, .conn 1 (.done [7, 0, 0, 0, 0, 0, 0, 0]), .update 5, .consume,
        .consume, .consume] s := by
  have hself : ∀ c, (newConns c).self = c ∧ (newConns c).nOwnerType = .server := fun _ => ⟨rfl, rfl⟩
  have hrun : ∃ s, s.onMessage = [⟨some 1, ⟨⟨7, 0⟩, []⟩⟩] ∧ s.finished.length = 2 ∧
      Run Intake.machine { conns := newConns }
        [.conn 1 (.connectToClient 1000), .update 5, .consume, .conn 1 (.done [7, 0, 0, 0, 0, 0, 0, 0]), .update 5, .consume,
          .consume, .consume] s := by
    refine ⟨_, ?_, ?_, .cons ⟨rfl, rfl⟩ (.cons ⟨rfl, rfl⟩ (.cons ⟨nofun, rfl⟩ (.cons ⟨⟨.header, rfl⟩, rfl⟩
      (.cons ⟨rfl, rfl⟩ (.cons ⟨nofun, rfl⟩ (.cons ⟨nofun, rfl⟩ (.cons ⟨nofun, rfl⟩ .nil)))))))⟩
    all_goals rfl
  obtain ⟨s, hmsg, hfin, hrun⟩ := hrun
  exact ⟨s, hmsg, hfin, delivery_law newConns _ s hself hrun⟩

end Netzwerk
