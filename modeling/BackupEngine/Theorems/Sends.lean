import BackupEngine.Lemmas.Sends

/-!
# What becomes of a message that is sent

`Send` may be called on any thread, in any of the Message functions; its handlers run one by one on the thread of the
io_context, between the handlers of writes. For each connection the messages keep the order of the calls all the same.
-/

namespace Netzwerk

open Cpp Transition Connection

variable {T : Type}

namespace ServerThreads

/-- What was sent so far: for each connection, of the messages `Send` was called with those whose handlers ran are followed by
those that are posted, and the writing half is halfway through the former. -/
structure Sent [StandardLayout (MessageHeader T)] (ws : List (Sending T)) (s : ServerThreads T) : Prop extends Known s where
  sent : ∀ c < s.made, ∃ ran, sendsTo c ws = ran ++ s.postedTo c ∧ (s.conns c).Halfway ran
  unmade : ∀ c, s.made ≤ c → sendsTo c ws = []

/-- Every event. -/
theorem Sent.step [StandardLayout (MessageHeader T)] {s t : ServerThreads T} {ws : List (Sending T)} (h : s.Sent ws)
    {e : ServerThreadEvent T} (hstep : machine.Step s e t) : t.Sent (ws ++ s.sending e) := by
  have hserver := h.toKnown.step hstep
  refine ⟨hserver.known, fun c hc => ?_, fun c hc => ?_⟩
  · rw [sendsTo_append]
    by_cases hold : c < s.made
    · obtain ⟨ran, hran, hhalf⟩ := h.sent c hold
      rw [hran, List.append_assoc]
      cases hserver.conn c hold with
      | same hwriter hposted => exact ⟨ran, by rw [hposted], hhalf.of_sameWriter hwriter⟩
      | write e hwrite hposted => exact ⟨ran ++ sends [e], by rw [hposted, List.append_assoc], hhalf.next hwrite⟩
    · have hge := Nat.not_lt.mp hold
      obtain ⟨hidle, hposted⟩ := hserver.new c hge hc
      exact ⟨[], by rw [h.unmade c hge, hserver.unmade c hge, hposted, List.append_nil], .inl (.inl hidle)⟩
  · have hge := hserver.made_le.trans hc
    rw [sendsTo_append, h.unmade c hge, hserver.unmade c hge]
    rfl

end ServerThreads

/-- What became of the messages `Send` was called with on a connection. -/
structure SendsLaw [StandardLayout (MessageHeader T)] (c : ConnPtr) (given : List (Message T)) (s : ServerThreads T) :
    Prop where
  /-- What was written is a first part of the messages in the order of the calls. -/
  inOrder : (s.conns c).written <+: Message.encodeAll given
  /-- Those that have not left the queue are in it or posted, in that order. -/
  waiting : (s.conns c).popped ≤ given.length ∧
    given.drop (s.conns c).popped = (s.conns c).qMessagesOut ++ s.postedTo c
  /-- Everything was written if the socket is open and nothing is posted or outstanding. -/
  complete : (s.conns c).isOpen = true → (s.conns c).writes = [] → s.postedTo c = [] →
    (s.conns c).written = Message.encodeAll given

/-- For every interleaving of the two threads of a new server, whatever calls of the Message functions it has, and for every
connection that was made. -/
theorem sends_law [StandardLayout (MessageHeader T)] {conns : ConnPtr → Connection T} {ws : List (Sending T)}
    {s : ServerThreads T} (h : Seen ServerThreads.machine ServerThreads.sending { conns := conns } ws s) (c : ConnPtr)
    (hc : c < s.made) : SendsLaw c (sendsTo c ws) s := by
  have hsent : s.Sent ws := h.invariant (fun ws s => s.Sent ws)
    ⟨ServerThreads.known_start, fun _ hc => absurd hc (Nat.not_lt_zero _), fun _ _ => rfl⟩
    fun _ _ _ _ h hstep => h.step hstep
  obtain ⟨ran, hran, hhalf⟩ := hsent.sent c hc
  obtain ⟨hpopped, hdrop⟩ := hhalf.drop_popped
  rw [hran]
  refine ⟨?_, ⟨by simp; omega, ?_⟩, fun hopen hwrites hposted => ?_⟩
  · rw [Message.encodeAll_append]
    exact hhalf.written_prefix.trans (List.prefix_append _ _)
  · rw [List.drop_append_of_le_length hpopped, hdrop]
  · rw [hposted, List.append_nil]
    rcases hhalf with (hidle | ⟨pre, m, rest, part, done, hbusy⟩) | ⟨hclosed, _⟩
    · exact hidle.written
    · rw [hbusy.writes] at hwrites
      cases hwrites
    · rw [hclosed] at hopen
      cases hopen

/-- A client is accepted and a message is sent to all. -/
theorem sends_law_one : ∃ s : ServerThreads UInt32, 0 < s.made ∧ SendsLaw 0 [default] s := by
  obtain ⟨s, hmade, hseen⟩ : ∃ s, 0 < s.made ∧
      Seen ServerThreads.machine ServerThreads.sending { conns := newConns } [.toAll default, .send 0 default] s := by
    refine ⟨_, ?_, Seen.cons (a := ServerThreadEvent.accepted default true false) ⟨trivial, rfl⟩ <|
      Seen.cons (a := ServerThreadEvent.call (.all default none)) ⟨⟨trivial, ?_⟩, rfl⟩ <|
      Seen.cons (a := ServerThreadEvent.run default) ⟨?_, rfl⟩ <|
      Seen.cons (a := ServerThreadEvent.posted) ⟨?_, rfl⟩ Seen.nil⟩
    · exact Nat.one_pos
    · rintro c hc
      cases List.mem_singleton.mp hc
    · exact List.cons_ne_nil _ _
    · exact List.cons_ne_nil _ _
  exact ⟨s, hmade, sends_law hseen 0 hmade⟩

end Netzwerk
