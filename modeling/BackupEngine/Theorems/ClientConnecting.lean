import BackupEngine.Lemmas.ClientConnecting

/-!
# Sending while the client connects

`IsConnected` holds as soon as the connect has begun, so `Send` accepts messages before the socket is connected, and their
handlers begin a write on it without looking whether it is. What was sent early goes out first and in order exactly when no
such handler runs before the connect has completed without an error.
-/

namespace Netzwerk

open Cpp Transition Connection Connecting

variable {T : Type} [StandardLayout (MessageHeader T)]

/-- What holds of a client none of whose early messages spoils the connect. -/
structure ConnectLaw (s : Connecting T) : Prop where
  /-- The socket stays open until the connect has completed, and no write has failed by then. -/
  stillOpen : s.handshake = .pending → s.conn.isOpen = true ∧ s.failed = 0
  /-- No message sent before the connect completed is handed to a write on a socket that is not connected, which fails. -/
  handed : ∀ pw ∈ s.unconnected, pw.1.early = false
  /-- Nothing is written unless the connect has completed without an error. -/
  notBefore : s.handshake ≠ .connected → s.conn.written = []
  /-- The messages sent before the connect completed come first. -/
  first : s.sent.Pairwise fun p q => q.early = true → p.early = true
  /-- The bytes written are a first part of the messages sent. -/
  inOrder : s.conn.written <+: Message.encodeAll (s.sent.map (·.msg))
  /-- Once connected, and as long as no write fails, the thread goes on until all of them are written. -/
  goesOn : s.handshake = .connected → s.conn.isOpen = true → s.failed = 0 →
    s.conn.written ≠ Message.encodeAll (s.sent.map (·.msg)) → ∃ e, Advances e ∧ s.enabled e

namespace Connecting

/-- What a writing half has written is a first part of the messages whose handlers have run. -/
theorem Standing.written_prefix {s : Connecting T} {ran : List (Accepted T)} (h : s.Standing ran) :
    s.conn.written <+: Message.encodeAll (ran.map (·.msg)) := by
  rcases h with ⟨_, hrunning⟩ | ⟨_, hfailed⟩
  · exact hrunning.written_prefix
  · exact hfailed.written_prefix

/-- A connected client with something left to write: a handler waits, or the outstanding write goes on or completes. -/
theorem Inv.goesOn {s : Connecting T} (h : s.Inv) (hun : s.Unspoilt) (hc : s.handshake = .connected)
    (hopen : s.conn.isOpen = true) (hz : s.failed = 0)
    (hleft : s.conn.written ≠ Message.encodeAll (s.sent.map (·.msg))) : ∃ e, Advances e ∧ s.enabled e := by
  obtain ⟨ran, hsent, hstanding⟩ := h.ran
  have hnone : ∀ i, ¬s.Unconnected i := by
    rintro i ⟨w, _, hw⟩
    simp [h.unspoilt hun hc] at hw
  rcases hstanding with ⟨_, hidle | ⟨pre, m, rest, part, done, hbusy⟩⟩ | ⟨hne, _⟩
  · refine ⟨.posted, trivial, fun hempty => hleft ?_⟩
    have hempty : s.posted = [] := hempty
    rw [hsent, hempty, List.append_nil, hidle.written]
  · have hw : s.conn.writes[0]? = some { part := part, msg := pre.length, done := done } := by simp [hbusy.writes]
    have hle := hbusy.done_le
    by_cases hdone : done = (part.bytes m).length
    · refine ⟨.complete 0, trivial, ⟨_, hw, ?_⟩, hnone 0⟩
      simp only [Left, hbusy.buffer]
      omega
    · refine ⟨.transfer 0 ((part.bytes m).length - done), Nat.sub_pos_of_lt (by omega), ⟨hopen, _, hw, ?_⟩, hnone 0⟩
      simp only [Left, hbusy.buffer]
      omega
  · exact absurd hz hne

/-- Under the invariant the law is that no early message was handed to a write that must fail. -/
theorem Inv.law_iff {s : Connecting T} (h : s.Inv) : ConnectLaw s ↔ s.Unspoilt := by
  refine ⟨fun hlaw => hlaw.handed, fun hun => ?_⟩
  obtain ⟨ran, hsent, hstanding⟩ := h.ran
  refine {
    stillOpen := fun hp => ?_
    handed := hun
    notBefore := h.written
    first := h.first
    inOrder := ?_
    goesOn := h.goesOn hun }
  · have huntouched := h.untouched hun (by simp [hp]) (.inl hp)
    refine ⟨huntouched.isOpen, ?_⟩
    rcases hstanding with ⟨hz, _⟩ | ⟨_, pre, m, rest, hstop⟩
    · exact hz
    · exact absurd (huntouched.idle.queue.symm.trans hstop.queue) nofun
  · rw [hsent, List.map_append, Message.encodeAll_append]
    exact hstanding.written_prefix.trans (List.prefix_append _ _)

end Connecting

/-- For every interleaving of the handler of the connect with calls of `Send`, their handlers and what becomes of the writes:
the law holds in every state of the run exactly when no handler of a message sent before the connect completed runs until it
has completed without an error. -/
theorem connecting_iff (self : ConnPtr) (m : Message T) {events : List (ConnectingEvent T)} {s : Connecting T}
    (h : Run machine (Connecting.start self m) events s) :
    (∀ es t, es <+: events → Run machine (Connecting.start self m) es t → ConnectLaw t) ↔
      Run (machine.when Patient) (Connecting.start self m) events s := by
  have hstart : (Connecting.start self m).Inv := inv_start self m
  refine Run.always_iff_under hstart (hstart.law_iff.mpr fun _ hp => absurd hp List.not_mem_nil) ?_ h
  intro t e u hinv hlaw hstep
  obtain ⟨hinv', hiff⟩ := hinv.step (hinv.law_iff.mp hlaw) hstep
  exact ⟨hinv', hinv'.law_iff.trans hiff⟩

/-- A message sent at once, whose handler runs when the connect has completed. -/
theorem connecting_iff_one : ∃ s : Connecting UInt32, s.conn.written = Message.encodeAll [⟨⟨(7 : UInt32), 0⟩, []⟩] ∧
    ∀ es t, es <+: [.send ⟨⟨(7 : UInt32), 0⟩, []⟩, .connect false, .posted, .transfer 0 8, .complete 0] →
      Run machine (Connecting.start 1 default) es t → ConnectLaw t := by
  have hrun : ∃ s : Connecting UInt32, s.conn.written = Message.encodeAll [⟨⟨(7 : UInt32), 0⟩, []⟩] ∧
      Run (machine.when Patient) (Connecting.start 1 default)
        [.send ⟨⟨(7 : UInt32), 0⟩, []⟩, .connect false, .posted, .transfer 0 8, .complete 0] s := by
    refine ⟨_, ?_, .cons ⟨⟨trivial, nofun⟩, rfl⟩ (.cons ⟨⟨rfl, nofun⟩, rfl⟩ (.cons ⟨⟨nofun, fun _ _ _ _ _ => rfl⟩, rfl⟩
      (.cons ⟨⟨⟨⟨rfl, _, rfl, ?_⟩, ?_⟩, nofun⟩, rfl⟩ (.cons ⟨⟨⟨⟨_, rfl, ?_⟩, ?_⟩, nofun⟩, rfl⟩ .nil))))⟩
    · rfl
    · exact ⟨by decide, by decide⟩
    · rintro ⟨_, _, hw⟩
      exact List.not_mem_nil hw
    · exact ⟨by decide, by decide⟩
    · rintro ⟨_, _, hw⟩
      exact List.not_mem_nil hw
  obtain ⟨s, hs, hrun⟩ := hrun
  exact ⟨s, hs, (connecting_iff 1 default hrun.of_when).mpr hrun⟩

/-- A message sent at once, whose handler runs while the connect is pending: the write fails, and the socket is closed under
the connect. -/
theorem early_send_closes : ¬∀ (events : List (ConnectingEvent UInt32)) (s : Connecting UInt32),
    Run machine (Connecting.start 1 default) events s → s.handshake = .pending → s.conn.isOpen = true ∧ s.failed = 0 := by
  intro hall
  have hrun : ∃ s : Connecting UInt32, (s.handshake = .pending ∧ s.conn.isOpen = false) ∧
      Run machine (Connecting.start 1 default) [.send ⟨⟨(7 : UInt32), 0⟩, []⟩, .posted, .fail 0] s := by
    refine ⟨_, ?_, .cons ⟨trivial, rfl⟩ (.cons ⟨nofun, rfl⟩ (.cons ⟨?_, rfl⟩ .nil))⟩
    · exact ⟨rfl, rfl⟩
    · exact Nat.one_pos
  obtain ⟨s, ⟨hpending, hclosed⟩, hrun⟩ := hrun
  have hopen := (hall _ s hrun hpending).1
  rw [hclosed] at hopen
  exact nomatch hopen

end Netzwerk
