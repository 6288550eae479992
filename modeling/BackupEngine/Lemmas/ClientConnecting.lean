import BackupEngine.Lemmas.WriteLoop
import BackupEngine.Netzwerk.ClientConnecting

/-!
# What one event does to a client that connects

As long as no message accepted early was handed to a write on a socket that is not connected, the connection is untouched
while the connect is pending, and also after it was refused if such a message still waits.
-/

namespace Netzwerk

open Cpp Transition

variable {T : Type}

namespace Connection

variable [StandardLayout (MessageHeader T)]

/-- A running half does not depend on the socket's state or on the outstanding read. -/
theorem Running.congr {sent : List (Message T)} {c : Connection T} (h : Running sent c) (b : Bool)
    (r : Option (Part × Nat)) : Running sent { c with isOpen := b, reads := r } := by
  rcases h with hidle | ⟨pre, m, rest, part, done, hbusy⟩
  · exact .inl ⟨hidle.queue, hidle.writes, hidle.popped, hidle.written⟩
  · exact .inr ⟨pre, m, rest, part, done, hbusy.sent_eq, hbusy.queue, hbusy.popped, hbusy.writes, hbusy.done_le,
      hbusy.written, hbusy.body⟩

/-- Neither does a stopped one. -/
theorem Failed.congr {sent : List (Message T)} {c : Connection T} (h : Failed sent c) (b : Bool)
    (r : Option (Part × Nat)) : Failed sent { c with isOpen := b, reads := r } := by
  obtain ⟨pre, m, rest, hstop⟩ := h
  exact ⟨pre, m, rest, hstop.sent_eq, hstop.queue, hstop.popped, hstop.writes, hstop.written⟩

end Connection

open Connection

namespace Connecting

/-- No message accepted early was handed to a write on a socket that was not connected. -/
def Unspoilt (s : Connecting T) : Prop := ∀ pw ∈ s.unconnected, pw.1.early = false

variable [StandardLayout (MessageHeader T)]

/-- Where the writing half is, after the handlers of `ran` have run. -/
def Standing (s : Connecting T) (ran : List (Accepted T)) : Prop :=
  (s.failed = 0 ∧ Running (ran.map (·.msg)) s.conn) ∨ (s.failed ≠ 0 ∧ Failed (ran.map (·.msg)) s.conn)

/-- Nothing was done with the connection yet. -/
structure Untouched (s : Connecting T) : Prop where
  idle : Idle [] s.conn
  isOpen : s.conn.isOpen = true
  unconnected : s.unconnected = []

/-- The invariant of the client and its thread. -/
structure Inv (s : Connecting T) : Prop where
  ran : ∃ ran, s.sent = ran ++ s.posted ∧ s.Standing ran
  early : s.handshake = .pending → ∀ p ∈ s.sent, p.early = true
  first : s.sent.Pairwise fun p q => q.early = true → p.early = true
  reads : s.handshake ≠ .connected → s.conn.reads = none
  written : s.handshake ≠ .connected → s.conn.written = []
  writes : s.handshake ≠ .connected → ∀ w ∈ s.conn.writes, w ∈ s.unconnected.map (·.2)
  untouched : s.Unspoilt → s.handshake ≠ .connected → (s.handshake = .pending ∨ ∃ p ∈ s.posted, p.early = true) →
    s.Untouched
  unspoilt : s.Unspoilt → s.handshake = .connected → s.unconnected = []

/-- The handlers of a step leave the messages accepted early at the front of those that wait. -/
theorem Inv.first_posted {s : Connecting T} (h : s.Inv) :
    s.posted.Pairwise fun p q => q.early = true → p.early = true := by
  obtain ⟨ran, hsent, _⟩ := h.ran
  have hfirst := h.first
  rw [hsent] at hfirst
  exact (List.pairwise_append.mp hfirst).2.1

/-- The invariant holds when `Connect` has returned. -/
theorem inv_start (self : ConnPtr) (m : Message T) : (start self m).Inv where
  ran := ⟨[], rfl, .inl ⟨rfl, .inl ⟨rfl, rfl, rfl, rfl⟩⟩⟩
  early := fun _ _ hp => absurd hp List.not_mem_nil
  first := List.Pairwise.nil
  reads := fun _ => rfl
  written := fun _ => rfl
  writes := fun _ _ hw => absurd hw List.not_mem_nil
  untouched := fun _ _ _ => ⟨⟨rfl, rfl, rfl, rfl⟩, rfl, rfl⟩
  unspoilt := fun _ h => nomatch h

/-! ## One event -/

/-- A call of `Send` posts a handler and leaves the connection as it is. -/
theorem Inv.send {s : Connecting T} (h : s.Inv) (msg : Message T) : (s.send msg).Inv := by
  unfold Connecting.send
  split
  · obtain ⟨ran, hsent, hstanding⟩ := h.ran
    refine ⟨⟨ran, by simp [hsent], hstanding⟩, fun hp p hmem => ?_, ?_, h.reads, h.written, h.writes,
      fun hun hne hwait => ?_, h.unspoilt⟩
    · rcases List.mem_append.mp hmem with hmem | hmem
      · exact h.early hp p hmem
      · have hp' : s.handshake = .pending := hp
        rw [List.mem_singleton.mp hmem]
        simp [hp']
    · refine List.pairwise_append.mpr ⟨h.first, List.pairwise_singleton _ _, fun p hp q hq hearly => ?_⟩
      rw [List.mem_singleton.mp hq] at hearly
      exact h.early (by simpa using hearly) p hp
    · refine (fun hu : s.Untouched => ⟨hu.idle, hu.isOpen, hu.unconnected⟩) (h.untouched hun hne ?_)
      rcases hwait with hp | ⟨p, hmem, hearly⟩
      · exact .inl hp
      · rcases List.mem_append.mp hmem with hmem | hmem
        · exact .inr ⟨p, hmem, hearly⟩
        · rw [List.mem_singleton.mp hmem] at hearly
          exact .inl (by simpa using hearly)
  · exact h

/-- The handler of the connect. -/
theorem Inv.connected {s : Connecting T} (h : s.Inv) (hp : s.handshake = .pending) (ec : Bool) : (s.connected ec).Inv := by
  have hne : s.handshake ≠ .connected := by simp [hp]
  obtain ⟨ran, hsent, hstanding⟩ := h.ran
  cases ec with
  | false =>
    refine ⟨⟨ran, hsent, ?_⟩, nofun, h.first, fun hc => absurd rfl hc, fun hc => absurd rfl hc, fun hc => absurd rfl hc,
      fun _ hc => absurd rfl hc, fun hun _ => (h.untouched hun hne (.inl hp)).unconnected⟩
    rcases hstanding with ⟨hz, hrun⟩ | ⟨hz, hstop⟩
    · exact .inl ⟨hz, hrun.congr s.conn.isOpen _⟩
    · exact .inr ⟨hz, hstop.congr s.conn.isOpen _⟩
  | true =>
    refine ⟨⟨ran, hsent, hstanding⟩, nofun, h.first, fun _ => h.reads hne, fun _ => h.written hne, fun _ => h.writes hne,
      fun hun _ _ => ?_, nofun⟩
    have hu := h.untouched hun hne (.inl hp)
    exact ⟨hu.idle, hu.isOpen, hu.unconnected⟩

/-- A write goes on or completes without an error: the socket is connected. -/
theorem Inv.connected_of_writes {s : Connecting T} (h : s.Inv) {i : Nat} {w : Write} (hw : s.conn.writes[i]? = some w)
    (hun : ¬s.Unconnected i) : s.handshake = .connected := by
  by_contra hne
  exact hun ⟨w, hw, h.writes hne w (List.mem_of_getElem? hw)⟩

/-- An event of the writing half of a connected socket. -/
theorem Inv.writeNext {s : Connecting T} (h : s.Inv) (hc : s.handshake = .connected) {e : WriteEvent T} {c : Connection T}
    (he : s.conn.writeEnabled e) (hnext : s.conn.writeNext e = .ok c) (hnone : sends [e] = []) :
    ({ s with conn := c, failed := s.failed + failures [e] } : Connecting T).Inv := by
  obtain ⟨ran, hsent, hstanding⟩ := h.ran
  refine ⟨⟨ran, hsent, ?_⟩, fun hp => absurd (hc.symm.trans hp) nofun, h.first, fun hne => absurd hc hne,
    fun hne => absurd hc hne, fun hne => absurd hc hne, fun _ hne => absurd hc hne, h.unspoilt⟩
  rcases hstanding with ⟨hz, hrun⟩ | ⟨hz, hstop⟩
  · obtain ⟨c', hc', hor⟩ := hrun.next he
    obtain rfl : c = c' := by simpa using hnext.symm.trans hc'
    rw [hnone, List.append_nil] at hor
    rcases hor with ⟨hf, hrun'⟩ | ⟨hf, hstop'⟩
    · exact .inl ⟨by simp [hz, hf], hrun'⟩
    · exact .inr ⟨by simp [hf], hstop'⟩
  · obtain ⟨c', hc', _, hstop'⟩ := hstop.next he
    obtain rfl : c = c' := by simpa using hnext.symm.trans hc'
    rw [hnone, List.append_nil] at hstop'
    refine .inr ⟨?_, hstop'⟩
    change s.failed + failures [e] ≠ 0
    omega

/-- A write fails: the socket is closed, whether it was connected or not. -/
theorem Inv.fail {s : Connecting T} (h : s.Inv) {i : Nat} {c : Connection T} (hi : i < s.conn.writes.length)
    (hnext : s.conn.writeNext (.fail i) = .ok c) : ({ s with conn := c, failed := s.failed + 1 } : Connecting T).Inv := by
  by_cases hc : s.handshake = .connected
  · exact h.writeNext hc (e := .fail i) hi hnext rfl
  · obtain ⟨ran, hsent, hstanding⟩ := h.ran
    obtain rfl : ({ s.conn with writes := s.conn.writes.eraseIdx i }.close : Connection T) = c := by
      simpa [Connection.writeNext] using hnext
    refine ⟨⟨ran, hsent, .inr ⟨Nat.succ_ne_zero _, ?_⟩⟩, h.early, h.first, h.reads, h.written,
      fun hne w hw => h.writes hne w (List.mem_of_mem_eraseIdx hw), fun hun hne hwait => ?_, h.unspoilt⟩
    · rcases hstanding with ⟨_, hrun⟩ | ⟨_, hstop⟩
      · obtain ⟨c', hc', ⟨hzero, _⟩ | ⟨_, hstop'⟩⟩ := hrun.next (e := .fail i) hi
        · exact absurd hzero Nat.one_ne_zero
        · cases hc'
          simpa [sends] using hstop'
      · obtain ⟨c', hc', _, hstop'⟩ := hstop.next (e := .fail i) hi
        cases hc'
        simpa [sends] using hstop'
    · have hidle := (h.untouched hun hne hwait).idle
      simp [hidle.writes] at hi

/-- A read fails, so the connect has completed: the socket is closed. -/
theorem Inv.readFails {s : Connecting T} (h : s.Inv) (hr : s.conn.reads ≠ none) :
    ({ s with conn := { s.conn.close with reads := none } } : Connecting T).Inv := by
  have hc : s.handshake = .connected := by
    by_contra hne
    exact hr (h.reads hne)
  obtain ⟨ran, hsent, hstanding⟩ := h.ran
  refine ⟨⟨ran, hsent, ?_⟩, fun hp => absurd (hc.symm.trans hp) nofun, h.first, fun hne => absurd hc hne,
    fun hne => absurd hc hne, fun hne => absurd hc hne, fun _ hne => absurd hc hne, h.unspoilt⟩
  rcases hstanding with ⟨hz, hrun⟩ | ⟨hz, hstop⟩
  · exact .inl ⟨hz, hrun.congr false none⟩
  · exact .inr ⟨hz, hstop.congr false none⟩

/-! ## A posted handler -/

omit [StandardLayout (MessageHeader T)] in
/-- The state a posted handler leaves. -/
theorem runPosted_cons {s : Connecting T} {p : Accepted T} {rest : List (Accepted T)} (hp : s.posted = p :: rest) :
    ∃ c begun, s.conn.send p.msg = .ok c ∧ c.writes = s.conn.writes ++ begun ∧ c.written = s.conn.written ∧
      c.reads = s.conn.reads ∧ (s.conn.qMessagesOut = [] → begun ≠ []) ∧
      s.runPosted = .ok { s with
        conn := c
        posted := rest
        unconnected := if s.handshake = .connected then s.unconnected else s.unconnected ++ begun.map (p, ·) } := by
  unfold runPosted
  rw [hp]
  simp only [send_eq, ok_bind, pure_eq_ok]
  by_cases hq : s.conn.qMessagesOut = []
  · refine ⟨_, [{ part := .header, msg := s.conn.popped }], rfl, ?_, ?_, ?_, fun _ => List.cons_ne_nil _ _, ?_⟩ <;>
      simp [hq, asyncWrite]
  · refine ⟨_, [], rfl, ?_, ?_, ?_, fun h => absurd h hq, ?_⟩ <;> simp [hq]

/-- The handler of a message runs once the connect has completed without an error, or the message was not sent before. -/
def Late (s : Connecting T) : Prop := ∀ p rest, s.posted = p :: rest → p.early = true → s.handshake = .connected

/-- The oldest posted handler is run. The message is handed to a write on a socket that is not connected exactly when the
handler comes too early. -/
theorem Inv.runPosted {s u : Connecting T} (h : s.Inv) (hun : s.Unspoilt) (hp : s.posted ≠ [])
    (hu : s.runPosted = .ok u) : u.Inv ∧ (u.Unspoilt ↔ s.Late) := by
  obtain ⟨p, rest, hp⟩ := List.exists_cons_of_ne_nil hp
  obtain ⟨c, begun, hc, hwrites, hwritten, hreads, hbegun, heq⟩ := runPosted_cons hp
  obtain rfl := Except.ok.inj (heq.symm.trans hu)
  obtain ⟨ran, hsent, hstanding⟩ := h.ran
  have hran : s.sent = (ran ++ [p]) ++ rest := by rw [hsent, hp, List.append_assoc, List.singleton_append]
  have hstanding' : (s.failed = 0 ∧ Running ((ran ++ [p]).map (·.msg)) c) ∨
      (s.failed ≠ 0 ∧ Failed ((ran ++ [p]).map (·.msg)) c) := by
    have hlast : (ran ++ [p]).map (·.msg) = ran.map (·.msg) ++ sends [.send p.msg] := by simp [sends]
    rw [hlast]
    rcases hstanding with ⟨hz, hrun⟩ | ⟨hz, hstop⟩
    · obtain ⟨c', hc', ⟨_, hrun'⟩ | ⟨hone, _⟩⟩ := hrun.next (e := .send p.msg) trivial
      · obtain rfl : c = c' := Except.ok.inj (hc.symm.trans hc')
        exact .inl ⟨hz, hrun'⟩
      · exact absurd hone.symm Nat.one_ne_zero
    · obtain ⟨c', hc', _, hstop'⟩ := hstop.next (e := .send p.msg) trivial
      obtain rfl : c = c' := Except.ok.inj (hc.symm.trans hc')
      exact .inr ⟨hz, hstop'⟩
  by_cases hcon : s.handshake = .connected
  · -- the socket is connected: whatever the handler begins goes out
    simp only [if_pos hcon]
    refine ⟨⟨⟨ran ++ [p], hran, hstanding'⟩, h.early, h.first, fun hne => absurd hcon hne, fun hne => absurd hcon hne,
      fun hne => absurd hcon hne, fun _ hne => absurd hcon hne, h.unspoilt⟩, fun _ => ?_, fun _ => hun⟩
    exact fun _ _ _ _ => hcon
  · simp only [if_neg hcon]
    have hspoils : p.early = true → ∃ w, (p, w) ∈ s.unconnected ++ begun.map (p, ·) := by
      intro hearly
      have hidle := (h.untouched hun hcon (.inr ⟨p, by simp [hp], hearly⟩)).idle
      obtain ⟨w, ws, hw⟩ := List.exists_cons_of_ne_nil (hbegun hidle.queue)
      exact ⟨w, by simp [hw]⟩
    have hiff : Unspoilt ({ s with
        conn := c, posted := rest, unconnected := s.unconnected ++ begun.map (p, ·) } : Connecting T) ↔ s.Late := by
      constructor
      · intro hun' p' rest' hp' hearly
        obtain ⟨rfl, -⟩ : p = p' ∧ rest = rest' := by simpa [hp] using hp'
        obtain ⟨w, hw⟩ := hspoils hearly
        exact absurd (hun' (p, w) hw) (by simp [hearly])
      · intro hlate pw hpw
        rcases List.mem_append.mp hpw with hpw | hpw
        · exact hun pw hpw
        · obtain ⟨w, _, rfl⟩ := List.mem_map.mp hpw
          by_contra hearly
          exact hcon (hlate p rest hp (by simpa using hearly))
    refine ⟨⟨⟨ran ++ [p], hran, hstanding'⟩, h.early, h.first, fun hne => hreads.trans (h.reads hne),
      fun hne => hwritten.trans (h.written hne), fun hne w hw => ?_, fun hun' hne hwait => ?_,
      fun _ hc' => absurd hc' hcon⟩, hiff⟩
    · rw [hwrites] at hw
      rw [List.map_append, List.mem_append]
      rcases List.mem_append.mp hw with hw | hw
      · exact .inl (h.writes hne w hw)
      · exact .inr (by simpa using hw)
    · -- the handler did not come too early, so the message was sent after the connect was refused, like all that follow
      have hlate := hiff.mp hun'
      have hnot : p.early ≠ true := fun hearly => hcon (hlate p rest hp hearly)
      have hfirst := h.first_posted
      rw [hp, List.pairwise_cons] at hfirst
      rcases hwait with hpend | ⟨q, hq, hearly⟩
      · exact absurd (h.early hpend p (by simp [hsent, hp])) hnot
      · exact absurd (hfirst.1 q hq hearly) hnot

/-! ## All events -/

/-- The events that do not spoil the connect: a handler that comes too early is not run. -/
def Patient (s : Connecting T) (e : ConnectingEvent T) : Prop := e = .posted → s.Late

/-- One event keeps the invariant, and hands no message to a write that must fail exactly when no handler comes too early. -/
theorem Inv.step {s u : Connecting T} {e : ConnectingEvent T} (h : s.Inv) (hun : s.Unspoilt) (hstep : machine.Step s e u) :
    u.Inv ∧ (u.Unspoilt ↔ s.Patient e) := by
  obtain ⟨hen, hnext⟩ := hstep
  cases e with
  | send msg =>
    obtain rfl : s.send msg = u := Except.ok.inj hnext
    have hsame : (s.send msg).unconnected = s.unconnected := by
      unfold Connecting.send
      split <;> rfl
    refine ⟨h.send msg, fun _ => nofun, fun _ => ?_⟩
    unfold Unspoilt
    rw [hsame]
    exact hun
  | connect ec =>
    obtain rfl : s.connected ec = u := Except.ok.inj hnext
    have hsame : (s.connected ec).unconnected = s.unconnected := by cases ec <;> rfl
    refine ⟨h.connected hen ec, fun _ => nofun, fun _ => ?_⟩
    unfold Unspoilt
    rw [hsame]
    exact hun
  | posted =>
    obtain ⟨hinv, hiff⟩ := h.runPosted hun hen hnext
    exact ⟨hinv, hiff.trans ⟨fun hl _ => hl, fun hl => hl rfl⟩⟩
  | transfer i n =>
    obtain ⟨hw, hnot⟩ := hen
    have ⟨_, w, hget, _⟩ := hw
    obtain ⟨c, hc, hu⟩ := bind_eq_ok.mp hnext
    obtain rfl := Except.ok.inj hu
    exact ⟨h.writeNext (h.connected_of_writes hget hnot) (e := .transfer i n) hw hc rfl, fun _ => nofun, fun _ => hun⟩
  | complete i =>
    obtain ⟨hw, hnot⟩ := hen
    have ⟨w, hget, _⟩ := hw
    obtain ⟨c, hc, hu⟩ := bind_eq_ok.mp hnext
    obtain rfl := Except.ok.inj hu
    exact ⟨h.writeNext (h.connected_of_writes hget hnot) (e := .complete i) hw hc rfl, fun _ => nofun, fun _ => hun⟩
  | fail i =>
    obtain ⟨c, hc, hu⟩ := bind_eq_ok.mp hnext
    obtain rfl := Except.ok.inj hu
    exact ⟨h.fail hen hc, fun _ => nofun, fun _ => hun⟩
  | readFails =>
    obtain rfl := Except.ok.inj hnext
    exact ⟨h.readFails hen, fun _ => nofun, fun _ => hun⟩

end Connecting

end Netzwerk
