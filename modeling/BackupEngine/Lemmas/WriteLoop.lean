import BackupEngine.Netzwerk.Connection

/-!
# What one event does to the writing half

Between events the writing half is in one of three places. It is `Idle`: the queue is empty, nothing is outstanding and
everything sent is written. It is `Busy` with a part of the front message: one write is outstanding. Or it is `Stopped` by a
failed write, the front message still in the queue. Each event keeps it in one of the three.
-/

namespace Netzwerk

open Cpp Transition

variable {T : Type} [StandardLayout (MessageHeader T)]

/-- The bytes of a message that go out before a part of it. -/
def Part.before : Part → Message T → List UInt8
  | .header, _ => []
  | .body, m => toBytes m.header

/-- What was written before a part and the part itself lead up to the whole message. -/
theorem Part.before_bytes_prefix (part : Part) (m : Message T) : part.before m ++ part.bytes m <+: m.encode := by
  cases part with
  | header => exact List.prefix_append _ _
  | body => exact List.prefix_refl _

namespace Connection

/-- Everything sent is written, and no write is outstanding. -/
structure Idle (sent : List (Message T)) (c : Connection T) : Prop where
  queue : c.qMessagesOut = []
  writes : c.writes = []
  popped : c.popped = sent.length
  written : c.written = Message.encodeAll sent

/-- The messages `pre` are written, `m` is at the front, and the one outstanding write is of `part` of `m`, of which `done`
bytes are out. -/
structure Busy (sent : List (Message T)) (c : Connection T) (pre : List (Message T)) (m : Message T)
    (rest : List (Message T)) (part : Part) (done : Nat) : Prop where
  sent_eq : sent = pre ++ m :: rest
  queue : c.qMessagesOut = m :: rest
  popped : c.popped = pre.length
  writes : c.writes = [{ part := part, msg := pre.length, done := done }]
  done_le : done ≤ (part.bytes m).length
  written : c.written = Message.encodeAll pre ++ (part.before m ++ (part.bytes m).take done)
  body : part = .body → m.body ≠ []

/-- A write of the front message `m` failed: nothing is outstanding, and what was written ends inside `m`. -/
structure Stopped (sent : List (Message T)) (c : Connection T) (pre : List (Message T)) (m : Message T)
    (rest : List (Message T)) : Prop where
  sent_eq : sent = pre ++ m :: rest
  queue : c.qMessagesOut = m :: rest
  popped : c.popped = pre.length
  writes : c.writes = []
  written : c.written <+: Message.encodeAll pre ++ m.encode

/-- The places of a writing half no write of which has failed. -/
def Running (sent : List (Message T)) (c : Connection T) : Prop :=
  Idle sent c ∨ ∃ pre m rest part done, Busy sent c pre m rest part done

/-- The places right after a handler ran: nothing of the outstanding write is out. -/
def Fresh (sent : List (Message T)) (c : Connection T) : Prop :=
  Idle sent c ∨ ∃ pre m rest part, Busy sent c pre m rest part 0

/-- The places of a writing half after a failed write. -/
def Failed (sent : List (Message T)) (c : Connection T) : Prop := ∃ pre m rest, Stopped sent c pre m rest

theorem Fresh.running {sent : List (Message T)} {c : Connection T} (h : Fresh sent c) : Running sent c := by
  rcases h with hidle | ⟨pre, m, rest, part, hbusy⟩
  · exact .inl hidle
  · exact .inr ⟨pre, m, rest, part, 0, hbusy⟩

omit [StandardLayout (MessageHeader T)] in
/-- What the handler of `Send` leaves: it begins a write if the queue was empty. -/
theorem send_eq (c : Connection T) (msg : Message T) :
    c.send msg = .ok (if c.qMessagesOut = [] then ({ c with qMessagesOut := [msg] } : Connection T).asyncWrite .header
      else { c with qMessagesOut := c.qMessagesOut ++ [msg] }) := by
  unfold send
  cases hq : c.qMessagesOut with
  | nil => simp [TsQueue.empty, TsQueue.pushBack, writeHeader, TsQueue.front]
  | cons m rest => simp [TsQueue.empty, TsQueue.pushBack]

/-- A new connection is idle. -/
theorem idle_new (c : Connection T) (hq : c.qMessagesOut = []) (hw : c.writes = []) (hp : c.popped = 0)
    (hb : c.written = []) : Idle [] c := ⟨hq, hw, hp, hb⟩

section Busy

variable {sent pre rest : List (Message T)} {c : Connection T} {m : Message T} {part : Part} {done : Nat}

/-- The buffer of the outstanding write is the part it covers of the message at the front. -/
theorem Busy.buffer (h : Busy sent c pre m rest part done) :
    c.buffer { part := part, msg := pre.length, done := done } = .ok (part.bytes m) := by
  unfold Connection.buffer
  rw [h.popped, if_neg (by simp), h.queue, Nat.sub_self]
  rfl

/-- What a write in progress has written leads up to its message. -/
theorem Busy.written_prefix (h : Busy sent c pre m rest part done) :
    c.written <+: Message.encodeAll pre ++ m.encode := by
  rw [h.written, List.prefix_append_right_inj]
  refine List.IsPrefix.trans ?_ (part.before_bytes_prefix m)
  rw [List.prefix_append_right_inj]
  exact List.take_prefix _ _

/-- Some bytes of the outstanding write go out. -/
theorem Busy.transfer (h : Busy sent c pre m rest part done) {n : Nat} (hn : n ≤ (part.bytes m).length - done) :
    Busy sent { c with
      written := c.written ++ ((part.bytes m).drop done).take n
      writes := c.writes.set 0 { part := part, msg := pre.length, done := done + n } } pre m rest part (done + n) where
  sent_eq := h.sent_eq
  queue := h.queue
  popped := h.popped
  writes := by simp [h.writes]
  done_le := by
    have := h.done_le
    omega
  written := by
    simp only [h.written, List.append_assoc, List.append_cancel_left_eq]
    rw [List.take_add]
  body := h.body

/-- A message goes to the end of a queue that is being written: no write is started. -/
theorem Busy.send (h : Busy sent c pre m rest part done) (msg : Message T) :
    ∃ c', c.send msg = .ok c' ∧ c'.isOpen = c.isOpen ∧ Busy (sent ++ [msg]) c' pre m (rest ++ [msg]) part done := by
  refine ⟨{ c with qMessagesOut := c.qMessagesOut ++ [msg] }, ?_, rfl, ?_⟩
  · simp [Connection.send, TsQueue.empty, TsQueue.pushBack, h.queue]
  · exact ⟨by simp [h.sent_eq], by simp [h.queue], h.popped, h.writes, h.done_le, h.written, h.body⟩

/-- A write that fails leaves the message it covers at the front and starts no other. -/
theorem Busy.fail (h : Busy sent c pre m rest part done) :
    Stopped sent ({ c with writes := c.writes.eraseIdx 0 }.close) pre m rest :=
  ⟨h.sent_eq, h.queue, h.popped, by simp [Connection.close, h.writes], h.written_prefix⟩

end Busy

/-- What a writing half that runs has written is a first part of the messages sent. -/
theorem Running.written_prefix {sent : List (Message T)} {c : Connection T} (h : Running sent c) :
    c.written <+: Message.encodeAll sent := by
  rcases h with hidle | ⟨pre, m, rest, part, done, hbusy⟩
  · rw [hidle.written]
  · rw [hbusy.sent_eq]
    refine hbusy.written_prefix.trans ⟨Message.encodeAll rest, ?_⟩
    simp

/-- So is what one has written that has failed. -/
theorem Failed.written_prefix {sent : List (Message T)} {c : Connection T} (h : Failed sent c) :
    c.written <+: Message.encodeAll sent := by
  obtain ⟨pre, m, rest, hstop⟩ := h
  rw [hstop.sent_eq]
  refine hstop.written.trans ⟨Message.encodeAll rest, ?_⟩
  simp

/-- A message sent when nothing is outstanding: its header is written at once. -/
theorem Idle.send {sent : List (Message T)} {c : Connection T} (h : Idle sent c) (msg : Message T) :
    ∃ c', c.send msg = .ok c' ∧ c'.isOpen = c.isOpen ∧ Busy (sent ++ [msg]) c' sent msg [] .header 0 := by
  refine ⟨({ c with qMessagesOut := [msg] } : Connection T).asyncWrite .header, ?_, rfl, ?_⟩
  · simp [Connection.send, TsQueue.empty, TsQueue.pushBack, h.queue, writeHeader, TsQueue.front]
  · exact ⟨rfl, rfl, h.popped, by simp [asyncWrite, h.writes, h.popped], Nat.zero_le _,
      by simp [asyncWrite, h.written, Part.before], nofun⟩

/-- A message sent after a failed write stays in the queue. -/
theorem Stopped.send {sent pre rest : List (Message T)} {c : Connection T} {m : Message T}
    (h : Stopped sent c pre m rest) (msg : Message T) :
    ∃ c', c.send msg = .ok c' ∧ c'.started = c.started ∧ Stopped (sent ++ [msg]) c' pre m (rest ++ [msg]) := by
  refine ⟨{ c with qMessagesOut := c.qMessagesOut ++ [msg] }, ?_, rfl, ?_⟩
  · simp [Connection.send, TsQueue.empty, TsQueue.pushBack, h.queue]
  · exact ⟨by simp [h.sent_eq], by simp [h.queue], h.popped, h.writes, h.written⟩

section Complete

variable {sent pre rest : List (Message T)} {c : Connection T} {m : Message T}

/-- What both handlers do once the front message is out, with the completed write already gone from the outstanding ones: the
message leaves the queue, and the header of the next one is written if there is one. -/
theorem next_message (hsent : sent = pre ++ m :: rest) (hqueue : c.qMessagesOut = m :: rest)
    (hpopped : c.popped = pre.length) (hwrites : c.writes = [])
    (hwritten : c.written = Message.encodeAll pre ++ m.encode) :
    ∃ c', (do let c ← c.popOut; if !TsQueue.empty c.qMessagesOut then c.writeHeader else return c) = .ok c' ∧
      c'.isOpen = c.isOpen ∧ c'.written = c.written ∧ Fresh sent c' := by
  have hpop : c.popOut = .ok { c with qMessagesOut := rest, popped := c.popped + 1 } :=
    bind_eq_ok.mpr ⟨_, TsQueue.popFront_eq_ok.mpr hqueue, rfl⟩
  have hall : c.written = Message.encodeAll (pre ++ [m]) := by simp [hwritten]
  rw [hpop, ok_bind]
  cases rest with
  | nil =>
    exact ⟨{ c with qMessagesOut := [], popped := c.popped + 1 }, rfl, rfl, rfl,
      .inl ⟨rfl, hwrites, by simp [hsent, hpopped], by rw [hsent, hall]⟩⟩
  | cons m' rest =>
    refine ⟨({ c with qMessagesOut := m' :: rest, popped := c.popped + 1 } : Connection T).asyncWrite .header, rfl, rfl, rfl,
      .inr ⟨pre ++ [m], m', rest, .header, ?_⟩⟩
    exact ⟨by simp [hsent], rfl, by simp [asyncWrite, hpopped], by simp [asyncWrite, hwrites, hpopped], Nat.zero_le _,
      by simp [asyncWrite, hall, Part.before], nofun⟩

/-- The completion of a header write: a body that is not empty is written next, otherwise the message is out. -/
theorem Busy.header_complete (h : Busy sent c pre m rest .header (toBytes m.header).length) :
    ∃ c', ({ c with writes := c.writes.eraseIdx 0 } : Connection T).wrote .header = .ok c' ∧ c'.isOpen = c.isOpen ∧
      c'.written = c.written ∧ Fresh sent c' := by
  have hwritten : c.written = Message.encodeAll pre ++ toBytes m.header := by
    simpa only [Part.before, Part.bytes, List.nil_append, List.take_length] using h.written
  have hnone : c.writes.eraseIdx 0 = [] := by simp [h.writes]
  unfold wrote headerWritten
  simp only [h.queue, TsQueue.front, ok_bind]
  by_cases hbody : m.body = []
  · rw [if_neg (by simp [hbody])]
    refine next_message h.sent_eq rfl h.popped hnone ?_
    simp [hwritten, Message.encode, hbody]
  · rw [if_pos (List.length_pos_of_ne_nil hbody)]
    refine ⟨({ c with qMessagesOut := m :: rest, writes := c.writes.eraseIdx 0 } : Connection T).asyncWrite .body, rfl, rfl,
      rfl, .inr ⟨pre, m, rest, .body, ?_⟩⟩
    exact ⟨h.sent_eq, rfl, h.popped, by simp [asyncWrite, hnone, h.popped], Nat.zero_le _,
      by simp [asyncWrite, hwritten, Part.before], fun _ => hbody⟩

/-- The completion of a body write: the message is out. -/
theorem Busy.body_complete (h : Busy sent c pre m rest .body m.body.length) :
    ∃ c', ({ c with writes := c.writes.eraseIdx 0 } : Connection T).wrote .body = .ok c' ∧ c'.isOpen = c.isOpen ∧
      c'.written = c.written ∧ Fresh sent c' := by
  have hwritten : c.written = Message.encodeAll pre ++ m.encode := by
    simpa [Part.before, Part.bytes, Message.encode] using h.written
  unfold wrote bodyWritten
  exact next_message h.sent_eq h.queue h.popped (by simp [h.writes]) hwritten

/-- A write that completes without an error leaves the writing half idle or with one write outstanding. -/
theorem Busy.complete {part : Part} {done : Nat} (h : Busy sent c pre m rest part done)
    (hdone : (part.bytes m).length - done = 0) :
    ∃ c', ({ c with writes := c.writes.eraseIdx 0 } : Connection T).wrote part = .ok c' ∧ c'.isOpen = c.isOpen ∧
      c'.written = c.written ∧ Fresh sent c' := by
  have hle := h.done_le
  obtain rfl : done = (part.bytes m).length := by omega
  cases part with
  | header => exact h.header_complete
  | body => exact h.body_complete

end Complete

/-! ## One event, and a run of them -/

/-- The one outstanding write is the first of the list. -/
theorem Busy.getElem?_writes {sent pre rest : List (Message T)} {c : Connection T} {m : Message T} {part : Part}
    {done i : Nat} {w : Write} (h : Busy sent c pre m rest part done) (hw : c.writes[i]? = some w) :
    i = 0 ∧ w = { part := part, msg := pre.length, done := done } := by
  rw [h.writes] at hw
  cases i with
  | zero => exact ⟨rfl, by simpa using hw.symm⟩
  | succ i => simp at hw

/-- One event of a writing half that runs: it returns, and the half is running or, after a failed write, stopped. -/
theorem Running.next {sent : List (Message T)} {c : Connection T} (h : Running sent c) {e : WriteEvent T}
    (he : c.writeEnabled e) :
    ∃ c', c.writeNext e = .ok c' ∧
      ((failures [e] = 0 ∧ Running (sent ++ sends [e]) c') ∨ (failures [e] = 1 ∧ Failed (sent ++ sends [e]) c')) := by
  cases e with
  | send msg =>
    rcases h with hidle | ⟨pre, m, rest, part, done, hbusy⟩
    · obtain ⟨c', hc', _, hbusy⟩ := hidle.send msg
      exact ⟨c', hc', .inl ⟨rfl, .inr ⟨_, _, _, _, _, hbusy⟩⟩⟩
    · obtain ⟨c', hc', _, hbusy⟩ := hbusy.send msg
      exact ⟨c', hc', .inl ⟨rfl, .inr ⟨_, _, _, _, _, hbusy⟩⟩⟩
  | transfer i n =>
    obtain ⟨_, w, hw, hleft⟩ := he
    rcases h with hidle | ⟨pre, m, rest, part, done, hbusy⟩
    · simp [hidle.writes] at hw
    · obtain ⟨rfl, rfl⟩ := hbusy.getElem?_writes hw
      simp only [Left, hbusy.buffer] at hleft
      have hnext : c.writeNext (.transfer 0 n) = .ok { c with
          written := c.written ++ ((part.bytes m).drop done).take n
          writes := c.writes.set 0 { part := part, msg := pre.length, done := done + n } } := by
        simp only [writeNext, elemAt_eq_ok.mpr hw, hbusy.buffer, ok_bind, pure_eq_ok]
      refine ⟨_, hnext, .inl ⟨rfl, .inr ⟨pre, m, rest, part, done + n, ?_⟩⟩⟩
      simpa [sends] using hbusy.transfer hleft.2
  | complete i =>
    obtain ⟨w, hw, hleft⟩ := he
    rcases h with hidle | ⟨pre, m, rest, part, done, hbusy⟩
    · simp [hidle.writes] at hw
    · obtain ⟨rfl, rfl⟩ := hbusy.getElem?_writes hw
      simp only [Left, hbusy.buffer] at hleft
      obtain ⟨c', hc', _, _, hfresh⟩ := hbusy.complete hleft.2
      refine ⟨c', ?_, .inl ⟨rfl, by simpa [sends] using hfresh.running⟩⟩
      simp only [writeNext, elemAt_eq_ok.mpr hw, ok_bind]
      exact hc'
  | fail i =>
    have hi : i < c.writes.length := he
    rcases h with hidle | ⟨pre, m, rest, part, done, hbusy⟩
    · simp [hidle.writes] at hi
    · obtain rfl : i = 0 := by simpa [hbusy.writes] using hi
      exact ⟨_, rfl, .inr ⟨rfl, pre, m, rest, by simpa [sends] using hbusy.fail⟩⟩
  | close =>
    refine ⟨c.close, rfl, .inl ⟨rfl, ?_⟩⟩
    have hsent : sent ++ sends [.close] = sent := by simp [sends]
    rw [hsent]
    rcases h with hidle | ⟨pre, m, rest, part, done, hbusy⟩
    · exact .inl ⟨hidle.queue, hidle.writes, hidle.popped, hidle.written⟩
    · exact .inr ⟨pre, m, rest, part, done, hbusy.sent_eq, hbusy.queue, hbusy.popped, hbusy.writes, hbusy.done_le,
        hbusy.written, hbusy.body⟩

/-- One event of a stopped writing half: it returns, starts no write, and the half stays stopped. -/
theorem Failed.next {sent : List (Message T)} {c : Connection T} (h : Failed sent c) {e : WriteEvent T}
    (he : c.writeEnabled e) :
    ∃ c', c.writeNext e = .ok c' ∧ c'.started = c.started ∧ Failed (sent ++ sends [e]) c' := by
  obtain ⟨pre, m, rest, hstop⟩ := h
  have hnone : ∀ i : Nat, c.writes[i]? = none := by simp [hstop.writes]
  cases e with
  | send msg =>
    obtain ⟨c', hc', hstarted, hstop'⟩ := hstop.send msg
    exact ⟨c', hc', hstarted, _, _, _, hstop'⟩
  | transfer i n =>
    obtain ⟨_, w, hw, _⟩ := he
    rw [hnone] at hw
    cases hw
  | complete i =>
    obtain ⟨w, hw, _⟩ := he
    rw [hnone] at hw
    cases hw
  | fail i =>
    have hi : i < c.writes.length := he
    simp [hstop.writes] at hi
  | close =>
    have hsent : sent ++ sends [.close] = sent := by simp [sends]
    rw [hsent]
    exact ⟨c.close, rfl, rfl, pre, m, rest, hstop.sent_eq, hstop.queue, hstop.popped, hstop.writes, hstop.written⟩

/-- Where a writing half is after some events: running while no write has failed, stopped afterwards. -/
def Placed (events : List (WriteEvent T)) (c : Connection T) : Prop :=
  (failures events = 0 ∧ Running (sends events) c) ∨ (failures events ≠ 0 ∧ Failed (sends events) c)

/-- The step of the induction over a run. -/
theorem Placed.next {events : List (WriteEvent T)} {c : Connection T} (h : Placed events c) {e : WriteEvent T}
    (he : c.writeEnabled e) : ∃ c', c.writeNext e = .ok c' ∧ Placed (events ++ [e]) c' := by
  unfold Placed
  rw [sends_append, failures_append]
  rcases h with ⟨hok, hrun⟩ | ⟨hfail, hstop⟩
  · obtain ⟨c', hc', hnext⟩ := hrun.next he
    refine ⟨c', hc', ?_⟩
    rcases hnext with ⟨hzero, hrun'⟩ | ⟨hone, hstop'⟩
    · exact .inl ⟨by omega, hrun'⟩
    · exact .inr ⟨by omega, hstop'⟩
  · obtain ⟨c', hc', _, hstop'⟩ := hstop.next he
    exact ⟨c', hc', .inr ⟨by omega, hstop'⟩⟩

/-- The run lemma: after any events a new connection is in its place, and no event faults. -/
theorem placed_of_run {start c : Connection T} {events : List (WriteEvent T)} (h0 : Idle [] start)
    (h : Run writer start events c) : Placed events c ∧ Safe writer c :=
  h.safe Placed (.inl ⟨rfl, .inl h0⟩) (fun _ _ _ hP he => hP.next he)

/-- No write is started after a failed one. -/
theorem Failed.run {sent : List (Message T)} {c c' : Connection T} {more : List (WriteEvent T)} (h : Failed sent c)
    (hrun : Run writer c more c') : c'.started = c.started ∧ Failed (sent ++ sends more) c' := by
  refine hrun.invariant (fun as u => u.started = c.started ∧ Failed (sent ++ sends as) u) ?_ ?_
  · exact ⟨rfl, by simpa [sends] using h⟩
  · rintro as t e u ⟨hstarted, hfail⟩ ⟨hen, hu⟩
    obtain ⟨u', hu', hsame, hfail'⟩ := hfail.next hen
    have : Except.ok u = (Except.ok u' : Comp (Connection T)) := hu.symm.trans hu'
    cases this
    rw [sends_append, ← List.append_assoc]
    exact ⟨hsame.trans hstarted, hfail'⟩

/-- An event that completes no write leaves the message a write covers at the front. -/
theorem Busy.kept {sent pre rest : List (Message T)} {c c' : Connection T} {m : Message T} {part : Part} {done : Nat}
    (h : Busy sent c pre m rest part done) {e : WriteEvent T} (hstep : writer.Step c e c')
    (he : ∀ i, e ≠ .complete i ∧ e ≠ .fail i) :
    c'.popped = c.popped ∧ c'.qMessagesOut.head? = c.qMessagesOut.head? := by
  obtain ⟨hen, hnext⟩ := hstep
  cases e with
  | send msg =>
    obtain ⟨c₁, hc₁, _, hbusy⟩ := h.send msg
    have : Except.ok c' = (Except.ok c₁ : Comp (Connection T)) := hnext.symm.trans hc₁
    cases this
    rw [hbusy.popped, h.popped, hbusy.queue, h.queue]
    exact ⟨rfl, rfl⟩
  | transfer i n =>
    obtain ⟨_, w, hw, _⟩ := hen
    obtain ⟨rfl, rfl⟩ := h.getElem?_writes hw
    simp only [writer, writeNext, elemAt_eq_ok.mpr hw, h.buffer, ok_bind, pure_eq_ok, Except.ok.injEq] at hnext
    subst hnext
    exact ⟨rfl, rfl⟩
  | complete i => exact absurd rfl (he i).1
  | fail i => exact absurd rfl (he i).2
  | close =>
    simp only [writer, writeNext, Except.ok.injEq] at hnext
    subst hnext
    exact ⟨rfl, rfl⟩

/-! ## Writing everything out -/

/-- The rest of the outstanding write goes out and the write completes. -/
theorem Busy.finish {sent pre rest : List (Message T)} {c : Connection T} {m : Message T} {part : Part}
    (h : Busy sent c pre m rest part 0) (hopen : c.isOpen = true) :
    ∃ c', Run writer c [.transfer 0 (part.bytes m).length, .complete 0] c' ∧ c'.isOpen = true ∧ Fresh sent c' ∧
      c'.written = c.written ++ part.bytes m := by
  have hw : c.writes[0]? = some { part := part, msg := pre.length, done := 0 } := by simp [h.writes]
  have hbusy := h.transfer (Nat.le_refl _)
  rw [Nat.sub_zero, Nat.zero_add, List.drop_zero, List.take_length] at hbusy
  have hleft : c.Left { part := part, msg := pre.length, done := 0 } ((part.bytes m).length ≤ ·) := by
    simp [Left, h.buffer]
  have hnext : c.writeNext (.transfer 0 (part.bytes m).length) = .ok { c with
      written := c.written ++ part.bytes m
      writes := c.writes.set 0 { part := part, msg := pre.length, done := (part.bytes m).length } } := by
    simp only [writeNext, elemAt_eq_ok.mpr hw, h.buffer, ok_bind, pure_eq_ok, List.drop_zero, List.take_length,
      Nat.zero_add]
  generalize hc₁ : ({ c with
      written := c.written ++ part.bytes m
      writes := c.writes.set 0 { part := part, msg := pre.length, done := (part.bytes m).length } } : Connection T) = c₁
    at hbusy hnext
  obtain ⟨c', hc', hopen', hwritten', hfresh⟩ := hbusy.complete (Nat.sub_self _)
  have hw₁ : c₁.writes[0]? = some { part := part, msg := pre.length, done := (part.bytes m).length } := by
    simp [hbusy.writes]
  have hleft₁ : c₁.Left { part := part, msg := pre.length, done := (part.bytes m).length } (· = 0) := by
    simp [Left, hbusy.buffer]
  have hcomplete : c₁.writeNext (.complete 0) = .ok c' := by
    simp only [writeNext, elemAt_eq_ok.mpr hw₁, ok_bind]
    exact hc'
  refine ⟨c', .cons ⟨⟨hopen, _, hw, hleft⟩, hnext⟩ (.single ⟨⟨_, hw₁, hleft₁⟩, hcomplete⟩), ?_, hfresh, ?_⟩
  · rw [hopen', ← hc₁]
    exact hopen
  · rw [hwritten', ← hc₁]

/-- From any point between two handlers everything in the queue can go out. -/
theorem Fresh.drain {sent : List (Message T)} {c : Connection T} (h : Fresh sent c) (hopen : c.isOpen = true) :
    ∃ events c', Run writer c events c' ∧ sends events = [] ∧ Idle sent c' := by
  -- every write that completes leaves fewer bytes to be written
  induction hn : (Message.encodeAll sent).length - c.written.length using Nat.strongRecOn generalizing c with
  | ind n ih =>
    rcases h with hidle | ⟨pre, m, rest, part, hbusy⟩
    · exact ⟨[], c, .nil, rfl, hidle⟩
    · obtain ⟨c₁, hrun, hopen₁, hfresh, hwritten⟩ := hbusy.finish hopen
      have hpos : 0 < (part.bytes m).length := by
        cases part with
        | header => simpa [Part.bytes] using StandardLayout.sizeof_pos
        | body => exact List.length_pos_of_ne_nil (hbusy.body rfl)
      have hle : c.written.length + (part.bytes m).length ≤ (Message.encodeAll sent).length := by
        have hbefore : part.before m ++ part.bytes m <+: m.encode := part.before_bytes_prefix m
        have hlen := hbefore.length_le
        rw [hbusy.written, hbusy.sent_eq]
        simp only [Message.encodeAll_append, Message.encodeAll_cons, List.length_append, List.take_zero,
          List.length_nil] at hlen ⊢
        omega
      obtain ⟨events, c', hrun', hsends, hidle⟩ := ih _ (by rw [hwritten, List.length_append]; omega) hfresh hopen₁ rfl
      exact ⟨_, c', hrun.append hrun', by rw [sends_append, hsends]; rfl, hidle⟩

/-- Messages are sent one after the other, and all of them go out. -/
theorem Fresh.sendAll {sent : List (Message T)} {c : Connection T} (h : Fresh sent c) (hopen : c.isOpen = true)
    (msgs : List (Message T)) : ∃ events c', Run writer c events c' ∧ sends events = msgs ∧ Idle (sent ++ msgs) c' := by
  induction msgs generalizing sent c with
  | nil =>
    obtain ⟨events, c', hrun, hsends, hidle⟩ := h.drain hopen
    exact ⟨events, c', hrun, hsends, by simpa using hidle⟩
  | cons msg msgs ih =>
    have hsend : ∃ c₁, c.send msg = .ok c₁ ∧ c₁.isOpen = c.isOpen ∧ Fresh (sent ++ [msg]) c₁ := by
      rcases h with hidle | ⟨pre, m, rest, part, hbusy⟩
      · obtain ⟨c₁, hc₁, hopen₁, hbusy⟩ := hidle.send msg
        exact ⟨c₁, hc₁, hopen₁, .inr ⟨_, _, _, _, hbusy⟩⟩
      · obtain ⟨c₁, hc₁, hopen₁, hbusy⟩ := hbusy.send msg
        exact ⟨c₁, hc₁, hopen₁, .inr ⟨_, _, _, _, hbusy⟩⟩
    obtain ⟨c₁, hc₁, hopen₁, hfresh⟩ := hsend
    obtain ⟨events, c', hrun, hsends, hidle⟩ := ih hfresh (hopen₁.trans hopen)
    refine ⟨.send msg :: events, c', .cons ⟨trivial, hc₁⟩ hrun, ?_, by simpa using hidle⟩
    rw [← List.singleton_append, sends_append, hsends]
    rfl

end Connection

end Netzwerk
