import BackupEngine.Lemmas.ReadLoop
import BackupEngine.Lemmas.WriteLoop
import BackupEngine.Netzwerk.Channel

/-!
# What one event does to the two ends of a connection

The messages sent are split into those the peer has handed on and the others. What the peer has read of the others, the bytes
that have arrived and were not read, and the bytes still under way lead up to the bytes of the others.
-/

namespace Netzwerk

open Cpp Transition Connection

variable {T : Type} [StandardLayout (MessageHeader T)]

/-! ## The reading half in the middle of a stream -/

/-- Where the reading half is when the messages `rest` are still to be handed on: it waits for the header of the first of them,
or has read that header, the bytes `used`, and waits for the body. -/
inductive Reads (peer : Connection T) (tmp : Message T) (c : Connection T) : List UInt8 → List (Message T) → Prop
  | header {rest : List (Message T)} (conn : c = peer.waiting tmp) : Reads peer tmp c [] rest
  | body {m : Message T} {rest : List (Message T)} {body : List UInt8} (full : m.body ≠ [])
      (conn : c = { peer.waiting { header := m.header, body := body } with reads := some (.body, m.body.length) }) :
      Reads peer tmp c (toBytes m.header) (m :: rest)

/-- What one read does: the header of a message with a body is read, or a message is handed on. -/
inductive ReadStep (peer : Connection T) (tmp : Message T) (s t : Inbox T) (used : List UInt8) :
    List (Message T) → Prop
  | header {m : Message T} {rest : List (Message T)} (reads : Reads peer tmp t.conn (toBytes m.header) (m :: rest))
      (bytes : toBytes m.header ++ t.unread = used ++ s.unread) (queue : t.qMessagesIn = s.qMessagesIn) :
      ReadStep peer tmp s t used (m :: rest)
  | handed {m : Message T} {rest : List (Message T)} (reads : Reads peer (received tmp m) t.conn [] rest)
      (bytes : m.encode ++ t.unread = used ++ s.unread)
      (queue : t.qMessagesIn = s.qMessagesIn ++ [{ remote := peer.remote, msg := received tmp m }]) :
      ReadStep peer tmp s t used (m :: rest)

/-- The first bytes of messages are those of the header of the first of them, and what follows is a first part of the rest. -/
theorem eq_cons_of_prefix {rest : List (Message T)} {bytes : List UInt8} (h : bytes <+: Message.encodeAll rest)
    (hlen : sizeof (MessageHeader T) ≤ bytes.length) : ∃ m later, rest = m :: later ∧
      bytes.take (sizeof (MessageHeader T)) = toBytes m.header ∧
      bytes.drop (sizeof (MessageHeader T)) <+: m.body ++ Message.encodeAll later := by
  cases rest with
  | nil =>
    have hpos : 0 < sizeof (MessageHeader T) := StandardLayout.sizeof_pos
    have hnil : bytes = [] := List.prefix_nil.mp h
    rw [hnil, List.length_nil] at hlen
    omega
  | cons m later =>
    obtain ⟨tail, htail⟩ := h
    rw [Message.encodeAll_cons, Message.encode, List.append_assoc] at htail
    have hheader : (toBytes m.header).length = sizeof (MessageHeader T) := StandardLayout.length_toBytes _
    rw [← hheader] at hlen ⊢
    refine ⟨m, later, rfl, ?_, tail, ?_⟩
    · have htake := congrArg (List.take (toBytes m.header).length) htail
      rwa [List.take_append_of_le_length hlen, List.take_left] at htake
    · have hdrop := congrArg (List.drop (toBytes m.header).length) htail
      rwa [List.drop_append_of_le_length hlen, List.drop_left] at hdrop

/-- A read of the reading half, as long as what has arrived leads up to messages with their sizes in their headers. -/
theorem Reads.step {peer : Connection T} {tmp : Message T} {s t : Inbox T} {used : List UInt8} {rest : List (Message T)}
    (h : Reads peer tmp s.conn used rest) (hsized : ∀ m ∈ rest, m.Sized)
    (hbytes : used ++ s.unread <+: Message.encodeAll rest) (hen : s.readEnabled) (hnext : s.readNext = .ok t) :
    ReadStep peer tmp s t used rest := by
  obtain ⟨conn, unread, qMessagesIn⟩ := s
  cases h with
  | header hconn =>
    subst hconn
    have hlen : sizeof (MessageHeader T) ≤ unread.length := hen
    rw [List.nil_append] at hbytes
    obtain ⟨m, later, rfl, htake, -⟩ := eq_cons_of_prefix hbytes hlen
    have hm : m.Sized := hsized m List.mem_cons_self
    have hsplit : toBytes m.header ++ unread.drop (sizeof (MessageHeader T)) = unread := by
      rw [← htake, List.take_append_drop]
    unfold Inbox.readNext at hnext
    simp only [show (peer.waiting tmp).reads = some (.header, sizeof (MessageHeader T)) from rfl, htake] at hnext
    by_cases hbody : m.body = []
    · simp only [readDone_header_empty peer tmp m hm hbody, ok_bind, pure_eq_ok, Option.toList_some] at hnext
      cases hnext
      refine .handed (.header rfl) ?_ rfl
      rw [Message.encode, hbody, List.append_nil, hsplit, List.nil_append]
    · obtain ⟨body, hheader⟩ := readDone_header_full peer tmp m hm hbody
      simp only [hheader, ok_bind, pure_eq_ok, Option.toList_none, List.append_nil] at hnext
      cases hnext
      refine .header (.body hbody rfl) ?_ rfl
      rw [hsplit, List.nil_append]
  | @body m later body hfull hconn =>
    subst hconn
    have hlen : m.body.length ≤ unread.length := hen
    have hprefix : unread <+: m.body ++ Message.encodeAll later := by
      rw [Message.encodeAll_cons, Message.encode, List.append_assoc, List.prefix_append_right_inj] at hbytes
      exact hbytes
    have htake : unread.take m.body.length = m.body := by
      obtain ⟨tail, htail⟩ := hprefix
      have heq := congrArg (List.take m.body.length) htail
      rwa [List.take_append_of_le_length hlen, List.take_left] at heq
    unfold Inbox.readNext at hnext
    simp only [htake, readDone_body peer m body hfull tmp, ok_bind, pure_eq_ok, Option.toList_some] at hnext
    cases hnext
    refine .handed (.header rfl) ?_ rfl
    rw [Message.encode, List.append_assoc]
    refine congrArg _ ?_
    have hsplit := List.take_append_drop m.body.length unread
    rwa [htake] at hsplit

/-- Where the bytes of a whole message are there, its header or its body can be read. -/
theorem Reads.enabled {peer : Connection T} {tmp : Message T} {s : Inbox T} {used tail : List UInt8} {m : Message T}
    {later : List (Message T)} (h : Reads peer tmp s.conn used (m :: later)) (hall : used ++ s.unread = m.encode ++ tail) :
    s.readEnabled := by
  have hheader : (toBytes m.header).length = sizeof (MessageHeader T) := StandardLayout.length_toBytes _
  have hlength := congrArg List.length hall
  simp only [Message.encode, List.length_append] at hlength
  obtain ⟨conn, unread, queued⟩ := s
  cases h with
  | header hconn =>
    subst hconn
    change sizeof (MessageHeader T) ≤ unread.length
    simp only [List.length_nil] at hlength
    omega
  | body hfull hconn =>
    subst hconn
    change m.body.length ≤ unread.length
    simp only at hlength
    omega

/-! ## The writing half -/

/-- Where the writing half is: it runs, or a write has failed, which has closed the socket. -/
def Connection.Halfway (sent : List (Message T)) (c : Connection T) : Prop :=
  Running sent c ∨ c.isOpen = false ∧ Failed sent c

/-- What was written is a first part of the messages sent. -/
theorem Connection.Halfway.written_prefix {sent : List (Message T)} {c : Connection T} (h : c.Halfway sent) :
    c.written <+: Message.encodeAll sent := by
  rcases h with hrunning | ⟨_, hfailed⟩
  · exact hrunning.written_prefix
  · exact hfailed.written_prefix

/-- Nothing was written, and the socket is as open as before. -/
def Connection.SameSocket (c c' : Connection T) : Prop := c'.written = c.written ∧ c'.isOpen = c.isOpen

omit [StandardLayout (MessageHeader T)] in
theorem Connection.writeHeader_socket {c c' : Connection T} (h : c.writeHeader = .ok c') : c.SameSocket c' := by
  obtain ⟨_, _, h⟩ := bind_eq_ok.mp h
  cases h
  exact ⟨rfl, rfl⟩

omit [StandardLayout (MessageHeader T)] in
theorem Connection.bodyWritten_socket {c c' : Connection T} (h : c.bodyWritten = .ok c') : c.SameSocket c' := by
  obtain ⟨d, hd, h⟩ := bind_eq_ok.mp h
  have hpop : c.SameSocket d := by
    obtain ⟨_, _, hd⟩ := bind_eq_ok.mp hd
    cases hd
    exact ⟨rfl, rfl⟩
  split at h
  · have hheader := writeHeader_socket h
    exact ⟨hheader.1.trans hpop.1, hheader.2.trans hpop.2⟩
  · cases h
    exact hpop

omit [StandardLayout (MessageHeader T)] in
theorem Connection.wrote_socket {c c' : Connection T} {part : Part} (h : c.wrote part = .ok c') : c.SameSocket c' := by
  cases part with
  | body => exact bodyWritten_socket h
  | header =>
    obtain ⟨front, _, h⟩ := bind_eq_ok.mp (h : c.headerWritten = .ok c')
    split at h
    · obtain ⟨_, _, h⟩ := bind_eq_ok.mp h
      cases h
      exact ⟨rfl, rfl⟩
    · exact bodyWritten_socket h

/-- An event of the writing half takes back nothing that was written, and opens no socket. -/
theorem Connection.writeNext_socket {c c' : Connection T} {e : WriteEvent T} (h : c.writeNext e = .ok c') :
    c.written <+: c'.written ∧ (c.isOpen = false → c'.isOpen = false) := by
  cases e with
  | send msg =>
    rw [writeNext, send_eq] at h
    cases h
    split <;> exact ⟨List.prefix_refl _, fun hclosed => hclosed⟩
  | transfer i n =>
    obtain ⟨_, _, h⟩ := bind_eq_ok.mp h
    obtain ⟨_, _, h⟩ := bind_eq_ok.mp h
    cases h
    exact ⟨List.prefix_append _ _, fun hclosed => hclosed⟩
  | complete i =>
    obtain ⟨w, _, h⟩ := bind_eq_ok.mp h
    obtain ⟨hwritten, hopen⟩ := wrote_socket h
    exact ⟨hwritten ▸ List.prefix_refl _, fun hclosed => hopen.trans hclosed⟩
  | fail i =>
    cases h
    exact ⟨List.prefix_refl _, fun _ => rfl⟩
  | close =>
    cases h
    exact ⟨List.prefix_refl _, fun _ => rfl⟩

/-- An event of the writing half leaves it halfway through the messages sent, one more if it is a `Send`. -/
theorem Connection.Halfway.next {sent : List (Message T)} {c c' : Connection T} (h : c.Halfway sent) {e : WriteEvent T}
    (hstep : writer.Step c e c') : c'.Halfway (sent ++ sends [e]) := by
  obtain ⟨hen, hnext⟩ := hstep
  rcases h with hrun | ⟨hclosed, hstop⟩
  · obtain ⟨d, hd, ⟨_, hrun'⟩ | ⟨hone, hstop'⟩⟩ := hrun.next hen
    · obtain rfl : c' = d := Except.ok.inj (hnext.symm.trans hd)
      exact .inl hrun'
    · obtain rfl : c' = d := Except.ok.inj (hnext.symm.trans hd)
      refine .inr ⟨?_, hstop'⟩
      cases e with
      | fail i =>
        cases hnext
        rfl
      | _ => exact absurd hone.symm Nat.one_ne_zero
  · obtain ⟨d, hd, _, hstop'⟩ := hstop.next hen
    obtain rfl : c' = d := Except.ok.inj (hnext.symm.trans hd)
    exact .inr ⟨(writeNext_socket hnext).2 hclosed, hstop'⟩

/-! ## Both ends -/

namespace Channel

/-- The messages sent are `done`, which the peer has handed on, and `rest`; it has read the bytes `used` of `rest`. -/
structure Joined (peer : Connection T) (tmp : Message T) (s : Channel T) (done rest : List (Message T)) (used : List UInt8) :
    Prop where
  sender : s.sender.Halfway (done ++ rest)
  sized : ∀ m ∈ done ++ rest, m.Sized
  arrived_le : s.arrived ≤ s.sender.written.length
  arrived : Message.encodeAll done ++ (used ++ s.receiver.unread) = s.sender.written.take s.arrived
  reads : Reads peer (done.foldl received tmp) s.receiver.conn used rest

/-- What has arrived and was not handed on is a first part of the messages that were not. -/
theorem Joined.leadsUp {peer : Connection T} {tmp : Message T} {s : Channel T} {done rest : List (Message T)}
    {used : List UInt8} (h : Joined peer tmp s done rest used) : used ++ s.receiver.unread <+: Message.encodeAll rest := by
  rw [← List.prefix_append_right_inj (Message.encodeAll done), h.arrived, ← Message.encodeAll_append]
  exact (List.take_prefix _ _).trans h.sender.written_prefix

/-- The sender's half goes on, and the peer's does not. -/
theorem Joined.write {peer : Connection T} {tmp : Message T} {s : Channel T} {done rest : List (Message T)} {used : List UInt8}
    (h : Joined peer tmp s done rest used) {e : WriteEvent T} {c : Connection T} (hstep : writer.Step s.sender e c)
    (hsized : ∀ m ∈ sends [e], m.Sized) : Joined peer tmp { s with sender := c } done (rest ++ sends [e]) used where
  sender := by
    rw [← List.append_assoc]
    exact h.sender.next hstep
  sized := by
    intro m hm
    rw [← List.append_assoc] at hm
    rcases List.mem_append.mp hm with hm | hm
    · exact h.sized m hm
    · exact hsized m hm
  arrived_le := h.arrived_le.trans (writeNext_socket hstep.2).1.length_le
  arrived := by
    obtain ⟨tail, htail⟩ := (writeNext_socket hstep.2).1
    change _ = c.written.take s.arrived
    rw [h.arrived, ← htail, List.take_append_of_le_length h.arrived_le]
  reads := by
    cases h.reads with
    | header hconn => exact .header hconn
    | body hfull hconn => exact .body hfull hconn

/-- Some bytes arrive. -/
theorem Joined.arrive {peer : Connection T} {tmp : Message T} {s : Channel T} {done rest : List (Message T)}
    {used : List UInt8} (h : Joined peer tmp s done rest used) {n : Nat} (hn : s.arrived + n ≤ s.sender.written.length) :
    Joined peer tmp { s with
      arrived := s.arrived + n
      receiver := { s.receiver with unread := s.receiver.unread ++ (s.sender.written.drop s.arrived).take n } }
      done rest used where
  sender := h.sender
  sized := h.sized
  arrived_le := hn
  arrived := by
    change _ = s.sender.written.take (s.arrived + n)
    rw [List.take_add, ← h.arrived]
    simp only [List.append_assoc]
  reads := h.reads

/-- A read is completed: the peer hands on the first of the messages it has not, or nothing. -/
theorem Joined.read {peer : Connection T} {tmp : Message T} {s : Channel T} {done rest : List (Message T)}
    {used : List UInt8} (h : Joined peer tmp s done rest used) {t : Inbox T} (hen : s.receiver.readEnabled)
    (hnext : s.receiver.readNext = .ok t) :
    (∃ used', Joined peer tmp { s with receiver := t } done rest used' ∧ t.qMessagesIn = s.receiver.qMessagesIn) ∨
      ∃ m later, rest = m :: later ∧ Joined peer tmp { s with receiver := t } (done ++ [m]) later [] ∧
        t.qMessagesIn = s.receiver.qMessagesIn ++ [{ remote := peer.remote, msg := received (done.foldl received tmp) m }] := by
  have hrest : ∀ m ∈ rest, m.Sized := fun m hm => h.sized m (List.mem_append_right _ hm)
  cases h.reads.step hrest h.leadsUp hen hnext with
  | header hreads hbytes hsame =>
    refine .inl ⟨_, ⟨h.sender, h.sized, h.arrived_le, ?_, hreads⟩, hsame⟩
    rw [hbytes]
    exact h.arrived
  | @handed m later hreads hbytes hsame =>
    have hsplit : done ++ m :: later = (done ++ [m]) ++ later := by simp
    refine .inr ⟨m, later, rfl, ⟨hsplit ▸ h.sender, hsplit ▸ h.sized, h.arrived_le, ?_, ?_⟩, hsame⟩
    · rw [List.nil_append, Message.encodeAll_append, List.append_assoc, ← h.arrived, ← hbytes]
      simp
    · rw [List.foldl_append]
      exact hreads

/-- The peer's queue may change without either half. -/
theorem Joined.of_queue {peer : Connection T} {tmp : Message T} {s : Channel T} {done rest : List (Message T)}
    {used : List UInt8} (h : Joined peer tmp s done rest used) (q : List (OwnedMessage T)) :
    Joined peer tmp { s with receiver := { s.receiver with qMessagesIn := q } } done rest used :=
  ⟨h.sender, h.sized, h.arrived_le, h.arrived, by
    cases h.reads with
    | header hconn => exact .header hconn
    | body hfull hconn => exact .body hfull hconn⟩

/-- The queue between the two ends: what it holds is what the consumer has not taken and what the peer will make of the
messages it has not handed on. -/
def Holds (peer : Connection T) (tmp : Message T) (s : Channel T) (q : Fifo.State (Message T) (Message T)) : Prop :=
  ∃ done rest used, Joined peer tmp s done rest used ∧ q.mem = (done ++ rest).foldl received tmp ∧
    q.queue = s.receiver.qMessagesIn.map (·.msg) ++ Fifo.made received received (done.foldl received tmp) rest

/-- A new connection and its peer hold nothing. -/
theorem holds_start {sender peer : Connection T} (h : Idle [] sender) :
    Holds peer peer.msgTemporaryIn (start sender peer) ⟨peer.msgTemporaryIn, []⟩ := by
  refine ⟨[], [], [], ⟨.inl (.inl h), by simp, Nat.zero_le _, ?_, .header rfl⟩, rfl, rfl⟩
  simp [start]

end Channel

end Netzwerk
