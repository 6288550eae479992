import BackupEngine.Lemmas.Channel
import BackupEngine.Theorems.Wire

/-!
# A connection is a queue

Whatever the two ends of a connection do and however the bytes between them arrive, what is seen of them is what is seen of a
queue that a message enters when its `Send` handler runs and leaves when it is handed to `OnMessage`. Nothing is lost, doubled
or overtaken; a message without a body comes out with the body of the last one that had one.
-/

namespace Netzwerk

open Cpp Transition Connection

variable {T : Type} [StandardLayout (MessageHeader T)]

namespace Channel

/-- The connection as a queue of messages: what comes out is what the peer made of what went in. -/
def link (T : Type) : Machine Empty (Fifo.State (Message T) (Message T)) (Fifo.Event (Message T) (Message T)) :=
  Fifo.machine received received

/-- A read is completed: what the queue holds is the same. -/
theorem Holds.read {peer : Connection T} {tmp : Message T} {s : Channel T} {q : Fifo.State (Message T) (Message T)}
    (h : Holds peer tmp s q) {t : Inbox T} (hen : s.receiver.readEnabled) (hnext : s.receiver.readNext = .ok t) :
    Holds peer tmp { s with receiver := t } q := by
  obtain ⟨done, rest, used, hjoined, hmem, hqueue⟩ := h
  rcases hjoined.read hen hnext with ⟨used', hjoined', hsame⟩ | ⟨m, later, rfl, hjoined', hsame⟩
  · exact ⟨done, rest, used', hjoined', hmem, by rw [hqueue, hsame]⟩
  · refine ⟨done ++ [m], later, [], hjoined', ?_, ?_⟩
    · rw [List.append_assoc]
      exact hmem
    · rw [hqueue, hsame, Fifo.made, List.foldl_append, List.map_append, List.append_assoc]
      rfl

/-- The two ends, with messages that have their sizes in their headers, simulate the queue. -/
theorem simulates (peer : Connection T) (tmp : Message T) :
    Simulates (machine.when SendsSized) see (link T) Fifo.look (Holds peer tmp) := by
  rintro s e s' q hholds ⟨⟨hen, hsized⟩, hnext⟩
  cases e with
  | write e =>
    obtain ⟨c, hc, hs⟩ := bind_eq_ok.mp hnext
    obtain rfl := Except.ok.inj hs
    obtain ⟨done, rest, used, hjoined, hmem, hqueue⟩ := hholds
    have hone : ∀ m ∈ sends [e], m.Sized := by
      intro m hm
      obtain ⟨e', he', hsent⟩ := List.mem_filterMap.mp hm
      obtain rfl := List.mem_singleton.mp he'
      cases e' with
      | send msg =>
        cases hsent
        exact hsized m rfl
      | _ => cases hsent
    have hjoined' := hjoined.write ⟨hen, hc⟩ hone
    cases e with
    | send msg =>
      refine ⟨⟨received q.mem msg, q.queue ++ [received q.mem msg]⟩, .single ⟨trivial, rfl⟩, done, _, used, hjoined', ?_, ?_⟩
      · rw [← List.append_assoc, List.foldl_append, ← hmem]
        rfl
      · rw [hqueue, Fifo.made_append, List.append_assoc, ← List.foldl_append, ← hmem]
        rfl
    | _ =>
      refine ⟨q, .nil, done, _, used, hjoined', ?_, ?_⟩
      · rw [show sends _ = [] from rfl, List.append_nil]
        exact hmem
      · rw [show sends _ = [] from rfl, List.append_nil]
        exact hqueue
  | arrive n =>
    obtain rfl := Except.ok.inj hnext
    obtain ⟨done, rest, used, hjoined, hmem, hqueue⟩ := hholds
    exact ⟨q, .nil, done, rest, used, hjoined.arrive hen, hmem, hqueue⟩
  | read =>
    obtain ⟨t, ht, hs⟩ := bind_eq_ok.mp hnext
    obtain rfl := Except.ok.inj hs
    exact ⟨q, .nil, hholds.read hen ht⟩
  | update =>
    obtain ⟨done, rest, used, hjoined, hmem, hqueue⟩ := hholds
    obtain ⟨⟨owned, queued⟩, hpop, hs⟩ := bind_eq_ok.mp hnext
    obtain rfl := Except.ok.inj hs
    have hq := TsQueue.popFront_eq_ok.mp hpop
    rw [hq] at hqueue
    refine ⟨⟨q.mem, q.queue.tail⟩, ?_, done, rest, used, ?_, hmem, ?_⟩
    · have hsee : see s .update = [.leave owned.msg] := by simp [see, hq]
      have hhead : q.queue.head? = some owned.msg := by
        rw [hqueue]
        rfl
      rw [hsee]
      exact .single ⟨hhead, rfl⟩
    · exact hjoined.of_queue queued
    · rw [hqueue]
      rfl

omit [StandardLayout (MessageHeader T)] in
/-- What the queue makes of a sequence of messages is what the peer hands on when it reads them. -/
theorem made_received (tmp : Message T) (msgs : List (Message T)) :
    Fifo.made received received tmp msgs = receivedAll tmp msgs := by
  induction msgs generalizing tmp with
  | nil => rfl
  | cons m ms ih => exact congrArg _ (ih (received tmp m))

/-- The events that bring messages further on their way. -/
def Advances : ChannelEvent T → Prop
  | .write (.transfer _ n) => 0 < n
  | .write (.complete _) => True
  | .arrive n => 0 < n
  | .read => True
  | .update => True
  | _ => False

/-- As long as a message is on its way and the socket is open, something can bring it further. -/
theorem Joined.goesOn {peer : Connection T} {tmp : Message T} {s : Channel T} {done rest : List (Message T)}
    {used : List UInt8} (h : Joined peer tmp s done rest used) (hopen : s.sender.isOpen = true)
    (hleft : s.receiver.qMessagesIn ≠ [] ∨ rest ≠ []) :
    ∃ e, Advances e ∧ s.enabled e := by
  by_cases hqueue : s.receiver.qMessagesIn = []
  swap
  · exact ⟨.update, trivial, hqueue⟩
  by_cases harrived : s.arrived = s.sender.written.length
  swap
  · have hle := h.arrived_le
    refine ⟨.arrive 1, Nat.one_pos, ?_⟩
    change s.arrived + 1 ≤ s.sender.written.length
    omega
  rcases h.sender with (hidle | ⟨pre, m, later, part, n, hbusy⟩) | ⟨hclosed, _⟩
  · -- everything is written and has arrived, so that the bytes of a whole message are there to be read
    have hall := h.arrived
    rw [harrived, List.take_length, hidle.written, Message.encodeAll_append, List.append_cancel_left_eq] at hall
    refine ⟨.read, trivial, ?_⟩
    cases rest with
    | nil => exact absurd rfl (hleft.resolve_left (absurd hqueue))
    | cons m later =>
      rw [Message.encodeAll_cons] at hall
      exact h.reads.enabled hall
  · have hw : s.sender.writes[0]? = some { part := part, msg := pre.length, done := n } := by simp [hbusy.writes]
    have hle := hbusy.done_le
    by_cases hdone : n = (part.bytes m).length
    · refine ⟨.write (.complete 0), trivial, _, hw, ?_⟩
      simp only [Left, hbusy.buffer]
      omega
    · refine ⟨.write (.transfer 0 ((part.bytes m).length - n)), Nat.sub_pos_of_lt (by omega), hopen, _, hw, ?_⟩
      simp only [Left, hbusy.buffer]
      omega
  · rw [hclosed] at hopen
    cases hopen

end Channel

/-- What holds of the two ends of a connection after whatever is seen of them. -/
structure ChannelLaw (tmp : Message T) (ws : List (Fifo.Event (Message T) (Message T))) (s : Channel T) : Prop where
  /-- It is seen of the queue. -/
  refines : ∃ q, Seen (Channel.link T) Fifo.look ⟨tmp, []⟩ ws q
  /-- What was handed to `OnMessage` is a first part of what the peer makes of the messages sent. -/
  inOrder : Fifo.left ws <+: receivedAll tmp (Fifo.entered ws)
  /-- It is a first part of the messages themselves if none without a body was sent after one with a body. -/
  exact : tmp.body = [] → (Fifo.entered ws).Pairwise (fun a b => b.body = [] → a.body = []) →
    Fifo.left ws <+: Fifo.entered ws
  /-- While the socket is open, all of it was handed on, or something can bring a message further. -/
  complete : s.sender.isOpen = true → Fifo.left ws = receivedAll tmp (Fifo.entered ws) ∨
    ∃ e, Channel.Advances e ∧ s.enabled e

/-- For every interleaving of the two ends of a new connection, with messages that have their sizes in their headers. -/
theorem channel_law {sender peer : Connection T} (hsender : Idle [] sender)
    {ws : List (Fifo.Event (Message T) (Message T))} {s : Channel T}
    (h : Seen (Channel.machine.when Channel.SendsSized) Channel.see (Channel.start sender peer) ws s) :
    ChannelLaw peer.msgTemporaryIn ws s := by
  obtain ⟨q, hseen, done, rest, used, hjoined, -, hqueue⟩ :=
    (Channel.simulates peer peer.msgTemporaryIn).seen (Channel.holds_start hsender) h
  obtain ⟨hall, -⟩ := Fifo.left_append_queue hseen
  rw [Channel.made_received] at hall
  have hprefix : Fifo.left ws <+: receivedAll peer.msgTemporaryIn (Fifo.entered ws) := ⟨q.queue, hall⟩
  refine ⟨⟨q, hseen⟩, hprefix, fun htmp hbodies => ?_, fun hopen => ?_⟩
  · rwa [receivedAll_eq_iff.mpr (List.pairwise_cons.mpr ⟨fun _ _ _ => htmp, hbodies⟩)] at hprefix
  · by_cases hleft : s.receiver.qMessagesIn ≠ [] ∨ rest ≠ []
    · exact .inr (hjoined.goesOn hopen hleft)
    · push Not at hleft
      rw [hleft.1, hleft.2] at hqueue
      rw [hqueue] at hall
      exact .inl (by simpa [Fifo.made] using hall)

namespace Channel

variable (s : Channel T) (e : ChannelEvent T)

instance : Decidable (s.enabled e) :=
  match e with
  | .write e => inferInstanceAs (Decidable (s.sender.writeEnabled e))
  | .arrive n => inferInstanceAs (Decidable (s.arrived + n ≤ s.sender.written.length))
  | .read => inferInstanceAs (Decidable s.receiver.readEnabled)
  | .update => decidable_of_iff (s.receiver.qMessagesIn.isEmpty = false) (by simp [enabled])

instance : Decidable (s.SendsSized e) :=
  match e with
  | .write (.send msg) => decidable_of_iff msg.Sized ⟨fun h _ heq => by cases heq; exact h, fun h => h msg rfl⟩
  | .write (.transfer _ _) | .write (.complete _) | .write (.fail _) | .write .close | .arrive _ | .read | .update => isTrue nofun

instance : Decidable ((machine.when SendsSized).enabled s e) :=
  inferInstanceAs (Decidable (s.enabled e ∧ s.SendsSized e))

end Channel

/-- Two messages go through, of which the second has a body and is sent before the first has arrived. -/
theorem channel_law_two_messages : ∃ s : Channel UInt32,
    ChannelLaw default [.enter ⟨⟨7, 0⟩, []⟩, .enter ⟨⟨8, 2⟩, [10, 20]⟩, .leave ⟨⟨7, 0⟩, []⟩, .leave ⟨⟨8, 2⟩, [10, 20]⟩] s := by
  have hidle : Idle [] ({ self := 0, msgTemporaryIn := default } : Connection UInt32) := ⟨rfl, rfl, rfl, rfl⟩
  obtain ⟨s, hwatch⟩ : ∃ s, watch (Channel.machine.when Channel.SendsSized) Channel.see
      (Channel.start { self := 0, msgTemporaryIn := default } newPeer)
      [.write (.send ⟨⟨7, 0⟩, []⟩), .write (.transfer 0 8), .write (.send ⟨⟨8, 2⟩, [10, 20]⟩), .arrive 5, .write (.complete 0),
        .arrive 3, .read, .write (.transfer 0 8), .write (.complete 0), .update, .arrive 8, .read, .write (.transfer 0 2),
        .arrive 2, .read, .write (.complete 0), .update] =
      some ([.enter ⟨⟨7, 0⟩, []⟩, .enter ⟨⟨8, 2⟩, [10, 20]⟩, .leave ⟨⟨7, 0⟩, []⟩, .leave ⟨⟨8, 2⟩, [10, 20]⟩], s) :=
    ⟨_, rfl⟩
  exact ⟨s, channel_law hidle (Seen.of_watch hwatch)⟩

end Netzwerk
