import BackupEngine.Lemmas.ReadLoop
import BackupEngine.Lemmas.WriteLoop

/-!
# From one end of a connection to the other

The bytes one connection writes, read by its peer. `ReadHeader` does not clear the body of the message it reads into, so a
message without a body arrives with the body of the last message that had one.
-/

namespace Netzwerk

open Cpp Transition Connection

section Delivers

variable {T : Type} [Inhabited T] [StandardLayout (MessageHeader T)]

/-- Whatever one connection, new and given exactly `msgs`, has written when its queue is empty, the peer reads it to the end,
and has then added exactly `msgs` to the queue of incoming messages. -/
def Delivers (peer : Connection T) (queued : List (OwnedMessage T)) (msgs : List (Message T)) : Prop :=
  ∀ (start c : Connection T) (events : List (WriteEvent T)), Idle [] start → Run writer start events c →
    sends events = msgs → c.qMessagesOut = [] →
      (∃ reads t, Run Inbox.reader ⟨peer.readHeader, c.written, queued⟩ reads t ∧ Inbox.reader.Quiescent t) ∧
      ∀ reads t, Run Inbox.reader ⟨peer.readHeader, c.written, queued⟩ reads t → Inbox.reader.Quiescent t →
        t.unread = [] ∧ t.qMessagesIn = queued ++ msgs.map fun m => { remote := peer.remote, msg := m }

omit [Inhabited T] in
/-- A connection whose queue is empty has written all it was given. -/
theorem written_of_queue_nil {start c : Connection T} {events : List (WriteEvent T)} (h0 : Idle [] start)
    (h : Run writer start events c) (hq : c.qMessagesOut = []) : c.written = Message.encodeAll (sends events) := by
  rcases (placed_of_run h0 h).1 with ⟨_, hidle | ⟨_, _, _, _, _, hbusy⟩⟩ | ⟨_, _, _, _, hstop⟩
  · exact hidle.written
  · rw [hbusy.queue] at hq
    cases hq
  · rw [hstop.queue] at hq
    cases hq

/-- What the peer hands on, whatever it was sent: the messages as `received` makes them. -/
theorem peer_reads (peer : Connection T) (hpeer : peer.msgTemporaryIn = default) (queued : List (OwnedMessage T))
    (msgs : List (Message T)) (hsized : ∀ m ∈ msgs, m.Sized) :
    ∃ reads t, Run Inbox.reader ⟨peer.readHeader, Message.encodeAll msgs, queued⟩ reads t ∧ Inbox.reader.Quiescent t ∧
      t.unread = [] ∧
      t.qMessagesIn = queued ++ (receivedAll default msgs).map fun m => { remote := peer.remote, msg := m } := by
  have hstart : peer.readHeader = peer.waiting default := by rw [readHeader, waiting, ← hpeer]
  obtain ⟨reads, tmp, hread⟩ := Inbox.read_all peer msgs hsized default queued
  rw [hstart]
  exact ⟨reads, _, hread, Inbox.quiescent_waiting peer tmp _, rfl, rfl⟩

/-- For every list of messages with their sizes in their headers: the peer hands on exactly these messages if and only if no
message without a body comes after one with a body. -/
theorem delivers_iff (peer : Connection T) (queued : List (OwnedMessage T)) (msgs : List (Message T))
    (hpeer : peer.msgTemporaryIn = default) (hsized : ∀ m ∈ msgs, m.Sized) :
    Delivers peer queued msgs ↔ msgs.Pairwise fun a b => b.body = [] → a.body = [] := by
  have hclean : (default : Message T).body = [] := rfl
  have hexact : receivedAll default msgs = msgs ↔ msgs.Pairwise fun a b => b.body = [] → a.body = [] := by
    rw [receivedAll_eq_iff, List.pairwise_cons]
    simp [hclean]
  obtain ⟨reads, t, hread, hquiet, hnone, hqueue⟩ := peer_reads peer hpeer queued msgs hsized
  constructor
  · intro hdel
    have hidle : Idle [] ({ self := 0, msgTemporaryIn := default } : Connection T) := ⟨rfl, rfl, rfl, rfl⟩
    obtain ⟨events, c, hrun, hsends, hdone⟩ := Fresh.sendAll (.inl hidle) rfl msgs
    have hbytes := written_of_queue_nil hidle hrun hdone.queue
    rw [hsends] at hbytes
    obtain ⟨_, hall⟩ := hdel _ c events hidle hrun hsends hdone.queue
    have hgot := (hall reads t (hbytes ▸ hread) hquiet).2
    rw [hqueue, List.append_cancel_left_eq] at hgot
    have hinj : Function.Injective fun m : Message T => ({ remote := peer.remote, msg := m } : OwnedMessage T) :=
      fun a b h => congrArg OwnedMessage.msg h
    exact hexact.mp (List.map_injective_iff.mpr hinj hgot)
  · intro hpair start c events hidle hrun hsends hq
    have hbytes := written_of_queue_nil hidle hrun hq
    rw [hsends] at hbytes
    rw [hbytes]
    refine ⟨⟨reads, t, hread, hquiet⟩, fun reads' t' hread' hquiet' => ?_⟩
    obtain rfl := hread.quiescent_unique hquiet hread' hquiet'
    exact ⟨hnone, by rw [hqueue, hexact.mpr hpair]⟩

end Delivers

/-- A server's connection before its first message. -/
def newPeer : Connection UInt32 := { self := 1, msgTemporaryIn := default }

/-- A message with a body, and one without after it. -/
def bodyThenPing : List (Message UInt32) := [⟨⟨2, 2⟩, [10, 20]⟩, ⟨⟨1, 0⟩, []⟩]

/-- A message without a body before one with a body. -/
theorem delivers_iff_ping_first : Delivers newPeer [] [⟨⟨1, 0⟩, []⟩, ⟨⟨2, 2⟩, [10, 20]⟩] :=
  (delivers_iff newPeer [] [⟨⟨1, 0⟩, []⟩, ⟨⟨2, 2⟩, [10, 20]⟩] rfl (by decide)).mpr (by decide)

/-- A message without a body after one with a body: it arrives with the body of the other, and a size of 0 in its header. -/
theorem stale_body :
    (∀ m ∈ bodyThenPing, m.Sized) ∧ ¬Delivers newPeer [] bodyThenPing ∧
      ∃ reads t, Run Inbox.reader ⟨newPeer.readHeader, Message.encodeAll bodyThenPing, []⟩ reads t ∧
        Inbox.reader.Quiescent t ∧ t.qMessagesIn = [⟨some 1, ⟨⟨2, 2⟩, [10, 20]⟩⟩, ⟨some 1, ⟨⟨1, 0⟩, [10, 20]⟩⟩] := by
  have hsized : ∀ m ∈ bodyThenPing, m.Sized := by decide
  obtain ⟨reads, t, hread, hquiet, _, hqueue⟩ := peer_reads newPeer rfl [] bodyThenPing hsized
  refine ⟨hsized, ?_, reads, t, hread, hquiet, hqueue⟩
  intro hdel
  have hidle : Idle [] newPeer := ⟨rfl, rfl, rfl, rfl⟩
  obtain ⟨events, c, hrun, hsends, hdone⟩ := Fresh.sendAll (.inl hidle) rfl bodyThenPing
  have hbytes := written_of_queue_nil hidle hrun hdone.queue
  rw [hsends] at hbytes
  obtain ⟨_, hall⟩ := hdel _ c events hidle hrun hsends hdone.queue
  have hgot := (hall reads t (hbytes ▸ hread) hquiet).2
  rw [hqueue] at hgot
  revert hgot
  decide

end Netzwerk
