import BackupEngine.Netzwerk.Network
import BackupEngine.Theorems.Channel
import BackupEngine.Theorems.TotalOrder

/-!
# What the clients of a server are told

Whatever the threads of the server and the clients do, and however the bytes between them arrive, a client hands on the messages
the server sent to it, in the order of the calls. Clients that stay while messages are sent to all therefore hand on these
messages in one and the same order, each behind what it was sent before.
-/

namespace Netzwerk

open Cpp Transition Connection

variable {T : Type}

theorem sendings_append (ws vs : List (NetworkSeen T)) : sendings (ws ++ vs) = sendings ws ++ sendings vs :=
  List.filterMap_append

theorem handedTo_append (c : ConnPtr) (ws vs : List (NetworkSeen T)) :
    handedTo c (ws ++ vs) = handedTo c ws ++ handedTo c vs := List.filterMap_append

variable [StandardLayout (MessageHeader T)]

/-! ## One connection -/

namespace Channel

/-- The messages `ran` were sent, and `handed` were taken off the peer's queue. -/
def Linked (peer : Connection T) (s : Channel T) (ran handed : List (Message T)) : Prop :=
  ∃ done rest used, ran = done ++ rest ∧ Joined peer peer.msgTemporaryIn s done rest used ∧
    handed ++ s.receiver.qMessagesIn.map (·.msg) = receivedAll peer.msgTemporaryIn done

variable {peer : Connection T} {s t : Channel T} {ran handed : List (Message T)}

/-- What was taken off the queue is a first part of what the peer makes of the messages sent. -/
theorem Linked.prefix_receivedAll (h : Linked peer s ran handed) : handed <+: receivedAll peer.msgTemporaryIn ran := by
  obtain ⟨done, rest, used, rfl, _, hhanded⟩ := h
  rw [← made_received, Fifo.made_append, made_received, ← hhanded, List.append_assoc]
  exact List.prefix_append _ _

/-- A new connection. -/
theorem linked_start {sender : Connection T} (h : Connection.Idle [] sender) : Linked peer (start sender peer) [] [] := by
  refine ⟨[], [], [], rfl, ⟨.inl (.inl h), by simp, Nat.zero_le _, ?_, .header rfl⟩, rfl⟩
  simp [start]

/-- The sender's reading half goes on. -/
theorem Linked.of_sameWriter (h : Linked peer s ran handed) {c : Connection T} (hsame : s.sender.SameWriter c) :
    Linked peer { s with sender := c } ran handed := by
  obtain ⟨done, rest, used, hran, hjoined, hhanded⟩ := h
  refine ⟨done, rest, used, hran, ⟨hjoined.sender.of_sameWriter hsame, hjoined.sized, ?_, ?_, ?_⟩, hhanded⟩
  · exact hsame.written ▸ hjoined.arrived_le
  · exact hsame.written ▸ hjoined.arrived
  · cases hjoined.reads with
    | header hconn => exact .header hconn
    | body hfull hconn => exact .body hfull hconn

/-- The sender's writing half goes on. -/
theorem Linked.write (h : Linked peer s ran handed) {e : WriteEvent T} {c : Connection T} (hstep : writer.Step s.sender e c)
    (hsized : ∀ m ∈ sends [e], m.Sized) : Linked peer { s with sender := c } (ran ++ sends [e]) handed := by
  obtain ⟨done, rest, used, rfl, hjoined, hhanded⟩ := h
  exact ⟨done, rest ++ sends [e], used, List.append_assoc _ _ _, hjoined.write hstep hsized, hhanded⟩

/-- Bytes arrive, a read is completed, or a message is taken off the queue. -/
theorem Linked.client (h : Linked peer s ran handed) {e : ChannelEvent T} (he : e.OfClient) (hen : s.enabled e)
    (hnext : s.next e = .ok t) : Linked peer t ran (handed ++ Fifo.left (see s e)) ∧ t.sender = s.sender := by
  obtain ⟨done, rest, used, hran, hjoined, hhanded⟩ := h
  cases e with
  | write e => exact he.elim
  | arrive n =>
    cases hnext
    exact ⟨⟨done, rest, used, hran, hjoined.arrive hen, by simpa [see, Fifo.left] using hhanded⟩, rfl⟩
  | read =>
    obtain ⟨receiver, hreceiver, hs⟩ := bind_eq_ok.mp hnext
    cases hs
    refine ⟨?_, rfl⟩
    rw [show Fifo.left (see s .read) = [] from rfl, List.append_nil]
    rcases hjoined.read hen hreceiver with ⟨used', hjoined', hsame⟩ | ⟨m, later, rfl, hjoined', hsame⟩
    · exact ⟨done, rest, used', hran, hjoined', by rw [hsame, hhanded]⟩
    · refine ⟨done ++ [m], later, [], ?_, hjoined', ?_⟩
      · rw [hran, List.append_assoc]
        rfl
      · rw [hsame, List.map_append, ← List.append_assoc, hhanded, ← made_received, ← made_received, Fifo.made_append]
        rfl
  | update =>
    obtain ⟨⟨owned, queued⟩, hpop, ht⟩ := bind_eq_ok.mp hnext
    obtain rfl := Except.ok.inj ht
    have hq := TsQueue.popFront_eq_ok.mp hpop
    refine ⟨⟨done, rest, used, hran, hjoined.of_queue queued, ?_⟩, rfl⟩
    rw [← hhanded, hq]
    simp [see, hq, Fifo.left]

end Channel

/-! ## All connections -/

namespace Network

variable {s t : Network T} {ws : List (NetworkSeen T)} {peers : ConnPtr → Connection T}

omit [StandardLayout (MessageHeader T)] in
theorem seen_server (s : Network T) (e : ServerThreadEvent T) (c : ConnPtr) :
    sendings (s.see (.server e)) = s.server.sending e ∧ handedTo c (s.see (.server e)) = [] := by
  refine ⟨?_, List.filterMap_eq_nil_iff.mpr fun w hw => ?_⟩
  · rw [sendings, see, List.filterMap_map]
    exact List.filterMap_some
  · obtain ⟨w, _, rfl⟩ := List.mem_map.mp hw
    rfl

omit [StandardLayout (MessageHeader T)] in
theorem seen_client (s : Network T) (c : ConnPtr) (e : ChannelEvent T) (d : ConnPtr) :
    sendings (s.see (.client c e)) = [] ∧
      handedTo d (s.see (.client c e)) = if c = d then Fifo.left (Channel.see (s.channel c) e) else [] := by
  refine ⟨List.filterMap_eq_nil_iff.mpr fun w hw => ?_, ?_⟩
  · obtain ⟨m, _, rfl⟩ := List.mem_map.mp hw
    rfl
  · rw [handedTo, see, List.filterMap_map]
    split
    · rename_i hcd
      simp only [Function.comp_def, hcd, if_true]
      exact List.filterMap_some
    · rename_i hcd
      simp [hcd]

/-- For every connection that was made, the messages whose `Send` handlers ran are linked to those its client handed on. -/
structure Linked (peers : ConnPtr → Connection T) (ws : List (NetworkSeen T)) (s : Network T) : Prop where
  known : s.server.Known
  linked : ∀ c < s.server.made, ∃ ran, sendsTo c (sendings ws) = ran ++ s.server.postedTo c ∧
    Channel.Linked (peers c) (s.channel c) ran (handedTo c ws)
  sized : ∀ c, ∀ m ∈ sendsTo c (sendings ws), m.Sized
  new : ∀ c, s.server.made ≤ c → sendsTo c (sendings ws) = [] ∧ handedTo c ws = [] ∧
    s.arrived c = 0 ∧ s.clients c = { conn := (peers c).readHeader, unread := [] }

omit [StandardLayout (MessageHeader T)] in
theorem mem_sendsTo {c : ConnPtr} {m : Message T} {vs : List (Sending T)} : m ∈ sendsTo c vs ↔ .send c m ∈ vs := by
  rw [sendsTo, List.mem_filterMap]
  constructor
  · rintro ⟨w, hw, hm⟩
    cases w with
    | toAll msg => cases hm
    | send client msg =>
      simp only [Option.ite_none_right_eq_some, Option.some.injEq] at hm
      obtain ⟨rfl, rfl⟩ := hm
      exact hw
  · exact fun h => ⟨_, h, if_pos rfl⟩

/-- A step of the server. -/
theorem Linked.server (h : s.Linked peers ws) {e : ServerThreadEvent T} (hsized : s.SendsSized (.server e))
    {server : ServerThreads T} (hstep : ServerThreads.machine.Step s.server e server) :
    Linked peers (ws ++ s.see (.server e)) { s with server := server } := by
  have hserver := h.known.step hstep
  have hsendings : sendings (ws ++ s.see (.server e)) = sendings ws ++ s.server.sending e := by
    rw [sendings_append, (s.seen_server e 0).1]
  have hhanded : ∀ c, handedTo c (ws ++ s.see (.server e)) = handedTo c ws := by
    intro c
    rw [handedTo_append, (s.seen_server e c).2, List.append_nil]
  have hall : ∀ c, ∀ m ∈ sendsTo c (sendings (ws ++ s.see (.server e))), m.Sized := by
    intro c m hm
    rw [hsendings, sendsTo_append, List.mem_append] at hm
    rcases hm with hm | hm
    · exact h.sized c m hm
    · exact hsized c m (List.mem_map_of_mem (mem_sendsTo.mp hm))
  refine ⟨hserver.known, fun c hc => ?_, hall, fun c hc => ?_⟩
  · rw [hsendings, sendsTo_append, hhanded]
    by_cases hold : c < s.server.made
    · obtain ⟨ran, hran, hlinked⟩ := h.linked c hold
      rw [hran, List.append_assoc]
      cases hserver.conn c hold with
      | same hwriter hposted => exact ⟨ran, by rw [hposted], hlinked.of_sameWriter hwriter⟩
      | write e' hwrite hposted =>
        refine ⟨ran ++ sends [e'], by rw [hposted, List.append_assoc], hlinked.write hwrite fun m hm => hall c m ?_⟩
        rw [hsendings, sendsTo_append, hran, List.append_assoc, hposted]
        exact List.mem_append_right _ (List.mem_append_left _ hm)
    · have hge := Nat.not_lt.mp hold
      obtain ⟨hidle, hposted⟩ := hserver.new c hge hc
      obtain ⟨hsends, hnone, harrived, hclient⟩ := h.new c hge
      refine ⟨[], by rw [hsends, hserver.unmade c hge, hposted, List.append_nil], ?_⟩
      have hstart : channel { s with server := server } c = Channel.start (server.conns c) (peers c) := by
        rw [channel, harrived, hclient]
        rfl
      rw [hstart, hnone]
      exact Channel.linked_start hidle
  · have hge := hserver.made_le.trans hc
    obtain ⟨hsends, hnone, harrived, hclient⟩ := h.new c hge
    refine ⟨?_, (hhanded c).trans hnone, harrived, hclient⟩
    rw [hsendings, sendsTo_append, hsends, hserver.unmade c hge]
    rfl

/-- A step of a client. -/
theorem Linked.client (h : s.Linked peers ws) {c : ConnPtr} {e : ChannelEvent T} (hc : c < s.server.made) (he : e.OfClient)
    (hen : (s.channel c).enabled e) {channel : Channel T} (hnext : (s.channel c).next e = .ok channel) :
    Linked peers (ws ++ s.see (.client c e)) { s with
      arrived := Function.update s.arrived c channel.arrived
      clients := Function.update s.clients c channel.receiver } := by
  have hsendings : sendings (ws ++ s.see (.client c e)) = sendings ws := by
    rw [sendings_append, (s.seen_client c e 0).1, List.append_nil]
  refine ⟨h.known, fun d hd => ?_, fun d => by rw [hsendings]; exact h.sized d, fun d hd => ?_⟩
  · obtain ⟨ran, hran, hlinked⟩ := h.linked d hd
    refine ⟨ran, by rw [hsendings, hran], ?_⟩
    rw [handedTo_append, (s.seen_client c e d).2]
    by_cases hcd : c = d
    · subst hcd
      obtain ⟨hlinked', hsender⟩ := hlinked.client he hen hnext
      have hchannel : ({ sender := s.server.conns c, arrived := channel.arrived, receiver := channel.receiver } : Channel T) =
          channel := by rw [show s.server.conns c = channel.sender from hsender.symm]
      rw [if_pos rfl]
      simp only [Network.channel, Function.update_self]
      rw [hchannel]
      exact hlinked'
    · rw [if_neg hcd, List.append_nil]
      simpa only [Network.channel, Function.update_of_ne (Ne.symm hcd)] using hlinked
  · have hcd : c ≠ d := fun heq => absurd hd (Nat.not_le.mpr (heq ▸ hc))
    obtain ⟨hsends, hnone, harrived, hclient⟩ := h.new d hd
    rw [hsendings, handedTo_append, (s.seen_client c e d).2, if_neg hcd, List.append_nil]
    simp only [Function.update_of_ne (Ne.symm hcd)]
    exact ⟨hsends, hnone, harrived, hclient⟩

/-- Every event, with messages that have their sizes in their headers. -/
theorem Linked.step (h : s.Linked peers ws) {e : NetworkEvent T} (hsized : s.SendsSized e) (hstep : machine.Step s e t) :
    t.Linked peers (ws ++ s.see e) := by
  obtain ⟨hen, ht⟩ := hstep
  cases e with
  | server e =>
    obtain ⟨server, hserver, ht⟩ := bind_eq_ok.mp ht
    cases ht
    exact h.server hsized ⟨hen, hserver⟩
  | client c e =>
    obtain ⟨channel, hchannel, ht⟩ := bind_eq_ok.mp ht
    cases ht
    exact h.client hen.1 hen.2.1 hen.2.2 hchannel

/-- No connection is forgotten. -/
theorem Linked.made_le (h : s.Linked peers ws) {e : NetworkEvent T} (hstep : machine.Step s e t) :
    s.server.made ≤ t.server.made := by
  obtain ⟨hen, ht⟩ := hstep
  cases e with
  | server e =>
    obtain ⟨server, hserver, ht⟩ := bind_eq_ok.mp ht
    cases ht
    exact (h.known.step ⟨hen, hserver⟩).made_le
  | client c e =>
    obtain ⟨channel, hchannel, ht⟩ := bind_eq_ok.mp ht
    cases ht
    exact Nat.le_refl _

/-- A new server. -/
theorem linked_start (conns : ConnPtr → Connection T) : (start conns peers).Linked peers [] :=
  ⟨ServerThreads.known_start, fun _ hc => absurd hc (Nat.not_lt_zero _), fun _ _ hm => (List.not_mem_nil hm).elim,
    fun _ _ => ⟨rfl, rfl, rfl, rfl⟩⟩

/-- The client of a connection attends an event of the server, and any event of a client. -/
def Attends (c : ConnPtr) (s : Network T) : NetworkEvent T → Prop
  | .server e => s.server.Attends c e
  | .client _ _ => True

/-- What is seen of the server is seen of the server by itself. -/
theorem seen_of_server {cs : Set ConnPtr}
    (h : Seen (machine.when fun s e => s.SendsSized e ∧ ∀ c ∈ cs, s.Attends c e) see s ws t) :
    Seen (ServerThreads.machine.when fun s e => ∀ c ∈ cs, ServerThreads.Attends c s e) ServerThreads.sending s.server
      (sendings ws) t.server := by
  have hsim : Simulates (machine.when fun s e => s.SendsSized e ∧ ∀ c ∈ cs, s.Attends c e)
      (fun (s : Network T) e => sendings (s.see e))
      (ServerThreads.machine.when fun s e => ∀ c ∈ cs, ServerThreads.Attends c s e) ServerThreads.sending
      (fun s t => s.server = t) := by
    rintro s e s' _ rfl ⟨⟨hen, -, hattends⟩, hnext⟩
    cases e with
    | server e =>
      obtain ⟨server, hserver, hs⟩ := bind_eq_ok.mp hnext
      cases hs
      dsimp only
      rw [(s.seen_server e 0).1]
      exact ⟨server, .single ⟨⟨hen, hattends⟩, hserver⟩, rfl⟩
    | client c e =>
      obtain ⟨channel, _, hs⟩ := bind_eq_ok.mp hnext
      cases hs
      dsimp only
      rw [(s.seen_client c e 0).1]
      exact ⟨s.server, .nil, rfl⟩
  obtain ⟨u, hseen, rfl⟩ := hsim.seen rfl (h.filterMap _)
  exact hseen

end Network

/-- What clients hand on, of which each was sent `before` at first and then what was sent to all. -/
structure ClientsAgree (cs : Set ConnPtr) (tmp : ConnPtr → Message T) (before : ConnPtr → List (Message T))
    (toAll : List (Message T)) (handed : ConnPtr → List (Message T)) : Prop where
  /-- Each of them hands on a first part of what it was sent before and of what was sent to all, in that order. -/
  inOrder : ∀ c ∈ cs, handed c <+: receivedAll (tmp c) (before c ++ toAll)
  /-- Where every message has a body, it hands on the messages as they were sent. -/
  exact : ∀ c ∈ cs, (∀ m ∈ before c ++ toAll, m.body ≠ []) → handed c <+: before c ++ toAll
  /-- Of what two of them hand on that were sent the same before, one is then a first part of the other. -/
  alike : ∀ c ∈ cs, ∀ d ∈ cs, before c = before d → (∀ m ∈ before c ++ toAll, m.body ≠ []) →
    handed c <+: handed d ∨ handed d <+: handed c

omit [StandardLayout (MessageHeader T)] in
theorem receivedAll_isPrefix (tmp : Message T) {msgs all : List (Message T)} (h : msgs <+: all) :
    receivedAll tmp msgs <+: receivedAll tmp all := by
  obtain ⟨later, rfl⟩ := h
  rw [← Channel.made_received, ← Channel.made_received, Fifo.made_append]
  exact List.prefix_append _ _

/-- What a client hands on is a first part of what it makes of the messages the server sent to it, in the order of the calls. -/
theorem Network.Linked.handed_isPrefix {peers : ConnPtr → Connection T} {ws : List (NetworkSeen T)} {s : Network T}
    (h : s.Linked peers ws) {c : ConnPtr} (hc : c < s.server.made) :
    handedTo c ws <+: receivedAll (peers c).msgTemporaryIn (sendsTo c (sendings ws)) := by
  obtain ⟨ran, hran, hchannel⟩ := h.linked c hc
  refine hchannel.prefix_receivedAll.trans (receivedAll_isPrefix _ ?_)
  rw [hran]
  exact List.prefix_append _ _

/-- For every interleaving of the threads of a new server and of its clients, in two parts: where the second begins no call is
under way and the clients `cs` are in the deque once, and during it they are open whenever a Message function goes on and are
not treated apart by a call. The messages sent have their sizes in their headers. -/
theorem clients_agree {conns peers : ConnPtr → Connection T} {cs : Set ConnPtr} {ws vs : List (NetworkSeen T)}
    {s t : Network T} (hbefore : Seen (Network.machine.when Network.SendsSized) Network.see (Network.start conns peers) ws s)
    (hframes : s.server.frames = []) (honce : ∀ c ∈ cs, s.server.deqConnections.count (some c) = 1)
    (hafter : Seen (Network.machine.when fun s e => s.SendsSized e ∧ ∀ c ∈ cs, s.Attends c e) Network.see s vs t) :
    ClientsAgree cs (fun c => (peers c).msgTemporaryIn) (fun c => sendsTo c (sendings ws)) (toAlls (sendings vs))
      (fun c => handedTo c (ws ++ vs)) := by
  have hs : s.Linked peers ws := hbefore.invariant (fun ws s => s.Linked peers ws) (Network.linked_start conns) (by
    rintro ws t e u ht ⟨⟨hen, hsized⟩, hu⟩
    exact ht.step hsized ⟨hen, hu⟩)
  have ht : s.server.made ≤ t.server.made ∧ t.Linked peers (ws ++ vs) := by
    refine hafter.invariant (fun vs t => s.server.made ≤ t.server.made ∧ t.Linked peers (ws ++ vs))
      ⟨Nat.le_refl _, by rwa [List.append_nil]⟩ ?_
    rintro vs t e u ⟨hmade, ht⟩ ⟨⟨hen, hsized, -⟩, hu⟩
    rw [← List.append_assoc]
    exact ⟨hmade.trans (ht.made_le ⟨hen, hu⟩), ht.step hsized ⟨hen, hu⟩⟩
  have hmade : ∀ c ∈ cs, c < s.server.made := by
    intro c hc
    refine hs.known.owned c ?_
    have hmem : some c ∈ s.server.deqConnections := List.count_pos_iff.mp (by rw [honce c hc]; exact Nat.one_pos)
    simp only [ServerThreads.Owned, ServerThreads.owners, List.mem_append]
    exact .inl (.inl (.inl hmem))
  have horder : ∀ c ∈ cs, handedTo c (ws ++ vs) <+:
      receivedAll (peers c).msgTemporaryIn (sendsTo c (sendings ws) ++ toAlls (sendings vs)) := by
    intro c hc
    refine (ht.2.handed_isPrefix ((hmade c hc).trans_le ht.1)).trans (receivedAll_isPrefix _ ?_)
    rw [sendings_append, sendsTo_append, List.prefix_append_right_inj]
    exact (ServerThreads.attending_of_seen hframes hmade honce (Network.seen_of_server hafter) hc).sends_isPrefix
  have hexact : ∀ c ∈ cs, (∀ m ∈ sendsTo c (sendings ws) ++ toAlls (sendings vs), m.body ≠ []) →
      handedTo c (ws ++ vs) <+: sendsTo c (sendings ws) ++ toAlls (sendings vs) := by
    intro c hc hbodies
    have hprefix := horder c hc
    rwa [receivedAll_eq_iff.mpr (List.pairwise_cons.mpr ⟨fun m hm hnil => absurd hnil (hbodies m hm),
      List.pairwise_of_forall_mem_list fun _ _ m hm hnil => absurd hnil (hbodies m hm)⟩)] at hprefix
  refine ⟨horder, hexact, fun c hc d hd hsame hbodies => ?_⟩
  refine List.prefix_or_prefix_of_prefix (hexact c hc hbodies) ?_
  rw [hsame] at hbodies ⊢
  exact hexact d hd hbodies

/-- What is seen when a message is sent to all and reaches the one client. -/
def oneReached : List (NetworkSeen UInt32) :=
  [.sending (.toAll ⟨⟨(7 : UInt32), 0⟩, []⟩), .sending (.send 0 ⟨⟨(7 : UInt32), 0⟩, []⟩), .handed 0 ⟨⟨(7 : UInt32), 0⟩, []⟩]

/-- A client is accepted, and a message that is sent to all reaches it. -/
theorem clients_agree_one : ClientsAgree {0} (fun _ => newPeer.msgTemporaryIn) (fun c => sendsTo c (sendings []))
    (toAlls (sendings oneReached)) (fun c => handedTo c ([] ++ oneReached)) := by
  obtain ⟨s, hbefore, hframes, honce, t, hafter⟩ : ∃ s,
      Seen (Network.machine.when Network.SendsSized) Network.see (Network.start newConns fun _ => newPeer) [] s ∧
      s.server.frames = [] ∧ (∀ c ∈ ({0} : Set ConnPtr), s.server.deqConnections.count (some c) = 1) ∧
      ∃ t, Seen (Network.machine.when fun s e => s.SendsSized e ∧ ∀ c ∈ ({0} : Set ConnPtr), s.Attends c e) Network.see s
        oneReached t := by
    refine ⟨_, Seen.cons (a := NetworkEvent.server (.accepted default true false)) ⟨⟨trivial, ?_⟩, rfl⟩ Seen.nil, rfl, ?_, _,
      Seen.cons (a := NetworkEvent.server (.call (.all ⟨⟨(7 : UInt32), 0⟩, []⟩ none))) ⟨⟨⟨trivial, ?_⟩, ?_, ?_⟩, rfl⟩ <|
      Seen.cons (a := NetworkEvent.server (.run default)) ⟨⟨?_, ?_, ?_⟩, rfl⟩ <|
      Seen.cons (a := NetworkEvent.server .posted) ⟨⟨?_, ?_, ?_⟩, rfl⟩ <|
      Seen.cons (a := NetworkEvent.server (.write 0 (.transfer 0 8))) ⟨⟨⟨trivial, rfl, _, rfl, ?_⟩, ?_, ?_⟩, rfl⟩ <|
      Seen.cons (a := NetworkEvent.client 0 (.arrive 8)) ⟨⟨⟨?_, trivial, ?_⟩, ?_, ?_⟩, rfl⟩ <|
      Seen.cons (a := NetworkEvent.client 0 .read) ⟨⟨⟨?_, trivial, ?_⟩, ?_, ?_⟩, rfl⟩ <|
      Seen.cons (a := NetworkEvent.client 0 .update) ⟨⟨⟨?_, trivial, ?_⟩, ?_, ?_⟩, rfl⟩ Seen.nil⟩
    · exact fun c m h => (List.not_mem_nil h).elim
    · rintro c rfl
      rfl
    · rintro c hc
      cases List.mem_singleton.mp hc
    · rintro c m h
      cases List.mem_singleton.mp h
    · rintro c rfl hc
      cases List.mem_singleton.mp hc
    · exact List.cons_ne_nil _ _
    · rintro c m h
      cases List.mem_singleton.mp h
      rfl
    · rintro c rfl
      rfl
    · exact List.cons_ne_nil _ _
    · exact fun c m h => (List.not_mem_nil h).elim
    · exact fun _ _ => trivial
    · exact ⟨Nat.zero_le 8, le_refl 8⟩
    · exact fun c m h => (List.not_mem_nil h).elim
    · exact fun _ _ => trivial
    · exact Nat.one_pos
    · exact Nat.le_of_ble_eq_true rfl
    · exact fun c m h => (List.not_mem_nil h).elim
    · exact fun _ _ => trivial
    · exact Nat.one_pos
    · exact Nat.le_of_ble_eq_true rfl
    · exact fun c m h => (List.not_mem_nil h).elim
    · exact fun _ _ => trivial
    · exact Nat.one_pos
    · exact List.cons_ne_nil _ _
    · rintro c m h
      cases List.mem_singleton.mp h
    · exact fun _ _ => trivial
  exact clients_agree hbefore hframes honce hafter

end Netzwerk
