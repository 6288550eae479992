import BackupEngine.Lemmas.Broadcast
import BackupEngine.Theorems.Disconnect

/-!
# A message to all clients

`MessageAllClients` sends its message in one pass over the list and then calls itself for every farewell that
`OnClientDisconnect` returned, and these calls may find further connections gone. Sockets may be closed at any moment: every
question whether one is open has an answer of its own.
-/

namespace Netzwerk

open Server

variable {T : Type}

/-- What a call of `MessageAllClients` does to a server whose list is `cs`: the events `first` of its own pass, and the events
`later` of the calls for the farewells. -/
structure Messaged (w : World T) (s : Server T) (cs : List ConnPtr) (msg : Message T) (ignore : Option ConnPtr)
    (first later : List (ServerEvent T)) (t : Server T) : Prop where
  log : t.log = s.log ++ (first ++ later)
  /-- `IsConnected` is asked once for each event, and its answer is the one the event calls for. -/
  asked : t.asked = s.asked + (first ++ later).length
  answers : Answers w s.asked (first ++ later)
  /-- `OnClientDisconnect` is called once for each connection that was found closed, and for no other. -/
  gone_iff : ∀ c, c ∈ gone (first ++ later) ↔ ∃ e ∈ first ++ later, e.observed = some (c, false)
  nodup : (gone (first ++ later)).Nodup
  /-- Exactly those are removed. -/
  removed : gone (first ++ later) ⊆ cs ∧ t.deqConnections = (cs.filter (· ∉ gone (first ++ later))).map some
  /-- The first pass asks the connections that are not ignored, in their order. -/
  pass : first.filterMap (fun e => e.observed.map Prod.fst) = cs.filter fun c => some c ≠ ignore
  /-- A connection found open in the first pass is sent the message once, any other is not. -/
  message : ∀ c, ((∃ e ∈ first, e.observed = some (c, true)) → sentTo c first = [msg]) ∧
    ((¬∃ e ∈ first, e.observed = some (c, true)) → sentTo c first = [])
  ignored : ∀ c, ignore = some c → sentTo c first = []
  /-- What is sent later are farewells, each once at most, and exactly once to a connection that stays open. -/
  farewell : ∀ c ∈ cs, (sentTo c later).Subperm (farewells w s.log (first ++ later)) ∧
    (StaysOpen w s.asked (first ++ later) c → (sentTo c later).Perm (farewells w s.log (first ++ later)))
  /-- A connection that is not in the list is sent nothing. -/
  others : ∀ c ∉ cs, sentTo c (first ++ later) = []

/-- For every world, every server whose list is without null and repeated entries, every message and every connection to
ignore: `MessageAllClients` returns, and has told every connection what it has to. -/
theorem messageAllClients_law (w : World T) (s : Server T) (cs : List ConnPtr) (hdeq : s.deqConnections = cs.map some)
    (hnodup : cs.Nodup) (msg : Message T) (ignore : Option ConnPtr) :
    ∃ t first later, s.messageAllClients w msg ignore = some t ∧ Messaged w s cs msg ignore first later t := by
  have hlength : cs.length < s.deqConnections.length + 1 := by
    rw [hdeq, List.length_map]
    exact Nat.lt_succ_self _
  obtain ⟨u, t, later, ht, hfirst, hlater, hdelivers⟩ := messageAllClientsWithin_effect w _ s cs msg ignore hdeq hnodup hlength
  have heffect := hfirst.trans hlater
  have hsend : ∀ c, (∃ e ∈ firstPass w ignore msg s.asked cs, e.observed = some (c, true)) ↔
      .send c msg ∈ firstPass w ignore msg s.asked cs := by
    intro c
    constructor
    · rintro ⟨e, he, hobserved⟩
      cases e with
      | send client m =>
        cases hobserved
        exact (of_mem_firstPass he).2.2 ▸ he
      | onClientDisconnect client =>
        obtain ⟨_, _, heq⟩ := Option.map_eq_some_iff.mp hobserved
        cases heq
    · exact fun h => ⟨_, h, rfl⟩
  have hsent := fun c => sentTo_firstPass w s.asked c ignore msg hnodup
  refine ⟨t, _, later, ht, heffect.log, heffect.asked, heffect.answers, fun c => mem_gone_iff, heffect.nodup,
    ⟨heffect.gone, heffect.deqConnections⟩, asked_firstPass, fun c => ?_, fun c hc => ?_, fun c hc => ?_, heffect.others⟩
  · rw [hsend]
    refine ⟨fun hmem => ?_, fun hnot => ?_⟩
    · exact ((hsent c).resolve_right fun h => h.1 hmem).2
    · exact ((hsent c).resolve_left fun h => hnot h.1).2
  · exact ((hsent c).resolve_left fun h => (of_mem_firstPass h.1).2.1 hc).2
  · exact farewells_delivered hfirst hlater hdelivers hc

/-- Of three connections the first is found closed. -/
theorem messageAllClients_law_three :
    ∃ t first later, messageAllClients closedOne { deqConnections := [some 1, some 2, some 3] } default (some 2) = some t ∧
      Messaged closedOne { deqConnections := [some 1, some 2, some 3] } [1, 2, 3] default (some 2) first later t :=
  messageAllClients_law closedOne { deqConnections := [some 1, some 2, some 3] } [1, 2, 3] rfl (by decide) default (some 2)

end Netzwerk
