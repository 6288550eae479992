import BackupEngine.Netzwerk.ServerThreads

/-!
# The steps of a call

`frameStep` as a relation, with a case for each of its branches, so that what every step of a call keeps is proved branch by
branch.
-/

namespace Netzwerk

open Cpp

variable {T : Type}

namespace ServerThreads

/-- What the next step of a call can do, behind which the calls `rest` wait. -/
inductive FrameStep (s : ServerThreads T) (rest : List (Frame T)) (toSend : Message T) : Frame T → ServerThreads T → Prop
  /-- `MessageClient` sends to a client that is connected. -/
  | clientSent {client : Option ConnPtr} {msg : Message T} (hconn : s.isConnected client = true) :
    FrameStep s rest toSend (.client client msg) { s.send client msg with frames := .after [] [client] :: rest }
  /-- It finds the client gone, and sends to the others. -/
  | clientGone {client : Option ConnPtr} {msg : Message T} (hconn : s.isConnected client = false) :
    FrameStep s rest toSend (.client client msg)
      { s.eraseNull with frames := .all toSend none 0 s.eraseNull.deqConnections.length [] :: rest }
  /-- `MessageClientGroup` comes to a client that is connected. -/
  | groupSent {msg : Message T} {through left : List (Option ConnPtr)} {client : Option ConnPtr} {after : List (Message T)}
    (hconn : s.isConnected client = true) :
    FrameStep s rest toSend (.group msg through (client :: left) after)
      { s.send client msg with frames := .group msg (through ++ [client]) left after :: rest }
  /-- It comes to one that is gone. -/
  | groupGone {msg : Message T} {through left : List (Option ConnPtr)} {client : Option ConnPtr} {after : List (Message T)}
    (hconn : s.isConnected client = false) :
    FrameStep s rest toSend (.group msg through (client :: left) after)
      { s with frames := .group msg (through ++ [none]) left (after ++ [toSend]) :: rest }
  /-- Its loop is over, and some were gone. -/
  | groupErased {msg : Message T} {through : List (Option ConnPtr)} {after : List (Message T)} :
    FrameStep s rest toSend (.group msg through [] after) { s.eraseNull with frames := .after after through :: rest }
  /-- Its loop is over, and none was gone. -/
  | groupDone {msg : Message T} {through : List (Option ConnPtr)} :
    FrameStep s rest toSend (.group msg through [] []) { s with frames := .after [] through :: rest }
  /-- `MessageAllClients` passes the client over that it is to ignore. -/
  | allIgnored {msg : Message T} {pIgnoreClient : Option ConnPtr} {i : Nat} {after : List (Message T)}
    (hi : i < s.deqConnections.length) (hclient : s.deqConnections[i]? = some pIgnoreClient) :
    FrameStep s rest toSend (.all msg pIgnoreClient i s.deqConnections.length after)
      { s with frames := .all msg pIgnoreClient (i + 1) s.deqConnections.length after :: rest }
  /-- It comes to a client that is connected. -/
  | allSent {msg : Message T} {pIgnoreClient client : Option ConnPtr} {i : Nat} {after : List (Message T)}
    (hi : i < s.deqConnections.length) (hclient : s.deqConnections[i]? = some client) (hne : client ≠ pIgnoreClient)
    (hconn : s.isConnected client = true) :
    FrameStep s rest toSend (.all msg pIgnoreClient i s.deqConnections.length after)
      { s.send client msg with frames := .all msg pIgnoreClient (i + 1) s.deqConnections.length after :: rest }
  /-- It comes to one that is gone, and resets the pointer. -/
  | allGone {msg : Message T} {pIgnoreClient client : Option ConnPtr} {i : Nat} {after : List (Message T)}
    (hi : i < s.deqConnections.length) (hclient : s.deqConnections[i]? = some client) (hne : client ≠ pIgnoreClient)
    (hconn : s.isConnected client = false) :
    FrameStep s rest toSend (.all msg pIgnoreClient i s.deqConnections.length after)
      { s with
        deqConnections := s.deqConnections.set i none
        frames := .all msg pIgnoreClient (i + 1) s.deqConnections.length (after ++ [toSend]) :: rest }
  /-- Its loop is over, and some were gone. -/
  | allErased {msg : Message T} {pIgnoreClient : Option ConnPtr} {i : Nat} {after : List (Message T)}
    (hi : ¬i < s.deqConnections.length) :
    FrameStep s rest toSend (.all msg pIgnoreClient i s.deqConnections.length after)
      { s.eraseNull with frames := .after after [pIgnoreClient] :: rest }
  /-- Its loop is over, and none was gone. -/
  | allDone {msg : Message T} {pIgnoreClient : Option ConnPtr} {i : Nat} (hi : ¬i < s.deqConnections.length) :
    FrameStep s rest toSend (.all msg pIgnoreClient i s.deqConnections.length [])
      { s with frames := .after [] [pIgnoreClient] :: rest }
  /-- The next message to all is begun. -/
  | afterNext {msg : Message T} {msgs : List (Message T)} {pointers : List (Option ConnPtr)} :
    FrameStep s rest toSend (.after (msg :: msgs) pointers)
      { s with frames := .all msg none 0 s.deqConnections.length [] :: .after msgs pointers :: rest }
  /-- The call returns. -/
  | afterDone {pointers : List (Option ConnPtr)} : FrameStep s rest toSend (.after [] pointers) { s with frames := rest }
  /-- `Update` takes a message and calls `OnMessage`. -/
  | updatePopped {nMaxMessages nMessageCount : Nat} {msg : OwnedMessage T} {q : List (OwnedMessage T)}
    (hlt : nMessageCount < nMaxMessages) (hq : s.qMessagesIn = msg :: q) :
    FrameStep s rest toSend (.update nMaxMessages nMessageCount)
      { s with qMessagesIn := q, frames := .onMessage msg nMaxMessages nMessageCount :: rest }
  /-- It returns. -/
  | updateDone {nMaxMessages nMessageCount : Nat} (hstop : nMessageCount < nMaxMessages → s.qMessagesIn = []) :
    FrameStep s rest toSend (.update nMaxMessages nMessageCount) { s with frames := rest }
  /-- `OnMessage` returns. -/
  | onMessageDone {msg : OwnedMessage T} {nMaxMessages nMessageCount : Nat} :
    FrameStep s rest toSend (.onMessage msg nMaxMessages nMessageCount)
      { s with frames := .update nMaxMessages (nMessageCount + 1) :: rest }

theorem frameStep_ok {s t : ServerThreads T} {rest : List (Frame T)} {toSend : Message T} {frame : Frame T}
    (h : s.frameStep rest toSend frame = .ok t) : FrameStep s rest toSend frame t := by
  cases frame with
  | client client msg =>
    simp only [frameStep] at h
    split at h
    · rename_i hconn
      cases h
      exact .clientSent hconn
    · rename_i hconn
      cases h
      exact .clientGone (Bool.not_eq_true _ ▸ hconn)
  | group msg through left after =>
    cases left with
    | cons client left =>
      simp only [frameStep] at h
      split at h
      · rename_i hconn
        cases h
        exact .groupSent hconn
      · rename_i hconn
        cases h
        exact .groupGone (Bool.not_eq_true _ ▸ hconn)
    | nil =>
      cases after with
      | nil =>
        cases h
        exact .groupDone
      | cons m after =>
        cases h
        exact .groupErased
  | all msg pIgnoreClient i size after =>
    simp only [frameStep] at h
    split at h
    · cases h
    · rename_i hlen
      obtain rfl := not_not.mp hlen
      split at h
      · rename_i hi
        obtain ⟨client, hclient, h⟩ := bind_eq_ok.mp h
        rw [elemAt_eq_ok] at hclient
        split at h
        · rename_i hne
          split at h
          · rename_i hconn
            cases h
            exact .allSent hi hclient hne hconn
          · rename_i hconn
            cases h
            exact .allGone hi hclient hne (Bool.not_eq_true _ ▸ hconn)
        · rename_i heq
          cases h
          exact .allIgnored hi (not_not.mp heq ▸ hclient)
      · rename_i hi
        cases after with
        | nil =>
          cases h
          exact .allDone hi
        | cons m after =>
          cases h
          exact .allErased hi
  | after msgs pointers =>
    cases msgs with
    | nil =>
      cases h
      exact .afterDone
    | cons msg msgs =>
      cases h
      exact .afterNext
  | update nMaxMessages nMessageCount =>
    simp only [frameStep] at h
    split at h
    · rename_i hgo
      obtain ⟨⟨msg, q⟩, hpop, h⟩ := bind_eq_ok.mp h
      cases h
      exact .updatePopped hgo.1 (TsQueue.popFront_eq_ok.mp hpop)
    · rename_i hstop
      cases h
      refine .updateDone fun hlt => ?_
      cases hq : s.qMessagesIn with
      | nil => rfl
      | cons msg q => exact absurd ⟨hlt, by rw [hq]; rfl⟩ hstop
  | onMessage msg nMaxMessages nMessageCount =>
    cases h
    exact .onMessageDone

end ServerThreads

/-! ## Which events can happen

It can be decided, so that runs can be executed. -/

section Decide

instance (e : Connection.WriteEvent T) : Decidable e.OfSocket :=
  match e with
  | .send _ => isFalse id
  | .close => isFalse id
  | .transfer _ _ => isTrue trivial
  | .complete _ => isTrue trivial
  | .fail _ => isTrue trivial

instance (e : ReadEvent) : Decidable e.OfSocket :=
  match e with
  | .connectToClient _ => isFalse id
  | .done _ => isTrue trivial
  | .fail => isTrue trivial

instance (s : ServerThreads T) : Decidable s.CanCall :=
  match h : s.frames with
  | [] => isTrue (by rw [ServerThreads.CanCall, h]; trivial)
  | .onMessage _ _ _ :: _ => isTrue (by rw [ServerThreads.CanCall, h]; trivial)
  | .client _ _ :: _ => isFalse (by rw [ServerThreads.CanCall, h]; exact id)
  | .group _ _ _ _ :: _ => isFalse (by rw [ServerThreads.CanCall, h]; exact id)
  | .all _ _ _ _ _ :: _ => isFalse (by rw [ServerThreads.CanCall, h]; exact id)
  | .after _ _ :: _ => isFalse (by rw [ServerThreads.CanCall, h]; exact id)
  | .update _ _ :: _ => isFalse (by rw [ServerThreads.CanCall, h]; exact id)

variable [StandardLayout (MessageHeader T)]

instance (c : Connection T) (e : ReadEvent) : Decidable (c.readEnabled e) :=
  match e with
  | .connectToClient _ => inferInstanceAs (Decidable (c.reads = none))
  | .done bytes => decidable_of_iff (∃ r ∈ c.reads, r.2 = bytes.length)
      ⟨fun ⟨(part, _), hr, hn⟩ => ⟨part, hn ▸ hr⟩, fun ⟨part, hr⟩ => ⟨(part, bytes.length), hr, rfl⟩⟩
  | .fail => inferInstanceAs (Decidable (c.reads ≠ none))

instance (s : ServerThreads T) (e : ServerThreadEvent T) : Decidable (s.enabled e) :=
  match e with
  | .accepted _ _ _ => isTrue trivial
  | .write c e => inferInstanceAs (Decidable (e.OfSocket ∧ (s.conns c).writeEnabled e))
  | .read c e => inferInstanceAs (Decidable (e.OfSocket ∧ (s.conns c).readEnabled e))
  | .posted => decidable_of_iff (s.posted.isEmpty = false) (by simp [ServerThreads.enabled])
  | .call call => decidable_of_iff (s.CanCall ∧ ∀ p ∈ call.pointers, ∀ c ∈ p, s.Owned c)
      (and_congr_right fun _ => ⟨fun h c hc => h _ hc c rfl, fun h _ hp c hc => h c (hc ▸ hp)⟩)
  | .update _ => inferInstanceAs (Decidable s.CanCall)
  | .run _ => decidable_of_iff (s.frames.isEmpty = false) (by simp [ServerThreads.enabled])
  | .hold c => inferInstanceAs (Decidable (s.CanCall ∧ s.Owned c))
  | .letGo i => inferInstanceAs (Decidable (s.CanCall ∧ i < s.held.length))

instance (s : ServerThreads T) (e : ServerThreadEvent T) : Decidable (ServerThreads.machine.enabled s e) :=
  inferInstanceAs (Decidable (s.enabled e))

end Decide

end Netzwerk
