import BackupEngine.Lemmas.ServerCallbacks

/-!
# What leaves the ids alone

Only `ConnectToClient` writes the id of a connection, and only the handler that accepts a connection calls it, counts
`nIDCounter` up and puts a connection into the deque.
-/

namespace Netzwerk

open Cpp Transition

variable {T : Type}

/-! ## A single connection -/

namespace Connection

variable {c c' : Connection T}

/-- A write that is started. -/
theorem writeHeader_getID (h : c.writeHeader = .ok c') : c'.getID = c.getID := by
  obtain ⟨_, _, h⟩ := bind_eq_ok.mp h
  cases h
  rfl

/-- A message that leaves the queue. -/
theorem popOut_getID (h : c.popOut = .ok c') : c'.getID = c.getID := by
  obtain ⟨_, _, h⟩ := bind_eq_ok.mp h
  cases h
  rfl

/-- A posted `Send`. -/
theorem send_getID {msg : Message T} (h : c.send msg = .ok c') : c'.getID = c.getID := by
  unfold send at h
  simp only at h
  split at h
  · exact (writeHeader_getID h :)
  · cases h
    rfl

/-- The handler of `WriteBody`. -/
theorem bodyWritten_getID (h : c.bodyWritten = .ok c') : c'.getID = c.getID := by
  obtain ⟨d, hd, h⟩ := bind_eq_ok.mp h
  split at h
  · exact (writeHeader_getID h).trans (popOut_getID hd)
  · cases h
    exact popOut_getID hd

/-- The handler of `WriteHeader`. -/
theorem headerWritten_getID (h : c.headerWritten = .ok c') : c'.getID = c.getID := by
  obtain ⟨front, _, h⟩ := bind_eq_ok.mp h
  split at h
  · obtain ⟨_, _, h⟩ := bind_eq_ok.mp h
    cases h
    rfl
  · exact bodyWritten_getID h

variable [StandardLayout (MessageHeader T)]

/-- Whatever happens to the writing half. -/
theorem writeNext_getID {e : WriteEvent T} (h : c.writeNext e = .ok c') : c'.getID = c.getID := by
  cases e with
  | send msg => exact send_getID h
  | transfer i n =>
    obtain ⟨_, _, h⟩ := bind_eq_ok.mp h
    obtain ⟨_, _, h⟩ := bind_eq_ok.mp h
    cases h
    rfl
  | complete i =>
    obtain ⟨w, _, h⟩ := bind_eq_ok.mp h
    cases hpart : w.part with
    | header =>
      rw [hpart] at h
      exact (headerWritten_getID h :)
    | body =>
      rw [hpart] at h
      exact (bodyWritten_getID h :)
  | fail i =>
    cases h
    rfl
  | close =>
    cases h
    rfl

/-- The handlers of `ReadHeader` and `ReadBody`. -/
theorem readDone_getID {part : Part} {bytes : List UInt8} {owned : Option (OwnedMessage T)}
    (h : c.readDone part bytes = .ok (c', owned)) : c'.getID = c.getID := by
  cases part with
  | header =>
    simp only [readDone, headerRead] at h
    split at h
    · obtain ⟨_, _, h⟩ := bind_eq_ok.mp h
      cases h
      rfl
    · cases h
      rfl
  | body =>
    cases h
    rfl

/-- Whatever the socket does to the reading half: only `ConnectToClient` writes the id. -/
theorem readNext_getID {e : ReadEvent} (he : e.OfSocket) {owned : Option (OwnedMessage T)}
    (h : c.readNext e = .ok (c', owned)) : c'.getID = c.getID := by
  cases e with
  | connectToClient uid => exact he.elim
  | done bytes =>
    cases hreads : c.reads with
    | none =>
      simp only [readNext, hreads] at h
      cases h
      rfl
    | some r =>
      simp only [readNext, hreads] at h
      exact readDone_getID h
  | fail =>
    cases h
    rfl

end Connection

/-! ## The two threads -/

namespace ServerThreads

variable {s t : ServerThreads T}

/-- The ids are as they were, and every connection in the deque was in it. -/
structure SameIds (s t : ServerThreads T) : Prop where
  ids : ∀ c, (t.conns c).getID = (s.conns c).getID
  counter : t.nIDCounter = s.nIDCounter
  deqConnections : ∀ c, some c ∈ t.deqConnections → some c ∈ s.deqConnections

/-- A step that leaves connections, counter and deque alone. -/
theorem SameIds.of_eq (hconns : t.conns = s.conns) (hcounter : t.nIDCounter = s.nIDCounter)
    (hdeq : t.deqConnections = s.deqConnections) : SameIds s t :=
  ⟨fun c => by rw [hconns], hcounter, fun c hc => hdeq ▸ hc⟩

/-- Erasing the null pointers erases no connection. -/
theorem mem_eraseNull {client : Option ConnPtr} (h : client ∈ s.eraseNull.deqConnections) : client ∈ s.deqConnections :=
  (List.mem_filter.mp h).1

variable {rest : List (Frame T)} {toSend : Message T}

/-- A step of a call: only `MessageAllClients` resets pointers of the deque. -/
theorem frameStep_sameIds {frame : Frame T} (h : s.frameStep rest toSend frame = .ok t) : SameIds s t := by
  cases frameStep_ok h with
  | clientGone | groupErased | allErased => exact ⟨fun _ => rfl, rfl, fun _ => mem_eraseNull⟩
  | allGone =>
    exact ⟨fun _ => rfl, rfl, fun c hc => (List.mem_or_eq_of_mem_set hc).resolve_right (Option.some_ne_none c)⟩
  | _ => exact .of_eq rfl rfl rfl

/-- What is done with a connection that leaves its id alone. -/
theorem onConnection_sameIds {c : ConnPtr} {f : Connection T → Comp (Connection T × Option (OwnedMessage T))}
    (hf : ∀ conn owned, f (s.conns c) = .ok (conn, owned) → conn.getID = (s.conns c).getID)
    (h : s.onConnection c f = .ok t) : SameIds s t := by
  obtain ⟨conn, owned, hconn, rfl⟩ := onConnection_ok h
  refine ⟨fun d => ?_, rfl, fun _ => id⟩
  by_cases hdc : d = c
  · subst hdc
    simp only [Function.update_self]
    exact hf conn owned hconn
  · simp only [Function.update_of_ne hdc]

variable [StandardLayout (MessageHeader T)]

/-- Everything but the handler that accepts a connection. -/
theorem next_sameIds {e : ServerThreadEvent T} (hen : s.enabled e) (hacc : ¬e.Accepts) (h : s.next e = .ok t) :
    SameIds s t := by
  cases e with
  | accepted => exact absurd trivial hacc
  | write c e =>
    simp only [next] at h
    refine onConnection_sameIds (fun conn owned hf => ?_) h
    obtain ⟨_, hconn, hf⟩ := bind_eq_ok.mp hf
    cases hf
    exact Connection.writeNext_getID hconn
  | read c e =>
    simp only [next] at h
    exact onConnection_sameIds (fun conn owned hf => Connection.readNext_getID hen.1 hf) h
  | posted =>
    obtain ⟨⟨c, msg⟩, posted, hposted⟩ := List.exists_cons_of_ne_nil (show s.posted ≠ [] from hen)
    simp only [next, hposted] at h
    obtain ⟨hids, hcounter, hdeq⟩ := onConnection_sameIds (fun conn owned hf => by
      obtain ⟨_, hconn, hf⟩ := bind_eq_ok.mp hf
      cases hf
      exact Connection.send_getID hconn) h
    exact ⟨hids, hcounter, hdeq⟩
  | call call =>
    cases call <;>
    · cases h
      exact .of_eq rfl rfl rfl
  | run toSend =>
    obtain ⟨frame, rest, hframes⟩ := List.exists_cons_of_ne_nil (show s.frames ≠ [] from hen)
    simp only [next, hframes] at h
    exact frameStep_sameIds h
  | update | hold | letGo =>
    cases h
    exact .of_eq rfl rfl rfl

end ServerThreads

end Netzwerk
