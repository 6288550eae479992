import BackupEngine.Netzwerk.ServerUpdate

/-!
# What one event does to a server that takes messages in

The invariant has a part for each side. The connections' side: what was pushed is what the connections handed on, each
message with its own connection. The consumer's side: between its test of the queue and its `pop_front` only messages are
added, so the queue it pops is not empty. `OnMessage` and the queue together are what was pushed.
-/

namespace Netzwerk

open Cpp Transition

variable {T : Type} [StandardLayout (MessageHeader T)]

/-! ## The connections -/

namespace Connection

/-- The completion of a read returns, leaves the connection its identity, and hands on messages with its own pointer. -/
theorem readDone_spec (c : Connection T) (part : Part) (bytes : List UInt8) :
    ∃ c' owned, c.readDone part bytes = .ok (c', owned) ∧ c'.self = c.self ∧ c'.nOwnerType = c.nOwnerType ∧
      ∀ o ∈ owned, o.remote = c.remote := by
  cases part with
  | header =>
    simp only [readDone, headerRead]
    split
    · rename_i hsize
      have hlt : (ofBytes bytes : MessageHeader T).size.toNat ≤ maxSize :=
        Nat.le_trans (Nat.le_of_lt (ofBytes bytes : MessageHeader T).size.toNat_lt) (by decide)
      rw [resize_eq_ok.mpr ⟨hlt, rfl⟩]
      exact ⟨_, _, rfl, rfl, rfl, nofun⟩
    · refine ⟨_, _, rfl, rfl, rfl, ?_⟩
      rintro o ⟨rfl⟩
      rfl
  | body =>
    refine ⟨_, _, rfl, rfl, rfl, ?_⟩
    rintro o ⟨rfl⟩
    rfl

/-- An event of a connection returns, leaves it its identity, and hands on messages with its own pointer. -/
theorem readNext_spec (c : Connection T) (e : ReadEvent) :
    ∃ c' owned, c.readNext e = .ok (c', owned) ∧ c'.self = c.self ∧ c'.nOwnerType = c.nOwnerType ∧
      ∀ o ∈ owned, o.remote = c.remote := by
  cases e with
  | connectToClient uid =>
    refine ⟨c.connectToClient uid, none, rfl, ?_, ?_, nofun⟩ <;>
    · unfold connectToClient
      split
      · split <;> rfl
      · rfl
  | done bytes =>
    unfold readNext
    cases c.reads with
    | none => exact ⟨c, none, rfl, rfl, rfl, nofun⟩
    | some r => exact c.readDone_spec r.1 bytes
  | fail => exact ⟨_, _, rfl, rfl, rfl, nofun⟩

/-- One event more. -/
theorem feed_concat (c : Connection T) (events : List ReadEvent) (e : ReadEvent) {c₁ c₂ : Connection T}
    {out : List (OwnedMessage T)} {owned : Option (OwnedMessage T)} (h : c.feed events = .ok (c₁, out))
    (he : c₁.readNext e = .ok (c₂, owned)) : c.feed (events ++ [e]) = .ok (c₂, out ++ owned.toList) := by
  unfold feed at h ⊢
  rw [foldlM_concat, h]
  simp only [ok_bind, he]
  rfl

end Connection

/-! ## The consumer -/

/-- What holds of the consumer between its steps: its counter is below the limit and counts the calls it has made, and a
queue it has found not empty is still not empty. -/
def Consumer.Fits (q : List (OwnedMessage T)) (made : List (OwnedMessage T)) : Consumer → Prop
  | .outside => made = []
  | .testing nMaxMessages nMessageCount => nMessageCount < nMaxMessages ∧ made.length = nMessageCount
  | .popping nMaxMessages nMessageCount => nMessageCount < nMaxMessages ∧ made.length = nMessageCount ∧ q ≠ []

omit [StandardLayout (MessageHeader T)] in
/-- Messages that are pushed leave the consumer where it is. -/
theorem Consumer.Fits.push {q made : List (OwnedMessage T)} {k : Consumer} (h : k.Fits q made)
    (more : List (OwnedMessage T)) : k.Fits (q ++ more) made := by
  cases k with
  | outside => exact h
  | testing n k => exact h
  | popping n k => exact ⟨h.1, h.2.1, by simp [h.2.2]⟩

namespace Intake

/-- What was pushed, after the events of a run from `start`: `OnMessage` got the first part of it, the queue has the rest, and
it is what the connections handed on. -/
structure Tallied (start : Intake T) (events : List IntakeEvent) (s : Intake T) : Prop where
  state : s.onMessage ++ s.qMessagesIn = s.pushed
  own : ∀ c, (start.conns c).feed (eventsOf c events) = .ok (s.conns c, s.pushed.filter (·.remote = some c))
  self : ∀ c, (s.conns c).remote = some c
  owned : ∀ o ∈ s.pushed, ∃ c, o.remote = some c
  calls : s.onMessage = s.finished.flatMap (·.made) ++ s.made
  finished : ∀ u ∈ s.finished, u.made.length ≤ u.nMaxMessages

/-- The invariant of a server that takes messages in. -/
structure Inv (start : Intake T) (events : List IntakeEvent) (s : Intake T) : Prop extends Tallied start events s where
  consumer : s.consumer.Fits s.qMessagesIn s.made

omit [StandardLayout (MessageHeader T)] in
theorem foldl_pushBack (q more : List (OwnedMessage T)) : more.foldl TsQueue.pushBack q = q ++ more := by
  induction more generalizing q with
  | nil => simp
  | cons o more ih => simp [ih, TsQueue.pushBack]

theorem eventsOf_append (c : ConnPtr) (events more : List IntakeEvent) :
    eventsOf c (events ++ more) = eventsOf c events ++ eventsOf c more := List.filterMap_append

section Step

variable {start s : Intake T} {events : List IntakeEvent} {nMaxMessages nMessageCount : Nat}

/-- An event of a connection: its message, if it hands one on, is pushed. -/
theorem Tallied.conn (h : Tallied start events s) (c : ConnPtr) (e : ReadEvent) {conn : Connection T}
    {owned : Option (OwnedMessage T)} (hnext : (s.conns c).readNext e = .ok (conn, owned)) (hc : conn.remote = some c)
    (howned : ∀ o ∈ owned.toList, o.remote = some c) :
    Tallied start (events ++ [.conn c e]) { s with
      conns := Function.update s.conns c conn
      qMessagesIn := s.qMessagesIn ++ owned.toList
      pushed := s.pushed ++ owned.toList } := by
  refine ⟨?_, fun d => ?_, fun d => ?_, ?_, h.calls, h.finished⟩
  · simp only
    rw [← List.append_assoc, h.state]
  · simp only
    rw [eventsOf_append, List.filter_append]
    by_cases hd : c = d
    · subst hd
      have hone : eventsOf c [.conn c e] = [e] := by simp [eventsOf]
      have hall : owned.toList.filter (fun o => o.remote = some c) = owned.toList := by
        refine List.filter_eq_self.mpr fun o ho => ?_
        simpa using howned o ho
      rw [hone, hall, Function.update_self]
      exact Connection.feed_concat _ _ _ (h.own c) hnext
    · have hnone : eventsOf d [.conn c e] = [] := by simp [eventsOf, hd]
      have hskip : owned.toList.filter (fun o => o.remote = some d) = [] := by
        refine List.filter_eq_nil_iff.mpr fun o ho => ?_
        simpa [howned o ho] using hd
      rw [hnone, hskip, List.append_nil, List.append_nil, Function.update_of_ne (Ne.symm hd)]
      exact h.own d
  · simp only
    by_cases hd : d = c
    · subst hd
      rw [Function.update_self]
      exact hc
    · rw [Function.update_of_ne hd]
      exact h.self d
  · intro o ho
    rcases List.mem_append.mp ho with ho | ho
    · exact h.owned o ho
    · exact ⟨c, howned o ho⟩

/-- An event that is not one of a connection leaves the connections' side alone. -/
theorem Tallied.other (h : Tallied start events s) {e : IntakeEvent} (he : ∀ c, eventsOf c [e] = []) :
    Tallied start (events ++ [e]) s where
  state := h.state
  own := by
    intro c
    rw [eventsOf_append, he c, List.append_nil]
    exact h.own c
  self := h.self
  owned := h.owned
  calls := h.calls
  finished := h.finished

/-- A message is taken off the queue and handed to `OnMessage`. -/
theorem Tallied.pop (h : Tallied start events s) {msg : OwnedMessage T} {q : List (OwnedMessage T)}
    (hq : s.qMessagesIn = msg :: q) :
    Tallied start events
      { s with qMessagesIn := q, onMessage := s.onMessage ++ [msg], made := s.made ++ [msg] } where
  state := by
    rw [← h.state, hq]
    simp
  own := h.own
  self := h.self
  owned := h.owned
  calls := by simp [h.calls]
  finished := h.finished

/-- A call that returns, having made at most as many calls as its limit. -/
theorem Tallied.finish (h : Tallied start events s) (hle : s.made.length ≤ nMaxMessages) :
    Inv start events (s.finish nMaxMessages) where
  state := h.state
  own := h.own
  self := h.self
  owned := h.owned
  consumer := rfl
  calls := by simp [Intake.finish, h.calls]
  finished := by
    intro u hu
    rcases List.mem_append.mp hu with hu | hu
    · exact h.finished u hu
    · rw [List.mem_singleton.mp hu]
      exact hle

/-- The consumer moves to a place that fits. -/
theorem Tallied.moveTo (h : Tallied start events s) (k : Consumer) (hk : k.Fits s.qMessagesIn s.made) :
    Inv start events { s with consumer := k } :=
  ⟨⟨h.state, h.own, h.self, h.owned, h.calls, h.finished⟩, hk⟩

/-- The loop head, when the counter counts the calls made. -/
theorem Tallied.loopHead (h : Tallied start events s) (hmade : s.made.length = nMessageCount)
    (hle : nMessageCount ≤ nMaxMessages) : Inv start events (s.loopHead nMaxMessages nMessageCount) := by
  unfold Intake.loopHead
  split
  · rename_i hlt
    exact h.moveTo _ ⟨hlt, hmade⟩
  · exact h.finish (by omega)

/-- One event: it returns, and keeps the invariant. -/
theorem Inv.next (h : Inv start events s) {e : IntakeEvent} (he : s.enabled e) :
    ∃ t, s.next e = .ok t ∧ Inv start (events ++ [e]) t := by
  cases e with
  | conn c e =>
    obtain ⟨conn, owned, hnext, hself, howner, hremote⟩ := (s.conns c).readNext_spec e
    have hc : conn.remote = some c := by
      have := h.self c
      unfold Connection.remote at this ⊢
      rw [hself, howner]
      exact this
    have howned : ∀ o ∈ owned.toList, o.remote = some c :=
      fun o ho => (hremote o (Option.mem_toList.mp ho)).trans (h.self c)
    refine ⟨_, ?_, h.toTallied.conn c e hnext hc howned, h.consumer.push _⟩
    simp only [Intake.next, hnext, ok_bind, foldl_pushBack, pure_eq_ok]
  | update n =>
    have hmade : s.made = [] := by
      have hk := h.consumer
      rw [show s.consumer = .outside from he] at hk
      exact hk
    exact ⟨_, rfl, (h.toTallied.other fun _ => rfl).loopHead (by rw [hmade]; rfl) (Nat.zero_le _)⟩
  | consume =>
    have hk := h.consumer
    have h := h.toTallied.other (e := .consume) fun _ => rfl
    unfold Intake.next
    cases hcons : s.consumer with
    | outside => exact absurd hcons he
    | testing n k =>
      rw [hcons] at hk
      obtain ⟨hlt, hmade⟩ := hk
      refine ⟨_, rfl, ?_⟩
      unfold testQueue
      split
      · rename_i hne
        exact h.moveTo _ ⟨hlt, hmade, by simpa [TsQueue.empty] using hne⟩
      · exact h.finish (by omega)
    | popping n k =>
      rw [hcons] at hk
      obtain ⟨hlt, hmade, hne⟩ := hk
      obtain ⟨msg, q, hq⟩ := List.exists_cons_of_ne_nil hne
      exact ⟨_, bind_eq_ok.mpr ⟨_, TsQueue.popFront_eq_ok.mpr hq, rfl⟩, (h.pop hq).loopHead (by simp [hmade]) hlt⟩

end Step

/-- The run lemma: the invariant holds after every run, and no event faults. -/
theorem inv_of_run {start s : Intake T} {events : List IntakeEvent} (h0 : Inv start [] start)
    (h : Run machine start events s) : Inv start events s ∧ Safe machine s :=
  h.safe (Inv start) h0 fun _ _ _ hP he => hP.next he

end Intake

end Netzwerk
