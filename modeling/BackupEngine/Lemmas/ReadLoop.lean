import BackupEngine.Netzwerk.Connection

/-!
# What the reading half makes of the bytes of messages

The temporary message is read into again and again. Its header is overwritten by every message, its body only by a message
that has one: `received tmp m` is what the temporary message is after `m` was read into `tmp`.
-/

namespace Netzwerk

open Cpp Transition

/-- The message handed on when `m` is read into `tmp`. -/
def received {T : Type} (tmp m : Message T) : Message T :=
  { header := m.header, body := if m.body = [] then tmp.body else m.body }

/-- The messages handed on when a sequence of messages is read, the first of them into `tmp`. -/
def receivedAll {T : Type} : Message T → List (Message T) → List (Message T)
  | _, [] => []
  | tmp, m :: ms => received tmp m :: receivedAll (received tmp m) ms

/-- A message is handed on as it was sent exactly when it has a body or the temporary message had none. -/
theorem received_eq_iff {T : Type} {tmp m : Message T} : received tmp m = m ↔ (m.body = [] → tmp.body = []) := by
  obtain ⟨header, body⟩ := m
  unfold received
  by_cases hbody : body = []
  · simp [hbody]
  · simp [hbody]

/-- All messages are handed on as they were sent exactly when none without a body comes after one with a body. -/
theorem receivedAll_eq_iff {T : Type} {tmp : Message T} {msgs : List (Message T)} :
    receivedAll tmp msgs = msgs ↔ (tmp :: msgs).Pairwise fun a b => b.body = [] → a.body = [] := by
  induction msgs generalizing tmp with
  | nil => simp [receivedAll]
  | cons m ms ih =>
    rw [receivedAll, List.cons.injEq, List.pairwise_cons]
    constructor
    · rintro ⟨hm, hms⟩
      rw [hm] at hms
      have hrest := ih.mp hms
      refine ⟨?_, hrest⟩
      intro b hb hempty
      rcases List.mem_cons.mp hb with rfl | hb
      · exact received_eq_iff.mp hm hempty
      · exact received_eq_iff.mp hm ((List.pairwise_cons.mp hrest).1 b hb hempty)
    · rintro ⟨htmp, hrest⟩
      have hm : received tmp m = m := received_eq_iff.mpr (htmp m List.mem_cons_self)
      exact ⟨hm, by rw [hm]; exact ih.mpr hrest⟩

variable {T : Type} [StandardLayout (MessageHeader T)]

namespace Connection

/-- A connection that waits for the next header, with this temporary message. -/
def waiting (c : Connection T) (tmp : Message T) : Connection T :=
  { c with msgTemporaryIn := tmp, reads := some (.header, sizeof (MessageHeader T)) }

/-- The header of a message without a body: the message is handed on at once. -/
theorem readDone_header_empty (c : Connection T) (tmp m : Message T) (hm : m.Sized) (hbody : m.body = []) :
    (c.waiting tmp).readDone .header (toBytes m.header) =
      .ok (c.waiting (received tmp m), some { remote := c.remote, msg := received tmp m }) := by
  have hsize : m.header.size = 0 := by
    apply UInt32.toNat_inj.mp
    rw [hm, hbody]
    rfl
  simp [readDone, headerRead, hsize, waiting, received, hbody, addToIncomingMessageQueue, readHeader]
  rfl

/-- The header of a message with a body: the body of the temporary message is made as long, and is read next. -/
theorem readDone_header_full (c : Connection T) (tmp m : Message T) (hm : m.Sized) (hbody : m.body ≠ []) :
    ∃ body, (c.waiting tmp).readDone .header (toBytes m.header) =
      .ok ({ c.waiting { header := m.header, body := body } with reads := some (.body, m.body.length) }, none) := by
  have hpos : 0 < m.header.size.toNat := hm ▸ List.length_pos_of_ne_nil hbody
  have hlt : m.header.size.toNat ≤ maxSize := Nat.le_trans (Nat.le_of_lt m.header.size.toNat_lt) (by decide)
  have hsize : m.header.size > 0 := UInt32.lt_iff_toNat_lt.mpr hpos
  have hresize : resize tmp.body m.header.size.toNat 0 = .ok (resized tmp.body m.header.size.toNat 0) :=
    resize_eq_ok.mpr ⟨hlt, rfl⟩
  refine ⟨resized tmp.body m.header.size.toNat 0, ?_⟩
  simp [readDone, headerRead, waiting, hsize, hresize, readBody]
  exact hm

/-- The body of a message: the message is handed on. -/
theorem readDone_body (c : Connection T) (m : Message T) (body : List UInt8) (hbody : m.body ≠ []) (tmp : Message T) :
    ({ c.waiting { header := m.header, body := body } with reads := some (.body, m.body.length) } :
        Connection T).readDone .body m.body =
      .ok (c.waiting (received tmp m), some { remote := c.remote, msg := received tmp m }) := by
  simp [readDone, bodyRead, waiting, received, hbody, addToIncomingMessageQueue, readHeader]
  rfl

end Connection

namespace Inbox

open Connection

/-- One message is read: the peer hands it on as `received` says and waits for the next header. -/
theorem read_message (c : Connection T) (tmp m : Message T) (hm : m.Sized) (rest : List UInt8)
    (queued : List (OwnedMessage T)) :
    ∃ reads, Run reader ⟨c.waiting tmp, m.encode ++ rest, queued⟩ reads
      ⟨c.waiting (received tmp m), rest, queued ++ [{ remote := c.remote, msg := received tmp m }]⟩ := by
  have hlen : (toBytes m.header).length = sizeof (MessageHeader T) := StandardLayout.length_toBytes _
  have hen : (⟨c.waiting tmp, m.encode ++ rest, queued⟩ : Inbox T).readEnabled := by
    simp [readEnabled, waiting, Message.encode]
  have htake : (m.encode ++ rest).take (sizeof (MessageHeader T)) = toBytes m.header := by
    rw [Message.encode, List.append_assoc, ← hlen, List.take_left]
  have hdrop : (m.encode ++ rest).drop (sizeof (MessageHeader T)) = m.body ++ rest := by
    rw [Message.encode, List.append_assoc, ← hlen, List.drop_left]
  by_cases hbody : m.body = []
  · have hnext : (⟨c.waiting tmp, m.encode ++ rest, queued⟩ : Inbox T).readNext =
        .ok ⟨c.waiting (received tmp m), rest, queued ++ [{ remote := c.remote, msg := received tmp m }]⟩ := by
      unfold readNext
      simp only [show (c.waiting tmp).reads = some (.header, sizeof (MessageHeader T)) from rfl, htake, hdrop,
        readDone_header_empty c tmp m hm hbody, ok_bind, pure_eq_ok, hbody, List.nil_append, Option.toList_some]
    exact ⟨[()], .single ⟨hen, hnext⟩⟩
  · obtain ⟨body, hheader⟩ := readDone_header_full c tmp m hm hbody
    generalize hmid : ({ c.waiting { header := m.header, body := body } with
      reads := some (.body, m.body.length) } : Connection T) = mid at hheader
    have hreads : mid.reads = some (.body, m.body.length) := by rw [← hmid]
    have hnext : (⟨c.waiting tmp, m.encode ++ rest, queued⟩ : Inbox T).readNext = .ok ⟨mid, m.body ++ rest, queued⟩ := by
      unfold readNext
      simp only [show (c.waiting tmp).reads = some (.header, sizeof (MessageHeader T)) from rfl, htake, hdrop, hheader,
        ok_bind, pure_eq_ok, Option.toList_none, List.append_nil]
    have hen' : (⟨mid, m.body ++ rest, queued⟩ : Inbox T).readEnabled := by simp [readEnabled, hreads]
    have hdone := readDone_body c m body hbody tmp
    rw [hmid] at hdone
    have hnext' : (⟨mid, m.body ++ rest, queued⟩ : Inbox T).readNext =
        .ok ⟨c.waiting (received tmp m), rest, queued ++ [{ remote := c.remote, msg := received tmp m }]⟩ := by
      unfold readNext
      simp only [hreads, List.take_left, List.drop_left, hdone, ok_bind, pure_eq_ok, Option.toList_some]
    exact ⟨[(), ()], .cons ⟨hen, hnext⟩ (.single ⟨hen', hnext'⟩)⟩

/-- All messages are read, one after the other. -/
theorem read_all (c : Connection T) (msgs : List (Message T)) (hsized : ∀ m ∈ msgs, m.Sized) :
    ∀ (tmp : Message T) (queued : List (OwnedMessage T)),
      ∃ reads tmp', Run reader ⟨c.waiting tmp, Message.encodeAll msgs, queued⟩ reads
        ⟨c.waiting tmp', [], queued ++ (receivedAll tmp msgs).map fun m => { remote := c.remote, msg := m }⟩ := by
  induction msgs with
  | nil =>
    intro tmp queued
    exact ⟨[], tmp, by simpa [receivedAll] using Run.nil⟩
  | cons m ms ih =>
    intro tmp queued
    obtain ⟨reads, hread⟩ := read_message c tmp m (hsized m List.mem_cons_self) (Message.encodeAll ms) queued
    obtain ⟨reads', tmp', hrest⟩ := ih (fun m hm => hsized m (List.mem_cons_of_mem _ hm)) (received tmp m)
      (queued ++ [{ remote := c.remote, msg := received tmp m }])
    refine ⟨reads ++ reads', tmp', ?_⟩
    simpa [receivedAll] using hread.append hrest

/-- A connection that waits for a header has nothing to do when no byte has arrived. -/
theorem quiescent_waiting (c : Connection T) (tmp : Message T) (queued : List (OwnedMessage T)) :
    reader.Quiescent (⟨c.waiting tmp, [], queued⟩ : Inbox T) := by
  intro _ hen
  have hpos : 0 < sizeof (MessageHeader T) := StandardLayout.sizeof_pos
  have hle : sizeof (MessageHeader T) ≤ 0 := hen
  omega

end Inbox

end Netzwerk
